import OpenFlame.Download.AggregateInv
import OpenFlame.Download.Control

/-!
# Creating a batch

`createItem`    one input record, its source and its job, or a duplicate of a live job
`createBatch`   the batch row with provisional counters, the items, the final counters

The final counters come from a formula of their own (`finalStatus`), not from
`_refresh_batch_locked`; `createBatch_chain` shows that the two agree.
-/

set_option linter.all false

namespace OpenFlame.Download
open Guard

/-- `normalization.NormalizedURL` -/
structure NormalizedURL where
  canonical_url : String
  platform : Platform
  source_type : SourceType
  source_id : Option String

/-- the statuses `BatchService.create_batch` prepares -/
inductive ItemStatus where
  | queued | failed | duplicate
  deriving DecidableEq, Repr

def ItemStatus.input : ItemStatus → InputStatus
  | .queued => .queued
  | .failed => .failed
  | .duplicate => .duplicate

/-- one entry of `inputs` -/
structure NewInput where
  ordinal : Nat
  status : ItemStatus
  error_code : Option ErrorCode
  error_message : Option String
  duplicate_of_ordinal : Option Nat
  normalized : Option NormalizedURL

structure BatchRequest where
  inputs : List NewInput
  route_policy_version : String
  enable_x_graph_v2 : Bool
  credential_mode : CredentialMode
  credential_defaults : Option CredentialDefaults
  valid_before : Bool
  valid_after : Bool
  now : Clock
  later : Clock
  batch_id : Id
  /-- the identifiers drawn for the item of an ordinal -/
  input_id : Nat → Id
  source_item_id : Nat → Id
  job_id : Nat → Id

def BatchRequest.now_text (req : BatchRequest) : Time := utcText req.now

def BatchRequest.count (req : BatchRequest) (s : ItemStatus) : Nat :=
  req.inputs.countP (fun item => item.status == s)

/-- the variables of the loop; `relabeled` is how far `final_queued_count` has fallen -/
structure Creating where
  db : DB
  source_cache : List (String × Id)
  ordinals : List Nat
  relabeled : Nat

/-- the row of `input_records` an item starts as -/
def BatchRequest.record (req : BatchRequest) (ordinals : List Nat) (item : NewInput) : InputRecord where
  id := req.input_id item.ordinal
  batch_id := req.batch_id
  canonical_url := item.normalized.map NormalizedURL.canonical_url
  platform := item.normalized.map NormalizedURL.platform
  source_type := item.normalized.map NormalizedURL.source_type
  source_id := item.normalized.bind NormalizedURL.source_id
  ordinal := item.ordinal
  expected_item_count := none
  status := item.status.input
  error_code := item.error_code
  error_message := item.error_message
  duplicate_of_input_record_id := item.duplicate_of_ordinal.bind (fun d =>
    if d ∈ ordinals ++ [item.ordinal] then some (req.input_id d) else none)
  active_discovery_id := none
  active_run_generation := 1
  cancel_requested_at := none
  created_at := req.now_text

/-- the stored source of a URL -/
def DB.existingSource (db : DB) (url : NormalizedURL) : Option SourceItem :=
  match url.source_id.filter (· ≠ "") with
  | some source_id => db.sources.find (fun s => s.platform == url.platform &&
      s.source_type == url.source_type && s.source_id == some source_id)
  | none => db.sources.find (fun s => s.canonical_url == url.canonical_url)

/-- `source_item_id`, from the cache, the store or a new row -/
def sourceFor (st : Creating) (url : NormalizedURL) (new_id : Id) : Txn (Creating × Id) :=
  match st.source_cache.lookup url.canonical_url with
  | some id => return (st, id)
  | none =>
    match st.db.existingSource url with
    | some s => return ({ st with source_cache := (url.canonical_url, s.id) :: st.source_cache }, s.id)
    | none => do
      require (st.db.sources.any (fun s => s.canonical_url == url.canonical_url ||
        (s.platform == url.platform && s.source_type == url.source_type && s.source_id.isSome &&
          s.source_id == url.source_id)) = false) .integrityError
      let sources ← fetch (st.db.sources.insert
        { id := new_id
          platform := url.platform
          source_type := url.source_type
          source_id := url.source_id
          canonical_url := url.canonical_url }) .integrityError
      return ({ st with
        db := { st.db with sources }
        source_cache := (url.canonical_url, new_id) :: st.source_cache }, new_id)

/-- `job_kind` -/
def BatchRequest.jobKind (req : BatchRequest) (url : NormalizedURL) : JobKind :=
  if req.enable_x_graph_v2 && url.platform == .x && url.source_type == .xPost then .discover else .download

/-- `existing_live_job` -/
def DB.liveJobOf (db : DB) (job_kind : JobKind) (source_item_id : Id) : Option Job :=
  if job_kind = .download then
    Table.leastBy Job.createdBefore
      (db.jobs.filter (fun j => j.source_item_id == source_item_id && j.status.liveOrReady))
  else none

/-- the row of a new job -/
def BatchRequest.job (req : BatchRequest) (item : NewInput) (url : NormalizedURL) (source_item_id : Id)
    (profile_id : Option Id) : Job where
  id := req.job_id item.ordinal
  batch_id := req.batch_id
  input_record_id := req.input_id item.ordinal
  source_item_id := source_item_id
  job_kind := req.jobKind url
  status := .queued
  progress := 0
  final_error_code := none
  route_policy_version := req.route_policy_version
  credential_profile_id := profile_id
  lease_owner := none
  lease_token := none
  heartbeat_at := none
  lease_expires_at := none
  available_at := some req.now_text
  cancel_requested_at := none
  attempt_count := 0
  run_generation := 1
  generation_attempt_count := 0
  reused_from_job_id := none
  created_at := req.now_text
  updated_at := req.now_text

/-- `profile_id` of a new job -/
def BatchRequest.profile (req : BatchRequest) (db : DB) (platform : Platform) : Txn (Option Id) :=
  match req.credential_mode with
  | .useDefault => resolveDefaultProfileLocked db req.credential_defaults platform req.now
  | .anonymous => return none

/-- `INSERT INTO input_records ..` -/
def insertInput (req : BatchRequest) (st : Creating) (item : NewInput) : Txn Creating := do
  require (st.db.inputs.any (fun i => i.batch_id == req.batch_id && i.ordinal == item.ordinal) = false)
    .integrityError
  let inputs ← fetch (st.db.inputs.insert (req.record st.ordinals item)) .integrityError
  return { st with
    db := { st.db with inputs }
    ordinals := st.ordinals ++ [item.ordinal] }

/-- the job of a queued item whose source is known, unless a live job does its work already -/
def insertJob (req : BatchRequest) (st : Creating) (item : NewInput) (url : NormalizedURL)
    (source_item_id : Id) : Txn Creating :=
  match st.db.liveJobOf (req.jobKind url) source_item_id with
  | some existing =>
    return { st with
      db := { st.db with
        inputs := st.db.inputs.update (fun i => i.id == req.input_id item.ordinal) (fun i =>
          { i with
            status := .duplicate
            duplicate_of_input_record_id := some existing.input_record_id }) }
      relabeled := st.relabeled + 1 }
  | none => do
    let profile_id ← req.profile st.db url.platform
    let jobs ← fetch (st.db.jobs.insert (req.job item url source_item_id profile_id)) .integrityError
    return { st with db := { st.db with jobs } }

/-- one iteration of the loop of `create_batch` -/
def createItem (req : BatchRequest) (st : Creating) (item : NewInput) : Txn Creating := do
  let st ← insertInput req st item
  match item.status, item.normalized with
  | .queued, some url =>
    let (st, source_item_id) ← sourceFor st url (req.source_item_id item.ordinal)
    insertJob req st item url source_item_id
  | _, _ => return st

/-- the batch row before the items are in -/
def BatchRequest.batch (req : BatchRequest) : Batch where
  id := req.batch_id
  status := if req.count .queued ≠ 0 then .queued else .failed
  total_count := req.inputs.length
  queued_count := req.count .queued
  ready_count := 0
  failed_count := req.count .failed
  duplicate_count := req.count .duplicate
  canceled_count := 0
  partial_success_count := 0
  updated_at := req.now_text

/-- `final_status` -/
def finalStatus (final_queued_count failed_count : Nat) : BatchStatus :=
  if final_queued_count ≠ 0 then .queued
  else if failed_count ≠ 0 then .failed
  else .duplicate

/-- the columns the last `UPDATE` sets; the others are as the batch row began -/
def BatchRequest.finished (req : BatchRequest) (relabeled : Nat) (b : Batch) : Batch :=
  { b with
    status := finalStatus (req.count .queued - relabeled) (req.count .failed)
    queued_count := req.count .queued - relabeled
    duplicate_count := req.count .duplicate + relabeled
    updated_at := utcText req.later }

@[simp] theorem BatchRequest.finished_id (req : BatchRequest) (n : Nat) (b : Batch) :
    (req.finished n b).id = b.id := rfl

/-- `revalidate_credential_defaults` when the mode asks for the defaults -/
def BatchRequest.revalidate (req : BatchRequest) (valid : Bool) : Txn Unit :=
  if req.credential_mode = .useDefault then
    revalidateCredentialDefaults req.credential_defaults valid
  else return ()

/-- `create_batch` -/
def createBatch (db : DB) (req : BatchRequest) : Txn DB := do
  req.revalidate req.valid_before
  let batches ← fetch (db.batches.insert req.batch) .integrityError
  let st ← thread (createItem req) ⟨{ db with batches }, [], [], 0⟩ req.inputs
  let db := { st.db with
    batches := st.db.batches.update (fun b => b.id == req.batch_id) (req.finished st.relabeled)
      (req.finished_id st.relabeled) }
  req.revalidate req.valid_after
  return db

/-! ## what it does -/

/-- an input whose jobs are all alive -/
theorem liveInput_ok {db : DB} {i : InputRecord} (hdisc : i.active_discovery_id = none)
    (hst : i.status = .queued) (hlive : ∀ j ∈ db.jobs, j.input_record_id = i.id → j.status.isLive = true) :
    db.InputOK i := by
  rintro ⟨j, hj, hin⟩
  rw [hst, DB.scopedJobs, hdisc]
  dsimp only
  split
  · next d hd =>
    obtain ⟨hd, hp⟩ := Table.mem_filter.mp (Table.leastBy_mem hd)
    simp only [Bool.and_eq_true, beq_iff_eq] at hp
    exact aggregateInputStatus_live (List.mem_singleton.mpr rfl) (hlive d hd hp.1.1)
  · exact aggregateInputStatus_live (Table.mem_filter.mpr ⟨hj, by simpa using hin⟩) (hlive j hj hin)

def itemCount (items : List NewInput) (s : ItemStatus) : Nat := items.countP (fun item => item.status == s)

def rowCount (rows : List InputRecord) (s : InputStatus) : Nat := rows.countP (fun i => i.status == s)

/-- the input rows that `items` became, `relabeled` of them as duplicates -/
structure Recorded (b : Id) (items : List NewInput) (rows : List InputRecord) (relabeled : Nat) : Prop where
  batch : ∀ r ∈ rows, r.batch_id = b
  prepared : ∀ r ∈ rows, r.status = .queued ∨ r.status = .failed ∨ r.status = .duplicate
  queued : rowCount rows .queued + relabeled = itemCount items .queued
  failed : rowCount rows .failed = itemCount items .failed
  duplicate : rowCount rows .duplicate = itemCount items .duplicate + relabeled

theorem Recorded.append {b : Id} {xs ys : List NewInput} {rs qs : List InputRecord} {m n : Nat}
    (h : Recorded b xs rs m) (h' : Recorded b ys qs n) : Recorded b (xs ++ ys) (rs ++ qs) (m + n) := by
  have hsum : ∀ s, rowCount (rs ++ qs) s = rowCount rs s + rowCount qs s := fun s => List.countP_append
  have hsum' : ∀ s, itemCount (xs ++ ys) s = itemCount xs s + itemCount ys s := fun s => List.countP_append
  constructor
  case batch => exact fun r hr => (List.mem_append.mp hr).elim (h.batch r) (h'.batch r)
  case prepared => exact fun r hr => (List.mem_append.mp hr).elim (h.prepared r) (h'.prepared r)
  case queued =>
    have := h.queued
    have := h'.queued
    rw [hsum, hsum']
    omega
  case failed => rw [hsum, hsum', h.failed, h'.failed]
  case duplicate =>
    have := h.duplicate
    have := h'.duplicate
    rw [hsum, hsum']
    omega

/-- an item that kept its status -/
theorem Recorded.kept {b : Id} {item : NewInput} {r : InputRecord} (hb : r.batch_id = b)
    (hs : r.status = item.status.input) : Recorded b [item] [r] 0 := by
  cases hi : item.status <;> rw [hi] at hs <;>
    exact ⟨by simpa using hb, by simp [hs, ItemStatus.input], by simp [rowCount, itemCount, hs, hi, ItemStatus.input],
      by simp [rowCount, itemCount, hs, hi, ItemStatus.input],
      by simp [rowCount, itemCount, hs, hi, ItemStatus.input]⟩

/-- a queued item whose work a live job does already -/
theorem Recorded.relabel {b : Id} {item : NewInput} {r : InputRecord} (hb : r.batch_id = b)
    (hi : item.status = .queued) (hs : r.status = .duplicate) : Recorded b [item] [r] 1 :=
  ⟨by simpa using hb, by simp [hs], by simp [rowCount, itemCount, hs, hi],
    by simp [rowCount, itemCount, hs, hi], by simp [rowCount, itemCount, hs, hi]⟩

/-- the cached sources exist -/
def Creating.Cached (st : Creating) : Prop := ∀ x ∈ st.source_cache, ∃ s ∈ st.db.sources, s.id = x.2

section
variable (may : Id → Id → Prop) {req : BatchRequest} {item : NewInput} {st st' : Creating}

theorem mem_of_lookup {l : List (String × Id)} {u : String} {c : Id} (h : l.lookup u = some c) :
    ∃ x ∈ l, x.2 = c := by
  induction l with
  | nil => cases h
  | cons x xs ih =>
    rw [List.lookup_cons] at h
    split at h
    · cases h
      exact ⟨x, List.mem_cons_self .., rfl⟩
    · obtain ⟨y, hy, hc⟩ := ih h
      exact ⟨y, List.mem_cons_of_mem _ hy, hc⟩

theorem DB.existingSource_mem {db : DB} {url : NormalizedURL} {s : SourceItem}
    (h : db.existingSource url = some s) : s ∈ db.sources := by
  unfold DB.existingSource at h
  split at h <;> exact (Table.find_some h).1

/-- a source is found or inserted; nothing else changes -/
theorem sourceFor_spec {url : NormalizedURL} {n c : Id} (hcache : st.Cached)
    (h : sourceFor st url n = .ok (st', c)) :
    (∃ sources, st'.db = { st.db with sources } ∧
      ∀ X B, Chain may ⟨st.db, X, B⟩ ⟨st'.db, X, B⟩) ∧
      st'.relabeled = st.relabeled ∧ st'.Cached ∧ ∃ s ∈ st'.db.sources, s.id = c := by
  unfold sourceFor at h
  split at h
  · next id hlookup =>
    cases h
    obtain ⟨x, hx, rfl⟩ := mem_of_lookup hlookup
    exact ⟨⟨_, rfl, fun _ _ => .refl⟩, rfl, hcache, hcache x hx⟩
  · split at h
    · next s hs =>
      cases h
      have hmem := DB.existingSource_mem hs
      refine ⟨⟨_, rfl, fun _ _ => .refl⟩, rfl, fun x hx => ?_, s, hmem, rfl⟩
      rcases List.mem_cons.mp hx with rfl | hx
      · exact ⟨s, hmem, rfl⟩
      · exact hcache x hx
    · simp only [bind_eq_ok, require_eq_ok, fetch_eq_ok, pure_eq_ok, Prod.mk.injEq] at h
      obtain ⟨-, -, sources, hins, rfl, rfl⟩ := h
      refine ⟨⟨sources, rfl, fun _ _ => .single (Move.source _ hins)⟩, rfl, fun x hx => ?_,
        _, (Table.mem_insert hins).mpr (.inr rfl), rfl⟩
      rcases List.mem_cons.mp hx with rfl | hx
      · exact ⟨_, (Table.mem_insert hins).mpr (.inr rfl), rfl⟩
      · obtain ⟨s, hs, hid⟩ := hcache x hx
        exact ⟨s, (Table.mem_insert hins).mpr (.inl hs), hid⟩

/-- the loop so far: `rows` were appended to the inputs, and only the new batch is pending -/
structure Creates (req : BatchRequest) (items : List NewInput) (st st' : Creating) : Prop where
  chain : Chain may ⟨st.db, ∅, {req.batch_id}⟩ ⟨st'.db, ∅, {req.batch_id}⟩
  batches : st'.db.batches = st.db.batches
  cached : st'.Cached
  rows : ∃ rows n, st'.db.inputs.rows = st.db.inputs.rows ++ rows ∧
    st'.relabeled = st.relabeled + n ∧ Recorded req.batch_id items rows n

theorem insertInput_spec (hb : ∃ b ∈ st.db.batches, b.id = req.batch_id)
    (h : insertInput req st item = .ok st') :
    ∃ inputs, st.db.inputs.insert (req.record st.ordinals item) = some inputs ∧
      st'.db = { st.db with inputs } ∧ st'.source_cache = st.source_cache ∧
      st'.relabeled = st.relabeled ∧ Chain may ⟨st.db, ∅, {req.batch_id}⟩ ⟨st'.db, ∅, {req.batch_id}⟩ := by
  simp only [insertInput, bind_eq_ok, require_eq_ok, fetch_eq_ok, pure_eq_ok] at h
  obtain ⟨-, -, inputs, hins, rfl⟩ := h
  refine ⟨inputs, hins, rfl, rfl, rfl, ?_⟩
  have hmove : Move may ⟨st.db, ∅, {req.batch_id}⟩
      ⟨{ st.db with inputs }, ∅, insert req.batch_id {req.batch_id}⟩ :=
    Move.newInput (req.record st.ordinals item) hins hb
  rw [Set.insert_eq_of_mem (Set.mem_singleton _)] at hmove
  exact .single hmove

/-- a move that leaves input `k` stale, settled at once -/
theorem settled_chain {k b : Id} {db db' : DB} {B : Set Id} (h : Move may ⟨db, ∅, {b}⟩ ⟨db', insert k ∅, B⟩)
    (hB : B = {b}) (hok : ∀ i ∈ db'.inputs, i.id = k → db'.InputOK i) :
    Chain may ⟨db, ∅, {b}⟩ ⟨db', ∅, {b}⟩ := by
  have hsettle := Relation.ReflTransGen.tail (.single h) (Move.settleInput k hok)
  rw [Set.sdiff_eq_empty.mpr (Set.insert_subset (Set.mem_singleton k) (Set.empty_subset _)), hB] at hsettle
  exact hsettle

/-- the job of the item, or its relabeling, right after its row `i` was inserted -/
theorem insertJob_spec {i : InputRecord} {url : NormalizedURL} {c : Id} (hi : i ∈ st.db.inputs)
    (hid : i.id = req.input_id item.ordinal) (hbatch : i.batch_id = req.batch_id)
    (hdisc : i.active_discovery_id = none) (hcancel : i.cancel_requested_at = none)
    (hst : i.status = .queued) (hnojob : ∀ j ∈ st.db.jobs, j.input_record_id ≠ i.id)
    (hsrc : ∃ s ∈ st.db.sources, s.id = c) (h : insertJob req st item url c = .ok st') :
    Chain may ⟨st.db, ∅, {req.batch_id}⟩ ⟨st'.db, ∅, {req.batch_id}⟩ ∧
      st'.db.batches = st.db.batches ∧ st'.db.sources = st.db.sources ∧
      st'.source_cache = st.source_cache ∧
      (st'.db.inputs = st.db.inputs ∧ st'.relabeled = st.relabeled ∨
        ∃ e : Id, st'.relabeled = st.relabeled + 1 ∧
          st'.db.inputs = st.db.inputs.update (fun r => r.id == i.id) (fun r =>
            { r with
              status := .duplicate
              duplicate_of_input_record_id := some e })) := by
  unfold insertJob at h
  split at h
  · next existing hlive =>
    cases h
    rw [← hid]
    refine ⟨?_, rfl, rfl, rfl, .inr ⟨existing.input_record_id, rfl, rfl⟩⟩
    refine settled_chain may (Move.setInput i hi (Table.Evolves.update (fun r hr => ?_))) ?_ ?_
    · by_cases hrid : r.id = i.id
      · rw [Table.upd_eq hrid]
        exact .inr ⟨Table.eq_of_key hr hi hrid, ⟨rfl, rfl⟩, fun h => h⟩
      · exact .inl (Table.upd_ne hrid)
    · rw [hbatch, Set.insert_eq_of_mem (Set.mem_singleton _)]
    · rintro r hr hrid ⟨j, hj, hin⟩
      exact absurd (hin.trans hrid) (hnojob j hj)
  · simp only [bind_eq_ok, fetch_eq_ok, pure_eq_ok] at h
    obtain ⟨profile, -, jobs, hins, rfl⟩ := h
    refine ⟨?_, rfl, rfl, rfl, .inl ⟨rfl, rfl⟩⟩
    refine settled_chain may (Move.newJob (req.job item url c profile) i hins (.inl rfl) rfl rfl rfl hsrc hi hid
      hcancel) rfl (fun r hr hrid => ?_)
    have hrid : r.id = i.id := hrid.trans hid.symm
    obtain rfl := Table.eq_of_key hr hi hrid
    refine liveInput_ok hdisc hst (fun j hj hin => ?_)
    rcases (Table.mem_insert hins).mp hj with hj | rfl
    · exact absurd hin (hnojob j hj)
    · rfl

/-- one item, in a store whose jobs all belong to inputs -/
theorem createItem_spec (hagg : AggInv ⟨st.db, ∅, {req.batch_id}⟩) (hcache : st.Cached)
    (hb : ∃ b ∈ st.db.batches, b.id = req.batch_id) (h : createItem req st item = .ok st') :
    Creates may req [item] st st' := by
  obtain ⟨st₁, hinsert, h⟩ := bind_eq_ok.mp h
  obtain ⟨inputs, hins, hdb₁, hcache₁, hrel₁, hchain₁⟩ := insertInput_spec may hb hinsert
  have hkept : Creates may req [item] st st₁ := {
    chain := hchain₁
    batches := by rw [hdb₁]
    cached := by
      intro x hx
      rw [hdb₁]
      exact hcache x (hcache₁ ▸ hx)
    rows := ⟨[req.record st.ordinals item], 0, by rw [hdb₁]; exact Table.insert_rows hins,
      by rw [hrel₁, Nat.add_zero], Recorded.kept rfl rfl⟩ }
  split at h
  · next url hqueued hnorm =>
    obtain ⟨⟨st₂, c⟩, hsource, hjob⟩ := bind_eq_ok.mp h
    obtain ⟨⟨sources, hdb₂, hchain₂⟩, hrel₂, hcached₂, hsrc⟩ := sourceFor_spec may hkept.cached hsource
    have hi : req.record st.ordinals item ∈ st₂.db.inputs := by
      rw [hdb₂, hdb₁]
      exact (Table.mem_insert hins).mpr (.inr rfl)
    have hnojob : ∀ j ∈ st₂.db.jobs, j.input_record_id ≠ (req.record st.ordinals item).id := by
      intro j hj hin
      rw [hdb₂, hdb₁] at hj
      obtain ⟨i, hi, hid⟩ := hagg.owned j hj
      exact Table.insert_fresh hins i hi (hid.trans hin)
    obtain ⟨hchain₃, hbatches₃, hsources₃, hcache₃, hrows₃⟩ :=
      insertJob_spec may hi rfl rfl rfl rfl (by rw [BatchRequest.record, hqueued]; rfl) hnojob hsrc hjob
    constructor
    case chain => exact (hchain₁.trans (hchain₂ _ _)).trans hchain₃
    case batches => rw [hbatches₃, hdb₂, hdb₁]
    case cached =>
      intro x hx
      rw [hsources₃]
      exact hcached₂ x (hcache₃ ▸ hx)
    case rows =>
      have hinputs : st₂.db.inputs = inputs := by rw [hdb₂, hdb₁]
      rcases hrows₃ with ⟨hsame, hrel₃⟩ | ⟨e, hrel₃, hupd⟩
      · refine ⟨[req.record st.ordinals item], 0, ?_, by rw [hrel₃, hrel₂, hrel₁, Nat.add_zero],
          Recorded.kept rfl rfl⟩
        rw [hsame, hinputs]
        exact Table.insert_rows hins
      · have hrows := hupd ▸ hinputs ▸ Table.insert_update_rows hins (fun s => beq_iff_eq)
        exact ⟨_, 1, hrows, by rw [hrel₃, hrel₂, hrel₁], Recorded.relabel rfl hqueued rfl⟩
  · cases h
    exact hkept

/-- the whole loop -/
theorem createItems_spec {items : List NewInput} : ∀ {st st' : Creating},
    AggInv ⟨st.db, ∅, {req.batch_id}⟩ → st.Cached → (∃ b ∈ st.db.batches, b.id = req.batch_id) →
      thread (createItem req) st items = .ok st' → Creates may req items st st' := by
  induction items with
  | nil =>
    intro st st' _ hcache _ h
    cases h
    exact ⟨.refl, rfl, hcache, [], 0, by simp, rfl, by simp, by simp, rfl, rfl, rfl⟩
  | cons item items ih =>
    intro st st' hagg hcache hb h
    cases hx : createItem req st item with
    | error e => simp [thread, hx] at h
    | ok st₁ =>
      simp only [thread, hx] at h
      have h₁ := createItem_spec may hagg hcache hb hx
      have h₂ := ih (hagg.chain h₁.chain) h₁.cached (by rw [h₁.batches]; exact hb) h
      obtain ⟨rows₁, n₁, hrows₁, hrel₁, hrec₁⟩ := h₁.rows
      obtain ⟨rows₂, n₂, hrows₂, hrel₂, hrec₂⟩ := h₂.rows
      refine ⟨h₁.chain.trans h₂.chain, h₂.batches.trans h₁.batches, h₂.cached, rows₁ ++ rows₂, n₁ + n₂, ?_,
        ?_, hrec₁.append hrec₂⟩
      · rw [hrows₂, hrows₁, List.append_assoc]
      · rw [hrel₂, hrel₁, Nat.add_assoc]

end

/-! ## the final counters -/

theorem Recorded.none_else {b : Id} {items : List NewInput} {rows : List InputRecord} {n : Nat}
    (h : Recorded b items rows n) {s : InputStatus} (hs : s ≠ .queued ∧ s ≠ .failed ∧ s ≠ .duplicate) :
    rowCount rows s = 0 := by
  rw [rowCount, List.countP_eq_zero]
  intro r hr
  rw [beq_iff_eq]
  rintro rfl
  rcases h.prepared r hr with hq | hf | hd
  · exact hs.1 hq
  · exact hs.2.1 hf
  · exact hs.2.2 hd

theorem rowCount_total {rows : List InputRecord}
    (h : ∀ r ∈ rows, r.status = .queued ∨ r.status = .failed ∨ r.status = .duplicate) :
    rows.length = rowCount rows .queued + rowCount rows .failed + rowCount rows .duplicate := by
  induction rows with
  | nil => rfl
  | cons r rows ih =>
    have hrest := ih (fun x hx => h x (List.mem_cons_of_mem _ hx))
    simp only [rowCount, List.countP_cons, List.length_cons] at hrest ⊢
    rcases h r (List.mem_cons_self ..) with hr | hr | hr <;> simp [hr] <;> omega

/-- the counts of a batch whose inputs are exactly `rows` -/
theorem inputCount_of_rows {db : DB} {old rows : List InputRecord} {b : Id}
    (hrows : db.inputs.rows = old ++ rows) (hold : ∀ i ∈ old, i.batch_id ≠ b)
    (hnew : ∀ r ∈ rows, r.batch_id = b) :
    (∀ s, db.inputCount b s = rowCount rows s) ∧ db.inputTotal b = rows.length := by
  have hcount : ∀ p : InputRecord → Bool, db.inputs.count (fun i => i.batch_id == b && p i) = rows.countP p := by
    intro p
    show db.inputs.rows.countP _ = _
    have hnone : old.countP (fun i => i.batch_id == b && p i) = 0 := by
      rw [List.countP_eq_zero]
      intro i hi
      rw [beq_eq_false_iff_ne.mpr (hold i hi), Bool.false_and]
      exact Bool.false_ne_true
    rw [hrows, List.countP_append, hnone, Nat.zero_add]
    exact List.countP_congr (fun r hr => by rw [beq_iff_eq.mpr (hnew r hr), Bool.true_and])
  refine ⟨fun s => hcount (fun i => i.status == s), ?_⟩
  have htotal := hcount (fun _ => true)
  simp only [Bool.and_true, List.countP_true] at htotal
  exact htotal

/-- **the formula of `create_batch` is the one of `_refresh_batch_locked`** -/
theorem finished_ok {db : DB} {req : BatchRequest} {rows : List InputRecord} {n : Nat}
    (h : Recorded req.batch_id req.inputs rows n)
    (hcount : ∀ s, db.inputCount req.batch_id s = rowCount rows s)
    (htotal : db.inputTotal req.batch_id = rows.length) : db.BatchOK (req.finished n req.batch) := by
  have hlen := rowCount_total h.prepared
  have hq : rowCount rows .queued = req.count .queued - n := by
    have := h.queued
    show _ = itemCount req.inputs .queued - n
    omega
  have hd : rowCount rows .duplicate = req.count .duplicate + n := h.duplicate
  have hf : rowCount rows .failed = req.count .failed := h.failed
  have hr := h.none_else (s := .ready) (by decide)
  have hc := h.none_else (s := .canceled) (by decide)
  have hp := h.none_else (s := .partialSuccess) (by decide)
  have hfun : db.inputCount req.batch_id = rowCount rows := funext hcount
  refine ⟨?_, ?_, ?_, ?_, ?_, ?_, ?_⟩
  case refine_1 =>
    show finalStatus _ _ = aggregateBatchStatus (db.inputCount req.batch_id) (db.inputTotal req.batch_id)
    rw [hfun, htotal, hlen]
    simp only [finalStatus, aggregateBatchStatus, hq, hf, hr, hc, hp]
    by_cases hzero : req.count .queued - n = 0 <;> by_cases hnone : req.count .failed = 0 <;> simp [hzero, hnone]
  all_goals
    show _ = db.inputCount req.batch_id _
    rw [hfun]
    first
    | exact hq.symm
    | exact hr.symm
    | exact hf.symm
    | exact hd.symm
    | exact hc.symm
    | exact hp.symm

theorem createBatch_chain (may : Id → Id → Prop) {db db' : DB} {req : BatchRequest}
    (hagg : AggInv db.settled) (h : createBatch db req = .ok db') : Chain may db.settled db'.settled := by
  simp only [createBatch, bind_eq_ok, fetch_eq_ok, pure_eq_ok] at h
  obtain ⟨-, -, batches, hins, st, hloop, -, -, rfl⟩ := h
  have hnew : Chain may db.settled ⟨{ db with batches }, ∅, {req.batch_id}⟩ := by
    have hmove : Move may db.settled ⟨{ db with batches }, ∅, insert req.batch_id ∅⟩ := Move.newBatch req.batch hins
    rw [insert_empty_eq] at hmove
    exact .single hmove
  have hloop := createItems_spec may (hagg.chain hnew) (fun x hx => absurd hx List.not_mem_nil)
    ⟨req.batch, (Table.mem_insert hins).mpr (.inr rfl), rfl⟩ hloop
  obtain ⟨rows, n, hrows, hn, hrec⟩ := hloop.rows
  have hset : Move may ⟨st.db, ∅, {req.batch_id}⟩ ⟨{ st.db with
      batches := st.db.batches.update (fun b => b.id == req.batch_id) (req.finished st.relabeled)
        (req.finished_id st.relabeled) }, ∅, insert req.batch_id {req.batch_id}⟩ := by
    refine Move.setBatch req.batch_id (Table.Evolves.update (fun b _ => ?_))
    by_cases hb : b.id = req.batch_id
    · rw [Table.upd_eq hb]
      exact .inr ⟨hb, rfl⟩
    · exact .inl (Table.upd_ne hb)
  have hsettle := Relation.ReflTransGen.tail ((hnew.trans hloop.chain).tail hset)
    (Move.settleBatch req.batch_id ?_)
  · rw [Set.sdiff_eq_empty.mpr (Set.insert_subset (Set.mem_singleton _) subset_rfl)] at hsettle
    exact hsettle
  · intro b' hb' hid
    simp only [Table.mem_update] at hb'
    obtain ⟨b, hb, rfl⟩ := hb'
    rw [Table.upd_col Batch.id (req.finished_id _)] at hid
    have hreq : b = req.batch := by
      rw [hloop.batches] at hb
      exact Table.eq_of_key hb ((Table.mem_insert hins).mpr (.inr rfl)) hid
    rw [Table.upd_eq hid, hreq]
    have hrel : st.relabeled = n := by rw [hn]; exact Nat.zero_add n
    rw [hrel]
    -- the batch is new: no input of the store before belongs to it
    have hold : ∀ i ∈ db.inputs, i.batch_id ≠ req.batch_id := by
      intro i hi hib
      obtain ⟨c, hc, hcid⟩ := hagg.contained i hi
      exact Table.insert_fresh hins c hc (hcid.trans hib)
    obtain ⟨hcount, htotal⟩ := inputCount_of_rows hrows hold hrec.batch
    exact finished_ok hrec hcount htotal

end OpenFlame.Download
