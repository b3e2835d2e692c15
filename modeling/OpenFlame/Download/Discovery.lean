import OpenFlame.Download.Claim
import OpenFlame.Download.Graph

/-!
# Committing a discovery

`commitDiscovery`: the probe of an X post becomes one child job for each attachment, in one
transaction with the end of the probing lease.

`getOrCreateDiscovery`, `getOrCreateChildSource`, `getOrCreateRelations`, `getOrCreateChildJob`
                       find what an earlier discovery of the same post left behind
`commitMember`         one attachment: its job and its link
`settleDiscovery`      the input, the attempt, the circuit and the parent job

`Fanned may k` is what the fan-out of input `k` does to a store; `commitDiscovery_chain`: **what a
commit does.**
-/

set_option linter.all false

namespace OpenFlame.Download
open Guard

structure DiscoveryRequest where
  probe_items : List ProbeItem
  discovery_snapshot_hash : String
  now : Clock
  /-- the `uuid4`s drawn for the discovery and for the attachment of an ordinal -/
  discovery_id : Id
  child_source_id : Nat → Id
  relation_id : Nat → Id
  child_job_id : Nat → Id

/-! ## what is stored about a post -/

/-- `_get_or_create_discovery_locked` -/
def getOrCreateDiscovery (db : DB) (parent_source_item_id : Id) (discovery : GraphDiscovery)
    (attempt_id new_id : Id) : Txn (DB × Id × Bool) := do
  let payload := discovery.members.map Member.payload
  match db.discoveries.find (fun d => d.parent_source_item_id == parent_source_item_id &&
      d.snapshot_hash == discovery.snapshot_hash) with
  | some existing =>
    require (existing.members = payload ∧ existing.member_count = payload.length)
      (.runtimeError "stored discovery membership is inconsistent")
    return (db, existing.id, false)
  | none =>
    let discoveries ← fetch (db.discoveries.insert
      { id := new_id
        parent_source_item_id := parent_source_item_id
        snapshot_hash := discovery.snapshot_hash
        members := payload
        member_count := payload.length
        discovered_by_attempt_id := attempt_id }) .integrityError
    return ({ db with discoveries }, new_id, true)

/-- `_get_or_create_child_source_locked` -/
def getOrCreateChildSource (db : DB) (member : Member) (new_id : Id) : Txn (DB × Id) :=
  match db.sources.find (fun s => s.platform == .x && s.source_type == .xAttachment &&
      s.source_id == some member.source_id) with
  | some existing => do
    require (existing.canonical_url = member.canonical_url)
      (.runtimeError "stored attachment source is inconsistent")
    return (db, existing.id)
  | none => do
    require (db.sources.any (fun s => s.canonical_url == member.canonical_url) = false)
      (.runtimeError "attachment canonical locator is already owned")
    let sources ← fetch (db.sources.insert
      { id := new_id
        platform := .x
        source_type := .xAttachment
        source_id := some member.source_id
        canonical_url := member.canonical_url }) .integrityError
    return ({ db with sources }, new_id)

/-- `child_source_ids.append(..)` -/
def collectChildSource (new_id : Nat → Id) (st : DB × List Id) (member : Member) : Txn (DB × List Id) := do
  let (db, child) ← getOrCreateChildSource st.1 member (new_id member.ordinal)
  return (db, st.2 ++ [child])

/-- `ORDER BY ordinal, id` -/
def Relation.before (r s : Relation) : Bool :=
  decide (r.ordinal < s.ordinal) || (r.ordinal == s.ordinal && decide (r.id ≤ s.id))

/-- the `INSERT` of one relation of a new discovery -/
def insertRelation (discovery_id parent_source_item_id : Id) (new_id : Nat → Id) (db : DB)
    (x : Member × Id) : Txn DB := do
  require (db.relations.any (fun r => r.discovery_id == discovery_id && r.ordinal == x.1.ordinal) = false)
    .integrityError
  let relations ← fetch (db.relations.insert
    { id := new_id x.1.ordinal
      discovery_id := discovery_id
      parent_source_item_id := parent_source_item_id
      child_source_item_id := x.2
      ordinal := x.1.ordinal
      media_kind := x.1.media_kind }) .integrityError
  return { db with relations }

/-- a stored relation is the one of member `x` -/
def Relation.fits (parent_source_item_id : Id) (r : Relation) (x : Member × Id) : Bool :=
  r.parent_source_item_id == parent_source_item_id && r.child_source_item_id == x.2 &&
    r.ordinal == x.1.ordinal && r.media_kind == x.1.media_kind

/-- `_get_or_create_relations_locked` -/
def getOrCreateRelations (db : DB) (discovery_id : Id) (created_discovery : Bool)
    (parent_source_item_id : Id) (members : List (Member × Id)) (new_id : Nat → Id) :
    Txn (DB × List Relation) := do
  let db ← thread (insertRelation discovery_id parent_source_item_id new_id) db
    (if created_discovery then members else [])
  let rows := (db.relations.filter (fun r => r.discovery_id == discovery_id)).mergeSort Relation.before
  require (rows.length = members.length) (.runtimeError "stored discovery relations are incomplete")
  require (∀ x ∈ rows.zip members, x.1.fits parent_source_item_id x.2 = true)
    (.runtimeError "stored discovery relation is inconsistent")
  return (db, rows)

/-! ## child jobs -/

/-- `target_matches and policy_matches` -/
def Job.serves (db : DB) (parent : Job) (member : Member) (row : Job) : Bool :=
  (match db.targets.get row.id with
   | some t => t.fetch_source_item_id == parent.source_item_id && t.selector_key == member.selector_key &&
      t.expected_media_key == member.expected_media_key && t.expected_media_kind == member.media_kind
   | none => false) &&
    row.batch_id == parent.batch_id && row.route_policy_version == parent.route_policy_version &&
    row.credential_profile_id == parent.credential_profile_id

/-- `ORDER BY run_generation DESC, created_at DESC, id` -/
def Job.laterGeneration (r s : Job) : Bool :=
  if r.run_generation = s.run_generation then
    decide (s.created_at < r.created_at) || (r.created_at == s.created_at && decide (r.id ≤ s.id))
  else decide (s.run_generation < r.run_generation)

/-- the loop over the historical jobs of an attachment -/
def historicalJob (db : DB) (parent : Job) (member : Member) (run_generation : Nat) :
    List Job → Txn (Option Id)
  | [] => return none
  | row :: rows =>
    if Job.serves db parent member row then
      return some row.id
    else if row.run_generation = run_generation then
      throw (.runtimeError "current generation attachment target or policy conflicts")
    else
      historicalJob db parent member run_generation rows

/-- a finished job of another input whose original may be reused -/
def Job.donates (db : DB) (parent : Job) (child_source_item_id : Id) (member : Member) (donor : Job) : Bool :=
  donor.input_record_id != parent.input_record_id && donor.source_item_id == child_source_item_id &&
    donor.job_kind == .download && donor.status == .ready &&
    donor.route_policy_version == parent.route_policy_version &&
    donor.credential_profile_id == parent.credential_profile_id &&
    (match db.targets.get donor.id with
     | some t => t.fetch_source_item_id == parent.source_item_id &&
        t.selector_key == member.selector_key && t.expected_media_key == member.expected_media_key &&
        t.expected_media_kind == member.media_kind &&
        db.jobAssets.any (fun l => l.job_id == donor.id && l.role == "original" &&
          (db.media.get l.asset_id).any (fun m => m.source_item_id == donor.source_item_id &&
            m.media_key == t.expected_media_key))
     | none => false) &&
    !db.jobAssets.any (fun l => l.job_id == donor.id &&
      (db.media.get l.asset_id).any (fun m => m.source_item_id != donor.source_item_id))

/-- `INSERT INTO job_assets .. SELECT ?, asset_id, role, ordinal FROM job_assets WHERE job_id = ?` -/
def copyJobAsset (job_id : Id) (db : DB) (l : JobAsset) : Txn DB := do
  let jobAssets ← fetch (db.jobAssets.insert { l with job_id := job_id }) .integrityError
  return { db with jobAssets }

/-- the row of a new child; with a donor it is finished already -/
def Job.child (parent : Job) (child_source_item_id : Id) (run_generation : Nat) (new_id : Id)
    (now_text : Time) (reusable : Option Job) : Job where
  id := new_id
  batch_id := parent.batch_id
  input_record_id := parent.input_record_id
  source_item_id := child_source_item_id
  job_kind := .download
  status := if reusable.isSome then .ready else .queued
  progress := if reusable.isSome then 1 else 0
  final_error_code := none
  route_policy_version := parent.route_policy_version
  credential_profile_id := parent.credential_profile_id
  lease_owner := none
  lease_token := none
  heartbeat_at := none
  lease_expires_at := none
  available_at := some now_text
  cancel_requested_at := none
  attempt_count := 0
  run_generation := run_generation
  generation_attempt_count := 0
  reused_from_job_id := reusable.map Job.id
  created_at := now_text
  updated_at := now_text

/-- `_get_or_create_child_job_locked` -/
def getOrCreateChildJob (db : DB) (parent : Job) (child_source_item_id : Id) (member : Member)
    (run_generation : Nat) (new_id : Id) (now_text : Time) : Txn (DB × Id) := do
  let historical := (db.jobs.filter (fun j => j.input_record_id == parent.input_record_id &&
    j.source_item_id == child_source_item_id && j.job_kind == .download)).mergeSort Job.laterGeneration
  match ← historicalJob db parent member run_generation historical with
  | some existing => return (db, existing)
  | none =>
    let reusable := Table.leastBy Job.createdBefore
      (db.jobs.filter (Job.donates db parent child_source_item_id member))
    let child := parent.child child_source_item_id run_generation new_id now_text reusable
    require (db.jobs.any (fun r => r.input_record_id == child.input_record_id &&
      r.source_item_id == child.source_item_id && r.job_kind == child.job_kind &&
      r.run_generation == child.run_generation) = false) .integrityError
    let jobs ← fetch (db.jobs.insert child) .integrityError
    let targets ← fetch (db.targets.insert
      { job_id := new_id
        fetch_source_item_id := parent.source_item_id
        selector_key := member.selector_key
        expected_media_key := member.expected_media_key
        expected_media_kind := member.media_kind }) .integrityError
    let copied := match reusable with
      | some donor => db.jobAssets.filter (fun l => l.job_id == donor.id)
      | none => []
    let db ← thread (copyJobAsset new_id) { db with jobs, targets } copied
    return (db, new_id)

/-- `INSERT OR IGNORE INTO input_relation_jobs ..`, then the check of what is stored -/
def linkChild (db : DB) (l : RelationJob) : Txn DB := do
  let db := match db.links.insert l with
    | some links => { db with links }
    | none => db
  let link ← fetch (db.links.get l.key) (.runtimeError "discovery relation link is inconsistent")
  require (link.discovery_id = l.discovery_id ∧ link.job_id = l.job_id)
    (.runtimeError "discovery relation link is inconsistent")
  return db

/-- one iteration of the fan-out loop -/
def commitMember (parent : Job) (lease : JobLease) (discovery_id : Id) (new_id : Nat → Id)
    (now_text : Time) (db : DB) (x : Relation × Member × Id) : Txn DB := do
  let (db, child_job_id) ← getOrCreateChildJob db parent x.2.2 x.2.1 lease.run_generation
    (new_id x.2.1.ordinal) now_text
  linkChild db
    { input_record_id := parent.input_record_id
      discovery_id := discovery_id
      run_generation := lease.run_generation
      relation_id := x.1.id
      job_id := child_job_id }

/-! ## the transaction -/

/-- `id = ? AND job_id = ? AND lease_token = ? AND status = 'running' AND run_generation = ?` -/
def JobLease.attemptsGeneration (lease : JobLease) (a : Attempt) : Bool :=
  lease.attempts a && a.job_id == lease.job_id && a.run_generation == lease.run_generation

/-- `id = ? AND job_kind = 'discover' AND status = 'probing' AND lease_token = ? AND ..` -/
def JobLease.holdsProbing (lease : JobLease) (now_text : Time) (j : Job) : Bool :=
  lease.holds now_text j && j.job_kind == .discover && j.status == .probing &&
    j.run_generation == lease.run_generation

/-- the writes after the fan-out -/
def settleDiscovery (db : DB) (parent : Job) (lease : JobLease) (discovery_id : Id)
    (discovery : GraphDiscovery) (now_text : Time) : Txn DB := do
  let input := fun i : InputRecord => i.id == parent.input_record_id &&
    i.active_run_generation == lease.run_generation && i.cancel_requested_at.isNone
  require (db.inputs.count input = 1) (.lostLease lease.job_id)
  let db : DB := { db with
    inputs := db.inputs.update input (fun i =>
      { i with
        expected_item_count := some discovery.members.length
        active_discovery_id := some discovery_id
        status := .queued
        error_code := none
        error_message := none }) }
  require (db.attempts.count lease.attemptsGeneration = 1) (.lostLease lease.job_id)
  let db : DB := { db with
    attempts := db.attempts.update lease.attemptsGeneration (fun a =>
      { a with
        status := .succeeded
        finished_at := some now_text
        error_code := none
        diagnostic := none
        exit_code := some 0
        discovered_item_count := some discovery.members.length
        discovery_snapshot_hash := some discovery.snapshot_hash }) }
  let db := releaseHalfOpenLocked db lease.job_id lease.lease_token now_text
  require (db.jobs.count (lease.holdsProbing now_text) = 1) (.lostLease lease.job_id)
  let db : DB := { db with
    jobs := db.jobs.update (lease.holdsProbing now_text) (fun j =>
      { j with
        status := .ready
        progress := 1
        final_error_code := none
        lease_owner := none
        lease_token := none
        heartbeat_at := none
        lease_expires_at := none
        cancel_requested_at := none
        updated_at := now_text }) (fun j => Table.col_kept Job.id j) }
  markInputAndRefreshBatch db lease.job_id .ready none none now_text

/-- everything `commit_discovery` writes for a live lease without a cancel request -/
def fanOut (db : DB) (parent : Job) (lease : JobLease) (discovery : GraphDiscovery)
    (req : DiscoveryRequest) : Txn DB := do
  let now_text := utcText req.now
  let (db, discovery_id, created) ← getOrCreateDiscovery db parent.source_item_id discovery
    lease.attempt_id req.discovery_id
  let (db, child_source_ids) ← thread (collectChildSource req.child_source_id) (db, []) discovery.members
  let (db, relations) ← getOrCreateRelations db discovery_id created parent.source_item_id
    (discovery.members.zip child_source_ids) req.relation_id
  let db ← thread (commitMember parent lease discovery_id req.child_job_id now_text) db
    (relations.zip (discovery.members.zip child_source_ids))
  settleDiscovery db parent lease discovery_id discovery now_text

/-- `commit_discovery` -/
def commitDiscovery (codec : GraphCodec) (db : DB) (lease : JobLease) (req : DiscoveryRequest) :
    Txn (DB × JobStatus) := do
  let now_text := utcText req.now
  let parent ← fetch (db.jobs.get lease.job_id) (.lostLease lease.job_id)
  let input ← fetch (db.inputs.get parent.input_record_id) (.lostLease lease.job_id)
  let source ← fetch (db.sources.get parent.source_item_id) (.lostLease lease.job_id)
  let attempt ← fetch (db.attempts.find (fun a => a.id == lease.attempt_id && a.job_id == parent.id))
    (.lostLease lease.job_id)
  require (parent.job_kind = .discover ∧ source.platform = .x ∧ source.source_type = .xPost ∧
    parent.run_generation = lease.run_generation ∧ attempt.run_generation = lease.run_generation ∧
    attempt.lease_token = lease.lease_token) (.lostLease lease.job_id)
  let live : Bool := parent.status == .probing && attempt.status == .running && lease.holds now_text parent &&
    input.active_run_generation == lease.run_generation
  if live && (parent.cancel_requested_at.isSome || input.cancel_requested_at.isSome) then
    let db ← finishCanceledLocked db lease now_text
    return (db, .canceled)
  else
    let discovery ← buildXAttachmentDiscovery codec (source.source_id.getD "") source.canonical_url
      req.probe_items
    require (discovery.snapshot_hash = req.discovery_snapshot_hash)
      (.graphValidation "attachment discovery snapshot is inconsistent")
    if live then
      let db ← fanOut db parent lease discovery req
      return (db, .ready)
    else
      require (parent.status = .ready ∧ attempt.status = .succeeded ∧
        attempt.discovery_snapshot_hash = some discovery.snapshot_hash ∧
        input.active_discovery_id.isSome = true ∧ input.active_run_generation = lease.run_generation)
        (.lostLease lease.job_id)
      return (db, .ready)

/-! ## what it does -/

/-- part of the fan-out of input `k`: rows are added, and nothing but `k` becomes stale -/
structure Fanned (may : Id → Id → Prop) (k : Id) (db db' : DB) : Prop where
  chain : ∀ X : Set Id, X ⊆ {k} → ∃ X' : Set Id, X' ⊆ {k} ∧ Chain may ⟨db, X, ∅⟩ ⟨db', X', ∅⟩
  jobs : ∀ j ∈ db.jobs, j ∈ db'.jobs
  sources : ∀ s ∈ db.sources, s ∈ db'.sources
  inputs : db'.inputs = db.inputs
  attempts : db'.attempts = db.attempts
  circuits : db'.circuits = db.circuits
  media : db'.media = db.media
  intents : db'.intents = db.intents

section
variable (may : Id → Id → Prop) {k : Id} {db db' db'' : DB}

theorem Fanned.refl (k : Id) (db : DB) : Fanned may k db db where
  chain := fun X hX => ⟨X, hX, .refl⟩
  jobs := fun _ hj => hj
  sources := fun _ hs => hs
  inputs := rfl
  attempts := rfl
  circuits := rfl
  media := rfl
  intents := rfl

theorem Fanned.trans (h : Fanned may k db db') (h' : Fanned may k db' db'') : Fanned may k db db'' where
  chain := by
    intro X hX
    obtain ⟨X₁, hX₁, hc₁⟩ := h.chain X hX
    obtain ⟨X₂, hX₂, hc₂⟩ := h'.chain X₁ hX₁
    exact ⟨X₂, hX₂, hc₁.trans hc₂⟩
  jobs := fun j hj => h'.jobs j (h.jobs j hj)
  sources := fun s hs => h'.sources s (h.sources s hs)
  inputs := h'.inputs.trans h.inputs
  attempts := h'.attempts.trans h.attempts
  circuits := h'.circuits.trans h.circuits
  media := h'.media.trans h.media
  intents := h'.intents.trans h.intents

theorem Fanned.side (k : Id) (db : DB) (targets discoveries relations jobAssets) :
    Fanned may k db { db with
      targets := targets
      discoveries := discoveries
      relations := relations
      jobAssets := jobAssets } where
  chain := fun X hX => ⟨X, hX, .single (Move.side targets discoveries relations jobAssets db.credentials
    db.queue)⟩
  jobs := fun _ hj => hj
  sources := fun _ hs => hs
  inputs := rfl
  attempts := rfl
  circuits := rfl
  media := rfl
  intents := rfl

theorem getOrCreateDiscovery_fanned {p a n d : Id} {g : GraphDiscovery} {created : Bool}
    (h : getOrCreateDiscovery db p g a n = .ok (db', d, created)) : Fanned may k db db' := by
  simp only [getOrCreateDiscovery] at h
  split at h
  · simp only [bind_eq_ok, require_eq_ok, pure_eq_ok, Prod.mk.injEq] at h
    obtain ⟨-, -, rfl, -⟩ := h
    exact .refl may k db
  · simp only [bind_eq_ok, fetch_eq_ok, pure_eq_ok, Prod.mk.injEq] at h
    obtain ⟨discoveries, -, rfl, -⟩ := h
    exact .side may k db db.targets discoveries db.relations db.jobAssets

theorem getOrCreateChildSource_fanned {m : Member} {n c : Id}
    (h : getOrCreateChildSource db m n = .ok (db', c)) :
    Fanned may k db db' ∧ ∃ s ∈ db'.sources, s.id = c := by
  unfold getOrCreateChildSource at h
  split at h
  · next s hs =>
    simp only [bind_eq_ok, require_eq_ok, pure_eq_ok, Prod.mk.injEq] at h
    obtain ⟨-, -, rfl, rfl⟩ := h
    exact ⟨.refl may k db, s, (Table.find_some hs).1, rfl⟩
  · simp only [bind_eq_ok, require_eq_ok, fetch_eq_ok, pure_eq_ok, Prod.mk.injEq] at h
    obtain ⟨-, -, sources, hins, rfl, rfl⟩ := h
    refine ⟨?_, _, (Table.mem_insert hins).mpr (.inr rfl), rfl⟩
    exact {
      chain := fun X hX => ⟨X, hX, .single (Move.source _ hins)⟩
      jobs := fun _ hj => hj
      sources := fun s hs => (Table.mem_insert hins).mpr (.inl hs)
      inputs := rfl
      attempts := rfl
      circuits := rfl
      media := rfl
      intents := rfl }

/-- the sources of the children exist -/
def Sourced (db : DB) (children : List Id) : Prop := ∀ c ∈ children, ∃ s ∈ db.sources, s.id = c

theorem Sourced.fanned {children : List Id} (h : Sourced db children) (hf : Fanned may k db db') :
    Sourced db' children := by
  intro c hc
  obtain ⟨s, hs, hid⟩ := h c hc
  exact ⟨s, hf.sources s hs, hid⟩

theorem collectChildSources_fanned {n : Nat → Id} {members : List Member} {st st' : DB × List Id}
    (h : thread (collectChildSource n) st members = .ok st') (hs : Sourced st.1 st.2) :
    Fanned may k st.1 st'.1 ∧ Sourced st'.1 st'.2 := by
  refine thread_induct (fun s : DB × List Id => Fanned may k st.1 s.1 ∧ Sourced s.1 s.2) ?_ h
    ⟨.refl may k st.1, hs⟩
  rintro s m s' - hstep ⟨hf, hsrc⟩
  obtain ⟨⟨db₁, c⟩, hchild, hstep⟩ := bind_eq_ok.mp hstep
  cases hstep
  obtain ⟨hf₁, src, hmem, hid⟩ := getOrCreateChildSource_fanned may (k := k) hchild
  refine ⟨hf.trans may hf₁, fun x hx => ?_⟩
  rcases List.mem_append.mp hx with hx | hx
  · exact hsrc.fanned may hf₁ x hx
  · rw [List.mem_singleton] at hx
    exact ⟨src, hmem, hid.trans hx.symm⟩

theorem getOrCreateRelations_fanned {d p : Id} {created : Bool} {members : List (Member × Id)} {n : Nat → Id}
    {rows : List Relation} (h : getOrCreateRelations db d created p members n = .ok (db', rows)) :
    Fanned may k db db' := by
  simp only [getOrCreateRelations, bind_eq_ok, require_eq_ok, pure_eq_ok, Prod.mk.injEq] at h
  obtain ⟨db₁, hinsert, -, -, -, -, rfl, -⟩ := h
  refine thread_induct (Fanned may k db) (fun s x s' _ hstep hf => hf.trans may ?_) hinsert (.refl may k db)
  simp only [insertRelation, bind_eq_ok, require_eq_ok, fetch_eq_ok, pure_eq_ok] at hstep
  obtain ⟨-, -, relations, -, rfl⟩ := hstep
  exact .side may k s s.targets s.discoveries relations s.jobAssets

theorem historicalJob_mem {parent : Job} {m : Member} {g : Nat} {rows : List Job} {c : Id}
    (h : historicalJob db parent m g rows = .ok (some c)) : ∃ r ∈ rows, r.id = c := by
  induction rows with
  | nil => cases h
  | cons r rows ih =>
    unfold historicalJob at h
    split at h
    · cases h
      exact ⟨r, List.mem_cons_self .., rfl⟩
    · split at h
      · cases h
      · obtain ⟨r', hr', hid⟩ := ih h
        exact ⟨r', List.mem_cons_of_mem _ hr', hid⟩

theorem copyJobAsset_fanned {n : Id} {l : JobAsset} (h : copyJobAsset n db l = .ok db') :
    Fanned may k db db' := by
  simp only [copyJobAsset, bind_eq_ok, fetch_eq_ok, pure_eq_ok] at h
  obtain ⟨jobAssets, -, rfl⟩ := h
  exact .side may k db db.targets db.discoveries db.relations jobAssets

/-- the child job exists afterwards and belongs to the input of its parent -/
theorem getOrCreateChildJob_fanned {parent : Job} {src n c : Id} {m : Member} {g : Nat} {now : Time}
    (hk : parent.input_record_id = k)
    (hinput : ∃ i ∈ db.inputs, i.id = k ∧ i.cancel_requested_at = none)
    (hsrc : ∃ s ∈ db.sources, s.id = src)
    (h : getOrCreateChildJob db parent src m g n now = .ok (db', c)) :
    Fanned may k db db' ∧ ∃ j ∈ db'.jobs, j.id = c ∧ j.input_record_id = k := by
  simp only [getOrCreateChildJob] at h
  obtain ⟨found, hfound, h⟩ := bind_eq_ok.mp h
  split at h
  · cases h
    obtain ⟨j, hj, hid⟩ := historicalJob_mem hfound
    obtain ⟨hj, hp⟩ := Table.mem_filter.mp (List.mem_mergeSort.mp hj)
    simp only [Bool.and_eq_true, beq_iff_eq] at hp
    exact ⟨.refl may k db, j, hj, hid, hp.1.1.trans hk⟩
  · simp only [bind_eq_ok, require_eq_ok, fetch_eq_ok, pure_eq_ok, Prod.mk.injEq] at h
    obtain ⟨-, -, jobs, hjob, targets, htarget, db₁, hcopy, rfl, rfl⟩ := h
    obtain ⟨i, hi, hid, hcancel⟩ := hinput
    have hstatus : ∀ donor, (parent.child src g n now donor).status = .queued ∨
        (parent.child src g n now donor).status = .ready := by
      intro donor
      cases donor
      · exact .inl rfl
      · exact .inr rfl
    have hnew : Fanned may k db { db with jobs } := {
      chain := fun X hX => ⟨insert parent.input_record_id X, by rw [hk]; exact Set.insert_subset rfl hX,
        .single (Move.newJob (parent.child src g n now _) i hjob (hstatus _) rfl rfl rfl hsrc hi
          (hid.trans hk.symm) hcancel)⟩
      jobs := fun j hj => (Table.mem_insert hjob).mpr (.inl hj)
      sources := fun _ hs => hs
      inputs := rfl
      attempts := rfl
      circuits := rfl
      media := rfl
      intents := rfl }
    have hside := hnew.trans may (.side may k _ targets db.discoveries db.relations db.jobAssets)
    have hcopied := thread_induct (Fanned may k { db with jobs, targets })
      (fun s x s' _ hstep hf => hf.trans may (copyJobAsset_fanned may hstep)) hcopy (.refl may k _)
    have hmem := hcopied.jobs _ ((Table.mem_insert hjob).mpr (.inr rfl))
    exact ⟨hside.trans may hcopied, _, hmem, rfl, hk⟩

theorem linkChild_fanned {l : RelationJob} (hl : l.input_record_id = k)
    (hj : ∃ j ∈ db.jobs, j.id = l.job_id ∧ j.input_record_id = l.input_record_id)
    (h : linkChild db l = .ok db') : Fanned may k db db' := by
  simp only [linkChild, bind_eq_ok, require_eq_ok, fetch_eq_ok, pure_eq_ok] at h
  obtain ⟨-, -, -, -, rfl⟩ := h
  split
  · next links hins =>
    exact {
      chain := fun X hX => ⟨insert l.input_record_id X, by rw [hl]; exact Set.insert_subset rfl hX,
        .single (Move.link l hins hj)⟩
      jobs := fun _ hj => hj
      sources := fun _ hs => hs
      inputs := rfl
      attempts := rfl
      circuits := rfl
      media := rfl
      intents := rfl }
  · exact .refl may k db

/-- the loop over the members: each child gets a job of the parent's input and a link -/
theorem commitMembers_fanned {parent : Job} {lease : JobLease} {d : Id} {n : Nat → Id} {now : Time}
    {l : List (Relation × Member × Id)} (hk : parent.input_record_id = k)
    (hinput : ∃ i ∈ db.inputs, i.id = k ∧ i.cancel_requested_at = none)
    (hsrc : ∀ x ∈ l, ∃ s ∈ db.sources, s.id = x.2.2)
    (h : thread (commitMember parent lease d n now) db l = .ok db') : Fanned may k db db' := by
  refine thread_induct (Fanned may k db) (fun s x s' hx hstep hf => ?_) h (.refl may k db)
  obtain ⟨⟨db₁, c⟩, hchild, hlink⟩ := bind_eq_ok.mp hstep
  obtain ⟨src, hmem, hid⟩ := hsrc x hx
  rw [← hf.inputs] at hinput
  obtain ⟨hf₁, j, hj, hjid, hjin⟩ :=
    getOrCreateChildJob_fanned may hk hinput ⟨src, hf.sources src hmem, hid⟩ hchild
  exact (hf.trans may hf₁).trans may
    (linkChild_fanned may hk ⟨j, hj, hjid, hjin.trans hk.symm⟩ hlink)

theorem JobLease.holdsProbing_iff {lease : JobLease} {now : Time} {j : Job} :
    lease.holdsProbing now j = true ↔ lease.holds now j = true ∧ j.job_kind = .discover ∧
      j.status = .probing ∧ j.run_generation = lease.run_generation := by
  simp [holdsProbing, and_assoc]

/-- the attempt of a commit stops; no other attempt carries its token -/
theorem attemptsGeneration_closed {lease : JobLease} {f : Attempt → Attempt} {attempts}
    (hcount : db.attempts.count lease.attemptsGeneration = 1)
    (hrows : attempts.rows = db.attempts.rows.map (Table.upd lease.attemptsGeneration f))
    (hf : ∀ a, Attempt.Same a (f a) ∧ (f a).status ≠ .running)
    (htokens : ∀ a ∈ db.attempts, ∀ b ∈ db.attempts, a.lease_token = b.lease_token → a = b) :
    db.attempts.Evolves (Attempt.Closed lease.lease_token) attempts := by
  have hiff : ∀ a, lease.attemptsGeneration a = true → a.lease_token = lease.lease_token := by
    intro a ha
    simp only [JobLease.attemptsGeneration, Bool.and_eq_true] at ha
    exact (JobLease.attempts_iff.mp ha.1.1).2.1
  obtain ⟨a, ha, hp⟩ := Table.count_pos.mp (by rw [hcount]; exact Nat.one_pos)
  refine Table.Evolves.of_rows hrows (fun b hb => ?_)
  cases hpb : lease.attemptsGeneration b with
  | true =>
    rw [Table.upd_pos hpb]
    exact ⟨(hf b).1, .inr ⟨hiff b hpb, (hf b).2⟩⟩
  | false =>
    rw [Table.upd_neg hpb]
    refine ⟨.refl b, .inl ⟨rfl, fun _ hbt => ?_⟩⟩
    rw [htokens b hb a ha (hbt.trans (hiff a hp).symm), hp] at hpb
    cases hpb

/-- an input is rewritten, the lease of a job of it ends with `ready`, the input is marked -/
theorem readyMarked_chain {i : InputRecord} {j : Job} {t : Id} {X : Set Id} (hX : X ⊆ {i.id})
    (hi : i ∈ db.inputs) (hin : i.id = j.input_record_id) (hj : j ∈ db.jobs)
    (hactive : j.status.isActive = true) (ht : j.lease_token = some t) (hcancel : j.cancel_requested_at = none)
    {inputs jobs attempts circuits}
    (hinputs : db.inputs.Evolves (fun r r' => r' = r ∨ r = i ∧ InputRecord.Same r r' ∧
      (r.cancel_requested_at.isSome → r'.cancel_requested_at.isSome)) inputs)
    (hjobs : db.jobs.Evolves (Only (Job.Ended .ready) j) jobs)
    (hattempts : db.attempts.Evolves (Attempt.Closed t) attempts)
    (hcircuits : Released db.circuits circuits (db.platformOf j) j.id t) {n : Time} {s₀ : InputStatus}
    {e₀ : Option ErrorCode} {m₀ : Option String}
    (h : markInputAndRefreshBatch { db with inputs, jobs, attempts, circuits } j.id s₀ e₀ m₀ n = .ok db') :
    Chain may ⟨db, X, ∅⟩ db'.settled := by
  obtain ⟨j', hj', hid, i', hi', hin', hchain, -⟩ := markInput_chain may h
  obtain ⟨r, hr, ⟨rfl, he⟩ | ⟨hne, rfl⟩⟩ := hjobs.old hj'
  · obtain ⟨r', hr', hrel⟩ := hinputs.old hi'
    have hsame : InputRecord.Same r' i' := by
      rcases hrel with rfl | ⟨-, hs, -⟩
      · exact ⟨rfl, rfl⟩
      · exact hs
    have hi'id : i'.id = i.id := by rw [hin', he.input, hin]
    obtain rfl : r' = i := Table.eq_of_key hr' hi (hsame.id.symm.trans hi'id)
    have hset : Move may ⟨db, X, ∅⟩ ⟨{ db with inputs }, insert r'.id X, insert r'.batch_id ∅⟩ :=
      Move.setInput r' hi hinputs
    have hend : Move may ⟨{ db with inputs }, insert r'.id X, insert r'.batch_id ∅⟩
        ⟨{ db with inputs, jobs, attempts, circuits }, insert r.input_record_id (insert r'.id X),
          insert r'.batch_id ∅⟩ :=
      Move.endLease r t .ready hj hactive ht (.inr ⟨rfl, rfl⟩) (.inr hcancel) hjobs hattempts hcircuits
        (fun m hm => .inl hm)
    refine .head hset (.head hend (hchain _ _ ?_ ?_))
    · rw [hi'id, ← hin]
      exact Set.insert_subset rfl (Set.insert_subset rfl hX)
    · rw [hsame.batch]
      exact Set.insert_subset rfl (Set.empty_subset _)
  · exact absurd (Table.eq_of_key hr hj hid) hne

/-- the end of a commit, after a fan-out that left input `k` stale at most -/
theorem settleDiscovery_chain {parent : Job} {lease : JobLease} {d : Id} {g : GraphDiscovery} {now : Time}
    {X : Set Id} (hX : X ⊆ {parent.input_record_id}) (hparent : parent ∈ db.jobs)
    (hid : parent.id = lease.job_id) (hcancel : parent.cancel_requested_at = none)
    (htokens : ∀ a ∈ db.attempts, ∀ b ∈ db.attempts, a.lease_token = b.lease_token → a = b)
    (h : settleDiscovery db parent lease d g now = .ok db') :
    Chain may ⟨db, X, ∅⟩ db'.settled := by
  simp only [settleDiscovery, bind_eq_ok, require_eq_ok] at h
  obtain ⟨-, hinput, -, hattempt, -, hjob, h⟩ := h
  have hjob : db.jobs.count (lease.holdsProbing now) = 1 := hjob
  obtain ⟨i, hi, hin, hpi, honei⟩ := Table.rowcount_one hinput
    (fun r hr => beq_iff_eq.mp ((Bool.and_eq_true ..).mp ((Bool.and_eq_true ..).mp hr).1).1)
  obtain ⟨j, hj, hjid, ht, hpj, hone⟩ := held_row db hjob
    (fun j hj => (JobLease.holdsProbing_iff.mp hj).1)
  obtain rfl := Table.eq_of_key hj hparent (hjid.trans hid.symm)
  obtain ⟨-, -, hprobing, -⟩ := JobLease.holdsProbing_iff.mp hpj
  rw [← hin] at hX
  rw [← hid] at h
  refine readyMarked_chain may hX hi hin hj (by rw [hprobing]; rfl) ht hcancel ?_ ?_ ?_ ?_ h
  · refine Table.Evolves.of_rows rfl (fun r hr => ?_)
    unfold Table.upd
    split
    · next hp => exact .inr ⟨Table.eq_of_key hr hi ((honei r hr).mp hp), ⟨rfl, rfl⟩, fun h => h⟩
    · exact .inl rfl
  · exact only_update hj hone rfl ⟨⟨rfl, rfl, rfl, rfl, rfl, rfl, rfl⟩, ⟨rfl, rfl⟩, rfl, rfl⟩
  · exact attemptsGeneration_closed hattempt rfl (fun a => ⟨⟨rfl, rfl, rfl, rfl⟩, nofun⟩) htokens
  · exact releaseHalfOpen_released db (db.platformOf j) j.id lease.lease_token now

theorem fanOut_chain {parent : Job} {lease : JobLease} {g : GraphDiscovery} {req : DiscoveryRequest}
    (hinv : db.LeaseOK) (hparent : parent ∈ db.jobs) (hid : parent.id = lease.job_id)
    (hcancel : parent.cancel_requested_at = none)
    (hinput : ∃ i ∈ db.inputs, i.id = parent.input_record_id ∧ i.cancel_requested_at = none)
    (h : fanOut db parent lease g req = .ok db') : Chain may db.settled db'.settled := by
  obtain ⟨⟨db₁, d, created⟩, hdisc, h⟩ := bind_eq_ok.mp h
  obtain ⟨⟨db₂, children⟩, hsrc, h⟩ := bind_eq_ok.mp h
  obtain ⟨⟨db₃, relations⟩, hrel, h⟩ := bind_eq_ok.mp h
  obtain ⟨db₄, hmembers, h⟩ := bind_eq_ok.mp h
  have hf₁ := getOrCreateDiscovery_fanned may (k := parent.input_record_id) hdisc
  obtain ⟨hf₂, hsourced⟩ := collectChildSources_fanned may (k := parent.input_record_id) hsrc
    (fun c hc => absurd hc List.not_mem_nil)
  have hf₃ := getOrCreateRelations_fanned may (k := parent.input_record_id) hrel
  have hf := (hf₁.trans may hf₂).trans may hf₃
  have hsourced := hsourced.fanned may hf₃
  have hf₄ := commitMembers_fanned may (l := relations.zip (g.members.zip children)) rfl
    (by rw [hf.inputs]; exact hinput)
    (fun x hx => hsourced x.2.2 (List.of_mem_zip (List.of_mem_zip hx).2).2) hmembers
  have hall := hf.trans may hf₄
  obtain ⟨X, hX, hchain⟩ := hall.chain ∅ (Set.empty_subset _)
  refine hchain.trans (settleDiscovery_chain may hX (hall.jobs parent hparent) hid hcancel ?_ h)
  rw [hall.attempts]
  exact hinv.tokens

/-- **A discovery commit** is a chain of moves: a live lease ends with its fan-out, or with `canceled`
when somebody asked for it. -/
theorem commitDiscovery_chain {codec : GraphCodec} {lease : JobLease} {req : DiscoveryRequest}
    {st : JobStatus} (hinv : db.LeaseOK) (h : commitDiscovery codec db lease req = .ok (db', st)) :
    Chain may db.settled db'.settled := by
  simp only [commitDiscovery, bind_eq_ok, fetch_eq_ok, require_eq_ok] at h
  obtain ⟨parent, hparent, input, hinput, source, -, attempt, -, -, -, h⟩ := h
  obtain ⟨hpmem, hpid⟩ := Table.get_eq_some.mp hparent
  obtain ⟨himem, hiid⟩ := Table.get_eq_some.mp hinput
  split at h
  · simp only [bind_eq_ok, pure_eq_ok, Prod.mk.injEq] at h
    obtain ⟨db₁, hcan, rfl, -⟩ := h
    exact (finishCanceledLocked_spec may hcan hinv).1.chain
  · next hgo =>
    simp only [bind_eq_ok, require_eq_ok] at h
    obtain ⟨g, -, -, -, h⟩ := h
    split at h
    · next hlive =>
      simp only [bind_eq_ok, pure_eq_ok, Prod.mk.injEq] at h
      obtain ⟨db₁, hfan, rfl, -⟩ := h
      have hclear : parent.cancel_requested_at = none ∧ input.cancel_requested_at = none := by
        rw [hlive, Bool.true_and, Bool.or_eq_true, not_or] at hgo
        simpa using hgo
      exact fanOut_chain may hinv hpmem hpid hclear.1 ⟨input, himem, hiid, hclear.2⟩ hfan
    · simp only [bind_eq_ok, require_eq_ok, pure_eq_ok, Prod.mk.injEq] at h
      obtain ⟨-, -, rfl, -⟩ := h
      exact .refl

end

end OpenFlame.Download
