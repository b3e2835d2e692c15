import OpenFlame.Upload.Receipts

/-!
# Moves: what a transaction does to the upload store

`Client`    one change a client call makes: to the tables around the jobs, to the state of unclaimed or
            running jobs, a new request with its roots, a tombstone, a successor, a reconciliation
`Queue`     a confirmed draft is queued
`Reserve`   a queued job starts to run, with its receipt
`Advance`   one receipt moves on, with its job
`Chain`     any number of these

* `Move.extends`                  moves only add, and keep lasting columns;
* `LedgerOK.move`, `ReceiptsOK.move`   **both invariants of the store survive every move.**
-/

set_option linter.all false

namespace OpenFlame.Upload
open Guard Relation

/-- the job states between which a client call or a revocation moves a job that is not dispatched -/
def JobState.CanMove (s s' : JobState) : Prop :=
  (s = .draft ∨ s = .queued) ∧ (s' = .draft ∨ s' = .queued ∨ s' = .canceled) ∨ s = .running ∧ s' = .running

/-- the steps of a receipt -/
def AttemptState.next : AttemptState → AttemptState → Prop
  | .reserved, .dispatchMayHaveStarted | .reserved, .responded | .dispatchMayHaveStarted, .responded
  | .dispatchMayHaveStarted, .unknown | .unknown, .reconciled => True
  | _, _ => False

/-- the tables around the jobs are the same -/
structure DB.SameWorld (db db' : DB) : Prop where
  accounts : db'.accounts = db.accounts
  sources : db'.sources = db.sources
  assets : db'.assets = db.assets
  operations : db'.operations = db.operations

structure Advance (host : Host) (db db' : DB) (a a' : Attempt) : Prop where
  world : db.SameWorld db'
  requests : db'.requests = db.requests
  mem : a ∈ db.attempts
  lasting : a'.lasting = a.lasting
  next : a.state.next a'.state
  revision : a'.revision = a.revision + 1
  attempts : ∃ k : Attempt → Attempt, db'.attempts.rows = db.attempts.rows.map k ∧ k a = a' ∧
    ∀ b ∈ db.attempts, b.job_id ≠ a.job_id → k b = b
  jobs : ∃ g : JobRow → JobRow, db'.jobs.rows = db.jobs.rows.map g ∧ (∀ r, (g r).lasting = r.lasting) ∧
    ∀ r ∈ db.jobs, r.id ≠ a.job_id → g r = r
  valid : ∀ j, db'.Has j → j.id = a.job_id → attemptStateIsValid j a' = true

structure Reserve (host : Host) (db db' : DB) (j : Job) (a : Attempt) : Prop where
  world : db.SameWorld db'
  requests : db'.requests = db.requests
  has : db.Has j
  queued : j.state = .queued
  job_id : a.job_id = j.id
  identified : db.Identified host j a
  attempts : db.attempts.insert a = some db'.attempts
  jobs : db'.jobs.rows = db.jobs.rows.map (Table.upd (fun r => r.id == j.id) (fun r => r.setResult .running ""))
  reserved : a.state = .reserved ∧ a.result_status = none ∧ a.result_code = none ∧ a.evidence_kind = none ∧
    a.dispatch_started_at = none ∧ a.responded_at = none ∧ a.revision = 0 ∧ a.noReconciliation = true

structure Queue (db db' : DB) (id : Ident) : Prop where
  world : db.SameWorld db'
  requests : db'.requests = db.requests
  attempts : db'.attempts = db.attempts
  jobs : db'.jobs.rows = db.jobs.rows.map (Table.upd (fun r => r.id == id) (fun r => r.setResult .queued ""))
  draft : ∀ r ∈ db.jobs, r.id = id → r.state = .draft

inductive Client (host : Host) : DB → DB → Prop where
  | world {db db' : DB} (accounts : db.accounts.Extends Account.lasting db'.accounts)
      (sources : db.sources.Extends Source.lasting db'.sources) (assets : db.assets.Extends Asset.lasting db'.assets)
      (operations : db'.operations.rows.map Operation.lasting = db.operations.rows.map Operation.lasting)
      (jobs : db'.jobs = db.jobs) (requests : db'.requests = db.requests) (attempts : db'.attempts = db.attempts) :
      Client host db db'
  | operation {db db' : DB} (o : Operation) (fresh : db.Fresh o.id) (operations : db.operations.insert o = some db'.operations)
      (accounts : db'.accounts = db.accounts) (sources : db'.sources = db.sources) (assets : db'.assets = db.assets)
      (jobs : db'.jobs = db.jobs) (requests : db'.requests = db.requests) (attempts : db'.attempts = db.attempts) :
      Client host db db'
  | jobs {db db' : DB} (world : db.SameWorld db') (requests : db'.requests = db.requests)
      (attempts : db'.attempts = db.attempts) (g : JobRow → JobRow) (rows : db'.jobs.rows = db.jobs.rows.map g)
      (lasting : ∀ r, (g r).lasting = r.lasting)
      (can : ∀ r ∈ db.jobs, g r = r ∨ r.state.CanMove (g r).state ∧ (g r).state ≠ .queued) : Client host db db'
  | create {db db' : DB} (world : db.SameWorld db') (attempts : db'.attempts = db.attempts) (new : List JobRow)
      (rows : db'.jobs.rows = db.jobs.rows ++ new) (q : Request) (request : db.requests.insert q = some db'.requests)
      (draft : ∀ r ∈ new, r.state = .draft ∧ r.retry_of = none) (ids : q.job_ids = new.map JobRow.id)
      (key : isRequestId q.id = true ∧ q.digest_version = .v2) (jobs : List Job) (rooted : db'.Rooted host q jobs)
      (covers : ∀ r ∈ new, ∀ id, (r.content.cover_landscape_asset_id = some id ∨
        r.content.cover_portrait_asset_id = some id) → ∃ a ∈ db.assets, a.id = id) : Client host db db'
  | tombstone {db db' : DB} (world : db.SameWorld db') (attempts : db'.attempts = db.attempts)
      (jobs : db'.jobs = db.jobs) (q : Request) (request : db.requests.insert q = some db'.requests)
      (empty : q.job_ids = []) (key : isRequestId q.id = true ∧ q.digest_version = .v2) : Client host db db'
  | successor {db db' : DB} (world : db.SameWorld db') (requests : db'.requests = db.requests)
      (attempts : db'.attempts = db.attempts) (p row : JobRow) (mem : p ∈ db.jobs)
      (leaf : ∀ c ∈ db.jobs, c.retry_of ≠ some p.id) (insert : db.jobs.insert row = some db'.jobs)
      (source : row.source_id = p.source_id) (content : row.content = p.content) (parent : row.retry_of = some p.id)
      (draft : row.state = .draft) (a : Attempt) (receipt : a ∈ db.attempts) (job_id : a.job_id = p.id)
      (retryable : a.isRetryable = true) : Client host db db'
  | reconcile {db db' : DB} {a a' : Attempt} (h : Advance host db db' a a') (unknown : a.state = .unknown) :
      Client host db db'

inductive Move (host : Host) : DB → DB → Prop where
  | client {db db' : DB} (h : Client host db db') : Move host db db'
  | queue {db db' : DB} {id : Ident} (h : Queue db db' id) : Move host db db'
  | reserve {db db' : DB} {j : Job} {a : Attempt} (h : Reserve host db db' j a) : Move host db db'
  | advance {db db' : DB} {a a' : Attempt} (h : Advance host db db' a a') : Move host db db'

/-- any number of client moves -/
abbrev Clients (host : Host) : DB → DB → Prop := ReflTransGen (Client host)

/-- any number of moves -/
abbrev Chain (host : Host) : DB → DB → Prop := ReflTransGen (Move host)

theorem Clients.chain {host : Host} {db db' : DB} (h : Clients host db db') : Chain host db db' :=
  ReflTransGen.mono (fun _ _ => Move.client) _ _ h

section
variable {host : Host} {db db' : DB} {a a' : Attempt} {j : Job}

/-! ## growth -/

theorem map_lasting {g : JobRow → JobRow} {t t' : Table JobRow JobRow.id} (h : t'.rows = t.rows.map g)
    (hg : ∀ r, (g r).lasting = r.lasting) : t'.rows.map JobRow.lasting = t.rows.map JobRow.lasting := by
  rw [h, List.map_map]
  exact List.map_congr_left (fun r _ => hg r)

theorem DB.SameWorld.extends (h : db.SameWorld db') (jobs : db.jobs.Extends JobRow.lasting db'.jobs)
    (requests : db.requests.Extends id db'.requests) (attempts : db.attempts.Extends Attempt.lasting db'.attempts) :
    db.Extends db' :=
  ⟨h.accounts ▸ .refl, h.sources ▸ .refl, h.assets ▸ .refl, h.operations ▸ .refl, jobs, requests, attempts⟩

theorem Advance.extends (h : Advance host db db' a a') : db.Extends db' := by
  obtain ⟨g, hrows, hg, -⟩ := h.jobs
  obtain ⟨k, hk, hka, hkb⟩ := h.attempts
  refine h.world.extends (.of_map_eq (map_lasting hrows hg)) (h.requests ▸ .refl) (.of_map_eq ?_)
  rw [hk, List.map_map]
  refine List.map_congr_left (fun b hb => ?_)
  show (k b).lasting = b.lasting
  by_cases e : b.job_id = a.job_id
  · have hba : b = a := Table.eq_of_key hb h.mem e
    rw [hba, hka, h.lasting]
  · rw [hkb b hb e]

theorem upd_setResult_lasting {p : JobRow → Bool} {state : JobState} {code : Code} (r : JobRow) :
    (Table.upd p (fun r => r.setResult state code) r).lasting = r.lasting :=
  Table.upd_col JobRow.lasting (fun s => show (s.setResult state code).lasting = s.lasting from rfl) r

theorem Reserve.extends (h : Reserve host db db' j a) : db.Extends db' :=
  h.world.extends (.of_map_eq (map_lasting h.jobs upd_setResult_lasting)) (h.requests ▸ .refl)
    (Table.Extends.insert h.attempts)

theorem Queue.extends {id : Ident} (h : Queue db db' id) : db.Extends db' :=
  h.world.extends (.of_map_eq (map_lasting h.jobs upd_setResult_lasting)) (h.requests ▸ .refl) (h.attempts ▸ .refl)

theorem Client.extends (h : Client host db db') : db.Extends db' := by
  cases h with
  | world accounts sources assets operations jobs requests attempts =>
    exact ⟨accounts, sources, assets, .of_map_eq operations, jobs ▸ .refl, requests ▸ .refl, attempts ▸ .refl⟩
  | operation o fresh operations accounts sources assets jobs requests attempts =>
    exact ⟨accounts ▸ .refl, sources ▸ .refl, assets ▸ .refl, Table.Extends.insert operations, jobs ▸ .refl,
      requests ▸ .refl, attempts ▸ .refl⟩
  | jobs world requests attempts g rows lasting can =>
    exact world.extends (.of_map_eq (map_lasting rows lasting)) (requests ▸ .refl) (attempts ▸ .refl)
  | create world attempts new rows q request draft ids key jobs rooted covers =>
    refine world.extends ?_ (Table.Extends.insert request) (attempts ▸ .refl)
    unfold Table.Extends
    rw [rows, List.map_append]
    exact List.prefix_append _ _
  | tombstone world attempts jobs q request empty key =>
    exact world.extends (jobs ▸ .refl) (Table.Extends.insert request) (attempts ▸ .refl)
  | successor world requests attempts p row mem leaf insert source content parent draft a receipt job_id retryable =>
    exact world.extends (Table.Extends.insert insert) (requests ▸ .refl) (attempts ▸ .refl)
  | reconcile h unknown => exact h.extends

theorem Advance.job_id (h : Advance host db db' a a') : a'.job_id = a.job_id :=
  congrArg (fun x : Ident × AttemptDefinition × Ident × RuntimeIdentity => x.2.1.job_id) h.lasting

/-- the receipts after a move of one of them -/
theorem Advance.mem_attempts (h : Advance host db db' a a') {x : Attempt} :
    x ∈ db'.attempts ↔ x = a' ∨ x ∈ db.attempts ∧ x.job_id ≠ a.job_id := by
  obtain ⟨k, hk, hka, hkb⟩ := h.attempts
  rw [← Table.mem_rows, hk]
  constructor
  · intro hx
    obtain ⟨b, hb, rfl⟩ := List.mem_map.mp hx
    by_cases e : b.job_id = a.job_id
    · rw [Table.eq_of_key hb h.mem e, hka]
      exact .inl rfl
    · rw [hkb b hb e]
      exact .inr ⟨hb, e⟩
  · rintro (rfl | ⟨hx, hne⟩)
    · exact List.mem_map.mpr ⟨a, h.mem, hka⟩
    · exact List.mem_map.mpr ⟨x, hx, hkb x hx hne⟩

/-- an update of one receipt and of its job, from what it makes of them -/
theorem Advance.of_update (hj : db.Has j) (ha : a ∈ db.attempts) (hid : j.id = a.job_id) {p : Attempt → Bool}
    {f : Attempt → Attempt} (hp : p a = true) (hpk : ∀ b ∈ db.attempts, p b = true → b.job_id = a.job_id)
    (hf : (f a).lasting = a.lasting) (hnext : a.state.next (f a).state) (hrev : (f a).revision = a.revision + 1)
    (hw : db.SameWorld db') (hq : db'.requests = db.requests)
    (hatt : db'.attempts.rows = db.attempts.rows.map (Table.upd p f)) {g : JobRow → JobRow}
    (hjobs : db'.jobs.rows = db.jobs.rows.map g) (hgl : ∀ r, (g r).lasting = r.lasting)
    (hgk : ∀ r ∈ db.jobs, r.id ≠ a.job_id → g r = r)
    (hv : ∀ r ∈ db.jobs, r.id = a.job_id → r.state = j.state → r.code = j.code → ∀ k : Job,
      k.payload = j.payload → k.state = (g r).state → k.code = (g r).code → attemptStateIsValid k (f a) = true) :
    Advance host db db' a (f a) := by
  have hoff : ∀ b ∈ db.attempts, b.job_id ≠ a.job_id → Table.upd p f b = b := by
    intro b hb hne
    cases hpb : p b with
    | true => exact absurd (hpk b hb hpb) hne
    | false => exact Table.upd_neg hpb
  have hkeep : db'.attempts.rows.map Attempt.lasting = db.attempts.rows.map Attempt.lasting := by
    rw [hatt, List.map_map]
    refine List.map_congr_left (fun b hb => ?_)
    show (Table.upd p f b).lasting = b.lasting
    by_cases e : b.job_id = a.job_id
    · rw [Table.eq_of_key hb ha e, Table.upd_pos hp, hf]
    · rw [hoff b hb e]
  have he : db.Extends db' :=
    hw.extends (.of_map_eq (map_lasting hjobs hgl)) (hq ▸ .refl) (.of_map_eq hkeep)
  refine ⟨hw, hq, ha, hf, hnext, hrev, ⟨Table.upd p f, hatt, Table.upd_pos hp, hoff⟩, ⟨g, hjobs, hgl, hgk⟩, ?_⟩
  intro k hk hkid
  have el := he.has_eq hj hk (by rw [hkid, hid])
  obtain ⟨r', hr', hrid, -, -, hst, hco, -⟩ := hk.row
  rw [← Table.mem_rows, hjobs] at hr'
  obtain ⟨r, hr, rfl⟩ := List.mem_map.mp hr'
  have hgid : (g r).id = r.id := congrArg Prod.fst (hgl r)
  have hrj : r.id = a.job_id := by rw [← hgid, hrid, hkid]
  obtain ⟨s, hs, hsid, -, -, hss, hsc, -⟩ := hj.row
  have e : r = s := Table.eq_of_key hr hs (by rw [hrj, hsid, hid])
  subst e
  exact hv r hr hrj hss hsc k (Job.lasting_payload el) hst.symm hco.symm

theorem Move.extends (h : Move host db db') : db.Extends db' := by
  cases h with
  | client h => exact h.extends
  | queue h => exact h.extends
  | reserve h => exact h.extends
  | advance h => exact h.extends

theorem Chain.extends (h : Chain host db db') : db.Extends db' := by
  induction h with
  | refl => exact .refl
  | tail _ hm ih => exact ih.trans hm.extends

/-! ## receipts -/

/-- the execution of the job is not over -/
def AttemptState.isOpen : AttemptState → Bool
  | .reserved | .dispatchMayHaveStarted => true
  | .responded | .unknown | .reconciled => false

/-- a client call neither makes an open receipt nor moves one -/
theorem Client.open_receipt (h : Client host db db') {x : Attempt} (hx : x.state.isOpen = true) :
    x ∈ db'.attempts ↔ x ∈ db.attempts := by
  cases h with
  | world _ _ _ _ _ _ attempts | operation _ _ _ _ _ _ _ _ attempts | jobs _ _ attempts | create _ attempts
  | tombstone _ attempts | successor _ _ attempts => rw [attempts]
  | @reconcile a a' h unknown =>
    have hnext := h.next
    rw [unknown] at hnext
    rw [h.mem_attempts]
    constructor
    · rintro (rfl | ⟨hm, -⟩)
      · cases hs : x.state <;> rw [hs] at hx hnext
        · exact hnext.elim
        · exact hnext.elim
        · cases hx
        · cases hx
        · cases hx
      · exact hm
    · intro hm
      refine .inr ⟨hm, fun e => ?_⟩
      rw [Table.eq_of_key hm h.mem e, unknown] at hx
      cases hx

theorem Clients.open_receipt (h : Clients host db db') {x : Attempt} (hx : x.state.isOpen = true) :
    x ∈ db'.attempts ↔ x ∈ db.attempts := by
  induction h with
  | refl => exact Iff.rfl
  | tail _ hm ih => rw [hm.open_receipt hx, ih]

/-! ## the ledger -/

/-- the jobs a request reads back have the same lasting part in a store that grew -/
theorem each_getJob_extends (h : db.Extends db') {ids : List Ident} {jobs : List Job}
    (hg : each (getJob db) ids = .ok jobs) :
    ∃ jobs', each (getJob db') ids = .ok jobs' ∧ jobs'.map Job.lasting = jobs.map Job.lasting := by
  have hall := each_forall₂ hg
  clear hg
  induction hall with
  | nil => exact ⟨[], rfl, rfl⟩
  | @cons id j ids js hx _ ih =>
    obtain ⟨hhas, hid⟩ := getJob_has hx
    obtain ⟨j', hj', el⟩ := h.has hhas
    obtain ⟨js', hjs', els⟩ := ih
    refine ⟨j' :: js', each_cons_eq_ok.mpr ⟨j', js', ?_, hjs', rfl⟩, by rw [List.map_cons, List.map_cons, el, els]⟩
    have : j'.id = id := by rw [Job.lasting_id el, hid]
    rw [← this]
    exact hj'

/-- the digest of a request depends on the lasting part of its jobs alone -/
theorem workflowRequestDigestFromJobs_congr {jobs jobs' : List Job}
    (h : jobs'.map Job.lasting = jobs.map Job.lasting) :
    workflowRequestDigestFromJobs host jobs' = workflowRequestDigestFromJobs host jobs := by
  have hacc : jobs'.map Job.account_id = jobs.map Job.account_id := by
    have := congrArg (List.map (fun x : Ident × (Ident × Target) × Option Ident => x.2.1.2.account_id)) h
    rwa [List.map_map, List.map_map] at this
  have hsrc : jobs'.map Job.source_id = jobs.map Job.source_id := by
    have := congrArg (List.map (fun x : Ident × (Ident × Target) × Option Ident => x.2.1.1)) h
    rwa [List.map_map, List.map_map] at this
  have hent : jobs'.map Job.entry = jobs.map Job.entry := by
    have := congrArg (List.map (fun x : Ident × (Ident × Target) × Option Ident => x.2.1.2.entry)) h
    rwa [List.map_map, List.map_map] at this
  cases jobs with
  | nil =>
    rw [List.map_nil, List.map_eq_nil_iff] at h
    rw [h]
  | cons j js =>
    cases jobs' with
    | nil => cases h
    | cons j' js' =>
      have hs : j'.source_id = j.source_id := (List.cons.inj hsrc).1
      have hall : (∀ x ∈ j' :: js', x.source_id = j'.source_id) ↔ ∀ x ∈ j :: js, x.source_id = j.source_id := by
        rw [← List.forall_mem_map (f := Job.source_id) (P := fun s => s = j'.source_id), hsrc, hs,
          List.forall_mem_map]
      simp only [workflowRequestDigestFromJobs, hacc, hent, hs]
      rw [hs] at hall
      unfold require
      simp only [hall]

theorem DB.Rooted.mono (h : db.Extends db') {q : Request} {jobs : List Job} (hr : db.Rooted host q jobs) :
    ∃ jobs', db'.Rooted host q jobs' := by
  obtain ⟨jobs', hgot, hl⟩ := each_getJob_extends h hr.got
  refine ⟨jobs', hgot, ?_, hr.count, by rw [workflowRequestDigestFromJobs_congr hl, hr.digest]⟩
  have hof : jobs'.map Job.retry_of = jobs.map Job.retry_of := by
    have := congrArg (List.map (fun x : Ident × (Ident × Target) × Option Ident => x.2.2)) hl
    rwa [List.map_map, List.map_map] at this
  have hall := hr.roots
  rw [← List.forall_mem_map (f := Job.retry_of) (P := fun o => o = none)] at hall ⊢
  rw [hof]
  exact hall

theorem JobRow.lasting_inj {r s : JobRow} (h : r.lasting = s.lasting) :
    r.id = s.id ∧ r.source_id = s.source_id ∧ r.content = s.content ∧ r.retry_of = s.retry_of := by
  obtain ⟨h1, h⟩ := Prod.mk.inj h
  obtain ⟨h2, h⟩ := Prod.mk.inj h
  exact ⟨h1, h2, Prod.mk.inj h⟩

/-- the ledger of a store that grew, from what it says about the rows that are new -/
theorem DB.LedgerOK.grow (h : db.LedgerOK host) (he : db.Extends db')
    (hnew : ∀ r' ∈ db'.jobs, (∃ r ∈ db.jobs, r'.lasting = r.lasting) ∨
      (∃ a ∈ db'.accounts, a.id = r'.content.account_id) ∧ (∃ s ∈ db'.sources, s.id = r'.source_id) ∧
      (∀ id, (r'.content.cover_landscape_asset_id = some id ∨ r'.content.cover_portrait_asset_id = some id) →
        ∃ a ∈ db'.assets, a.id = id) ∧
      (∀ p, r'.retry_of = some p → ∃ r ∈ db'.jobs, r.id = p ∧ r.source_id = r'.source_id ∧
        r.content = r'.content ∧ db'.jobs.rank p < db'.jobs.rank r'.id) ∧
      (r'.retry_of = none → ∃ q ∈ db'.requests, r'.id ∈ q.job_ids))
    (hchild : ∀ c ∈ db'.jobs, ∀ d ∈ db'.jobs, ∀ p, c.retry_of = some p → d.retry_of = some p → c = d)
    (hreq : ∀ q ∈ db'.requests, q ∈ db.requests ∨ (isRequestId q.id = true ∧ q.digest_version = .v2) ∧
      (q.job_ids ≠ [] → ∃ jobs, db'.Rooted host q jobs) ∧
      (∀ q' ∈ db'.requests, ∀ id, id ∈ q.job_ids → id ∈ q'.job_ids → q = q')) :
    db'.LedgerOK host where
  accounts := by
    intro r' hr'
    rcases hnew r' hr' with ⟨r, hr, e⟩ | ⟨hacc, -⟩
    · obtain ⟨-, -, e3, -⟩ := JobRow.lasting_inj e
      obtain ⟨a, ha, hra⟩ := h.accounts r hr
      obtain ⟨a', ha', e1, -⟩ := he.account ha
      exact ⟨a', ha', by rw [e1, hra, e3]⟩
    · exact hacc
  sources := by
    intro r' hr'
    rcases hnew r' hr' with ⟨r, hr, e⟩ | ⟨-, hsrc, -⟩
    · obtain ⟨-, e2, -, -⟩ := JobRow.lasting_inj e
      obtain ⟨s, hs, hrs⟩ := h.sources r hr
      obtain ⟨s', hs', e1, -⟩ := he.source hs
      exact ⟨s', hs', by rw [e1, hrs, e2]⟩
    · exact hsrc
  covers := by
    intro r' hr' id hid
    rcases hnew r' hr' with ⟨r, hr, e⟩ | ⟨-, -, hcov, -⟩
    · obtain ⟨-, -, e3, -⟩ := JobRow.lasting_inj e
      rw [e3] at hid
      obtain ⟨a, ha, hra⟩ := h.covers r hr id hid
      obtain ⟨a', ha', e1, -⟩ := he.asset ha
      exact ⟨a', ha', by rw [e1, hra]⟩
    · exact hcov id hid
  parents := by
    intro c' hc' p hp
    rcases hnew c' hc' with ⟨c, hc, e⟩ | ⟨-, -, -, hpar, -⟩
    · obtain ⟨e1, e2, e3, e4⟩ := JobRow.lasting_inj e
      obtain ⟨r, hr, rfl, hs, hcon, hrank⟩ := h.parents c hc p (by rw [← e4, hp])
      obtain ⟨r', hr', er⟩ := he.job hr
      obtain ⟨f1, f2, f3, -⟩ := JobRow.lasting_inj er
      refine ⟨r', hr', f1, by rw [f2, hs, e2], by rw [f3, hcon, e3], ?_⟩
      rw [he.rank hr, e1, he.rank hc]
      exact hrank
    · exact hpar p hp
  children := hchild
  keys := by
    intro q hq
    rcases hreq q hq with hq | ⟨hk, -⟩
    · exact h.keys q hq
    · exact hk
  rooted := by
    intro q hq hne
    rcases hreq q hq with hq | ⟨-, hroot, -⟩
    · obtain ⟨jobs, hr⟩ := h.rooted q hq hne
      exact hr.mono he
    · exact hroot hne
  owned := by
    intro r' hr' hnone
    rcases hnew r' hr' with ⟨r, hr, e⟩ | ⟨-, -, -, -, hown⟩
    · obtain ⟨e1, -, -, e4⟩ := JobRow.lasting_inj e
      obtain ⟨q, hq, hm⟩ := h.owned r hr (by rw [← e4, hnone])
      exact ⟨q, he.request hq, by rw [e1]; exact hm⟩
    · exact hown hnone
  owner := by
    intro q hq q' hq' id hm hm'
    rcases hreq q hq with h1 | ⟨-, -, huniq⟩
    · rcases hreq q' hq' with h2 | ⟨-, -, huniq⟩
      · exact h.owner q h1 q' h2 id hm hm'
      · exact (huniq q hq id hm' hm).symm
    · exact huniq q' hq' id hm hm'

/-- no job and no request is new -/
theorem DB.LedgerOK.keep (h : db.LedgerOK host) (he : db.Extends db')
    (hjobs : db'.jobs.rows.map JobRow.lasting = db.jobs.rows.map JobRow.lasting)
    (hreq : db'.requests = db.requests) : db'.LedgerOK host := by
  have hold : ∀ r' ∈ db'.jobs, ∃ r ∈ db.jobs, r'.lasting = r.lasting := by
    intro r' hr'
    have hm : r'.lasting ∈ db.jobs.rows.map JobRow.lasting := hjobs ▸ List.mem_map_of_mem hr'
    obtain ⟨r, hr, e⟩ := List.mem_map.mp hm
    exact ⟨r, hr, e.symm⟩
  refine h.grow he (fun r' hr' => .inl (hold r' hr')) ?_ (fun q hq => .inl (hreq ▸ hq))
  intro c' hc' d' hd' p hc hd
  obtain ⟨c, hcm, ec⟩ := hold c' hc'
  obtain ⟨d, hdm, ed⟩ := hold d' hd'
  obtain ⟨e1, -, -, e4⟩ := JobRow.lasting_inj ec
  obtain ⟨f1, -, -, f4⟩ := JobRow.lasting_inj ed
  have := h.children c hcm d hdm p (by rw [← e4, hc]) (by rw [← f4, hd])
  exact Table.eq_of_key hc' hd' (by rw [e1, f1, this])

end
end OpenFlame.Upload
