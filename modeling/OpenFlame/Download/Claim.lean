import OpenFlame.Base.Text
import OpenFlame.Download.Finish

/-!
# Claiming a job

`recoverExpired`   jobs whose lease ran out go back to the queue, fail or end canceled
`claimLoop`        the first claimable job in the order of creation; jobs that turn out to be
                   impossible fail on the way
`claimNext`        the transaction of `claim_next`, after its asset recovery

The identifiers `uuid4` would draw are part of the request.

`recoverExpired_chain`, `claimNext_spec`: what a claim does, as moves.
-/

set_option linter.all false

namespace OpenFlame.Download
open Guard

/-! ## expired leases -/

/-- `column = ?` for a value that may be `NULL` -/
def sqlEq (column value : Option Id) : Bool := value.isSome && column == value

/-- `job_id = ? AND lease_token = ? AND status = 'running'` -/
def Attempt.runningFor (job_id : Id) (lease_token : Option Id) (a : Attempt) : Bool :=
  a.job_id == job_id && sqlEq (some a.lease_token) lease_token && a.status == .running

def Attempt.stopped (status : AttemptStatus) (now_text : Time) (error_code : Option ErrorCode)
    (diagnostic : Option String) (a : Attempt) : Attempt :=
  { a with
    status := status
    finished_at := some now_text
    error_code := error_code
    diagnostic := diagnostic }

@[simp] theorem Attempt.stopped_id (st : AttemptStatus) (n : Time) (e : Option ErrorCode)
    (d : Option String) (a : Attempt) : (a.stopped st n e d).id = a.id := rfl

/-- `_release_half_open_locked` with the token of a row -/
def releaseProbe (db : DB) (job_id : Id) (lease_token : Option Id) (now_text : Time) : DB :=
  match lease_token with
  | some t => releaseHalfOpenLocked db job_id t now_text
  | none => db

/-- one iteration of `_recover_expired` -/
def recoverExpiredRow (now_text : Time) (db : DB) (row : Job) : Txn DB := do
  let db := releaseProbe db row.id row.lease_token now_text
  if row.cancel_requested_at.isSome then
    let db := { db with
      attempts := db.attempts.update (Attempt.runningFor row.id row.lease_token)
        (Attempt.stopped .canceled now_text none none) (Attempt.stopped_id _ _ _ _) }
    let db := { db with
      jobs := db.jobs.update (fun j => j.id == row.id && sqlEq j.lease_token row.lease_token) (fun j =>
        { j with
          status := .canceled
          final_error_code := none
          lease_owner := none
          lease_token := none
          heartbeat_at := none
          lease_expires_at := none
          available_at := some now_text
          updated_at := now_text }) (fun j => Table.col_kept Job.id j) }
    markInputAndRefreshBatch db row.id .canceled none none now_text
  else
    let db := { db with
      attempts := db.attempts.update (Attempt.runningFor row.id row.lease_token)
        (Attempt.stopped .abandoned now_text (some .workerLost) (some "worker lease expired"))
        (Attempt.stopped_id _ _ _ _) }
    let exhausted := decide (MAX_ATTEMPTS ≤ row.generation_attempt_count)
    let db := { db with
      jobs := db.jobs.update (fun j => j.id == row.id && sqlEq j.lease_token row.lease_token) (fun j =>
        { j with
          status := if exhausted then .failed else .queued
          progress := 0
          final_error_code := if exhausted then some .workerLost else none
          lease_owner := none
          lease_token := none
          heartbeat_at := none
          lease_expires_at := none
          cancel_requested_at := none
          available_at := some now_text
          updated_at := now_text }) }
    if exhausted then
      markInputAndRefreshBatch db row.id .failed (some .workerLost) (some "worker lease expired") now_text
    else
      return db

/-- `ORDER BY lease_expires_at, id` -/
def Job.expiresBefore (a b : Job) : Bool :=
  decide (a.lease_expires_at.getD 0 < b.lease_expires_at.getD 0) ||
    (a.lease_expires_at == b.lease_expires_at && decide (a.id ≤ b.id))

/-- the rows `_recover_expired` selects: active, expired, without a pending intent -/
def DB.expiredRows (db : DB) (now_text : Time) : List Job :=
  (db.jobs.filter (fun j => j.status.isActive &&
    (match j.lease_expires_at with
     | some e => decide (e ≤ now_text)
     | none => false) &&
    !db.intents.any (fun i => i.job_id == j.id))).mergeSort Job.expiresBefore

/-- `_recover_expired` -/
def recoverExpired (db : DB) (now_text : Time) : Txn DB :=
  thread (recoverExpiredRow now_text) db (db.expiredRows now_text)

/-! ## the queue -/

structure AdapterRoute where
  platform : Platform
  source_type : SourceType
  job_kind : JobKind
  deriving DecidableEq, Repr

structure ClaimRequest where
  worker_id : String
  adapter : String
  adapter_version : String
  now : Clock
  lease_seconds : Int
  supports_exact_selector : Bool
  skip_unsupported_graph_jobs : Bool
  supported_routes : Option (List AdapterRoute)
  claim_gate_run_id : Option String
  perform_recovery : Bool
  excluded_job_ids : List Id
  attempt_id : Id
  lease_token : Id

/-- the circuit of the platform lets a claim through -/
def Circuit.admits (now_text : Time) (c : Circuit) : Bool :=
  c.state == .closed ||
    (c.state == .opened && !c.requires_manual_reset &&
      (match c.cooldown_until with
       | some t => decide (t ≤ now_text)
       | none => false))

/-- the `WHERE` clause of the claim query, `s` being the joined source -/
def DB.claimable (db : DB) (req : ClaimRequest) (now_text : Time) (j : Job) : Bool :=
  match db.sources.get j.source_item_id with
  | none => false
  | some s =>
    j.status == .queued && !req.excluded_job_ids.contains j.id &&
    (!req.skip_unsupported_graph_jobs || (j.job_kind != .discover && s.source_type != .xAttachment)) &&
    (match req.supported_routes with
     | none => true
     | some routes => routes.contains ⟨s.platform, s.source_type, j.job_kind⟩) &&
    !db.intents.any (fun i => i.job_id == j.id) &&
    decide (j.available_at.getD j.created_at ≤ now_text) &&
    decide (j.generation_attempt_count < MAX_ATTEMPTS) &&
    (match db.circuits.get s.platform with
     | none => true
     | some c => c.admits now_text) &&
    decide (db.jobs.count (fun a => a.status.isActive) < MAX_ACTIVE_JOBS) &&
    !db.jobs.any (fun a => a.status.isActive && db.platformOf a == some s.platform)

/-- `ORDER BY j.created_at, j.rowid LIMIT 1` -/
def DB.nextClaimable (db : DB) (req : ClaimRequest) (now_text : Time) : Option Job :=
  Table.leastBy (fun r s => decide (r.created_at < s.created_at))
    (db.jobs.filter (db.claimable req now_text))

/-- `_graph_shape_valid_for_claim` -/
def graphShapeValidForClaim (db : DB) (j : Job) (s : SourceItem) : Bool :=
  let target := db.targets.get j.id
  if j.job_kind = .discover then s.source_type == .xPost && target.isNone
  else if s.source_type = .xAttachment then
    match target with
    | some t => (db.sources.get t.fetch_source_item_id).isSome
    | none => false
  else true

/-- `_OPAQUE_REFERENCE.fullmatch` -/
def isOpaqueReference (value : String) : Bool :=
  match value.toList with
  | [] => false
  | c :: cs => c.isAlphanum && cs.all (fun d => d.isAlphanum || d == '_' || d == '.' || d == '-') &&
      decide (cs.length ≤ 63)

/-- `_credential_is_valid_for_claim` -/
def credentialIsValidForClaim (db : DB) (j : Job) (s : SourceItem) (now : Clock) : Bool :=
  match j.credential_profile_id with
  | none => true
  | some profile_id =>
    match db.credentials.get profile_id with
    | none => false
    | some c => c.platform == s.platform && c.disabled_at.isNone && isOpaqueReference c.secret_ref &&
        (match c.expires_at with
         | none => true
         | some e => decide (now < e * 1000))

/-- what `_fail_graph_claim_locked` and `_fail_invalid_credential_locked` share -/
def failQueuedLocked (db : DB) (job_id : Id) (error_code : ErrorCode) (diagnostic lost : String)
    (now_text : Time) : Txn DB := do
  require (db.jobs.count (fun j => j.id == job_id && j.status == .queued) = 1) (.runtimeError lost)
  let db := { db with
    jobs := db.jobs.update (fun j => j.id == job_id && j.status == .queued) (fun j =>
      { j with
        status := .failed
        progress := 0
        final_error_code := some error_code
        lease_owner := none
        lease_token := none
        heartbeat_at := none
        lease_expires_at := none
        cancel_requested_at := none
        available_at := some now_text
        updated_at := now_text }) }
  markInputAndRefreshBatch db job_id .failed (some error_code) (some diagnostic) now_text

/-- `_fail_graph_claim_locked` -/
def failGraphClaimLocked (db : DB) (job_id : Id) (error_code : ErrorCode) (diagnostic : String)
    (now_text : Time) : Txn DB :=
  failQueuedLocked db job_id error_code diagnostic "graph capability preflight lost queued job" now_text

/-- `_fail_invalid_credential_locked` -/
def failInvalidCredentialLocked (db : DB) (job_id : Id) (now_text : Time) : Txn DB :=
  failQueuedLocked db job_id .authenticationRequired
    "credential profile is unavailable or invalid for this job" "credential preflight lost queued job"
    now_text

/-- the job a claim settles on, with its source -/
structure Pick where
  db : DB
  row : Option (Job × SourceItem)

/-- `while True: ..`: each round either settles on a job or fails one queued job for good, so as many
rounds as there are queued jobs, and one more, are enough (`claimLoop_rounds`) -/
def claimLoop (req : ClaimRequest) (now_text : Time) : Nat → DB → Txn Pick
  | 0, _ => throw (.runtimeError "unreachable")
  | rounds + 1, db =>
    match db.nextClaimable req now_text with
    | none => return ⟨db, none⟩
    | some j => do
      let s ← fetch (db.sources.get j.source_item_id) (.runtimeError "unreachable")
      let is_graph_job := j.job_kind == .discover || s.source_type == .xAttachment
      if is_graph_job && !req.supports_exact_selector then
        let db ← failGraphClaimLocked db j.id .adapterUnsupported
          "adapter does not support exact attachment selection" now_text
        claimLoop req now_text rounds db
      else if is_graph_job && !graphShapeValidForClaim db j s then
        let db ← failGraphClaimLocked db j.id .validationFailed "graph job target is invalid" now_text
        claimLoop req now_text rounds db
      else if credentialIsValidForClaim db j s req.now then
        return ⟨db, some (j, s)⟩
      else
        let db ← failInvalidCredentialLocked db j.id now_text
        claimLoop req now_text rounds db

def DB.queuedCount (db : DB) : Nat := db.jobs.count (fun j => j.status == .queued)

/-- `id = ? AND status = 'queued' AND run_generation = ? AND generation_attempt_count = ?` -/
def Job.stillQueued (row j : Job) : Bool :=
  j.id == row.id && j.status == .queued && j.run_generation == row.run_generation &&
    j.generation_attempt_count == row.generation_attempt_count

/-- `platform = ? AND state = 'open' AND requires_manual_reset = 0 AND cooldown_until <= ?` -/
def Circuit.cooledDown (platform : Platform) (now_text : Time) (c : Circuit) : Bool :=
  c.platform == platform && c.state == .opened && !c.requires_manual_reset &&
    (match c.cooldown_until with
     | some t => decide (t ≤ now_text)
     | none => false)

/-- the circuit becomes the probe of the new lease, when it is open -/
def probeCircuit (db : DB) (platform : Platform) (job_id lease_token : Id) (now_text : Time) : Txn DB :=
  match db.circuits.get platform with
  | none => return db
  | some circuit =>
    if circuit.state = .opened then do
      require (db.circuits.count (Circuit.cooledDown platform now_text) = 1)
        (.runtimeError "platform circuit probe claim was lost")
      return { db with
        circuits := db.circuits.update (Circuit.cooledDown platform now_text) (fun c =>
          { c with
            state := .halfOpen
            probe_job_id := some job_id
            probe_lease_token := some lease_token
            updated_at := now_text }) }
    else return db

/-- the `UPDATE`, the attempt and the probe of a claim, and the lease it returns -/
def takeJob (db : DB) (req : ClaimRequest) (now_text : Time) (row : Job) (s : SourceItem) :
    Txn (DB × JobLease) := do
  let expires_text := utcText (req.now + seconds req.lease_seconds)
  require (db.jobs.count row.stillQueued = 1)
    (.runtimeError "job claim lost inside immediate transaction")
  let jobs := db.jobs.update row.stillQueued (fun j =>
    { j with
      status := .probing
      lease_owner := some req.worker_id
      lease_token := some req.lease_token
      heartbeat_at := some now_text
      lease_expires_at := some expires_text
      attempt_count := row.attempt_count + 1
      generation_attempt_count := row.generation_attempt_count + 1
      updated_at := now_text })
  require (db.attempts.any (fun a => a.job_id == row.id && a.attempt_no == row.attempt_count + 1) = false)
    .integrityError
  let attempts ← fetch (db.attempts.insert
    { id := req.attempt_id
      job_id := row.id
      attempt_no := row.attempt_count + 1
      adapter := req.adapter
      adapter_version := req.adapter_version
      status := .running
      finished_at := none
      error_code := none
      diagnostic := none
      exit_code := none
      discovered_item_count := none
      discovery_snapshot_hash := none
      lease_token := req.lease_token
      run_generation := row.run_generation
      generation_attempt_no := row.generation_attempt_count + 1 }) .integrityError
  let target := db.targets.get row.id
  let db ← probeCircuit { db with jobs, attempts } s.platform row.id req.lease_token now_text
  return (db,
    { job_id := row.id
      attempt_id := req.attempt_id
      attempt_no := row.attempt_count + 1
      lease_token := req.lease_token
      worker_id := req.worker_id
      lease_expires_at := expires_text
      source_item_id := row.source_item_id
      canonical_url :=
        match target with
        | none => s.canonical_url
        | some t => ((db.sources.get t.fetch_source_item_id).map SourceItem.canonical_url).getD ""
      platform := s.platform
      source_type := s.source_type
      adapter := req.adapter
      adapter_version := req.adapter_version
      job_kind := row.job_kind
      run_generation := row.run_generation
      selector_key := target.map JobTarget.selector_key
      expected_media_key := target.map JobTarget.expected_media_key
      expected_media_kind := target.map JobTarget.expected_media_kind
      credential_ref := (row.credential_profile_id.bind db.credentials.get).map
        CredentialProfile.secret_ref })

/-- the claim gate is open for this run and worker -/
def ClaimGate.opens (gate : ClaimGate) (run_id worker_id : String) : Bool :=
  gate.run_id == some run_id && gate.worker_id == some worker_id && gate.accepting_claims &&
    gate.activated_at.isSome && gate.stop_requested_at.isNone

/-- nothing can be claimed now: no route, a closed gate, a paused queue -/
def ClaimRequest.refused (req : ClaimRequest) (db : DB) : Bool :=
  req.supported_routes == some [] ||
    (match req.claim_gate_run_id with
     | some run_id => !db.gate.opens run_id req.worker_id
     | none => false) || db.queue.paused

/-- `if _perform_recovery: self._recover_expired(..)` -/
def ClaimRequest.recover (req : ClaimRequest) (db : DB) (now_text : Time) : Txn DB :=
  if req.perform_recovery then recoverExpired db now_text else return db

/-- the transaction of `claim_next` -/
def claimNext (db : DB) (req : ClaimRequest) : Txn (DB × Option JobLease) := do
  require (¬ Text.isBlank req.worker_id.toList) (.valueError "worker_id is required")
  require (10 ≤ req.lease_seconds) (.valueError "lease_seconds must be at least 10")
  require (req.excluded_job_ids.length ≤ 64)
    (.valueError "excluded job identities must be a bounded frozenset")
  require ((req.supported_routes.getD []).length ≤ 64)
    (.valueError "supported_routes exceeds the route limit")
  let now_text := utcText req.now
  if req.refused db then
    return (db, none)
  else
    let db ← req.recover db now_text
    let pick ← claimLoop req now_text (db.queuedCount + 1) db
    match pick.row with
    | none => return (pick.db, none)
    | some (row, s) =>
      let (db, lease) ← takeJob pick.db req now_text row s
      return (db, some lease)

/-! ## what they do -/

/-- nothing but leases, inputs, batches and circuits changed; no attempt came -/
structure Quiet (db db' : DB) : Prop where
  attempts : db.attempts.Evolves Attempt.Same db'.attempts
  intents : db'.intents = db.intents

theorem Quiet.refl (db : DB) : Quiet db db := ⟨Table.Evolves.refl (fun a _ => .refl a), rfl⟩

theorem Quiet.trans {db db' db'' : DB} (h : Quiet db db') (h' : Quiet db' db'') : Quiet db db'' where
  attempts := h.attempts.trans h'.attempts (fun _ _ _ hab hbc =>
    ⟨hbc.id.trans hab.id, hbc.job.trans hab.job, hbc.token.trans hab.token,
      hbc.generation.trans hab.generation⟩)
  intents := h'.intents.trans h.intents

section
variable (may : Id → Id → Prop) {db db' : DB} {now : Time}

theorem Attempt.runningFor_iff {k t : Id} {a : Attempt} : a.runningFor k (some t) = true ↔
    a.job_id = k ∧ a.lease_token = t ∧ a.status = .running := by
  simp [runningFor, sqlEq, and_assoc]

/-- stopping the running attempt of a job by its token -/
theorem closed_of_job (hinv : db.LeaseOK) {j : Job} (hj : j ∈ db.jobs) {t : Id}
    (ht : j.lease_token = some t) {attempts} {g : Attempt → Attempt}
    (hrows : attempts.rows = db.attempts.rows.map (Table.upd (Attempt.runningFor j.id (some t)) g))
    (hg : ∀ a, Attempt.Same a (g a) ∧ (g a).status ≠ .running) :
    db.attempts.Evolves (Attempt.Closed t) attempts := by
  refine Table.Evolves.of_rows hrows (fun a ha => ?_)
  cases hp : a.runningFor j.id (some t) with
  | true =>
    rw [Table.upd_pos hp]
    exact ⟨(hg a).1, .inr ⟨(Attempt.runningFor_iff.mp hp).2.1, (hg a).2⟩⟩
  | false =>
    rw [Table.upd_neg hp]
    refine ⟨.refl a, .inl ⟨rfl, fun hrun hat => ?_⟩⟩
    -- the attempt with this token belongs to `j`, so the update met it
    have hown := (hinv.of_token hj ht ha hat).1
    rw [Attempt.runningFor_iff.mpr ⟨hown, hat, hrun⟩] at hp
    cases hp

theorem heldToken_one {j : Job} (hj : j ∈ db.jobs) {t : Id} (ht : j.lease_token = some t) :
    ∀ s ∈ db.jobs, (s.id == j.id && sqlEq s.lease_token (some t)) = true ↔ s.id = j.id := by
  intro s hs
  constructor
  · intro h
    exact beq_iff_eq.mp ((Bool.and_eq_true ..).mp h).1
  · intro hid
    rw [Table.eq_of_key hs hj hid, ht]
    simp [sqlEq]

/-- lease `t` on job `j` was taken away -/
structure Recovered (may : Id → Id → Prop) (db db' : DB) (j : Job) (t : Id) : Prop where
  chain : Chain may db.settled db'.settled
  jobs : ∃ st, db.jobs.Evolves (Only (Job.Ended st) j) db'.jobs
  attempts : db.attempts.Evolves (Attempt.Closed t) db'.attempts
  media : db'.media = db.media
  intents : db'.intents = db.intents

theorem Recovered.quiet {j : Job} {t : Id} (h : Recovered may db db' j t) : Quiet db db' :=
  ⟨h.attempts.mono (fun _ _ hc => hc.1), h.intents⟩

/-- a lease that ends its job -/
theorem recovered_of_writes {row : Job} {t : Id} (st : JobStatus) (hterminal : st.isTerminal = true)
    (hrow : row ∈ db.jobs) (hactive : row.status.isActive = true) (ht : row.lease_token = some t)
    (hcancel : st = .canceled ∨ row.cancel_requested_at = none) {jobs attempts circuits}
    (hjobs : db.jobs.Evolves (Only (Job.Ended st) row) jobs)
    (hattempts : db.attempts.Evolves (Attempt.Closed t) attempts)
    (hcircuits : Released db.circuits circuits (db.platformOf row) row.id t)
    {s₀ : InputStatus} {e₀ : Option ErrorCode} {m₀ : Option String}
    (h : markInputAndRefreshBatch { db with jobs, attempts, circuits } row.id s₀ e₀ m₀ now = .ok db') :
    Recovered may db db' row t := by
  have hframe := h
  obtain ⟨-, -, -, -, -, -, -, inputs, batches, rfl⟩ := markInput_chain may hframe
  exact {
    chain := (leaseEnded_of_writes hterminal hrow hactive ht hcancel hjobs hattempts hcircuits
      (fun m hm => .inl hm) h).1.chain
    jobs := ⟨st, hjobs⟩
    attempts := hattempts
    media := rfl
    intents := rfl }

/-- a lease whose job may be tried again -/
theorem recovered_requeued {row : Job} {t : Id} (hrow : row ∈ db.jobs)
    (hactive : row.status.isActive = true) (ht : row.lease_token = some t)
    (hcount : row.generation_attempt_count < MAX_ATTEMPTS) (hcancel : row.cancel_requested_at = none)
    {jobs attempts circuits} (hjobs : db.jobs.Evolves (Only (Job.Ended .queued) row) jobs)
    (hattempts : db.attempts.Evolves (Attempt.Closed t) attempts)
    (hcircuits : Released db.circuits circuits (db.platformOf row) row.id t)
    (h : { db with jobs, attempts, circuits } = db') : Recovered may db db' row t := by
  subst h
  exact {
    chain := (leaseEnded_requeued hrow hactive ht hcount hcancel hjobs hattempts hcircuits).chain
    jobs := ⟨.queued, hjobs⟩
    attempts := hattempts
    media := rfl
    intents := rfl }

theorem Attempt.stopped_same (st : AttemptStatus) (e : Option ErrorCode) (d : Option String)
    (hst : st ≠ .running) (a : Attempt) :
    Attempt.Same a (a.stopped st now e d) ∧ (a.stopped st now e d).status ≠ .running :=
  ⟨⟨rfl, rfl, rfl, rfl⟩, hst⟩

/-- one iteration of `_recover_expired` on a row that is still as it was selected -/
theorem recoverExpiredRow_spec (hinv : db.LeaseOK) {row : Job} (hrow : row ∈ db.jobs)
    (hactive : row.status.isActive = true) (h : recoverExpiredRow now db row = .ok db') :
    ∃ t, Recovered may db db' row t := by
  obtain ⟨t, ht⟩ := Option.isSome_iff_exists.mp ((hinv.leased row hrow).mp hactive)
  have hone := heldToken_one hrow ht
  have hrel := releaseHalfOpen_released db (db.platformOf row) row.id t now
  refine ⟨t, ?_⟩
  simp only [recoverExpiredRow, ht, releaseProbe] at h
  split at h
  · refine recovered_of_writes may .canceled rfl hrow hactive ht (.inl rfl) ?_ ?_ hrel h
    · exact only_update hrow hone rfl ⟨⟨rfl, rfl, rfl, rfl, rfl, rfl, rfl⟩, ⟨rfl, rfl⟩, rfl, rfl⟩
    · exact closed_of_job hinv hrow ht rfl (Attempt.stopped_same .canceled none none (by decide))
  · next hcancel =>
    have hcancel : row.cancel_requested_at = none := by simpa using hcancel
    by_cases hexhausted : MAX_ATTEMPTS ≤ row.generation_attempt_count
    · simp only [hexhausted, decide_true, if_true] at h
      refine recovered_of_writes may .failed rfl hrow hactive ht (.inr hcancel) ?_ ?_ hrel h
      · exact only_update hrow hone rfl ⟨⟨rfl, rfl, rfl, rfl, rfl, rfl, rfl⟩, ⟨rfl, rfl⟩, rfl, rfl⟩
      · exact closed_of_job hinv hrow ht rfl (Attempt.stopped_same .abandoned _ _ (by decide))
    · simp only [hexhausted, decide_false, Bool.false_eq_true, if_false, pure_eq_ok] at h
      refine recovered_requeued may hrow hactive ht (by omega) hcancel ?_ ?_ hrel h
      · exact only_update hrow hone rfl ⟨⟨rfl, rfl, rfl, rfl, rfl, rfl, rfl⟩, ⟨rfl, rfl⟩, rfl, rfl⟩
      · exact closed_of_job hinv hrow ht rfl (Attempt.stopped_same .abandoned _ _ (by decide))

/-- the loop over the expired rows: each is still as it was selected when its turn comes -/
theorem recoverRows_spec {rows : List Job} :
    ∀ {db db' : DB}, db.LeaseOK → rows.Nodup →
      (∀ row ∈ rows, row ∈ db.jobs ∧ row.status.isActive = true) →
      thread (recoverExpiredRow now) db rows = .ok db' → Chain may db.settled db'.settled ∧ Quiet db db' := by
  induction rows with
  | nil =>
    intro db db' _ _ _ h
    cases h
    exact ⟨.refl, .refl db⟩
  | cons row rows ih =>
    intro db db' hinv hnd hrows h
    obtain ⟨hnotin, hnd⟩ := List.nodup_cons.mp hnd
    cases hx : recoverExpiredRow now db row with
    | error e => simp [thread, hx] at h
    | ok db₁ =>
      simp only [thread, hx] at h
      obtain ⟨hrow, hactive⟩ := hrows row (List.mem_cons_self ..)
      obtain ⟨t, hone⟩ := recoverExpiredRow_spec may hinv hrow hactive hx
      obtain ⟨st, hjobs⟩ := hone.jobs
      have hinv₁ : db₁.LeaseOK := LeaseInv.chain (s := db.settled) hinv hone.chain
      obtain ⟨hchain, hquiet⟩ := ih hinv₁ hnd (fun r hr => by
        obtain ⟨hmem, hact⟩ := hrows r (List.mem_cons_of_mem _ hr)
        exact ⟨only_others hjobs r hmem (fun e => hnotin (e ▸ hr)), hact⟩) h
      exact ⟨hone.chain.trans hchain, hone.quiet.trans hquiet⟩

theorem recoverExpired_spec (hinv : db.LeaseOK) (h : recoverExpired db now = .ok db') :
    Chain may db.settled db'.settled ∧ Quiet db db' := by
  have hnd : (db.expiredRows now).Nodup :=
    (List.mergeSort_perm _ Job.expiresBefore).nodup_iff.mpr (Table.nodup_filter ..)
  refine recoverRows_spec may hinv hnd (fun row hrow => ?_) h
  obtain ⟨hmem, hp⟩ := Table.mem_filter.mp (List.mem_mergeSort.mp hrow)
  simp only [Bool.and_eq_true] at hp
  exact ⟨hmem, hp.1.1⟩

/-- a queued job that can never run fails: moves, and one queued job less -/
theorem failQueuedLocked_spec {k : Id} {e : ErrorCode} {diagnostic lost : String}
    (h : failQueuedLocked db k e diagnostic lost now = .ok db') :
    Chain may db.settled db'.settled ∧ Quiet db db' ∧ db'.sources = db.sources ∧
      db'.queuedCount < db.queuedCount := by
  simp only [failQueuedLocked, bind_eq_ok, require_eq_ok] at h
  obtain ⟨-, hcount, h⟩ := h
  obtain ⟨j, hj, rfl, hp, hone⟩ := Table.rowcount_one hcount
    (fun r hr => beq_iff_eq.mp ((Bool.and_eq_true ..).mp hr).1)
  have hqueued : j.status = .queued := beq_iff_eq.mp ((Bool.and_eq_true ..).mp hp).2
  have hmark := fun hjobs => dropped_marked may hj hqueued hjobs h
  obtain ⟨hchain, inputs, batches, rfl⟩ := hmark (only_update hj hone rfl
    ⟨⟨rfl, rfl, rfl, rfl, rfl, rfl, rfl⟩, ⟨rfl, rfl⟩, .inl rfl, .inl rfl⟩)
  refine ⟨hchain, ⟨Table.Evolves.refl (fun a _ => .refl a), rfl⟩, rfl, ?_⟩
  show Table.count _ _ < db.jobs.count _
  rw [Table.count_update]
  refine Table.count_lt (fun r _ hr => ?_) hj (beq_iff_eq.mpr hqueued) ?_
  · unfold Table.upd at hr
    split at hr
    · next hpr => exact ((Bool.and_eq_true ..).mp hpr).2
    · exact hr
  · simp [Table.upd, hqueued]

/-- the job the claim loop stops at -/
structure Picked (req : ClaimRequest) (now : Time) (db : DB) (j : Job) (s : SourceItem) : Prop where
  job : j ∈ db.jobs
  claimable : db.claimable req now j = true
  source : db.sources.get j.source_item_id = some s

theorem nextClaimable_spec {req : ClaimRequest} {j : Job} (h : db.nextClaimable req now = some j) :
    j ∈ db.jobs ∧ db.claimable req now j = true :=
  Table.mem_filter.mp (Table.leastBy_mem h)

theorem claimLoop_spec {req : ClaimRequest} {n : Nat} : ∀ {db : DB} {pick : Pick},
    claimLoop req now n db = .ok pick →
      Chain may db.settled pick.db.settled ∧ Quiet db pick.db ∧
        ∀ j s, pick.row = some (j, s) → Picked req now pick.db j s := by
  induction n with
  | zero => intro db pick h; cases h
  | succ n ih =>
    intro db pick h
    -- one failed job, then the rest of the loop
    have hnext : ∀ {k e d l}, (failQueuedLocked db k e d l now >>= claimLoop req now n) = .ok pick →
        Chain may db.settled pick.db.settled ∧ Quiet db pick.db ∧
          ∀ j s, pick.row = some (j, s) → Picked req now pick.db j s := by
      intro k e d l hbind
      obtain ⟨db₁, hfail, hrest⟩ := bind_eq_ok.mp hbind
      obtain ⟨hchain, hquiet, -, -⟩ := failQueuedLocked_spec may hfail
      obtain ⟨hchain', hquiet', hpick⟩ := ih hrest
      exact ⟨hchain.trans hchain', hquiet.trans hquiet', hpick⟩
    unfold claimLoop at h
    split at h
    · cases h
      exact ⟨.refl, .refl db, fun j s hrow => by cases hrow⟩
    · next j hj =>
      obtain ⟨hjmem, hclaim⟩ := nextClaimable_spec hj
      obtain ⟨s, hs, h⟩ := bind_eq_ok.mp h
      rw [fetch_eq_ok] at hs
      dsimp only at h
      split at h
      · exact hnext h
      · split at h
        · exact hnext h
        · split at h
          · cases h
            refine ⟨.refl, .refl db, fun j' s' hrow => ?_⟩
            cases hrow
            exact ⟨hjmem, hclaim, hs⟩
          · exact hnext h

/-- **Rounds.**  More rounds than queued jobs change nothing: the loop never runs out. -/
theorem claimLoop_rounds {req : ClaimRequest} {n : Nat} : ∀ {db : DB} {m : Nat},
    db.queuedCount < n → n ≤ m → claimLoop req now m db = claimLoop req now n db := by
  induction n with
  | zero => intro db m hn; omega
  | succ n ih =>
    intro db m hn hm
    obtain ⟨m, rfl⟩ : ∃ k, m = k + 1 := ⟨m - 1, by omega⟩
    have hrest : ∀ k e d l, (failQueuedLocked db k e d l now >>= claimLoop req now m) =
        (failQueuedLocked db k e d l now >>= claimLoop req now n) := by
      intro k e d l
      cases hx : failQueuedLocked db k e d l now with
      | error err => rfl
      | ok db₁ =>
        obtain ⟨-, -, -, hless⟩ := failQueuedLocked_spec (fun _ _ => True) hx
        exact ih (by omega) (by omega)
    unfold claimLoop
    split
    · rfl
    · next j hj =>
      cases hs : db.sources.get j.source_item_id with
      | none => rfl
      | some s =>
        show (if _ then _ else if _ then _ else if _ then _ else _) = (if _ then _ else _)
        simp only [failGraphClaimLocked, failInvalidCredentialLocked, hrest]

/-- the circuit of the platform that was claimed is closed, or the probe of the new lease -/
theorem probeCircuit_spec {p : Platform} {k t : Id}
    (h : probeCircuit db p k t now = .ok db')
    (hadmits : ∀ c ∈ db.circuits, c.platform = p → c.admits now = true) :
    ∃ circuits, db' = { db with circuits } ∧ ∀ c ∈ circuits,
      c ∈ db.circuits ∧ (c.platform ≠ p ∨ c.state = .closed) ∨
        c.platform = p ∧ c.heldBy k t = true ∧ c.requires_manual_reset = false := by
  unfold probeCircuit at h
  split at h
  · next hnone =>
    cases h
    exact ⟨_, rfl, fun c hc => .inl ⟨hc, .inl (Table.get_eq_none.mp hnone c hc)⟩⟩
  · next circuit hsome =>
    obtain ⟨hmem, hplat⟩ := Table.get_eq_some.mp hsome
    have hadmits' := hadmits circuit hmem hplat
    split at h
    · next hopen =>
      simp only [bind_eq_ok, require_eq_ok, pure_eq_ok] at h
      obtain ⟨-, -, rfl⟩ := h
      refine ⟨_, rfl, fun c' hc' => ?_⟩
      obtain ⟨c, hc, rfl⟩ := Table.mem_update.mp hc'
      by_cases hcp : c.platform = p
      · have hcc : c = circuit := Table.eq_of_key hc hmem (hcp.trans hplat.symm)
        subst hcc
        have hdue : c.admits now = c.cooledDown p now := by
          simp [Circuit.admits, Circuit.cooledDown, hopen, hcp]
        rw [hadmits'] at hdue
        rw [Table.upd_pos hdue.symm]
        refine .inr ⟨hcp, by simp [Circuit.heldBy], ?_⟩
        simp [Circuit.cooledDown] at hdue
        exact hdue.1.2
      · have hneg : c.cooledDown p now = false := by simp [Circuit.cooledDown, hcp]
        rw [Table.upd_neg hneg]
        exact .inl ⟨hc, .inl hcp⟩
    · next hnotopen =>
      cases h
      refine ⟨_, rfl, fun c hc => .inl ⟨hc, ?_⟩⟩
      by_cases hcp : c.platform = p
      · have hcc : c = circuit := Table.eq_of_key hc hmem (hcp.trans hplat.symm)
        subst hcc
        refine .inr ?_
        simpa [Circuit.admits, hnotopen] using hadmits'
      · exact .inl hcp

/-- what the claim query asks of a job, as far as the moves need it -/
theorem Picked.facts {req : ClaimRequest} {j : Job} {s : SourceItem} (h : Picked req now db j s) :
    j.status = .queued ∧ (∀ i ∈ db.intents, i.job_id ≠ j.id) ∧
      j.generation_attempt_count < MAX_ATTEMPTS ∧
      (∀ c ∈ db.circuits, c.platform = s.platform → c.admits now = true) ∧
      db.jobs.count (fun r => r.status.isActive) < MAX_ACTIVE_JOBS ∧
      ∀ r ∈ db.jobs, r.status.isActive = true → db.platformOf r ≠ some s.platform := by
  have hclaim := h.claimable
  simp only [DB.claimable, h.source, Bool.and_eq_true, beq_iff_eq, decide_eq_true_eq,
    Bool.not_eq_true', Table.any_eq_false, beq_eq_false_iff_ne, Bool.and_eq_false_iff] at hclaim
  obtain ⟨⟨⟨⟨⟨⟨⟨⟨⟨hqueued, -⟩, -⟩, -⟩, hintents⟩, -⟩, hcount⟩, hcircuit⟩, hfew⟩, halone⟩ := hclaim
  refine ⟨hqueued, hintents, hcount, fun c hc hcp => ?_, hfew, fun r hr hact => ?_⟩
  · rw [← hcp, Table.get_key hc] at hcircuit
    exact hcircuit
  · rcases halone r hr with hinactive | hne
    · rw [hact] at hinactive
      cases hinactive
    · exact hne

/-- the `UPDATE`, the attempt and the probe of a claim are one move -/
theorem takeJob_spec {req : ClaimRequest} {j : Job} {s : SourceItem} {lease : JobLease}
    (hpick : Picked req now db j s) (hfresh : ∀ b ∈ db.attempts, b.lease_token ≠ req.lease_token)
    (h : takeJob db req now j s = .ok (db', lease)) :
    Chain may db.settled db'.settled ∧ db'.intents = db.intents ∧ lease.job_id = j.id ∧
      lease.attempt_id = req.attempt_id ∧ lease.lease_token = req.lease_token := by
  obtain ⟨hqueued, hintents, hcount, hadmits, hfew, halone⟩ := hpick.facts
  simp only [takeJob, bind_eq_ok, require_eq_ok, fetch_eq_ok, pure_eq_ok, Prod.mk.injEq] at h
  obtain ⟨-, hrow, -, -, attempts, hins, db₁, hprobe, rfl, rfl⟩ := h
  obtain ⟨r, hr, hid, hp, hone⟩ := Table.rowcount_one (k := j.id) hrow (fun r hr => by
    simp only [Job.stillQueued, Bool.and_eq_true, beq_iff_eq] at hr
    exact hr.1.1.1)
  obtain ⟨circuits, rfl, hcircuits⟩ := probeCircuit_spec hprobe hadmits
  have hone' : ∀ r ∈ db.jobs, j.stillQueued r = true ↔ r.id = j.id := by
    intro r' hr'
    rw [hone r' hr', hid]
  refine ⟨.single (Move.claim j s.platform _ hpick.job hqueued hcount ?_ hintents hfew halone hfresh ?_
    hins rfl rfl rfl hcircuits), rfl, rfl, rfl, rfl⟩
  · rw [DB.platformOf, platformIn, hpick.source]
    rfl
  · exact only_update hpick.job hone' rfl ⟨⟨rfl, rfl, rfl, rfl, rfl, rfl, rfl⟩, rfl, rfl, rfl, rfl, rfl⟩

/-- **A claim.**  The lease it returns is for a job without a pending intent. -/
structure Claimed (may : Id → Id → Prop) (db db' : DB) (req : ClaimRequest) (lease : Option JobLease) :
    Prop where
  chain : Chain may db.settled db'.settled
  intents : db'.intents = db.intents
  lease : ∀ l, lease = some l → l.attempt_id = req.attempt_id ∧ l.lease_token = req.lease_token ∧
    ∀ i ∈ db.intents, i.job_id ≠ l.job_id

theorem claimNext_spec {req : ClaimRequest} {lease : Option JobLease} (hinv : db.LeaseOK)
    (hfresh : ∀ b ∈ db.attempts, b.lease_token ≠ req.lease_token)
    (h : claimNext db req = .ok (db', lease)) : Claimed may db db' req lease := by
  simp only [claimNext, bind_eq_ok, require_eq_ok] at h
  obtain ⟨-, -, -, -, -, -, -, -, h⟩ := h
  split at h
  · cases h
    exact ⟨.refl, rfl, fun l hl => by cases hl⟩
  · obtain ⟨db₁, hrec, h⟩ := bind_eq_ok.mp h
    have hrec : Chain may db.settled db₁.settled ∧ Quiet db db₁ := by
      unfold ClaimRequest.recover at hrec
      split at hrec
      · exact recoverExpired_spec may hinv hrec
      · cases hrec
        exact ⟨.refl, .refl db⟩
    obtain ⟨pick, hpick, h⟩ := bind_eq_ok.mp h
    obtain ⟨hchain, hquiet, hpicked⟩ := claimLoop_spec may hpick
    have hquiet := hrec.2.trans hquiet
    have hchain := hrec.1.trans hchain
    split at h
    · cases h
      exact ⟨hchain, hquiet.intents, fun l hl => by cases hl⟩
    · next row s hrow =>
      obtain ⟨⟨db₂, l⟩, htake, h⟩ := bind_eq_ok.mp h
      cases h
      have hfresh' : ∀ b ∈ pick.db.attempts, b.lease_token ≠ req.lease_token := by
        intro b hb
        obtain ⟨a, ha, hsame⟩ := hquiet.attempts.old hb
        rw [hsame.token]
        exact hfresh a ha
      obtain ⟨htchain, hintents, hjob, hatt, htok⟩ := takeJob_spec may (hpicked row s hrow) hfresh' htake
      refine ⟨hchain.trans htchain, hintents.trans hquiet.intents, ?_⟩
      rintro l' ⟨⟩
      refine ⟨hatt, htok, fun i hi => ?_⟩
      rw [hjob]
      refine (hpicked row s hrow).facts.2.1 i ?_
      rw [hquiet.intents]
      exact hi

end

end OpenFlame.Download
