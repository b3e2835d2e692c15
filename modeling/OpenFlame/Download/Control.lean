import Mathlib
import OpenFlame.Download.Claim

/-!
# What people and supervisors ask of the store

`requestCancel`, `requestCancelInput`, `disable`   cancel requests
`requestRetry`, `requestRediscover`                a finished job starts a new run generation
`register`, `assign`, `clearAssignment`            credential profiles of queued jobs
`prepareClaimGate`, `activateClaimGate`, `stopClaimGate`, `pauseQueue`, `resumeQueue`
                                                   who may claim, and whether anybody may

A retry and a rediscovery are a `Regen` followed by moves (`Regenerated`); everything else is a chain
of moves.
-/

set_option linter.all false

namespace OpenFlame.Download
open Guard

/-! ## credentials a new run is bound to -/

structure CredentialBinding where
  platform : Platform
  profile_id : Id
  credential_ref : String

/-- `CredentialDefaults`; whether its sources pass `_revalidate` is up to the file system, each time -/
structure CredentialDefaults where
  bindings : List CredentialBinding

inductive CredentialMode where
  | useDefault | anonymous
  deriving DecidableEq, Repr

/-- `revalidate_credential_defaults`, `valid` being what `_revalidate` finds -/
def revalidateCredentialDefaults (defaults : Option CredentialDefaults) (valid : Bool) : Txn Unit :=
  require (defaults.isNone ∨ valid = true) .credentialDefaults

/-- `_validate_profile` -/
def validProfile (platform : Platform) (ref : String) (now : Clock) (row : CredentialProfile) : Bool :=
  row.platform == platform && row.secret_ref == ref && isOpaqueReference row.secret_ref &&
    row.disabled_at.isNone &&
    (match row.expires_at with
     | some e => decide (now < e * 1000)
     | none => true)

/-- `resolve_default_profile_locked` -/
def resolveDefaultProfileLocked (db : DB) (defaults : Option CredentialDefaults) (platform : Platform)
    (now : Clock) : Txn (Option Id) :=
  match defaults with
  | none => return none
  | some defaults =>
    match defaults.bindings.find? (fun b => b.platform == platform) with
    | none => return none
    | some binding => do
      let row ← fetch (db.credentials.get binding.profile_id) .credentialDefaults
      require (validProfile platform binding.credential_ref now row = true) .credentialDefaults
      return some row.id

/-! ## canceling -/

/-- `COALESCE(cancel_requested_at, ?)` -/
def Job.cancelAt (now_text : Time) (j : Job) : Job :=
  { j with
    cancel_requested_at := some (j.cancel_requested_at.getD now_text)
    updated_at := now_text }

@[simp] theorem Job.cancelAt_id (now_text : Time) (j : Job) : (j.cancelAt now_text).id = j.id := rfl

/-- `request_cancel` -/
def requestCancel (db : DB) (job_id : Id) (now : Clock) : Txn (DB × Option JobStatus) := do
  let now_text := utcText now
  match db.jobs.get job_id with
  | none => return (db, none)
  | some row =>
    if row.status = .queued then
      let db := { db with
        jobs := db.jobs.update (fun j => j.id == job_id && j.status == .queued) (fun j =>
          { j.cancelAt now_text with status := .canceled }) }
      let db ← markInputAndRefreshBatch db job_id .canceled none none now_text
      return (db, some .canceled)
    else if row.status.isActive then
      return ({ db with
        jobs := db.jobs.update (fun j => j.id == job_id) (Job.cancelAt now_text) (Job.cancelAt_id now_text) },
        some row.status)
    else
      return (db, some row.status)

/-- `ORDER BY CASE WHEN job_kind = 'discover' THEN 0 ELSE 1 END, created_at, id` -/
def Job.discoverFirst (r s : Job) : Bool :=
  if (r.job_kind == .discover) == (s.job_kind == .discover) then r.createdBefore s
  else r.job_kind == .discover

/-- the three `UPDATE`s `request_cancel_input` begins with -/
def DB.cancelInput (db : DB) (input_record_id : Id) (now_text : Time) : DB :=
  let db : DB := { db with
    inputs := db.inputs.update (fun i => i.id == input_record_id) (fun i =>
      { i with cancel_requested_at := some (i.cancel_requested_at.getD now_text) }) }
  let db : DB := { db with
    jobs := db.jobs.update (fun j => j.input_record_id == input_record_id && j.status == .queued)
      (fun j =>
        { j.cancelAt now_text with
          status := .canceled
          final_error_code := none }) }
  { db with
    jobs := db.jobs.update (fun j => j.input_record_id == input_record_id && j.status.isActive)
      (Job.cancelAt now_text) (Job.cancelAt_id now_text) }

/-- `request_cancel_input` -/
def requestCancelInput (db : DB) (input_record_id : Id) (now : Clock) : Txn (DB × Option InputStatus) := do
  let now_text := utcText now
  match db.inputs.get input_record_id with
  | none => return (db, none)
  | some input_row =>
    if input_row.status = .duplicate then
      return (db, some input_row.status)
    else
      let db := db.cancelInput input_record_id now_text
      match Table.leastBy Job.discoverFirst
          (db.jobs.filter (fun j => j.input_record_id == input_record_id)) with
      | none =>
        let db := { db with
          inputs := db.inputs.update (fun i => i.id == input_record_id)
            (InputRecord.setStatus .canceled (none, none)) (InputRecord.setStatus_id _ _) }
        let db ← refreshBatchLocked db input_record_id now_text
        return (db, some .canceled)
      | some job =>
        let db ← markInputAndRefreshBatch db job.id .canceled none none now_text
        let refreshed ← fetch (db.inputs.get input_record_id) (.runtimeError "unreachable")
        return (db, some refreshed.status)

/-! ## new generations -/

/-- the unique index on `(input_record_id, source_item_id, job_kind, run_generation)` -/
def DB.slotFree (db : DB) (j : Job) (run_generation : Nat) : Bool :=
  !db.jobs.any (fun r => r.id != j.id && r.input_record_id == j.input_record_id &&
    r.source_item_id == j.source_item_id && r.job_kind == j.job_kind &&
    r.run_generation == run_generation)

/-- the `SET` of both requests -/
def Job.requeued (now_text : Time) (next_generation : Nat) (j : Job) : Job :=
  { j with
    status := .queued
    progress := 0
    final_error_code := none
    lease_owner := none
    lease_token := none
    heartbeat_at := none
    lease_expires_at := none
    cancel_requested_at := none
    available_at := some now_text
    run_generation := next_generation
    generation_attempt_count := 0
    updated_at := now_text }

@[simp] theorem Job.requeued_id (now_text : Time) (g : Nat) (j : Job) : (j.requeued now_text g).id = j.id := rfl

structure RetryRequest where
  job_id : Id
  now : Clock
  credential_mode : Option CredentialMode
  credential_defaults : Option CredentialDefaults
  valid_before : Bool
  valid_after : Bool

/-- the dictionary `request_retry` returns -/
structure Retried where
  job_id : Id
  status : JobStatus
  run_generation : Nat
  platform : Platform
  previous_error_code : Option ErrorCode

/-- `ready` or on its way to it -/
def JobStatus.liveOrReady (s : JobStatus) : Bool := s.isLive || s == .ready

/-- `profile_id` of the retried job -/
def RetryRequest.profile (req : RetryRequest) (db : DB) (job : Job) (platform : Platform) : Txn (Option Id) :=
  match req.credential_mode with
  | some .anonymous => return none
  | some .useDefault => resolveDefaultProfileLocked db req.credential_defaults platform req.now
  | none => return job.credential_profile_id

/-- `revalidate_credential_defaults` when the mode asks for the defaults -/
def RetryRequest.revalidate (req : RetryRequest) (valid : Bool) : Txn Unit :=
  if req.credential_mode = some .useDefault then
    revalidateCredentialDefaults req.credential_defaults valid
  else return ()

/-- `request_retry` -/
def requestRetry (db : DB) (req : RetryRequest) : Txn (DB × Option Retried) := do
  let now_text := utcText req.now
  req.revalidate req.valid_before
  match db.jobs.get req.job_id with
  | none => return (db, none)
  | some job =>
    match db.inputs.get job.input_record_id, db.sources.get job.source_item_id with
    | some input, some source =>
      let has_target := (db.targets.get job.id).isSome
      let has_discover_parent :=
        db.jobs.any (fun p => p.input_record_id == job.input_record_id && p.job_kind == .discover)
      require (job.job_kind = .download ∧ input.active_discovery_id = none ∧ has_target = false ∧
        has_discover_parent = false) (.invalidTransition "job is not a flat download")
      require (job.status = .failed) (.retryConflict "job is not terminal failed")
      require (job.run_generation = input.active_run_generation)
        (.runtimeError "input and flat job generation are inconsistent")
      require (db.jobs.any (fun r => r.source_item_id == job.source_item_id && r.id != job.id &&
        r.status.liveOrReady) = false) (.retryConflict "source already has live or ready work")
      let profile_id ← req.profile db job source.platform
      let next_generation := job.run_generation + 1
      require (db.slotFree job next_generation = true) .integrityError
      let db := { db with
        jobs := db.jobs.update (fun j => j.id == job.id) (fun j =>
          { j.requeued now_text next_generation with credential_profile_id := profile_id }) }
      let db := { db with
        inputs := db.inputs.update (fun i => i.id == input.id) (fun i =>
          { i with
            active_run_generation := next_generation
            cancel_requested_at := none
            status := .queued
            error_code := none
            error_message := none }) }
      let db ← refreshBatchLocked db input.id now_text
      req.revalidate req.valid_after
      return (db, some ⟨job.id, .queued, next_generation, source.platform, job.final_error_code⟩)
    | _, _ => return (db, none)

/-- `request_rediscover` -/
def requestRediscover (db : DB) (input_record_id : Id) (now : Clock) : Txn (DB × Nat) := do
  let now_text := utcText now
  let input ← fetch (db.inputs.get input_record_id) (.invalidTransition "input is not graph-v2")
  let parent ← fetch (Table.leastBy Job.createdBefore (db.jobs.filter (fun j =>
    j.input_record_id == input_record_id && j.job_kind == .discover)))
    (.invalidTransition "input is not graph-v2")
  require (db.jobs.any (fun j => j.input_record_id == input_record_id && j.status.isLive) = false)
    (.rediscoverConflict "input still has non-terminal work")
  require (parent.run_generation = input.active_run_generation)
    (.runtimeError "input and parent generation are inconsistent")
  let next_generation := parent.run_generation + 1
  require (parent.status.isTerminal = true) (.rediscoverConflict "parent discovery is not terminal")
  require (db.slotFree parent next_generation = true) .integrityError
  let db := { db with
    jobs := db.jobs.update (fun j => j.id == parent.id) (Job.requeued now_text next_generation)
      (Job.requeued_id _ _) }
  let db := { db with
    inputs := db.inputs.update (fun i => i.id == input_record_id) (fun i =>
      { i with
        expected_item_count := none
        active_discovery_id := none
        active_run_generation := next_generation
        cancel_requested_at := none
        status := .queued
        error_code := none
        error_message := none }) }
  let db ← markInputAndRefreshBatch db parent.id .ready none none now_text
  return (db, next_generation)

/-! ## credential profiles -/

/-- `_validate_name` -/
def validateName (value : String) : Txn String := do
  let name := Text.strip value.toList
  require (1 ≤ name.length ∧ name.length ≤ 80 ∧ ∀ c ∈ name, 32 ≤ c.toNat)
    (.credentialProfile "credential profile name must contain 1-80 printable characters")
  return String.ofList name

structure RegisterRequest where
  profile_id : Id
  platform : Platform
  name : String
  secret_ref : String
  /-- as `datetime.fromisoformat` reads it -/
  expires_at : Option Clock
  now : Clock

/-- `register` -/
def register (db : DB) (req : RegisterRequest) : Txn DB := do
  let normalized_name ← validateName req.name
  require (isOpaqueReference req.secret_ref = true)
    (.credentialProfile "credential reference must be a 1-64 character opaque token")
  require (∀ e ∈ req.expires_at, req.now < e) (.credentialProfile "expiry must be in the future")
  require (db.credentials.any (fun c => c.platform == req.platform && c.name == normalized_name) = false)
    (.credentialProfile "an identically named profile already exists for this platform")
  let credentials ← fetch (db.credentials.insert
    { id := req.profile_id
      platform := req.platform
      name := normalized_name
      secret_ref := req.secret_ref
      expires_at := req.expires_at.map utcText
      disabled_at := none })
    (.credentialProfile "an identically named profile already exists for this platform")
  return { db with credentials }

/-- the rows a credential is assigned to: a batch, or the jobs that were named -/
def DB.assignScope (db : DB) (profile : CredentialProfile) (job_ids : List Id) (batch_id : Option Id) :
    Txn (List Job) :=
  match batch_id with
  | some b => do
    require ((db.batches.get b).isSome = true) (.credentialProfile "batch does not exist")
    return db.jobs.filter (fun j => j.batch_id == b && db.platformOf j == some profile.platform)
  | none => do
    let rows := db.jobs.filter (fun j => job_ids.contains j.id && (db.platformOf j).isSome)
    require (rows.length = job_ids.length) (.credentialProfile "one or more jobs do not exist")
    return rows

/-- `UPDATE .. SET credential_profile_id = ? .. WHERE id IN (..) AND status = 'queued'` -/
def DB.setCredential (db : DB) (ids : List Id) (profile_id : Option Id) (now_text : Time) : DB :=
  { db with
    jobs := db.jobs.update (fun j => ids.contains j.id && j.status == .queued) (fun j =>
      { j with
        credential_profile_id := profile_id
        updated_at := now_text }) }

/-- `assign` -/
def assign (db : DB) (profile_id : Id) (job_ids : List Id) (batch_id : Option Id) (now : Clock) :
    Txn (DB × List Id) := do
  let unique_job_ids := job_ids.eraseDups
  require ((unique_job_ids = []) ↔ batch_id.isSome = true)
    (.credentialProfile "assign exactly one scope: one or more job IDs, or one batch ID")
  let now_text := utcText now
  let profile ← fetch (db.credentials.get profile_id) (.credentialProfile "credential profile does not exist")
  require (profile.disabled_at = none) (.credentialProfile "credential profile is disabled")
  require (∀ e ∈ profile.expires_at, now_text < e) (.credentialProfile "credential profile is expired")
  let rows ← db.assignScope profile unique_job_ids batch_id
  require (rows ≠ []) (.credentialProfile "scope contains no jobs for the credential platform")
  require (∀ j ∈ rows, db.platformOf j = some profile.platform)
    (.credentialProfile "credential platform does not match every selected job")
  require (∀ j ∈ rows, j.status.isActive = false)
    (.credentialProfile "credential cannot be changed after a selected job was claimed")
  require (batch_id = none → ∀ j ∈ rows, j.status = .queued)
    (.credentialProfile "credential can only be assigned to explicitly selected queued jobs")
  let queued := ((rows.filter (fun j => j.status == .queued)).mergeSort Job.createdBefore).map Job.id
  require (queued ≠ []) (.credentialProfile "scope contains no queued jobs")
  return (db.setCredential queued (some profile_id) now_text, queued)

/-- `clear_assignment` -/
def clearAssignment (db : DB) (job_ids : List Id) (now : Clock) : Txn (DB × List Id) := do
  let unique_job_ids := job_ids.eraseDups
  require (unique_job_ids ≠ []) (.credentialProfile "at least one job ID is required")
  let rows := db.jobs.filter (fun j => unique_job_ids.contains j.id)
  require (rows.length = unique_job_ids.length) (.credentialProfile "one or more jobs do not exist")
  require (∀ j ∈ rows, j.status = .queued)
    (.credentialProfile "credential can only be cleared from queued jobs")
  return (db.setCredential unique_job_ids none (utcText now), unique_job_ids)

/-- `disable` returns how many active jobs it asked to cancel -/
def disable (db : DB) (profile_id : Id) (now : Clock) : Txn (DB × Nat) := do
  let now_text := utcText now
  let _ ← fetch (db.credentials.get profile_id) (.credentialProfile "credential profile does not exist")
  let requested := fun j : Job => j.credential_profile_id == some profile_id && j.status.isActive &&
    j.cancel_requested_at.isNone
  return ({ db with
    credentials := db.credentials.update (fun c => c.id == profile_id && c.disabled_at.isNone)
      (fun c => { c with disabled_at := some now_text })
    jobs := db.jobs.update requested (Job.cancelAt now_text) (Job.cancelAt_id now_text) },
    db.jobs.count requested)

/-! ## the claim gate and the queue -/

/-- `_validate_claim_gate_identity` of a run -/
def validRunId (run_id : String) : Bool :=
  run_id.length == 32 && run_id.toList.all (fun c => "0123456789abcdef".toList.contains c)

/-- .. and of a worker -/
def validWorkerId (worker_id : String) : Bool :=
  worker_id.toList == Text.strip worker_id.toList && 1 ≤ worker_id.length && worker_id.length ≤ 128

def validateClaimGateIdentity (run_id : String) (worker_id : Option String) : Txn Unit := do
  require (validRunId run_id = true) (.valueError "claim gate run_id must be 32 lowercase hex characters")
  require (∀ w ∈ worker_id, validWorkerId w = true) (.valueError "claim gate worker_id is invalid")

/-- `prepare_claim_gate` -/
def prepareClaimGate (db : DB) (run_id worker_id : String) : Txn DB := do
  validateClaimGateIdentity run_id (some worker_id)
  return { db with gate := ⟨some run_id, some worker_id, false, none, none⟩ }

/-- `activate_claim_gate` -/
def activateClaimGate (db : DB) (run_id worker_id : String) (now : Clock) : Txn DB := do
  validateClaimGateIdentity run_id (some worker_id)
  require (db.gate = ⟨some run_id, some worker_id, false, none, none⟩)
    (.runtimeError "worker claim gate run is not prepared")
  return { db with gate := ⟨some run_id, some worker_id, true, some (utcText now), none⟩ }

/-- `stop_claim_gate` -/
def stopClaimGate (db : DB) (run_id : String) (now : Clock) : Txn (DB × Bool) := do
  validateClaimGateIdentity run_id none
  if db.gate.run_id = some run_id then
    return ({ db with gate := { db.gate with
      accepting_claims := false
      stop_requested_at := some (db.gate.stop_requested_at.getD (utcText now)) } }, true)
  else
    return (db, false)

/-- `pause_queue` -/
def pauseQueue (db : DB) (reason : ErrorCode) (now : Clock) : DB :=
  { db with queue := { db.queue with
      paused := true
      reason := some reason
      paused_at := if db.queue.paused then db.queue.paused_at else some (utcText now) } }

/-- `resume_queue` -/
def resumeQueue (db : DB) (now : Clock) : DB :=
  { db with queue := { db.queue with
      paused := false
      reason := none
      resumed_at := some (utcText now) } }

/-! ## what they do -/

theorem prepareClaimGate_spec {db db' : DB} {r w : String} (h : prepareClaimGate db r w = .ok db') :
    db' = { db with gate := ⟨some r, some w, false, none, none⟩ } := by
  simp only [prepareClaimGate, bind_eq_ok, pure_eq_ok] at h
  obtain ⟨-, -, rfl⟩ := h
  rfl

/-- only a gate that was prepared, and not touched since, opens -/
theorem activateClaimGate_spec {db db' : DB} {r w : String} {now : Clock}
    (h : activateClaimGate db r w now = .ok db') :
    db.gate = ⟨some r, some w, false, none, none⟩ ∧
      db' = { db with gate := ⟨some r, some w, true, some (utcText now), none⟩ } := by
  simp only [activateClaimGate, bind_eq_ok, require_eq_ok, pure_eq_ok] at h
  obtain ⟨-, -, -, hgate, rfl⟩ := h
  exact ⟨hgate, rfl⟩

theorem stopClaimGate_spec {db db' : DB} {r : String} {now : Clock} {stopped : Bool}
    (h : stopClaimGate db r now = .ok (db', stopped)) :
    stopped = true ∧ db.gate.run_id = some r ∧
      db' = { db with gate := { db.gate with
        accepting_claims := false
        stop_requested_at := some (db.gate.stop_requested_at.getD (utcText now)) } } ∨
    stopped = false ∧ db.gate.run_id ≠ some r ∧ db' = db := by
  simp only [stopClaimGate, bind_eq_ok] at h
  obtain ⟨-, -, h⟩ := h
  split at h
  · next hrun =>
    cases h
    exact .inl ⟨rfl, hrun, rfl⟩
  · next hrun =>
    cases h
    exact .inr ⟨rfl, hrun, rfl⟩

section
variable (may : Id → Id → Prop) {db db' : DB} {now : Clock}

theorem Job.cancelAt_renewed (t : Time) (j : Job) : Job.Renewed j (j.cancelAt t) where
  toSame := ⟨rfl, rfl, rfl, rfl, rfl, rfl, rfl⟩
  toSameCounts := ⟨rfl, rfl⟩
  status := .inl rfl
  token := rfl
  cancel := by
    intro h
    obtain ⟨c, hc⟩ := Option.isSome_iff_exists.mp h
    simp [Job.cancelAt, hc]

/-- `request_cancel` ends a queued job, flags an active one and leaves a finished one alone -/
theorem requestCancel_chain {k : Id} {st : Option JobStatus} (h : requestCancel db k now = .ok (db', st)) :
    Chain may db.settled db'.settled := by
  simp only [requestCancel] at h
  split at h
  · cases h
    exact .refl
  · next row hrow =>
    obtain ⟨hmem, rfl⟩ := Table.get_eq_some.mp hrow
    split at h
    · next hqueued =>
      obtain ⟨db₁, hmark, h⟩ := bind_eq_ok.mp h
      cases h
      refine (dropped_marked may hmem hqueued ?_ hmark).1
      refine only_update hmem (fun s hs => ?_) rfl
        ⟨⟨rfl, rfl, rfl, rfl, rfl, rfl, rfl⟩, ⟨rfl, rfl⟩, .inr rfl, .inr rfl⟩
      constructor
      · exact fun hp => beq_iff_eq.mp ((Bool.and_eq_true ..).mp hp).1
      · intro hid
        rw [Table.eq_of_key hs hmem hid, hqueued]
        simp
    · split at h
      · cases h
        exact renewJobs_chain (Table.Evolves.update_where (fun j _ => .refl j)
          (fun j _ _ => j.cancelAt_renewed _))
      · cases h
        exact .refl

/-- input `k` is flagged, its queued jobs end and its active jobs are flagged -/
theorem cancelInput_chain {i : InputRecord} {k : Id} (hi : i ∈ db.inputs) (hk : i.id = k) (t : Time) :
    Chain may db.settled ⟨db.cancelInput k t, insert k (insert k ∅), insert i.batch_id ∅⟩ := by
  subst hk
  refine ((Relation.ReflTransGen.single (Move.setInput i hi ?_)).tail (Move.drop i.id ?_)).trans
    (renewJobs_chain ?_)
  · refine Table.Evolves.update (fun r hr => ?_)
    by_cases hid : r.id = i.id
    · rw [Table.upd_eq hid]
      exact .inr ⟨Table.eq_of_key hr hi hid, ⟨rfl, rfl⟩, fun _ => rfl⟩
    · exact .inl (Table.upd_ne hid)
  · refine Table.Evolves.update_where (fun j _ => .inl rfl) (fun j _ hp => .inr ?_)
    obtain ⟨hinput, hqueued⟩ := (Bool.and_eq_true ..).mp hp
    exact ⟨beq_iff_eq.mp hinput, beq_iff_eq.mp hqueued,
      ⟨⟨rfl, rfl, rfl, rfl, rfl, rfl, rfl⟩, ⟨rfl, rfl⟩, .inr rfl, .inr rfl⟩⟩
  · exact Table.Evolves.update_where (fun j _ => .refl j) (fun j _ _ => j.cancelAt_renewed t)

/-- the flagged row -/
theorem cancelInput_row {i : InputRecord} {k : Id} (hi : i ∈ db.inputs) (hk : i.id = k) (t : Time) :
    ∃ i' ∈ (db.cancelInput k t).inputs, i'.id = k ∧ i'.batch_id = i.batch_id ∧
      i'.cancel_requested_at.isSome = true := by
  simp only [DB.cancelInput]
  refine ⟨_, Table.upd_mem hi, ?_⟩
  rw [Table.upd_eq hk]
  exact ⟨hk, rfl, rfl⟩

/-- an input that owns no job gets its status directly -/
theorem setEmptyInput_chain {i : InputRecord} (hi : i ∈ db.inputs)
    (hnojob : ∀ j ∈ db.jobs, j.input_record_id ≠ i.id) {s : InputStatus}
    {e : Option ErrorCode × Option String} {X B : Set Id} (hX : X ⊆ {i.id}) (hB : B ⊆ {i.batch_id}) {t : Time}
    (h : refreshBatchLocked
      { db with
        inputs := db.inputs.update (fun r => r.id == i.id) (.setStatus s e)
          (InputRecord.setStatus_id s e) } i.id t = .ok db') :
    Chain may ⟨db, X, B⟩ db'.settled := by
  have hmem : i.setStatus s e ∈ db.inputs.update (fun r => r.id == i.id) (.setStatus s e)
      (InputRecord.setStatus_id s e) := Table.mem_update.mpr ⟨i, hi, Table.upd_eq rfl⟩
  refine .head (Move.setInput i hi (Table.Evolves.update (fun r hr => ?_)))
    (refreshBatch_chain may (i := i.setStatus s e) hmem ?_ ?_ ?_ h)
  · by_cases hid : r.id = i.id
    · rw [Table.upd_eq hid]
      exact .inr ⟨Table.eq_of_key hr hi hid, ⟨rfl, rfl⟩, fun h => h⟩
    · exact .inl (Table.upd_ne hid)
  · exact fun ⟨j, hj, hin⟩ => absurd hin (hnojob j hj)
  · exact Set.insert_subset rfl hX
  · exact Set.insert_subset rfl hB

/-- `request_cancel_input` on an input that is no duplicate flags it, then settles it -/
theorem requestCancelInput_spec {k : Id} {st : Option InputStatus}
    (h : requestCancelInput db k now = .ok (db', st)) :
    db' = db ∧ (∀ i ∈ db.inputs, i.id = k → i.status = .duplicate) ∨
      ∃ i ∈ db.inputs, i.id = k ∧ Chain may ⟨db.cancelInput k (utcText now), insert k (insert k ∅),
        insert i.batch_id ∅⟩ db'.settled := by
  simp only [requestCancelInput] at h
  split at h
  · next hnone =>
    cases h
    exact .inl ⟨rfl, fun i hi hid => absurd hid (Table.get_eq_none.mp hnone i hi)⟩
  · next i hrow =>
    obtain ⟨hi, hk⟩ := Table.get_eq_some.mp hrow
    obtain ⟨i₁, hi₁, hid₁, hbatch, -⟩ := cancelInput_row hi hk (utcText now)
    split at h
    · next hdup =>
      cases h
      exact .inl ⟨rfl, fun r hr hrid => by rw [Table.eq_of_key hr hi (hrid.trans hk.symm), hdup]⟩
    · refine .inr ⟨i, hi, hk, ?_⟩
      clear hrow hk
      rw [← hbatch]
      subst hid₁
      have hX : insert i₁.id (insert i₁.id ∅) ⊆ ({i₁.id} : Set Id) :=
        Set.insert_subset rfl (Set.insert_subset rfl (Set.empty_subset _))
      have hB : insert i₁.batch_id ∅ ⊆ ({i₁.batch_id} : Set Id) :=
        Set.insert_subset rfl (Set.empty_subset _)
      split at h
      · -- no job at all: the input itself is canceled
        next hnone =>
        obtain ⟨db₁, hrefresh, h⟩ := bind_eq_ok.mp h
        cases h
        refine setEmptyInput_chain may hi₁ (fun j hj hin => ?_) hX hB hrefresh
        have hmem : j ∈ ([] : List Job) := by
          rw [← Table.leastBy_eq_none.mp hnone]
          exact Table.mem_filter.mpr ⟨hj, by simpa using hin⟩
        cases hmem
      · next job hjob =>
        obtain ⟨db₁, hmark, h⟩ := bind_eq_ok.mp h
        obtain ⟨refreshed, -, h⟩ := bind_eq_ok.mp h
        cases h
        obtain ⟨hjmem, hjin⟩ := Table.mem_filter.mp (Table.leastBy_mem hjob)
        obtain ⟨j', hj', hjid, i', hi', hid, hchain, -⟩ := markInput_chain may hmark
        obtain rfl : i' = i₁ := by
          refine Table.eq_of_key hi' hi₁ ?_
          rw [hid, Table.eq_of_key hj' hjmem hjid]
          exact beq_iff_eq.mp hjin
        exact hchain _ _ hX hB

theorem requestCancelInput_chain {k : Id} {st : Option InputStatus}
    (h : requestCancelInput db k now = .ok (db', st)) : Chain may db.settled db'.settled := by
  rcases requestCancelInput_spec may h with ⟨rfl, -⟩ | ⟨i, hi, hk, hchain⟩
  · exact .refl
  · exact (cancelInput_chain may hi hk (utcText now)).trans hchain

/-- a job and its input requeued -/
theorem regen_of_writes {j : Job} {i : InputRecord} (hj : j ∈ db.jobs) (hterminal : j.status.isTerminal = true)
    (hi : i ∈ db.inputs) (hin : i.id = j.input_record_id) {jobs inputs} {f : Job → Job}
    {g : InputRecord → InputRecord}
    (hjobs : jobs.rows = db.jobs.rows.map (Table.upd (fun r => r.id == j.id) f))
    (hinputs : inputs.rows = db.inputs.rows.map (Table.upd (fun r => r.id == i.id) g))
    (hf : Job.Requeued j (f j)) (hg : ∀ r, InputRecord.Same r (g r)) :
    Regen i.id db.settled ⟨{ db with jobs, inputs }, insert i.id ∅, insert i.batch_id ∅⟩ := by
  refine Regen.mk j i hj hterminal hi hin rfl (only_update hj (fun s _ => beq_iff_eq) hjobs hf) ?_
  refine Table.Evolves.of_rows hinputs (fun r hr => ?_)
  by_cases hid : r.id = i.id
  · rw [Table.upd_eq hid]
    exact .inr ⟨Table.eq_of_key hr hi hid, hg r⟩
  · exact .inl (Table.upd_ne hid)

/-- the input was set to what it aggregates to, so its batch is all that is left -/
theorem regenerated_of_refresh {j : Job} {i : InputRecord} {jobs inputs} {t : Time}
    (h : refreshBatchLocked { db with jobs, inputs } i.id t = .ok db') (hj : j ∈ db.jobs)
    (hterminal : j.status.isTerminal = true) (hi : i ∈ db.inputs) (hin : i.id = j.input_record_id)
    {f : Job → Job} {g : InputRecord → InputRecord}
    (hjobs : jobs.rows = db.jobs.rows.map (Table.upd (fun r => r.id == j.id) f))
    (hinputs : inputs.rows = db.inputs.rows.map (Table.upd (fun r => r.id == i.id) g))
    (hf : Job.Requeued j (f j)) (hg : ∀ r, InputRecord.Same r (g r))
    (hok : DB.InputOK { db with jobs, inputs } (g i)) : Regenerated may i.id db db' := by
  have hmem : g i ∈ inputs := by
    rw [← Table.upd_eq (f := g) (rfl : i.id = i.id)]
    exact Table.mem_of_rows hinputs hi
  refine ⟨_, regen_of_writes hj hterminal hi hin hjobs hinputs hf hg, ?_⟩
  rw [← (hg i).id] at h ⊢
  refine refreshBatch_chain may hmem hok (Set.insert_subset rfl (Set.empty_subset _)) ?_ h
  rw [(hg i).batch]
  exact Set.insert_subset rfl (Set.empty_subset _)

/-- the input is marked with what it aggregates to -/
theorem regenerated_of_mark {j : Job} {i : InputRecord} {jobs inputs} {t : Time} {s₀ : InputStatus}
    {e₀ : Option ErrorCode} {m₀ : Option String}
    (h : markInputAndRefreshBatch { db with jobs, inputs } j.id s₀ e₀ m₀ t = .ok db') (hj : j ∈ db.jobs)
    (hterminal : j.status.isTerminal = true) (hi : i ∈ db.inputs) (hin : i.id = j.input_record_id)
    {f : Job → Job} {g : InputRecord → InputRecord}
    (hjobs : jobs.rows = db.jobs.rows.map (Table.upd (fun r => r.id == j.id) f))
    (hinputs : inputs.rows = db.inputs.rows.map (Table.upd (fun r => r.id == i.id) g))
    (hf : Job.Requeued j (f j)) (hg : ∀ r, InputRecord.Same r (g r)) : Regenerated may i.id db db' := by
  refine ⟨_, regen_of_writes hj hterminal hi hin hjobs hinputs hf hg, ?_⟩
  obtain ⟨j', hj', hjid, i', hi', hid, hchain, -⟩ := markInput_chain may h
  have hj' : j' ∈ jobs := hj'
  have hi' : i' ∈ inputs := hi'
  obtain ⟨r, hr, rfl⟩ := Table.exists_of_rows hj' hjobs
  obtain ⟨s, hs, rfl⟩ := Table.exists_of_rows hi' hinputs
  by_cases hrid : r.id = j.id
  · obtain rfl := Table.eq_of_key hr hj hrid
    have hsame : InputRecord.Same s (Table.upd (fun r => r.id == i.id) g s) := by
      unfold Table.upd
      split
      · exact hg s
      · exact ⟨rfl, rfl⟩
    rw [Table.upd_eq hrid, hf.input, ← hin, hsame.id] at hid
    obtain rfl := Table.eq_of_key hs hi hid
    rw [hsame.id, hsame.batch] at hchain
    exact hchain _ _ (Set.insert_subset rfl (Set.empty_subset _)) (Set.insert_subset rfl (Set.empty_subset _))
  · rw [Table.upd_ne hrid] at hjid
    exact absurd hjid hrid

/-- an input without a discover job is judged by all of its jobs -/
theorem flatInput_ok {i : InputRecord} (hdisc : i.active_discovery_id = none) (hst : i.status = .queued)
    (hflat : ∀ j ∈ db.jobs, j.input_record_id = i.id → j.job_kind ≠ .discover)
    {j : Job} (hj : j ∈ db.jobs) (hin : j.input_record_id = i.id) (hlive : j.status.isLive = true) :
    db.InputOK i := by
  intro _
  have hnone : Table.leastBy Job.createdBefore (db.jobs.filter (fun j =>
      j.input_record_id == i.id && j.job_kind == .discover &&
        j.run_generation == i.active_run_generation)) = none := by
    rw [Table.leastBy_eq_none, List.eq_nil_iff_forall_not_mem]
    intro r hr
    obtain ⟨hr, hp⟩ := Table.mem_filter.mp hr
    simp only [Bool.and_eq_true, beq_iff_eq] at hp
    exact hflat r hr hp.1.1 hp.1.2
  rw [hst, DB.scopedJobs, hdisc]
  simp only [hnone]
  exact aggregateInputStatus_live (Table.mem_filter.mpr ⟨hj, by simpa using hin⟩) hlive

/-- a retry finds nothing to retry, or starts a new generation of a failed job's input -/
theorem requestRetry_spec {req : RetryRequest} {r : Option Retried}
    (h : requestRetry db req = .ok (db', r)) :
    db' = db ∨ ∃ j ∈ db.jobs, j.id = req.job_id ∧ j.status = .failed ∧
      Regenerated may j.input_record_id db db' := by
  simp only [requestRetry, bind_eq_ok] at h
  obtain ⟨-, -, h⟩ := h
  split at h
  · cases h
    exact .inl rfl
  · next job hjob =>
    obtain ⟨hj, hid⟩ := Table.get_eq_some.mp hjob
    split at h
    · next i source hi hsource =>
      obtain ⟨hi, hin⟩ := Table.get_eq_some.mp hi
      simp only [bind_eq_ok, require_eq_ok, pure_eq_ok, Prod.mk.injEq] at h
      obtain ⟨-, ⟨-, hdisc, -, hflat⟩, -, hfailed, -, hgen, -, -, profile, -, -, -, db₁, hrefresh, -, -,
        rfl, -⟩ := h
      right
      refine ⟨job, hj, hid, hfailed, ?_⟩
      rw [← hin]
      refine regenerated_of_refresh may hrefresh hj (by rw [hfailed]; rfl) hi hin rfl rfl
        ⟨rfl, rfl, rfl, rfl, rfl, rfl, rfl, rfl⟩ (fun r => ⟨rfl, rfl⟩) ?_
      have hflat' : ∀ r ∈ db.jobs, r.input_record_id = i.id → r.job_kind ≠ .discover := by
        intro r hr hrin hkind
        have := Table.any_eq_false.mp hflat r hr
        simp [hrin, hin, hkind] at this
      refine flatInput_ok hdisc rfl (fun r' hr' hrin => ?_) (Table.mem_of_rows rfl hj) ?_ ?_
      · obtain ⟨r, hr, rfl⟩ := Table.exists_of_rows hr' rfl
        rw [Table.upd_col Job.input_record_id] at hrin
        · rw [Table.upd_col Job.job_kind]
          · exact hflat' r hr hrin
          · exact fun _ => rfl
        · exact fun _ => rfl
      · rw [Table.upd_eq rfl]
        exact hin.symm
      · rw [Table.upd_eq rfl]
        rfl
    · cases h
      exact .inl rfl

/-- a rediscovery starts a new generation of its input -/
theorem requestRediscover_spec {k : Id} {g : Nat} (h : requestRediscover db k now = .ok (db', g)) :
    Regenerated may k db db' := by
  simp only [requestRediscover, bind_eq_ok, require_eq_ok, fetch_eq_ok, pure_eq_ok, Prod.mk.injEq] at h
  obtain ⟨i, hget, parent, hparent, -, -, -, hgen, -, hterminal, -, -, db₁, hmark, rfl, -⟩ := h
  obtain ⟨hi, rfl⟩ := Table.get_eq_some.mp hget
  obtain ⟨hj, hp⟩ := Table.mem_filter.mp (Table.leastBy_mem hparent)
  have hin : i.id = parent.input_record_id := (beq_iff_eq.mp ((Bool.and_eq_true ..).mp hp).1).symm
  exact regenerated_of_mark may hmark hj hterminal hi hin rfl rfl
    ⟨rfl, rfl, rfl, rfl, rfl, rfl, rfl, rfl⟩ (fun r => ⟨rfl, rfl⟩)

/-! ### credentials, gate and queue -/

theorem setCredential_chain (ids : List Id) (p : Option Id) (t : Time) :
    Chain may db.settled (db.setCredential ids p t).settled :=
  renewJobs_chain (Table.Evolves.update_where (fun j _ => .refl j)
    (fun _ _ _ => ⟨⟨rfl, rfl, rfl, rfl, rfl, rfl, rfl⟩, ⟨rfl, rfl⟩, .inl rfl, rfl, fun _ => rfl⟩))

theorem register_chain {req : RegisterRequest} (h : register db req = .ok db') :
    Chain may db.settled db'.settled := by
  simp only [register, bind_eq_ok, require_eq_ok, fetch_eq_ok, pure_eq_ok] at h
  obtain ⟨name, -, -, -, -, -, -, -, credentials, -, rfl⟩ := h
  exact .single (Move.side ..)

theorem assign_chain {p : Id} {ids : List Id} {b : Option Id} {assigned : List Id}
    (h : assign db p ids b now = .ok (db', assigned)) : Chain may db.settled db'.settled := by
  simp only [assign, bind_eq_ok, require_eq_ok, fetch_eq_ok, pure_eq_ok, Prod.mk.injEq] at h
  obtain ⟨-, -, profile, -, -, -, -, -, rows, -, -, -, -, -, -, -, -, -, -, -, rfl, -⟩ := h
  exact setCredential_chain may _ _ _

theorem clearAssignment_chain {ids cleared : List Id} (h : clearAssignment db ids now = .ok (db', cleared)) :
    Chain may db.settled db'.settled := by
  simp only [clearAssignment, bind_eq_ok, require_eq_ok, pure_eq_ok, Prod.mk.injEq] at h
  obtain ⟨-, -, -, -, -, -, rfl, -⟩ := h
  exact setCredential_chain may _ _ _

theorem disable_chain {p : Id} {n : Nat} (h : disable db p now = .ok (db', n)) :
    Chain may db.settled db'.settled := by
  simp only [disable, bind_eq_ok, fetch_eq_ok, pure_eq_ok, Prod.mk.injEq] at h
  obtain ⟨row, -, rfl, -⟩ := h
  have hjobs : db.jobs.Evolves Job.Renewed (db.jobs.update (fun j => j.credential_profile_id == some p &&
      j.status.isActive && j.cancel_requested_at.isNone) (Job.cancelAt (utcText now)) (Job.cancelAt_id _)) :=
    Table.Evolves.update_where (fun j _ => .refl j) (fun j _ _ => j.cancelAt_renewed _)
  exact (renewJobs_chain hjobs).tail (Move.side ..)

theorem resetPlatformCircuit_chain {p : Platform} {c : Option Circuit}
    (h : resetPlatformCircuit db p now = .ok (db', c)) : Chain may db.settled db'.settled := by
  simp only [resetPlatformCircuit] at h
  split at h
  · cases h
    exact .refl
  · simp only [bind_eq_ok, require_eq_ok, pure_eq_ok, Prod.mk.injEq] at h
    obtain ⟨-, -, rfl, -⟩ := h
    refine .single (Move.circuit (fun c' hc' => ?_))
    obtain ⟨c, hc, rfl⟩ := Table.mem_update.mp hc'
    unfold Table.upd
    split
    · exact .inr ⟨rfl, Circuit.closedAt_parked c.platform (utcText now)⟩
    · exact .inl hc

theorem pauseQueue_chain (e : ErrorCode) : Chain may db.settled (pauseQueue db e now).settled :=
  .single (Move.side ..)

theorem resumeQueue_chain : Chain may db.settled (resumeQueue db now).settled := .single (Move.side ..)

end

end OpenFlame.Download
