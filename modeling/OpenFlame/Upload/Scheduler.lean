import OpenFlame.Upload.Jobs

/-!
# The upload scheduler and the account operations

* `addAccount`, `disconnectAccount`, `accountAction`, `cancelOperation`   the account calls;
* `claim`                  `_claim`: the next operation, or the next job with its receipt;
* `markUploadDispatch`     the last durable boundary before the backend is called;
* `uploadResult`, `finalizeUpload`, `finalizeOperation`   the result of an execution;
* `recoverInterruptedRecords`   what the next scheduler makes of an interrupted one.
-/

set_option linter.all false

namespace OpenFlame.Upload
open Guard

/-! ## accounts -/

/-- `add_account`; an active account of the platform with the name violates a unique index -/
def addAccount (db : DB) (platform : Platform) (name : Raw) (account_id : Ident) : Except Code DB := do
  let name ← normalizeUploadText name 60 true
  require (∀ a ∈ db.accounts.rows, ¬ (a.platform = platform ∧ a.name = name ∧ a.lifecycle_state = .active))
    "account_name_exists"
  let accounts ← fetch (db.accounts.insert
    { id := account_id, platform, name, auth_state := .unchecked, code := "", lifecycle_state := .active })
    "account_name_exists"
  return { db with accounts }

/-- `state IN ('queued','running')` -/
def OperationState.isOpen : OperationState → Bool
  | .queued | .running => true
  | _ => false

/-- `UPDATE jobs SET state='draft',code=? WHERE account_id=? AND state='queued'` -/
def DB.revokeConfirmations (db : DB) (account_id : Ident) (code : Code) : DB :=
  { db with
    jobs := db.jobs.update (fun r => r.content.account_id == account_id && r.state == .queued)
      (fun r => r.setResult .draft code) }

def DB.setAccount (db : DB) (account_id : Ident) (auth_state : AuthState) (code : Code) : DB :=
  { db with accounts := db.accounts.update (fun a => a.id == account_id) (fun a => { a with auth_state, code }) }

/-- the transaction of `disconnect_account` -/
def disconnectAccount (db : DB) (account_id : Ident) : Except Code DB := do
  let _ ← fetch (db.accounts.get account_id) "account_not_found"
  require (∀ r ∈ db.jobs.rows, ¬ (r.content.account_id = account_id ∧ r.state = .running)) "account_upload_active"
  let db₁ : DB := { db with
    operations := db.operations.update (fun o => o.account_id == account_id && o.state.isOpen)
      (fun o => { o with state := .canceled, code := "account_disconnected" }) }
  let db₂ := db₁.revokeConfirmations account_id "account_disconnected_confirmation_revoked"
  return { db₂ with
    accounts := db₂.accounts.update (fun a => a.id == account_id)
      (fun a => { a with auth_state := .unchecked, code := "account_disconnected", lifecycle_state := .disconnected }) }

/-- how the removal of the local login secret went, once the account is disconnected -/
def scrubAccount (db : DB) (account_id : Ident) (removed : Bool) : DB :=
  { db with
    accounts := db.accounts.update (fun a => a.id == account_id && a.lifecycle_state == .disconnected)
      (fun a => { a with code := if removed then "account_disconnected" else "account_disconnect_cleanup_failed" }) }

def accountAction (env : Env) (db : DB) (account_id : Ident) (action : Action) (operation_id : Ident) :
    Except Code DB := do
  require (env.ready = true) "runtime_missing"
  let account ← fetch (db.accounts.get account_id) "account_not_found"
  require (account.lifecycle_state = .active) "account_disconnected"
  require (∀ o ∈ db.operations.rows, ¬ (o.account_id = account_id ∧ o.state.isOpen = true))
    "account_operation_active"
  let operations ← fetch (db.operations.insert
    { id := operation_id, account_id, action, state := .queued, code := "" }) "IntegrityError"
  let db' := { db with operations }.setAccount account_id .checking ""
  -- a new login may select a different account of the platform: queued approvals do not follow it
  if action = .login then return db'.revokeConfirmations account_id "account_session_changed" else return db'

def cancelOperation (db : DB) (operation_id : Ident) : Except Code DB := do
  let row ← fetch (db.operations.get operation_id) "operation_not_found"
  match row.state with
  | .queued =>
    let db' : DB := { db with
      operations := db.operations.update (fun o => o.id == operation_id)
        (fun o => { o with state := .canceled, code := "canceled" }) }
    return db'.setAccount row.account_id .unchecked "canceled"
  | .running =>
    return { db with
      operations := db.operations.update (fun o => o.id == operation_id)
        (fun o => { o with code := "cancellation_requested" }) }
  | _ => return db

/-! ## sources and covers -/

def importSource (db : DB) (source_id : Ident) (sha256 : Digest) : Except Code DB := do
  let sources ← fetch (db.sources.insert { id := source_id, sha256, media_state := .present }) "IntegrityError"
  return { db with sources }

def importCover (db : DB) (asset_id : Ident) (sha256 : Digest) (width height : Nat) : Except Code DB := do
  let assets ← fetch (db.assets.insert { id := asset_id, sha256, width, height, media_state := .present })
    "IntegrityError"
  return { db with assets }

/-- `delete_source_media`, `restore_source_media`: the row stays -/
def setSourceMedia (db : DB) (source_id : Ident) (media_state : MediaState) : DB :=
  { db with sources := db.sources.update (fun s => s.id == source_id) (fun s => { s with media_state }) }

def setCoverMedia (db : DB) (asset_id : Ident) (media_state : MediaState) : DB :=
  { db with assets := db.assets.update (fun a => a.id == asset_id) (fun a => { a with media_state }) }

section
variable (host : Host)

/-! ## claiming and dispatching -/

inductive Claimed where
  | operation (row : Operation)
  | upload (row : Job)
  deriving DecidableEq, Repr

def DB.isActiveAccount (db : DB) (account_id : Ident) : Bool :=
  (db.accounts.get account_id).any (fun a => a.lifecycle_state == .active)

/-- `_claim`; `none` when nothing is queued -/
def claim (env : Env) (db : DB) (attempt_id : Ident) : Except Code (DB × Option Claimed) := do
  match db.operations.find (fun o => o.state == .queued && db.isActiveAccount o.account_id) with
  | some o =>
    let isOperation (p : Operation) : Bool := p.id == o.id && p.state == .queued
    require (db.operations.count isOperation = 1) "upload_attempt_conflict"
    return (
      { db with operations := db.operations.update isOperation (fun p => { p with state := .running, code := "" }) },
      some (.operation o))
  | none =>
    match db.jobs.find (fun r => r.state == .queued && db.isActiveAccount r.content.account_id &&
      (db.sources.get r.source_id).isSome) with
    | none => return (db, none)
    | some r =>
      let j ← getJob db r.id
      let reserved ← reserveUploadAttempt host env db j attempt_id
      let isJob (s : JobRow) : Bool := s.id == j.id && s.state == .queued
      require (reserved.1.jobs.count isJob = 1) "upload_attempt_conflict"
      return (
        { reserved.1 with jobs := reserved.1.jobs.update isJob (fun s => s.setResult .running "") },
        some (.upload j))

/-- `_mark_upload_dispatch_may_have_started`; `false` when the job was asked to stop -/
def markUploadDispatch (env : Env) (db : DB) (job_id : Ident) (now : Time) : Except Code (DB × Bool) := do
  let j ← getJob db job_id
  let a ← fetch (db.attempts.get job_id) "attempt_receipt_missing"
  require (j.state = .running) "upload_attempt_conflict"
  if j.code = "cancellation_requested" then return (db, false)
  else do
    validateAttemptIdentity host db j a true
    let account ← fetch (db.accounts.get j.account_id) "account_session_changed"
    require (account.lifecycle_state = .active ∧ account.auth_state = .ready ∧
      (workflowAccountBinding db account).session_revision = a.session_revision) "account_session_changed"
    let runtime ← attemptRuntimeIdentity env j.platform
    require (runtime = a.runtime) "upload_attempt_identity_changed"
    let isAttempt (b : Attempt) : Bool := b.job_id == job_id && b.state == .reserved && b.revision == 0
    require (db.attempts.count isAttempt = 1) "upload_attempt_conflict"
    return (
      { db with
        attempts := db.attempts.update isAttempt (fun b => { b with
          state := .dispatchMayHaveStarted, dispatch_started_at := some now, revision := b.revision + 1 }) },
      true)

/-! ## results -/

/-- what a backend hands back -/
structure BackendResult where
  status : String
  code : Code
  evidence_kind : Option String
  deriving DecidableEq, Repr

/-- how an execution ended -/
inductive Outcome where
  | result (r : BackendResult)
  | notAResult
  | uploadError (code : Code)
  | exception
  deriving DecidableEq, Repr

/-- a result that passed the checks of `_execute_operation` -/
structure CheckedResult where
  status : ResultStatus
  code : Code
  evidence_kind : Option EvidenceKind
  deriving DecidableEq, Repr

/-- the checks of `_execute_operation` on an upload's result -/
def uploadResult (platform : Platform) (mode : Mode) (invoked : Bool) (outcome : Outcome) : CheckedResult :=
  let fallback : ResultStatus := if invoked then .unknown else .failed
  let result : Option BackendResult :=
    match outcome with
    | .result r => some r
    | .notAResult => none
    | .uploadError code => some ⟨if invoked then "unknown" else "failed", code, none⟩
    | .exception =>
      some ⟨if invoked then "unknown" else "failed", if invoked then "backend_result_unknown" else "backend_failed", none⟩
  let invalid : CheckedResult := ⟨fallback, "backend_result_invalid", none⟩
  match result with
  | none => invalid
  | some r =>
    match ResultStatus.ofText (if r.status = "cancelled" then "canceled" else r.status) with
    | none => invalid
    | some status =>
      let evidence := r.evidence_kind.bind EvidenceKind.ofText
      if (r.evidence_kind.isSome → evidence.isSome = true) ∧ isSafeCode r.code = true ∧
          uploadEvidenceIsValid platform mode (some status) evidence = true then
        ⟨status, r.code, evidence⟩
      else invalid

/-- `_upload_result_state` -/
def uploadResultState (result : CheckedResult) (invoked : Bool) (mode : Mode) : JobState :=
  if (invoked = true ∧ result.status = .canceled) ∨ (result.status = .draftSaved ∧ mode ≠ .draft) ∨
      (result.status = .submitted ∧ mode ≠ .publish) then .unknown
  else result.status.jobState

/-- `_UPLOAD_AUTH_INVALID_CODES` -/
def isAuthInvalidCode (code : Code) : Bool := code == "account_invalid" || code == "account_missing"

/-- `_finalize_upload_attempt_in` -/
def finalizeUploadAttempt (db : DB) (job_id : Ident) (result : CheckedResult) (invoked : Bool) (state : JobState)
    (now : Time) : Except Code DB := do
  let expected_state : AttemptState := if invoked then .dispatchMayHaveStarted else .reserved
  let expected_revision : Nat := if invoked then 1 else 0
  let a ← fetch (db.attempts.get job_id) "attempt_receipt_missing"
  require (a.state = expected_state ∧ a.revision = expected_revision) "upload_attempt_conflict"
  let isAttempt (b : Attempt) : Bool :=
    b.job_id == job_id && b.id == a.id && b.state == expected_state && b.revision == expected_revision
  require (db.attempts.count isAttempt = 1) "upload_attempt_conflict"
  let isJob (r : JobRow) : Bool := r.id == job_id && r.state == .running
  require (db.jobs.count isJob = 1) "upload_attempt_conflict"
  return { db with
    attempts := db.attempts.update isAttempt (fun b => { b with
      state := if state = .unknown then .unknown else .responded, result_status := some result.status,
      result_code := some result.code, evidence_kind := result.evidence_kind, responded_at := some now,
      revision := b.revision + 1 })
    jobs := db.jobs.update isJob (fun r => r.setResult state result.code) }

/-- the last transaction of an upload -/
def finalizeUpload (db : DB) (row : Job) (outcome : Outcome) (invoked : Bool) (now : Time) : Except Code DB := do
  let result := uploadResult row.platform row.mode invoked outcome
  let db' ← finalizeUploadAttempt db row.id result invoked (uploadResultState result invoked row.mode) now
  if isAuthInvalidCode result.code then
    let db'' : DB := { db' with
      accounts := db'.accounts.update (fun a => a.id == row.account_id && a.lifecycle_state == .active)
        (fun a => { a with auth_state := .invalid, code := result.code }) }
    return db''.revokeConfirmations row.account_id "account_invalid_confirmation_revoked"
  else return db'

/-- the checked result of an account operation -/
def operationResult (outcome : Outcome) : OperationState × Code :=
  match outcome with
  | .result r =>
    if isSafeCode r.code = true ∧ (r.evidence_kind.isSome → (r.evidence_kind.bind EvidenceKind.ofText).isSome = true) then
      (if r.status = "ready" then .ready else if r.status = "canceled" ∨ r.status = "cancelled" then .canceled
        else .failed, r.code)
    else (.failed, "backend_result_invalid")
  | .notAResult => (.failed, "backend_result_invalid")
  | .uploadError code => (.failed, if isSafeCode code then code else "backend_result_invalid")
  | .exception => (.failed, "backend_failed")

def OperationState.authState : OperationState → AuthState
  | .ready => .ready
  | .canceled => .unchecked
  | _ => .invalid

/-- the last transaction of an account operation; `stopped` is `_operation_stop` -/
def finalizeOperation (db : DB) (row : Operation) (outcome : Outcome) (stopped : Bool) : DB :=
  match db.operations.get row.id, db.accounts.get row.account_id with
  | some current, some account =>
    if current.state = .running ∧ current.account_id = row.account_id ∧ account.lifecycle_state = .active then
      let result : OperationState × Code :=
        if current.code = "cancellation_requested" ∨ stopped = true then (.canceled, "canceled")
        else operationResult outcome
      let db' : DB := { db with
        operations := db.operations.update (fun o => o.id == row.id && o.state == .running)
          (fun o => { o with state := result.1, code := result.2 }) }
      db'.setAccount row.account_id result.1.authState result.2
    else db
  | _, _ => db

/-! ## recovery -/

/-- `UPDATE jobs SET state=?,code=? WHERE id=? AND state IN ('running','queued')` -/
def DB.setInterrupted (db : DB) (job_id : Ident) (state : JobState) (code : Code) : DB :=
  { db with
    jobs := db.jobs.update (fun r => r.id == job_id && (r.state == .running || r.state == .queued))
      (fun r => r.setResult state code) (fun r => Table.col_kept JobRow.id r) }

/-- the recorded identity and state of the receipt of an interrupted job still hold -/
def interruptedReceipt (db : DB) (job_id attempt_id : Ident) : Except Code Attempt := do
  let j ← getJob db job_id
  let a ← fetch (db.attempts.find (fun b => b.id == attempt_id && b.job_id == job_id))
    "upload_attempt_identity_changed"
  validateAttemptIdentity host db j a true
  validateAttemptState j a
  return a

/-- the recovery of one interrupted job; `item` is the job as it was listed, with its receipt -/
def recoverJob (now : Time) (db : DB) (item : JobRow × Option Attempt) : Except Code DB :=
  let job_id := item.1.id
  match item.2 with
  | none =>
    if item.1.state = .running then
      return { db with
        jobs := db.jobs.update (fun r => r.id == job_id && r.state == .running)
          (fun r => r.setResult .unknown "attempt_receipt_missing") }
    else
      return { db with
        jobs := db.jobs.update (fun r => r.id == job_id && r.state == .queued)
          (fun r => r.setResult .draft "restart_confirmation_required") }
  | some listed =>
    match interruptedReceipt host db job_id listed.id with
    | .error _ => return db.setInterrupted job_id .unknown "upload_attempt_identity_changed"
    | .ok a =>
      match a.state with
      | .reserved => do
        let isAttempt (b : Attempt) : Bool :=
          b.id == a.id && b.job_id == job_id && b.state == .reserved && b.revision == 0 &&
            b.dispatch_started_at.isNone && b.responded_at.isNone
        require (db.attempts.count isAttempt = 1) "upload_attempt_conflict"
        let db' : DB := { db with
          attempts := db.attempts.update isAttempt (fun b => { b with
            state := .responded, result_status := some .failed, result_code := some "upload_dispatch_not_started",
            evidence_kind := none, responded_at := some now, revision := b.revision + 1 }) }
        return db'.setInterrupted job_id .failed "upload_dispatch_not_started"
      | .dispatchMayHaveStarted => do
        let isAttempt (b : Attempt) : Bool :=
          b.id == a.id && b.job_id == job_id && b.state == .dispatchMayHaveStarted && b.revision == 1 &&
            b.dispatch_started_at.isSome && b.responded_at.isNone
        require (db.attempts.count isAttempt = 1) "upload_attempt_conflict"
        let db' : DB := { db with
          attempts := db.attempts.update isAttempt (fun b => { b with
            state := .unknown, result_status := some .unknown, result_code := some "interrupted_result_unknown",
            evidence_kind := none, revision := b.revision + 1 }) }
        return db'.setInterrupted job_id .unknown "interrupted_result_unknown"
      | _ => return db.setInterrupted job_id .unknown "upload_attempt_identity_changed"

/-- the jobs `_recover_interrupted_records` lists, each with its receipt -/
def interruptedJobs (db : DB) : List (JobRow × Option Attempt) :=
  (db.jobs.filter (fun r => r.state == .running || r.state == .queued)).map (fun r => (r, db.attempts.get r.id))

/-- `_recover_interrupted_records` -/
def recoverInterruptedRecords (db : DB) (now : Time) : Except Code DB := do
  let db₁ ← thread (recoverJob host now) db (interruptedJobs db)
  return { db₁ with
    operations := db₁.operations.update (fun o => o.state.isOpen)
      (fun o => { o with state := .failed, code := "operation_interrupted" })
    accounts := db₁.accounts.update (fun a => a.auth_state == .checking)
      (fun a => { a with auth_state := .unchecked, code := "operation_interrupted" }) }

end

end OpenFlame.Upload
