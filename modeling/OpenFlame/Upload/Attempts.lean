import OpenFlame.Upload.Requests

/-!
# Upload attempts: receipts, their identity, and manual reconciliation

* `attemptStateIsValid`       `_validate_attempt_state`: a receipt and its job fit together;
* `retryLineage`              `_retry_lineage_in`: the jobs from a root to its current leaf;
* `attemptDefinition`         the database-owned identity that a receipt records;
* `reserveUploadAttempt`, `validateAttemptIdentity`   writing it, and checking it again;
* `attempt`, `reconcileUnknown`   the client calls.

The walks take as many rounds as there are jobs: a longer one would have met a job it has seen.
-/

set_option linter.all false

namespace OpenFlame.Upload
open Guard

/-! ## the state of a receipt -/

/-- a result that leaves the remote outcome open -/
def Attempt.rawUnknownResult (a : Attempt) (mode : Mode) : Bool :=
  a.result_status == some .unknown || a.result_status == some .canceled ||
    (a.result_status == some .submitted && mode != .publish) ||
    (a.result_status == some .draftSaved && mode != .draft)

def Attempt.noReconciliation (a : Attempt) : Bool :=
  a.reconciliation.isNone && !a.operator_platform_check && a.reconciled_at.isNone

/-- the result was received, or recovery wrote it -/
def Attempt.resultIsAccounted (a : Attempt) : Bool :=
  a.responded_at.isSome ||
    (a.result_status == some .unknown && a.result_code == some "interrupted_result_unknown" && a.evidence_kind.isNone)

/-- `expected_job_result` -/
def Reconciliation.jobResult : Reconciliation → JobState × Code
  | .notAccepted => (.failed, "manual_remote_not_accepted")
  | .submissionAcknowledged => (.submitted, "manual_submission_acknowledged")
  | .draftSaved => (.draftSaved, "manual_platform_draft_saved")

/-- `conclusion_valid` -/
def Reconciliation.fits (c : Reconciliation) (platform : Platform) (mode : Mode) : Bool :=
  match c with
  | .notAccepted => true
  | .submissionAcknowledged => mode == .publish
  | .draftSaved => platform == .tencent && mode == .draft

/-- `_validate_attempt_state` -/
def attemptStateIsValid (j : Job) (a : Attempt) : Bool :=
  a.result_code.all isSafeCode && a.revision ≤ 2147483647 &&
    uploadEvidenceIsValid j.platform j.mode a.result_status a.evidence_kind &&
    match a.state with
    | .reserved =>
      a.result_status.isNone && a.result_code.isNone && a.evidence_kind.isNone && a.dispatch_started_at.isNone &&
        a.responded_at.isNone && a.revision == 0 && j.state == .running && a.noReconciliation
    | .dispatchMayHaveStarted =>
      a.result_status.isNone && a.result_code.isNone && a.evidence_kind.isNone && a.dispatch_started_at.isSome &&
        a.responded_at.isNone && a.revision == 1 && j.state == .running && a.noReconciliation
    | .responded =>
      a.result_code.isSome && a.responded_at.isSome && a.noReconciliation &&
        some j.state == a.result_status.map ResultStatus.jobState && some j.code == a.result_code &&
        (a.dispatch_started_at.isNone && a.revision == 1 &&
            (a.result_status == some .failed || a.result_status == some .canceled) && a.evidence_kind.isNone ||
          a.dispatch_started_at.isSome && a.revision == 2 &&
            (a.result_status == some .failed || (a.result_status == some .submitted && j.mode == .publish) ||
              (a.result_status == some .draftSaved && j.mode == .draft)))
    | .unknown =>
      a.result_code.isSome && a.rawUnknownResult j.mode && a.dispatch_started_at.isSome && a.revision == 2 &&
        a.noReconciliation && j.state == .unknown && some j.code == a.result_code && a.resultIsAccounted
    | .reconciled =>
      a.result_code.isSome && a.rawUnknownResult j.mode && a.dispatch_started_at.isSome && a.revision == 3 &&
        a.reconciliation.any (fun c => c.fits j.platform j.mode && (j.state, j.code) == c.jobResult) &&
        a.operator_platform_check && a.reconciled_at.isSome && a.resultIsAccounted

def validateAttemptState (j : Job) (a : Attempt) : Except Code PUnit :=
  require (attemptStateIsValid j a = true) "upload_attempt_identity_changed"

/-! ## lineages -/

/-- `SELECT id FROM jobs WHERE retry_of=?` -/
def successors (db : DB) (job_id : Ident) : List JobRow := db.jobs.filter (fun r => r.retry_of == some job_id)

/-- the states of a job that may have a successor -/
def JobState.isRetryable : JobState → Bool
  | .failed | .canceled | .unknown => true
  | _ => false

def retryLineageFrom (db : DB) (root : Job) : Nat → Job → List Ident → Except Code (List Job)
  | 0, _, _ => throw "job_retry_lineage_invalid"
  | rounds + 1, current, seen =>
    match successors db current.id with
    | [] => return [current]
    | [s] => do
      require (current.state.isRetryable = true) "job_retry_lineage_invalid"
      require (s.id ∉ seen) "job_retry_lineage_invalid"
      let successor ← getJob db s.id
      require (uploadRetryPayloadMatches root successor = true) "job_retry_lineage_invalid"
      return current :: (← retryLineageFrom db root rounds successor (s.id :: seen))
    | _ => throw "job_retry_lineage_invalid"

/-- `_retry_lineage_in` -/
def retryLineage (db : DB) (root : Job) : Except Code (List Job) :=
  retryLineageFrom db root (db.jobs.rows.length + 1) root [root.id]

/-- `_latest_retry_job_in` -/
def latestRetryJob (db : DB) (root : Job) : Except Code Job := do
  fetch (← retryLineage db root).getLast? "job_retry_lineage_invalid"

/-- the walk from a job up to its root -/
def climbLineage (db : DB) : Nat → Job → List Ident → Except Code Job
  | 0, _, _ => throw "upload_attempt_identity_changed"
  | rounds + 1, current, seen =>
    match current.retry_of with
    | none => return current
    | some parent_id => do
      require (parent_id ∉ seen) "upload_attempt_identity_changed"
      let parent ← recast (getJob db parent_id) "upload_attempt_identity_changed"
      require (uploadRetryPayloadMatches parent current = true) "upload_attempt_identity_changed"
      climbLineage db rounds parent (parent_id :: seen)

/-- `_attempt_lineage_in` -/
def attemptLineage (db : DB) (j : Job) : Except Code (Job × List Job) := do
  let root ← climbLineage db (db.jobs.rows.length + 1) j [j.id]
  let lineage ← recast (retryLineage db root) "upload_attempt_identity_changed"
  require (j.id ∈ lineage.map Job.id) "upload_attempt_identity_changed"
  return (root, lineage)

/-! ## the identity of an attempt -/

/-- the identity and digest fields of a receipt -/
structure AttemptDefinition where
  job_id : Ident
  root_job_id : Ident
  request_id : String
  request_digest : Digest
  request_digest_version : DigestVersion
  job_digest : Digest
  account_id : Ident
  platform : Platform
  source_id : Ident
  source_sha256 : Digest
  cover_landscape_asset_id : Option Ident
  cover_landscape_sha256 : Option Digest
  cover_portrait_asset_id : Option Ident
  cover_portrait_sha256 : Option Digest
  deriving DecidableEq, Repr

def Attempt.definition (a : Attempt) : AttemptDefinition where
  job_id := a.job_id
  root_job_id := a.root_job_id
  request_id := a.request_id
  request_digest := a.request_digest
  request_digest_version := a.request_digest_version
  job_digest := a.job_digest
  account_id := a.account_id
  platform := a.platform
  source_id := a.source_id
  source_sha256 := a.source_sha256
  cover_landscape_asset_id := a.cover_landscape_asset_id
  cover_landscape_sha256 := a.cover_landscape_sha256
  cover_portrait_asset_id := a.cover_portrait_asset_id
  cover_portrait_sha256 := a.cover_portrait_sha256

/-- `_attempt_cover_identity_in` -/
def attemptCoverIdentity (db : DB) : Option Ident → Except Code (Option Ident × Option Digest)
  | none => return (none, none)
  | some asset_id => do
    let asset ← fetch (db.assets.get asset_id) "upload_attempt_identity_changed"
    return (some asset.id, some asset.sha256)

section
variable (host : Host)

/-- `_attempt_request_owner_in`: the one request whose roots hold the job -/
def attemptRequestOwner (db : DB) (root : Job) : Except Code Request := do
  let rows := db.requests.filter (fun q => q.job_ids.contains root.id)
  let roots ← each (fun q => recast (requestJobsFromRow host db q none) "upload_attempt_identity_changed") rows
  let owners := ((rows.zip roots).filter (fun e => (e.2.map Job.id).contains root.id)).map Prod.fst
  match owners with
  | [owner] => return owner
  | _ => throw "upload_attempt_identity_changed"

/-- `_attempt_definition_in` -/
def attemptDefinition (db : DB) (j : Job) (require_current_leaf : Bool) :
    Except Code (AttemptDefinition × Account) := do
  let line ← attemptLineage db j
  require (require_current_leaf = true → line.2.getLast?.map Job.id = some j.id) "upload_attempt_identity_changed"
  let request ← attemptRequestOwner host db line.1
  let account ← fetch (db.accounts.get j.account_id) "upload_attempt_identity_changed"
  let source ← fetch (db.sources.get j.source_id) "upload_attempt_identity_changed"
  require (account.platform = j.platform) "upload_attempt_identity_changed"
  let landscape ← attemptCoverIdentity db j.target.cover_landscape_asset_id
  let portrait ← attemptCoverIdentity db j.target.cover_portrait_asset_id
  return (
    { job_id := j.id, root_job_id := line.1.id, request_id := request.id, request_digest := request.digest,
      request_digest_version := request.digest_version, job_digest := uploadJobDefinitionDigest host j,
      account_id := account.id, platform := account.platform, source_id := source.id,
      source_sha256 := source.sha256, cover_landscape_asset_id := landscape.1,
      cover_landscape_sha256 := landscape.2, cover_portrait_asset_id := portrait.1,
      cover_portrait_sha256 := portrait.2 },
    account)

/-- `_attempt_runtime_identity` -/
def attemptRuntimeIdentity (env : Env) (platform : Platform) : Except Code RuntimeIdentity := do
  let runtime ← fetch env.runtime "upload_attempt_identity_changed"
  require (runtime.isValid platform = true) "upload_attempt_identity_changed"
  return runtime

/-- a receipt that nothing has happened to -/
def AttemptDefinition.reserved (d : AttemptDefinition) (id session_revision : Ident) (runtime : RuntimeIdentity) :
    Attempt where
  id := id
  job_id := d.job_id
  root_job_id := d.root_job_id
  request_id := d.request_id
  request_digest := d.request_digest
  request_digest_version := d.request_digest_version
  job_digest := d.job_digest
  account_id := d.account_id
  platform := d.platform
  session_revision := session_revision
  source_id := d.source_id
  source_sha256 := d.source_sha256
  cover_landscape_asset_id := d.cover_landscape_asset_id
  cover_landscape_sha256 := d.cover_landscape_sha256
  cover_portrait_asset_id := d.cover_portrait_asset_id
  cover_portrait_sha256 := d.cover_portrait_sha256
  runtime := runtime
  state := .reserved
  result_status := none
  result_code := none
  evidence_kind := none
  reconciliation := none
  operator_platform_check := false
  dispatch_started_at := none
  responded_at := none
  reconciled_at := none
  revision := 0

/-- `_reserve_upload_attempt_in` -/
def reserveUploadAttempt (env : Env) (db : DB) (j : Job) (attempt_id : Ident) : Except Code (DB × Attempt) := do
  let d ← attemptDefinition host db j true
  require (db.attempts.get j.id = none) "upload_attempt_conflict"
  let binding := workflowAccountBinding db d.2
  let runtime ← attemptRuntimeIdentity env j.platform
  let a := d.1.reserved attempt_id binding.session_revision runtime
  let attempts ← fetch (db.attempts.insert a) "IntegrityError"
  return ({ db with attempts }, a)

/-- `_validate_attempt_identity_in` -/
def validateAttemptIdentity (db : DB) (j : Job) (a : Attempt) (require_current_leaf : Bool) :
    Except Code PUnit := do
  let d ← attemptDefinition host db j require_current_leaf
  require (a.definition = d.1) "upload_attempt_identity_changed"
  require (a.session_revision ≠ d.2.id →
    ∃ o ∈ db.operations.get a.session_revision, o.account_id = d.2.id ∧ o.action = .login)
    "upload_attempt_identity_changed"
  require (a.runtime.isValid a.platform = true) "upload_attempt_identity_changed"

/-! ## the client calls -/

/-- the receipt of a job, checked against it -/
def attempt (db : DB) (job_id : Ident) : Except Code Attempt := do
  let j ← getJob db job_id
  let a ← fetch (db.attempts.get job_id) "upload_attempt_not_found"
  validateAttemptIdentity host db j a false
  validateAttemptState j a
  return a

/-- the receipt an operator names, belonging to the job -/
def attemptById (db : DB) (job_id attempt_id : Ident) : Except Code Attempt := do
  match db.attempts.find (fun a => a.id == attempt_id) with
  | some a =>
    require (a.job_id = job_id) "upload_attempt_identity_changed"
    return a
  | none =>
    require ((db.attempts.get job_id).isSome = true) "attempt_receipt_missing"
    throw "upload_attempt_not_found"

def Attempt.reconcile (a : Attempt) (conclusion : Reconciliation) (now : Time) : Attempt :=
  { a with
    state := .reconciled, reconciliation := some conclusion, operator_platform_check := true,
    reconciled_at := some now, revision := a.revision + 1 }

def JobRow.setResult (r : JobRow) (state : JobState) (code : Code) : JobRow := { r with state, code }

/-- `reconcile_unknown` -/
def reconcileUnknown (db : DB) (job_id attempt_id : Ident) (expected_revision : Nat) (conclusion : Reconciliation)
    (acknowledge_platform_check : Bool) (now : Time) : Except Code (DB × Job × Attempt) := do
  require (acknowledge_platform_check = true) "reconciliation_acknowledgement_required"
  require (expected_revision ≤ 2147483647) "upload_attempt_conflict"
  let j ← getJob db job_id
  let a ← attemptById db job_id attempt_id
  validateAttemptState j a
  require (conclusion.fits j.platform j.mode = true) "reconciliation_conclusion_invalid"
  let result := conclusion.jobResult
  if a.state = .reconciled then
    validateAttemptIdentity host db j a false
    require (a.reconciliation = some conclusion ∧ a.operator_platform_check = true ∧
      (a.revision = expected_revision ∨ a.revision = expected_revision + 1) ∧ (j.state, j.code) = result)
      "upload_attempt_conflict"
    return (db, j, a)
  else
    validateAttemptIdentity host db j a true
    require (a.state = .unknown ∧ j.state = .unknown) "upload_attempt_not_reconcilable"
    require (a.revision = expected_revision) "upload_attempt_conflict"
    let isAttempt (b : Attempt) : Bool :=
      b.id == attempt_id && b.job_id == job_id && b.state == .unknown && b.revision == expected_revision
    require (db.attempts.count isAttempt = 1) "upload_attempt_conflict"
    let isJob (r : JobRow) : Bool := r.id == job_id && r.state == .unknown
    require (db.jobs.count isJob = 1) "upload_attempt_conflict"
    let db' : DB := { db with
      attempts := db.attempts.update isAttempt (fun b => b.reconcile conclusion now)
      jobs := db.jobs.update isJob (fun r => r.setResult result.1 result.2) }
    let j' ← getJob db' job_id
    let a' ← fetch (db'.attempts.find (fun b => b.id == attempt_id)) "TypeError"
    return (db', j', a')

end

end OpenFlame.Upload
