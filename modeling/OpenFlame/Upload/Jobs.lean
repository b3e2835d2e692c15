import OpenFlame.Upload.Attempts

/-!
# Upload jobs: confirmation, cancellation and retry

* `confirm`, `confirmMany`   a reviewed draft is queued;
* `cancel`, `cancelMany`     drafts and queued jobs stop at once, a running one is asked to;
* `retry`, `retryMany`       a failed or canceled leaf gets a successor.
-/

set_option linter.all false

namespace OpenFlame.Upload
open Guard

/-- `UPDATE jobs SET state=?,code=? WHERE id=?` -/
def DB.setJob (db : DB) (job_id : Ident) (state : JobState) (code : Code) : DB :=
  { db with jobs := db.jobs.update (fun r => r.id == job_id) (fun r => r.setResult state code) }

/-- `{account_id: row}` over the accounts of some jobs -/
def accountsOf (db : DB) (jobs : List Job) : Except Code (List Account) :=
  each (fun id => fetch (db.accounts.get id) "account_not_found") (jobs.map Job.account_id).eraseDups

section
variable (host : Host)

/-! ## confirmation -/

/-- `_validate_confirmation` -/
def validateConfirmation (env : Env) (db : DB) (j : Job) : Except Code PUnit := do
  require (j.state = .draft) "job_requires_new_draft"
  require (env.ready = true) "runtime_missing"
  validateJobDefinition host.unicode env db j true

/-- the states a confirmed job may be in -/
def JobState.isConfirmed : JobState → Bool
  | .queued | .running | .submitted | .draftSaved => true
  | _ => false

def confirm (env : Env) (db : DB) (job_id : Ident) : Except Code (DB × Job) := do
  let j ← getJob db job_id
  if j.state.isConfirmed = true then return (db, j)
  else do
    validateConfirmation host env db j
    let db' := db.setJob job_id .queued ""
    return (db', ← getJob db' job_id)

def confirmMany (env : Env) (db : DB) (job_ids : List Ident)
    (expected_account_bindings : Option (List AccountBinding)) : Except Code (DB × List Job) := do
  require (job_ids ≠ [] ∧ job_ids.length ≤ 32 ∧ job_ids.Nodup) "invalid_job_batch"
  let jobs ← each (getJob db) job_ids
  let accounts ← accountsOf db jobs
  let pending := jobs.filter (fun j => j.state == .draft)
  validateWorkflowAccountBindings db accounts expected_account_bindings (pending.map Job.account_id).eraseDups true
  require (∀ j ∈ jobs, j.state = .draft ∨ j.state.isConfirmed = true) "job_requires_new_draft"
  let _ ← each (validateConfirmation host env db) pending
  let db' := pending.foldl (fun d j => d.setJob j.id .queued "") db
  return (db', ← each (getJob db') job_ids)

/-! ## cancellation -/

/-- the cancellation of one current job -/
def cancelRow (r : JobRow) : JobRow :=
  match r.state with
  | .draft | .queued => r.setResult .canceled "canceled"
  | .running => r.setResult .running "cancellation_requested"
  | _ => r

/-- `_cancel_current_jobs` -/
def cancelCurrentJobs (db : DB) (job_ids : List Ident) (expected_targets : Option (List UploadSlot))
    (expected_account_bindings : Option (List AccountBinding)) : Except Code (DB × List Job) := do
  let jobs ← each (getJob db) job_ids
  match expected_targets with
  | none => pure ()
  | some slots =>
    require (List.Forall₂ (fun j s => j.id = s.job_id ∧ s.matchesJob j = true) jobs slots) "invalid_job_batch"
    require (∀ j ∈ jobs, successors db j.id = []) "job_retry_lineage_changed"
  match expected_account_bindings with
  | none => pure ()
  | some bindings => do
    let accounts ← accountsOf db jobs
    validateWorkflowAccountBindings db accounts (some bindings) (accounts.map Account.id) false
  let db' : DB := { db with
    jobs := db.jobs.update (fun r => job_ids.contains r.id) cancelRow (by
      intro r
      unfold cancelRow
      cases r.state <;> rfl) }
  return (db', ← each (getJob db') job_ids)

def cancel (db : DB) (job_id : Ident) : Except Code (DB × List Job) := cancelCurrentJobs db [job_id] none none

def cancelMany (db : DB) (job_ids : List Ident) (expected_targets : Option (List UploadSlot))
    (expected_account_bindings : Option (List AccountBinding)) : Except Code (DB × List Job) := do
  let batch ← normalizeUploadJobBatch job_ids expected_targets 30
  cancelCurrentJobs db batch.1 batch.2 expected_account_bindings

/-! ## retry -/

/-- the receipt allows a successor -/
def Attempt.isRetryable (a : Attempt) : Bool :=
  (a.state == .responded && (a.result_status == some .failed || a.result_status == some .canceled)) ||
    (a.state == .reconciled && a.reconciliation == some .notAccepted && a.operator_platform_check)

/-- `_validate_retry_job_in` -/
def validateRetryJob (env : Env) (db : DB) (j : Job) : Except Code PUnit := do
  validateJobDefinition host.unicode env db j false
  let a ← fetch (db.attempts.get j.id) "attempt_receipt_missing"
  validateAttemptIdentity host db j a true
  validateAttemptState j a
  require (a.isRetryable = true) "verify_remote_result_first"

/-- the draft that retries a job -/
def retryRow (j : Job) (new_id : Ident) : JobRow where
  id := new_id
  source_id := j.source_id
  content := j.target.toContent
  state := .draft
  code := ""
  retry_of := some j.id

/-- `_insert_retry_job_in` -/
def insertRetryJob (db : DB) (j : Job) (new_id : Ident) : Except Code (DB × Job) := do
  let jobs ← fetch (db.jobs.insert (retryRow j new_id)) "IntegrityError"
  let db' : DB := { db with jobs }
  return (db', ← getJob db' new_id)

def retry (env : Env) (db : DB) (job_id new_id : Ident) : Except Code (DB × Job) := do
  let j ← getJob db job_id
  require (j.state ≠ .unknown) "verify_remote_result_first"
  require (j.state = .failed ∨ j.state = .canceled) "retry_not_allowed"
  let leaf ← latestRetryJob db j
  if leaf.id ≠ job_id then return (db, leaf)
  else do
    validateRetryJob host env db j
    insertRetryJob db j new_id

/-- the roots of one request key, checked against the request its caller expects -/
def expectedRequestRoots (env : Env) (db : DB) (expected_requests : List (String × UploadIntent)) (key : String) :
    Except Code (String × List Job) := do
  let request ← fetch (db.requests.get key) "upload_request_mismatch"
  let intent ← fetch ((expected_requests.find? (fun e => e.1 == key)).map Prod.snd) "upload_request_invalid"
  let identity ← workflowRequestIdentity host env db intent
  require (request.digest_version = .v2 ∧ request.digest = identity.2) "upload_request_mismatch"
  return (key, ← requestJobsFromRow host db request (some (intent.source_id, identity.1)))

/-- the loop that gives each slot its root; `used` are the roots given so far -/
def assignRoots (request_roots : List (String × List Job)) :
    List (String × UploadSlot) → List (String × Ident) → Except Code (List Job × List (String × Ident))
  | [], used => return ([], used)
  | (key, slot) :: rest, used =>
    match (((request_roots.find? (fun e => e.1 == key)).map Prod.snd).getD []).filter slot.matchesJob with
    | [root] => do
      require ((key, root.id) ∉ used) "upload_request_mismatch"
      let out ← assignRoots request_roots rest (used ++ [(key, root.id)])
      return (root :: out.1, out.2)
    | _ => throw "upload_request_mismatch"

/-- the supplied id names this leaf, and the leaf may be retried -/
def isCandidate (e : Ident × Job) : Bool := e.2.id == e.1 && (e.2.state == .failed || e.2.state == .canceled)

/-- the accounts and sources of a successful leaf fit its mode -/
def Job.modeFits (j : Job) : Bool :=
  !(j.state == .submitted && j.mode != .publish) && !(j.state == .draftSaved && j.mode != .draft)

/-- one successor of the batch, put in the place of its parent -/
def replaceCandidate (s : DB × List Job) (item : Job × Ident) : Except Code (DB × List Job) := do
  let out ← insertRetryJob s.1 item.1 item.2
  return (out.1, s.2.map (fun j => if j.id = item.1.id then out.2 else j))

def retryMany (env : Env) (db : DB) (job_ids : List Ident) (expected_targets : List UploadSlot)
    (expected_account_bindings : List AccountBinding) (expected_request_keys : List String)
    (expected_requests : List (String × UploadIntent)) (new_id : Nat → Ident) : Except Code (DB × List Job) := do
  let batch ← normalizeUploadJobBatch job_ids (some expected_targets) 32
  let slots := batch.2.getD []
  require (expected_request_keys.length = job_ids.length ∧ ∀ key ∈ expected_request_keys, isRequestId key = true)
    "invalid_job_batch"
  let keys := expected_request_keys.eraseDups
  require ((∀ e ∈ expected_requests, e.1 ∈ keys) ∧ ∀ key ∈ keys, ∃ e ∈ expected_requests, e.1 = key)
    "upload_request_invalid"
  let request_roots ← each (expectedRequestRoots host env db expected_requests) keys
  let assigned ← assignRoots request_roots (expected_request_keys.zip slots) []
  require (∀ e ∈ request_roots, ∀ root ∈ e.2, (e.1, root.id) ∈ assigned.2) "upload_request_mismatch"
  let lineages ← each (retryLineage db) assigned.1
  require (∀ e ∈ job_ids.zip lineages, e.1 ∈ e.2.map Job.id) "invalid_job_batch"
  let leaves ← each (fun lineage => fetch (List.getLast? lineage) "job_retry_lineage_invalid") lineages
  require (leaves.map Job.id).Nodup "job_retry_lineage_invalid"
  let _ ← each (fun e => bindCurrentUploadTarget e.1 e.2) (leaves.zip slots)
  -- every state but `unknown` is in `allowed_states`
  require (∀ leaf ∈ leaves, leaf.state ≠ .unknown) "verify_remote_result_first"
  require (∀ e ∈ job_ids.zip leaves, e.2.id ≠ e.1 → e.2.state ≠ .failed ∧ e.2.state ≠ .canceled)
    "job_retry_lineage_changed"
  require (∀ leaf ∈ leaves, leaf.modeFits = true) "job_retry_lineage_invalid"
  let candidates := ((job_ids.zip leaves).filter isCandidate).map Prod.snd
  require (candidates ≠ [] ∨ ∃ e ∈ job_ids.zip leaves, e.2.id ≠ e.1) "retry_not_allowed"
  let accounts ← accountsOf db leaves
  validateWorkflowAccountBindings db accounts (some expected_account_bindings)
    (candidates.map Job.account_id).eraseDups true
  let _ ← each (validateRetryJob host env db) candidates
  thread replaceCandidate (db, leaves) (candidates.zip ((List.range candidates.length).map new_id))

end

end OpenFlame.Upload
