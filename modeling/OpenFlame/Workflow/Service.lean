import OpenFlame.Workflow.Advance

/-!
# The workflow service

`confirmEdit`, `confirmAi`, `confirmUpload`, `retry`, `cancel`, `requireAttention`
`ServiceCall`    the calls of the service, `ServiceCall.run` their programs
-/

set_option linter.all false

namespace OpenFlame.Workflow
open Guard Text Json Editing
open Upload (Mode Platform)

section
variable {F : Type} {fl : Floats F} {py : Python fl}

/-- the checks of `expected_profile_sha256` -/
def checkProfileSha256 (r : Record py) : Option Text → Except Fault Unit
  | none => .ok ()
  | some sha256 => do
    require (isHex 64 sha256 = true) (.workflow "invalid_workflow_profile_confirmation")
    require (r.profile_sha256 = sha256) (.workflow "workflow_profile_changed")

/-- `_expected` -/
def expected (id : Text) (revision : Nat) (expected_profile_sha256 : Option Text) : Call py (Record py) := do
  identifier id
  if revision < 1 then fail "invalid_revision"
  else
    let r ← getRecord id
    if r.code = CANCELLATION_REQUESTED then fail "workflow_state_conflict"
    else if r.revision ≠ revision then fail "workflow_revision_conflict"
    else
      Process.lift (checkProfileSha256 r expected_profile_sha256)
      return r

/-- a refusal of the AI ledger becomes attention -/
def orLedgerAttention (r : Record py) {α : Type} (p : Call py α) : Call py (Except (Record py) α) :=
  catchWorkflow (fun code =>
    if code ∈ AI_LEDGER_REVIEW_CODES then do return .error (← attention r code) else fail code)
    (do return .ok (← p))

/-- `confirm_edit` -/
def confirmEdit (id : Text) (revision : Nat) (sha256 : Option Text) : Call py (Record py) := do
  let r ← expected id revision sha256
  if r.profile.ai.isSome ∧ sha256 = none then fail "workflow_profile_confirmation_required"
  else match r.state, r.edit_plan_id with
    | .awaiting_edit_confirmation, some plan_id =>
      let (classification, disposition) ← observeEdit r plan_id .observe
      match disposition with
      | .failed | .attention | .invalid => getRecord id
      | .ready => advance id
      | .waiting_active =>
        let _ ← moveTo r .rendering ""
        advance id
      | .waiting_confirmation =>
        let observed_code := editConfirmationCode classification.code
        if observed_code ≠ "" ∧ observed_code ≠ editConfirmationCode r.code then
          moveTo r .awaiting_edit_confirmation observed_code
        else match ← orLedgerAttention r (Process.query (.confirm_edit plan_id)) with
          | .error record => return record
          | .ok () =>
            let _ ← moveTo r .rendering ""
            advance id
    | _, _ => fail "workflow_state_conflict"

/-- `confirm_ai` -/
def confirmAi (id : Text) (revision : Nat) (sha256 : Option Text) : Call py (Record py) := do
  let r ← expected id revision sha256
  if sha256 = none then fail "workflow_profile_confirmation_required"
  else if r.state ≠ .awaiting_ai_review ∨ r.edit_project_id = none then fail "workflow_state_conflict"
  else match ← orLedgerAttention r (Process.query (.advance_ai r true true)) with
    | .error record => return record
    | .ok snapshot =>
      if (← applyAiSnapshot r snapshot .explicit) = .attention then getRecord id
      else advance id

/-- `confirm_upload` -/
def confirmUpload (id : Text) (revision : Nat) : Call py (Record py) := do
  let r ← expected id revision none
  if r.state ≠ .awaiting_upload_confirmation then fail "workflow_state_conflict"
  else
    let (r, snapshot, classification, job_ids_changed) ← observeUpload r
    if job_ids_changed then getRecord id
    else match classification.disposition with
      | .attention => attention r classification.code
      | .ready =>
        let _ ← recordUploadOutcome r snapshot.outcome
        getRecord id
      | .invalid => attention r "workflow_domain_data_invalid"
      | .waiting_active =>
        let _ ← moveTo r .uploading ""
        advance id
      | .waiting_confirmation =>
        let answer ← catchWorkflow (fun code =>
            if code = "account_session_changed" then do return .error (← attention r code) else fail code) (do
          return .ok (← Process.query (.confirm_uploads r.upload_job_ids r.profile.upload.account_bindings)))
        match (answer : Except (Record py) Unit) with
        | .error record => return record
        | .ok () =>
          let _ ← moveTo r .uploading ""
          advance id

/-! ## retries -/

/-- what `_retry_upload` does with a fan-out that it has observed -/
def applyRetried (r : Record py) (snapshot : UploadSnapshot) (classification : UploadClassification)
    (attend : Call py (Record py)) : Call py (Record py) :=
  match classification.disposition with
  | .ready => do
    let _ ← recordUploadOutcome r snapshot.outcome
    getRecord r.id
  | .waiting_active => do
    let _ ← moveTo r .uploading classification.code
    getRecord r.id
  | .waiting_confirmation =>
    if classification.code ∉ UPLOAD_RETRY_REVIEW_CODES then attention r "workflow_domain_data_invalid"
    else do
      let _ ← moveTo r .awaiting_upload_confirmation classification.code
      getRecord r.id
  | .invalid => attention r "workflow_domain_data_invalid"
  | .attention => attend

/-- a fan-out that can be retried as a whole -/
def Record.fansOut (r : Record py) : Bool :=
  let accounts := r.profile.upload.account_ids.length
  r.outputs ≠ [] && accounts ≠ 0 && r.outputs.all (fun o => o.upload_source_id.isSome) &&
    r.outputs.all (fun o => o.targets.length == accounts) && r.upload_job_ids.length == r.outputs.length * accounts

/-- `_retry_upload` -/
def retryUpload (r : Record py) : Call py (Record py) :=
  if r.code ≠ "upload_job_failed" then fail "workflow_retry_not_available"
  else if r.fansOut = false then attention r "workflow_domain_data_invalid"
  else do
    let (r, snapshot, classification, _) ← observeUpload r
    applyRetried r snapshot classification (
      if classification.code ≠ "upload_job_failed" then attention r classification.code
      else do
        let expected_upload ← Process.lift (uploadForExecution r)
        let retried ← Process.query (.retry_uploads r expected_upload)
        let r ← syncUploadJobIds r retried
        let classification := classifyUploadSnapshot retried
        applyRetried r retried classification (attention r classification.code))

/-- `retry` of a plan -/
def retryEdit (r : Record py) (plan_id : Text) : Call py (Record py) :=
  if r.outputs ≠ [] then fail "workflow_retry_not_available"
  else do
    let (classification, disposition) ← observeEdit r plan_id .retry
    match disposition with
    | .ready | .attention | .invalid => getRecord r.id
    | .waiting_active =>
      let _ ← moveTo r .rendering ""
      getRecord r.id
    | .waiting_confirmation =>
      let _ ← moveTo r .awaiting_edit_confirmation
        (if classification.code ∈ AUTO_EDIT_REVIEW_CODES then "render_retry_confirmation_required"
          else classification.code)
      getRecord r.id
    | .failed =>
      if classification.code ≠ r.code then attention r classification.code
      else match ← orLedgerAttention r (Process.query (.retry_edit r.id plan_id)) with
        | .error record => return record
        | .ok plan_id =>
          let r ← setRefs r { edit_plan_id := some (some plan_id) }
          let _ ← moveTo r .awaiting_edit_confirmation "render_retry_confirmation_required"
          getRecord r.id

/-- `retry` -/
def retry (id : Text) (revision : Nat) : Call py (Record py) := do
  let r ← expected id revision none
  if r.state ≠ .attention_required ∨ r.code ∈ AI_LEDGER_REVIEW_CODES then fail "workflow_retry_not_available"
  else if r.upload_job_ids ≠ [] then retryUpload r
  else if r.edit_project_id = none then fail "workflow_retry_not_available"
  else match r.edit_plan_id with
    | some plan_id => retryEdit r plan_id
    | none =>
      if r.profile.ai.isNone then fail "workflow_retry_not_available"
      else match ← orLedgerAttention r (Process.query (.retry_ai r)) with
        | .error record => return record
        | .ok () =>
          let _ ← moveTo r .awaiting_ai_review "ai_retry_confirmation_required"
          getRecord id

/-! ## the other calls -/

/-- `cancel` -/
def cancel (id : Text) (expected_revision : Nat) : Call py (Record py) := do
  identifier id
  if expected_revision < 1 then fail "invalid_revision"
  else match ← Process.call (.requestCancel id expected_revision) with
    | some record => return record
    | none => advance id

/-- `[a-z][a-z0-9_]{0,79}` -/
def isAttentionCode (code : String) : Bool :=
  match code.toList with
  | [] => false
  | c :: rest => 'a' ≤ c && c ≤ 'z' && decide (rest.length ≤ 79) &&
      rest.all (fun c => ('a' ≤ c && c ≤ 'z') || c.isDigit || c == '_')

/-- `require_attention` -/
def requireAttention (id : Text) (code : String) (expected_revision : Option Nat) : Call py (Record py) := do
  let code := if isAttentionCode code then code else "workflow_failed"
  let r ← match expected_revision with
    | none => do
      identifier id
      getRecord id
    | some revision => expected id revision none
  if r.code = CANCELLATION_REQUESTED ∨ r.state.isActive = false then return r
  else attention r code

variable (py)

/-- the calls of the service -/
inductive ServiceCall where
  | create (request : CreateRequest F)
  | advance (id : Text)
  | confirm_edit (id : Text) (expected_revision : Nat) (expected_profile_sha256 : Option Text)
  | confirm_ai (id : Text) (expected_revision : Nat) (expected_profile_sha256 : Option Text)
  | confirm_upload (id : Text) (expected_revision : Nat)
  | retry (id : Text) (expected_revision : Nat)
  | cancel (id : Text) (expected_revision : Nat)
  | require_attention (id : Text) (code : String) (expected_revision : Option Nat)

/-- the program of a call -/
def ServiceCall.run : ServiceCall (F := F) → Call py (Record py)
  | .create request => Workflow.create py request
  | .advance id => Workflow.advance id
  | .confirm_edit id revision sha256 => Workflow.confirmEdit id revision sha256
  | .confirm_ai id revision sha256 => Workflow.confirmAi id revision sha256
  | .confirm_upload id revision => Workflow.confirmUpload id revision
  | .retry id revision => Workflow.retry id revision
  | .cancel id revision => Workflow.cancel id revision
  | .require_attention id code revision => Workflow.requireAttention id code revision

end

section
open TransSys
variable {F : Type} {fl : Floats F} (py : Python fl)

/-- a store that several processes share, and the calls at work on it -/
abbrev ServiceWorld := World (StoreOp py) (AdapterCall py) (Store F) Fault (Record py) (ServiceCall (F := F))

/-- a step of one call -/
abbrev ServiceStep := World.Step (ι := Moment) (storeMachine py) (ServiceCall.run py)

/-- whatever is reached from an empty store -/
abbrev ServiceReach (w : ServiceWorld py) : Prop :=
  Reach (World.Fresh (fun s => s = Store.empty F)) (ServiceStep py) w

end
end OpenFlame.Workflow
