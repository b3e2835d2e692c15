import OpenFlame.Workflow.Snapshots

/-!
# The calls of the workflow service

Each call is a program of transactions on the workflow store (`StoreOp`) and of questions to the domains
(`AdapterCall`).  The lock of the service only orders the calls of one process, so nothing is assumed of it.

`create`, `advance`, `cancel`, `confirmEdit`, `confirmAi`, `confirmUpload`, `retry`, `requireAttention`
-/

set_option linter.all false

namespace OpenFlame.Workflow
open Guard Text Json Editing
open Upload (Mode Platform)

section
variable {F : Type} {fl : Floats F} (py : Python fl)

/-- `WorkflowDomainAdapter`; a record stands for the arguments that are read off it -/
inductive AdapterCall : Type → Type where
  | preflight (profile : Value F) (expected : Option (List AccountBinding)) : AdapterCall (List (List (Text × Value F)))
  | create_download (record : Record py) : AdapterCall Text
  | inspect_download (batch_id : Text) : AdapterCall DownloadSnapshot
  /-- `none` where the adapter has no `resolve_upload` -/
  | resolve_upload (upload : Value F) (download : DownloadSnapshot) : AdapterCall (Option (Value F))
  | prepare_edit (record : Record py) (asset_id : Text) : AdapterCall EditPrepared
  | advance_ai (record : Record py) (authorize explicit : Bool) : AdapterCall AiSnapshot
  | retry_ai (record : Record py) : AdapterCall Unit
  | inspect_edit (plan_id : Text) : AdapterCall EditSnapshot
  | confirm_edit (plan_id : Text) : AdapterCall Unit
  | retry_edit (workflow_id plan_id : Text) : AdapterCall Text
  | select_upload_cover (record : Record py) (pending : Output) (upload : Value F) : AdapterCall Text
  | prepare_upload (record : Record py) (pending : Output) (upload : Value F) (expected_upload_cover_id : Option Text) :
      AdapterCall UploadPrepared
  | inspect_upload (job_ids : List Text) (expected_targets : List (Option Text × Target)) : AdapterCall UploadSnapshot
  | confirm_uploads (job_ids : List Text) (account_bindings : List AccountBinding) : AdapterCall Unit
  | retry_uploads (record : Record py) (expected_upload : Value F) : AdapterCall UploadSnapshot
  | cancel_download (record : Record py) (batch_id : Text) : AdapterCall CancellationSnapshot
  | cancel_edit (record : Record py) (plan_id project_id asset_id : Text) : AdapterCall CancellationSnapshot
  | cancel_uploads (record : Record py) : AdapterCall CancellationSnapshot
  /-- the three discoveries are `none` where the adapter has no such method -/
  | cancel_download_for_workflow (record : Record py) : AdapterCall (Option CancellationSnapshot)
  | cancel_edit_for_workflow (record : Record py) (project_id : Option Text) (asset_id : Text) :
      AdapterCall (Option CancellationSnapshot)
  | cancel_uploads_for_workflow (record : Record py) (pending : Output) (expected_upload : Value F) :
      AdapterCall (Option CancellationSnapshot)

/-- a call of the service -/
abbrev Call (α : Type) : Type 1 := Process (StoreOp py) (AdapterCall py) Fault α

end

section
variable {F : Type} {fl : Floats F} {py : Python fl}

/-- `_transition` -/
def moveTo (expected : Record py) (state : WorkflowState) (code : String) : Call py (Record py) :=
  .call (.transition expected state code)

/-- `_attention` -/
def attention (expected : Record py) (code : String) : Call py (Record py) := moveTo expected .attention_required code

/-- `_set_refs` -/
def setRefs (expected : Record py) (values : Refs F) : Call py (Record py) := .call (.setRefs expected values)

/-- `get` -/
def getRecord (id : Text) : Call py (Record py) := .call (.get id)

/-- `raise WorkflowError(code)` -/
def fail {α : Type} (code : String) : Call py α := .raise (.workflow code)

/-- `except WorkflowError as error` -/
def catchWorkflow {α : Type} (h : String → Call py α) (p : Call py α) : Call py α :=
  p.handle (fun e => match e with
    | .workflow code => some (h code)
    | .other => none)

/-! ## uploads -/

/-- `_upload_targets` -/
def Record.uploadTargets (r : Record py) : List (Option Text × Target) :=
  r.outputs.flatMap (fun o => o.targets.map (fun t => (o.upload_source_id, t)))

/-- `_upload_for_execution` -/
def uploadForExecution (r : Record py) : Except Fault (Value F) :=
  if r.profile.upload.title_mode ≠ .source then do
    require (r.resolved_upload.isNone = true) .data_invalid
    return r.profile.upload.toDict
  else fetch r.resolved_upload (.workflow "workflow_source_metadata_unavailable")

/-- the outputs with other jobs, taken in order from `job_ids` -/
def replaceJobIds : List Output → List Text → List Output
  | [], _ => []
  | o :: outputs, job_ids =>
    { o with targets := (o.targets.zip job_ids).map (fun x => { x.1 with job_id := x.2 }) } ::
      replaceJobIds outputs (job_ids.drop o.targets.length)

/-- `_sync_upload_job_ids` -/
def syncUploadJobIds (r : Record py) (snapshot : UploadSnapshot) : Call py (Record py) :=
  match snapshot.job_ids with
  | none => pure r
  | some replacement =>
    if replacement = r.upload_job_ids then pure r
    else if replacement.length = r.upload_job_ids.length ∧ replacement.all (isHex 32) = true ∧ replacement.Nodup then
      setRefs r { outputs := some (replaceJobIds r.outputs replacement) }
    else fail "workflow_domain_data_invalid"

/-- `_observe_upload`, with the record that it leaves behind -/
def observeUpload (r : Record py) : Call py (Record py × UploadSnapshot × UploadClassification × Bool) := do
  let snapshot ← Process.query (AdapterCall.inspect_upload r.upload_job_ids r.uploadTargets)
  let updated ← syncUploadJobIds r snapshot
  return (updated, snapshot, classifyUploadSnapshot snapshot, snapshot.job_ids.any (fun ids => ids ≠ r.upload_job_ids))

/-- `codes` -/
def UploadOutcome.code : UploadOutcome → String
  | .submitted => "submission_acknowledged"
  | .draft_saved => "platform_draft_saved"
  | .mixed => "submission_and_draft_acknowledged"

/-- `_record_upload_outcome` -/
def recordUploadOutcome (r : Record py) (outcome : Option UploadOutcome) : Call py Bool :=
  match outcome with
  | none => do
    let _ ← attention r "upload_outcome_missing"
    return false
  | some outcome => do
    let _ ← moveTo r .completed outcome.code
    return true

/-! ## AI and edits -/

inductive AiContext where
  | automatic | explicit | reconcile
  deriving DecidableEq

inductive EditContext where
  | observe | reconcile | retry
  deriving DecidableEq

/-- `_apply_ai_snapshot` -/
def applyAiSnapshot (r : Record py) (snapshot : AiSnapshot) (context : AiContext) : Call py AiDisposition :=
  let classification := classifyAiSnapshot snapshot
  match classification.disposition with
  | .invalid => do
    let _ ← attention r (if context = .automatic then orCode snapshot.code "ai_review_required"
      else "workflow_domain_data_invalid")
    return .attention
  | .attention =>
    if r.state ≠ .attention_required ∨ r.code ≠ classification.code then do
      let _ ← attention r classification.code
      return .attention
    else return .attention
  | .waiting =>
    if context ≠ .automatic ∨ r.state ≠ .awaiting_ai_review ∨ r.code ≠ classification.code then do
      let _ ← moveTo r .awaiting_ai_review classification.code
      return .waiting
    else return .waiting
  | .ready =>
    match snapshot.plan_id, snapshot.draft_version with
    | some plan_id, some draft_version =>
      if plan_id = [] then do
        let _ ← attention r (if context = .reconcile then "workflow_domain_data_invalid" else "workflow_data_invalid")
        return .attention
      else do
        let updated ← setRefs r { edit_draft_version := some draft_version, edit_plan_id := some (some plan_id) }
        let _ ← moveTo updated .awaiting_edit_confirmation ""
        return .ready
    | _, _ => do
      let _ ← attention r (if context = .reconcile then "workflow_domain_data_invalid" else "workflow_data_invalid")
      return .attention

/-- `_record_edit_outputs`, with the record that it leaves behind -/
def recordEditOutputs (r : Record py) (snapshot : EditSnapshot) : Call py (Option (Record py)) :=
  catchWorkflow (fun _ => do
      let _ ← attention r "workflow_domain_data_invalid"
      return none) do
    let output_ids ← Process.lift (outputIdsFromSnapshot snapshot)
    let updated ← setRefs r { outputs := some (unpreparedOutputs output_ids), edit_cover_id := some snapshot.cover_id }
    return some updated

/-- `_apply_edit_snapshot` -/
def applyEditSnapshot (r : Record py) (snapshot : EditSnapshot) (classification : EditClassification)
    (context : EditContext) : Call py EditDisposition :=
  let refresh (disposition : EditDisposition) : Call py EditDisposition :=
    if r.state ≠ .attention_required ∨ r.code ≠ classification.code then do
      let _ ← attention r classification.code
      return disposition
    else return disposition
  if classification.disposition = .invalid then do
    let _ ← attention r "workflow_domain_data_invalid"
    return .invalid
  else if classification.code ∈ AI_LEDGER_REVIEW_CODES then refresh .attention
  else match classification.disposition with
    | .failed => if context = .retry then return .failed else refresh .failed
    | .attention => refresh .attention
    | .ready => do
      match ← recordEditOutputs r snapshot with
      | none => return .invalid
      | some updated =>
        let _ ← moveTo updated .preparing_upload ""
        return .ready
    | disposition => return disposition

/-- `_observe_edit` -/
def observeEdit (r : Record py) (plan_id : Text) (context : EditContext) :
    Call py (EditClassification × EditDisposition) := do
  let snapshot ← catchWorkflow (fun code =>
      if code ∈ AI_LEDGER_REVIEW_CODES then return { status := some .attention, code } else fail code)
    (Process.query (AdapterCall.inspect_edit plan_id))
  let classification := classifyEditSnapshot snapshot
  let disposition ← applyEditSnapshot r snapshot classification context
  return (classification, disposition)

end

/-! ## `create` -/

section
variable {F : Type} {fl : Floats F} (py : Python fl)

/-- `_REQUEST_KEY` -/
def isRequestKey (s : Text) : Bool :=
  decide (8 ≤ s.length ∧ s.length ≤ 128) &&
    s.all (fun c => c.isDigit || ('A' ≤ c && c ≤ 'Z') || ('a' ≤ c && c ≤ 'z') || c == '_' || c == '-')

/-- `normalize_workflow_text` of a `str` -/
def normalizeWorkflowText (maximum : Nat) (required : Bool) (s : Text) : Except Fault Text := do
  require (IsPlain maximum s) (.workflow "invalid_workflow_profile")
  require (¬ (required = true ∧ strip s = [])) (.workflow "invalid_workflow_profile")
  return strip s

/-- what `create` is asked for -/
structure CreateRequest (F : Type) where
  source_url : Text
  name : Text
  profile : Value F
  idempotency_key : Text

/-- the request as it is compared with others -/
structure Intent (F : Type) where
  source_url : Text
  name : Text
  /-- the normal form of the profile, whose accounts are not bound yet -/
  profile : Value F
  encoded : Text
  digest : Text

/-- `request_payload` -/
def requestPayload (source_url name intent_profile_digest : Text) : Value F :=
  .obj (record [("name", .str name), ("profile_sha256", .str intent_profile_digest), ("source_url", .str source_url)])

/-- what `create` does before its first transaction -/
def CreateRequest.intent (c : CreateRequest F) : Except Fault (Intent F) := do
  require (isRequestKey c.idempotency_key = true) (.workflow "invalid_idempotency_key")
  let source_url ← normalizeWorkflowText 4096 true c.source_url
  require ("https://".toList <+: source_url ∨ "http://".toList <+: source_url) (.workflow "invalid_source_url")
  let name ← normalizeWorkflowText 160 true c.name
  let (profile, _, profile_digest) ← (normalizeWorkflowProfile py false true c.profile).mapError WorkflowErr.fault
  let (encoded, digest) ←
    (canonicalWorkflowMapping py (requestPayload (F := F) source_url name profile_digest)).mapError WorkflowErr.fault
  return { source_url, name, profile, encoded, digest }

/-- the profile with `account_bindings` of the preflight -/
def bindAccounts (profile : Value F) (bindings : List (List (Text × Value F))) : Value F :=
  match profile with
  | .obj ms =>
    match get ms "upload" with
    | .obj upload => .obj (Json.insert "upload".toList
        (.obj (Json.insert "account_bindings".toList (.arr (bindings.map .obj)) upload)) ms)
    | _ => profile
  | _ => profile

/-- `_preflight` -/
def preflight (profile : Value F) (expected : Option (List AccountBinding)) :
    Call py (List (List (Text × Value F))) := do
  let bindings ← Process.query (AdapterCall.preflight profile expected)
  match expected with
  | none => return bindings
  | some expected =>
    if equals py (.arr (bindings.map .obj)) (.arr (expected.map (fun b => .obj (record b.items)))) then return bindings
    else fail "account_session_changed"

/-- the row of a request, once its accounts are bound -/
def newWorkflow (key : Text) (i : Intent F) (bindings : List (List (Text × Value F))) : Except Fault (NewWorkflow F) := do
  let p ← (parseProfile py true true (bindAccounts i.profile bindings)).mapError WorkflowErr.fault
  let (_, digest) ← (canonicalWorkflowMapping py p.toDict).mapError WorkflowErr.fault
  return {
    request_key := key
    request_digest := i.digest
    source_url := i.source_url
    name := i.name
    profile_json := p.toDict
    profile_sha256 := digest
    auto_confirm_edit := p.auto_confirm_edit
    auto_confirm_upload := p.auto_confirm_upload }

/-- `create` -/
def create (c : CreateRequest F) : Call py (Record py) := do
  let i ← Process.lift (c.intent py)
  match ← Process.call (.findKey c.idempotency_key i.digest) with
  | some prior => return prior
  | none =>
    let bindings ← preflight py i.profile none
    let new ← Process.lift (newWorkflow py c.idempotency_key i bindings)
    Process.call (.insert new)

end
end OpenFlame.Workflow
