import OpenFlame.Workflow.Calls

/-!
# Advancing a workflow

`advanceOnce`     one step of an active workflow, or of one that is being canceled
`advanceStep`     one round of the loop of `advance`
`advance`         rounds until the workflow waits for a domain
-/

set_option linter.all false

namespace OpenFlame.Workflow
open Guard Text Json Editing
open Upload (Mode Platform)

section
variable {F : Type} {fl : Floats F} {py : Python fl}

/-! ## cancellation -/

def attentionSnapshot (code : String) : CancellationSnapshot := { status := some .attention, code }

/-- `_cancel_via_discovery` -/
def cancelViaDiscovery (unavailable_code : String) (q : AdapterCall py (Option CancellationSnapshot)) :
    Call py CancellationSnapshot := do
  return (← Process.query q).getD (attentionSnapshot unavailable_code)

/-- the first output without an upload -/
def pendingOutput (outputs : List Output) : Option Output := outputs.find? (fun o => o.upload_source_id.isNone)

/-- `_cancel_furthest_domain` -/
def cancelFurthestDomain (r : Record py) : Call py CancellationSnapshot :=
  match pendingOutput r.outputs with
  | some pending => do
    let expected_upload ← Process.lift (uploadForExecution r)
    let snapshot ← cancelViaDiscovery "upload_discovery_unavailable"
      (.cancel_uploads_for_workflow r pending expected_upload)
    if snapshot.status = some .upload_completed then return attentionSnapshot "upload_partially_completed"
    else return snapshot
  | none =>
    if r.upload_job_ids ≠ [] then Process.query (.cancel_uploads r)
    else match r.edit_plan_id, r.edit_project_id, r.download_asset_id with
      | some plan_id, some project_id, some asset_id => Process.query (.cancel_edit r plan_id project_id asset_id)
      | some _, _, _ => return attentionSnapshot "workflow_domain_data_invalid"
      | none, some project_id, some asset_id =>
        cancelViaDiscovery "edit_discovery_unavailable" (.cancel_edit_for_workflow r (some project_id) asset_id)
      | none, some _, none => return attentionSnapshot "workflow_domain_data_invalid"
      | none, none, some asset_id =>
        cancelViaDiscovery "edit_discovery_unavailable" (.cancel_edit_for_workflow r none asset_id)
      | none, none, none =>
        match r.batch_id with
        | some batch_id => Process.query (.cancel_download r batch_id)
        | none => cancelViaDiscovery "download_discovery_unavailable" (.cancel_download_for_workflow r)

/-- `_advance_once` of a workflow that is being canceled -/
def advanceCancellation (r : Record py) : Call py Bool := do
  let answer ← catchWorkflow (fun code => return .error code) (do return .ok (← cancelFurthestDomain r))
  match (answer : Except String CancellationSnapshot) with
  | .error code =>
    let _ ← attention r (orCode code "workflow_domain_data_invalid")
    return false
  | .ok snapshot =>
    match snapshot.status with
    | some .stopped =>
      let _ ← moveTo r .canceled "workflow_canceled"
      return true
    | some .waiting => return false
    | some .attention =>
      let _ ← attention r (orCode snapshot.code "workflow_domain_data_invalid")
      return false
    | some .upload_completed => recordUploadOutcome r snapshot.outcome
    | none =>
      let _ ← attention r "workflow_domain_data_invalid"
      return false

/-! ## one step -/

/-- `state == "created"` -/
def advanceCreated (r : Record py) : Call py Bool := do
  let checked ← catchWorkflow (fun code => return .error code) (do
    let _ ← preflight py r.profile_json (some r.profile.upload.account_bindings)
    return .ok ())
  match (checked : Except String Unit) with
  | .error code =>
    if code ∈ PREFLIGHT_WAIT_CODES then
      let _ ← moveTo r .created code
      return false
    else
      let _ ← attention r code
      return false
  | .ok () =>
    let batch_id ← Process.query (.create_download r)
    let r ← setRefs r { batch_id := some batch_id }
    let _ ← moveTo r .downloading ""
    return true

/-- the upload of a profile in source-title mode, or the code it fails with -/
def resolveSource (r : Record py) (snapshot : DownloadSnapshot) : Call py (Except String (Value F)) := do
  match ← Process.query (.resolve_upload r.profile.upload.toDict snapshot) with
  | none => return .error "workflow_source_metadata_unavailable"
  | some candidate =>
    catchWorkflow (fun code => return .error code) (do
      let (resolved, _) ← Process.lift
        ((normalizeResolvedUpload py (record r.profile.items) candidate).mapError WorkflowErr.fault)
      return .ok resolved)

/-- `state == "downloading"`, once the asset is there -/
def advanceDownloaded (r : Record py) (snapshot : DownloadSnapshot) (asset_id : Text) : Call py Bool := do
  if r.profile.upload.title_mode = .source then
    if r.resolved_upload.isSome then
      let _ ← moveTo r .preparing_edit ""
      return true
    else
      match ← catchWorkflow (fun code => return .error code) (resolveSource r snapshot) with
      | .error code =>
        let r ← setRefs r { download_asset_id := some asset_id }
        let _ ← attention r code
        return false
      | .ok resolved =>
        let r ← setRefs r { download_asset_id := some asset_id, resolved_upload := some resolved }
        let _ ← moveTo r .preparing_edit ""
        return true
  else
    let r ← setRefs r { download_asset_id := some asset_id }
    let _ ← moveTo r .preparing_edit ""
    return true

/-- `state == "downloading"` -/
def advanceDownloading (r : Record py) : Call py Bool := do
  match r.batch_id with
  | none =>
    let _ ← attention r "workflow_data_invalid"
    return false
  | some batch_id =>
    let snapshot ← Process.query (.inspect_download batch_id)
    if snapshot.status = .waiting then return false
    match snapshot.status, snapshot.asset_id.filter (· ≠ []) with
    | .ready, some asset_id =>
      -- a ready asset is never another one later
      if r.download_asset_id.any (fun id => id ≠ asset_id) then
        let _ ← attention r "workflow_data_invalid"
        return false
      else advanceDownloaded r snapshot asset_id
    | _, _ =>
      let _ ← attention r (orCode (String.ofList snapshot.code) "download_attention_required")
      return false

/-- `state == "preparing_edit"` -/
def advancePreparingEdit (r : Record py) : Call py Bool := do
  match r.download_asset_id with
  | none =>
    let _ ← attention r "workflow_data_invalid"
    return false
  | some asset_id =>
    let prepared ← Process.query (.prepare_edit r asset_id)
    let r ← setRefs r {
      edit_project_id := some prepared.project_id
      edit_draft_version := some prepared.draft_version
      edit_plan_id := some prepared.plan_id }
    let _ ← moveTo r (if prepared.awaiting_ai_review then .awaiting_ai_review else .awaiting_edit_confirmation) ""
    return true

/-- `state == "awaiting_ai_review"` -/
def advanceAiReview (r : Record py) : Call py Bool := do
  if r.edit_project_id = none ∨ r.profile.ai.isNone = true then
    let _ ← attention r "workflow_data_invalid"
    return false
  let observing_source_caption : Bool := r.code == SOURCE_CAPTION_REVIEW_CODE
  if r.code ≠ "" ∧ observing_source_caption = false ∧
      (r.auto_confirm_edit = false ∨ r.code ∉ AUTO_AI_REVIEW_CODES) then return false
  let snapshot ← Process.query (.advance_ai r (r.auto_confirm_edit && !observing_source_caption) false)
  return (← applyAiSnapshot r snapshot .automatic) == .ready

/-- `state == "awaiting_edit_confirmation"`, where the plan waits for a confirmation -/
def advanceEditWaiting (r : Record py) (plan_id : Text) (classification : EditClassification) : Call py Bool := do
  if r.code ∉ AUTO_EDIT_REVIEW_CODES then return false
  let code := editConfirmationCode (orCode classification.code r.code)
  let r ← if code ≠ "" ∧ code ≠ r.code then moveTo r .awaiting_edit_confirmation code else pure r
  if r.auto_confirm_edit = false ∨ code ∉ AUTO_EDIT_REVIEW_CODES then return false
  let _ ← Process.query (.confirm_edit plan_id)
  let _ ← moveTo r .rendering ""
  return true

/-- `state == "awaiting_edit_confirmation"` -/
def advanceEditConfirmation (r : Record py) : Call py Bool := do
  match r.edit_plan_id with
  | none =>
    let _ ← attention r "workflow_data_invalid"
    return false
  | some plan_id =>
    let (classification, disposition) ← observeEdit r plan_id .observe
    match disposition with
    | .ready => return true
    | .waiting_active =>
      let _ ← moveTo r .rendering ""
      return true
    | .waiting_confirmation => advanceEditWaiting r plan_id classification
    | _ => return false

/-- `state == "rendering"` -/
def advanceRendering (r : Record py) : Call py Bool := do
  match r.edit_plan_id with
  | none =>
    let _ ← attention r "workflow_data_invalid"
    return false
  | some plan_id =>
    let (classification, disposition) ← observeEdit r plan_id .observe
    match disposition with
    | .ready => return true
    | .waiting_confirmation =>
      if classification.code = "" then return false
      let _ ← moveTo r .awaiting_edit_confirmation (editConfirmationCode classification.code)
      return false
    | _ => return false

/-- the outputs, with the uploads of one of them -/
def preparedOutputs (r : Record py) (pending : Output) (prepared : UploadPrepared) : List Output :=
  r.outputs.map (fun o =>
    if o.segment_ordinal = pending.segment_ordinal then
      { pending with
        upload_source_id := some prepared.source_id
        targets := (r.profile.upload.account_ids.zip prepared.job_ids).filterMap (fun x =>
          (r.profile.platformOf x.1).map (fun platform => ⟨x.1.1, platform, x.2⟩)) }
    else o)

/-- the upload of one output has been prepared -/
def applyPrepared (r : Record py) (pending : Output) (prepared : UploadPrepared) : Call py Bool := do
  if prepared.job_ids.length ≠ r.profile.upload.account_ids.length then
    let _ ← attention r "workflow_domain_data_invalid"
    return false
  if r.upload_cover_id.isSome ∧ r.upload_cover_id ≠ prepared.cover_id then
    let _ ← attention r "workflow_domain_data_invalid"
    return false
  let _ ← setRefs r { outputs := some (preparedOutputs r pending prepared), upload_cover_id := some prepared.cover_id }
  return true

/-- the upload of one output; `none` where only its cover was chosen -/
def prepareOutput (r : Record py) (pending : Output) : Call py (Option UploadPrepared) := do
  let upload ← Process.lift (uploadForExecution r)
  if r.profile.upload.prefer_download_cover then
    if r.download_asset_id = none then fail "workflow_data_invalid"
    else if r.upload_cover_id = none then
      let selected ← Process.query (.select_upload_cover r pending upload)
      let _ ← setRefs r { upload_cover_id := some (some selected) }
      return none
    else return some (← Process.query (.prepare_upload r pending upload r.upload_cover_id))
  else return some (← Process.query (.prepare_upload r pending upload none))

/-- `state == "preparing_upload"` -/
def advancePreparingUpload (r : Record py) : Call py Bool := do
  if r.outputs = [] then
    let _ ← attention r "workflow_data_invalid"
    return false
  match pendingOutput r.outputs with
  | none =>
    let _ ← moveTo r .awaiting_upload_confirmation ""
    return true
  | some pending =>
    let answer ← catchWorkflow (fun code => return .error code) (do return .ok (← prepareOutput r pending))
    match (answer : Except String (Option UploadPrepared)) with
    | .error code =>
      let _ ← attention r code
      return false
    | .ok none => return true
    | .ok (some prepared) => applyPrepared r pending prepared

/-- `state == "awaiting_upload_confirmation"`, where the uploads wait for a confirmation -/
def advanceUploadWaiting (r : Record py) (classification : UploadClassification) : Call py Bool := do
  if r.code ∉ AUTO_UPLOAD_REVIEW_CODES then return false
  let r ← if classification.code ≠ "" ∧ classification.code ≠ r.code then
      moveTo r .awaiting_upload_confirmation classification.code else pure r
  if r.auto_confirm_upload = false ∨ classification.code ∉ AUTO_UPLOAD_REVIEW_CODES then return false
  let _ ← Process.query (.confirm_uploads r.upload_job_ids r.profile.upload.account_bindings)
  let _ ← moveTo r .uploading ""
  return true

/-- `state == "awaiting_upload_confirmation"` -/
def advanceUploadConfirmation (r : Record py) : Call py Bool := do
  let (r, snapshot, classification, _) ← observeUpload r
  match classification.disposition with
  | .attention =>
    let _ ← attention r classification.code
    return false
  | .ready => recordUploadOutcome r snapshot.outcome
  | .invalid =>
    let _ ← attention r "workflow_domain_data_invalid"
    return false
  | .waiting_active =>
    let _ ← moveTo r .uploading ""
    return true
  | .waiting_confirmation => advanceUploadWaiting r classification

/-- `state == "uploading"` -/
def advanceUploading (r : Record py) : Call py Bool := do
  let (r, snapshot, classification, _) ← observeUpload r
  match classification.disposition with
  | .waiting_confirmation =>
    let _ ← moveTo r .awaiting_upload_confirmation classification.code
    return false
  | .waiting_active => return false
  | .attention =>
    let _ ← attention r classification.code
    return false
  | .invalid =>
    let _ ← attention r "workflow_domain_data_invalid"
    return false
  | .ready => recordUploadOutcome r snapshot.outcome

/-- `_advance_once` -/
def advanceOnce (r : Record py) : Call py Bool :=
  if r.code = CANCELLATION_REQUESTED then advanceCancellation r
  else match r.state with
    | .created => advanceCreated r
    | .downloading => advanceDownloading r
    | .preparing_edit => advancePreparingEdit r
    | .awaiting_ai_review => advanceAiReview r
    | .awaiting_edit_confirmation => advanceEditConfirmation r
    | .rendering => advanceRendering r
    | .preparing_upload => advancePreparingUpload r
    | .awaiting_upload_confirmation => advanceUploadConfirmation r
    | .uploading => advanceUploading r
    | _ => return false

/-! ## the loop -/

/-- one round, and then another one, or the record that is returned -/
def stepOnce (r : Record py) : Call py (Option (Record py)) := do
  if ← advanceOnce r then return none
  else return some (← getRecord r.id)

/-- attention with uploads -/
def advanceUploadAttention (r : Record py) : Call py (Option (Record py)) := do
  let (r, snapshot, classification, _) ← observeUpload r
  match classification.disposition with
  | .ready =>
    let _ ← recordUploadOutcome r snapshot.outcome
    return some (← getRecord r.id)
  | .waiting_confirmation =>
    let _ ← moveTo r .awaiting_upload_confirmation classification.code
    return none
  | .waiting_active =>
    let _ ← moveTo r .uploading ""
    return none
  | .invalid => return some (← attention r "workflow_domain_data_invalid")
  | .attention => return some (← getRecord r.id)

/-- attention over an AI call that was not answered -/
def advanceLedgerAttention (r : Record py) : Call py (Option (Record py)) := do
  match r.edit_plan_id with
  | some plan_id =>
    let (classification, disposition) ← observeEdit r plan_id .reconcile
    match disposition with
    | .ready => return none
    | .waiting_confirmation =>
      let _ ← moveTo r .awaiting_edit_confirmation classification.code
      return none
    | .waiting_active =>
      let _ ← moveTo r .rendering ""
      return none
    | _ => return some (← getRecord r.id)
  | none =>
    if r.profile.ai.isNone then return some (← attention r "workflow_domain_data_invalid")
    else
      let snapshot ← Process.query (.advance_ai r false false)
      if (← applyAiSnapshot r snapshot .reconcile) = .attention then return some (← getRecord r.id)
      else return none

/-- one round of the loop of `advance` -/
def advanceStep (r : Record py) : Call py (Option (Record py)) :=
  if r.code = CANCELLATION_REQUESTED then stepOnce r
  else if r.state = .attention_required then
    if (pendingOutput r.outputs).isSome then do
      -- the first output that is not prepared is prepared again, under the same key
      let _ ← moveTo r .preparing_upload ""
      return none
    else if r.upload_job_ids ≠ [] then advanceUploadAttention r
    else if r.batch_id = none ∧ r.code ∈ PREFLIGHT_RETRY_CODES then do
      let _ ← moveTo r .created ""
      return none
    else if r.code = SOURCE_METADATA_RETRY_CODE ∧ r.batch_id ≠ none ∧ r.download_asset_id ≠ none ∧
        r.resolved_upload.isNone = true ∧ r.profile.upload.title_mode = .source then do
      let _ ← moveTo r .downloading ""
      return none
    else if r.code ∈ AI_LEDGER_REVIEW_CODES ∧ r.edit_project_id ≠ none then advanceLedgerAttention r
    else return some r
  else if r.state.isActive = false then return some r
  else stepOnce r

/-- `_WORKFLOW_PROGRESS_LIMIT` -/
def WORKFLOW_PROGRESS_LIMIT : Nat := MAX_WORKFLOW_SEGMENTS * 2 + 12

/-- the loop of `advance`, with so many rounds left -/
def advanceLoop (id : Text) : Nat → Call py (Record py)
  | 0 => do
    let r ← getRecord id
    if r.code = CANCELLATION_REQUESTED then return r
    else attention r "workflow_progress_limit"
  | n + 1 => do
    let r ← getRecord id
    match ← advanceStep r with
    | none => advanceLoop id n
    | some r => return r

/-- `_identifier` -/
def identifier (id : Text) : Call py Unit := if isHex 32 id then return () else fail "workflow_not_found"

/-- `advance` -/
def advance (id : Text) : Call py (Record py) := do
  identifier id
  advanceLoop id WORKFLOW_PROGRESS_LIMIT

end
end OpenFlame.Workflow
