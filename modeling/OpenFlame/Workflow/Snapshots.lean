import OpenFlame.Workflow.Store
import OpenFlame.Workflow.Titles

/-!
# What the domains answer

The snapshots that the workflow service gets of the download, edit, AI and upload domains, and their classification
(`classifyAiSnapshot`, `classifyEditSnapshot`, `classifyUploadSnapshot`).

A status is `none` where the answer is not one of the protocol.
-/

set_option linter.all false

namespace OpenFlame.Workflow
open Guard Text Json Editing
open Upload (Mode Platform)

/-- the codes of unanswered AI calls: `_AI_LEDGER_REVIEW_CODES` -/
def AI_LEDGER_REVIEW_CODES : List String :=
  ["ai_remote_result_unknown", "ai_remote_retry_blocked", "ai_remote_reconciliation_required",
    "ai_remote_accepted_without_result", "ai_remote_abandoned"]

/-- `_AUTO_AI_REVIEW_CODES` -/
def AUTO_AI_REVIEW_CODES : List String :=
  ["", "ai_transcription_confirmation_required", "ai_transcription_review_required",
    "ai_translation_confirmation_required", "ai_translation_review_required", "ai_restart_confirmation_required"]

/-- `_AUTO_EDIT_REVIEW_CODES` -/
def AUTO_EDIT_REVIEW_CODES : List String :=
  ["", "edit_confirmation_required", "edit_review_confirmation_required", "explicit_confirmation_required",
    "restart_confirmation_required", "edit_restart_confirmation_required"]

/-- `_AUTO_UPLOAD_REVIEW_CODES` -/
def AUTO_UPLOAD_REVIEW_CODES : List String := ["", "upload_restart_confirmation_required"]

/-- `_UPLOAD_RETRY_REVIEW_CODES` -/
def UPLOAD_RETRY_REVIEW_CODES : List String :=
  ["upload_retry_confirmation_required", "upload_retry_mixed_confirmation_required"]

/-- `_SOURCE_CAPTION_REVIEW_CODE` -/
def SOURCE_CAPTION_REVIEW_CODE : String := "ai_source_caption_review_required"

/-- `_SOURCE_METADATA_RETRY_CODE` -/
def SOURCE_METADATA_RETRY_CODE : String := "workflow_source_metadata_unavailable"

/-- `_PREFLIGHT_WAIT_CODES` -/
def PREFLIGHT_WAIT_CODES : List String :=
  ["download_worker_unobserved", "download_runtime_unavailable", "download_queue_paused", "download_worker_stale",
    "download_worker_not_ready", "download_network_disabled", "runtime_busy", "upload_activity_busy",
    "account_not_ready"]

/-- `_PREFLIGHT_RETRY_CODES` -/
def PREFLIGHT_RETRY_CODES : List String :=
  ["download_worker_unobserved", "download_runtime_unavailable", "download_queue_paused", "download_worker_stale",
    "download_worker_not_ready", "download_network_disabled", "processor_not_configured", "ai_runtime_missing",
    "ai_runtime_invalid", "ai_runtime_changed", "ai_runtime_unsupported", "ai_provider_not_found",
    "ai_provider_operation_unsupported", "ai_model_not_found", "ai_model_operation_unsupported",
    "ai_provider_auth_missing", "ai_provider_auth_environment_invalid", "ai_authorization_binding_required",
    "ai_authorization_changed", "ai_authorization_invalid", "ai_voice_not_allowed", "runtime_missing",
    "runtime_invalid", "runtime_busy", "runtime_upgrade_required", "runtime_unavailable", "unsupported_platform",
    "scheduler_owned_by_other_instance", "scheduler_database_unavailable", "scheduler_failed",
    "upload_scheduler_not_ready", "uploader_stopped", "upload_activity_busy", "account_not_found",
    "account_disconnected", "account_not_ready", "account_session_changed"]

/-- `_edit_confirmation_code` -/
def editConfirmationCode (code : String) : String :=
  if code = "restart_confirmation_required" then "edit_restart_confirmation_required" else code

/-- `code or default` -/
def orCode (code default : String) : String := if code = "" then default else code

/-! ## snapshots -/

structure EditPrepared where
  project_id : Text
  draft_version : Int
  plan_id : Option Text
  awaiting_ai_review : Bool

inductive AiStatus where
  | waiting | ready | failed | attention | review
  deriving DecidableEq, Repr

structure AiSnapshot where
  status : Option AiStatus
  draft_version : Option Int := none
  plan_id : Option Text := none
  code : String := ""

structure EditSnapshot where
  status : Option StepStatus
  output_id : Option Text := none
  cover_id : Option Text := none
  code : String := ""
  output_ids : List Text := []
  needs_confirmation : Bool := true

structure UploadPrepared where
  source_id : Text
  cover_id : Option Text
  job_ids : List Text

inductive UploadOutcome where
  | submitted | draft_saved | mixed
  deriving DecidableEq, Repr

structure UploadSnapshot where
  status : Option StepStatus
  code : String := ""
  job_ids : Option (List Text) := none
  outcome : Option UploadOutcome := none
  needs_confirmation : Bool := true

inductive CancellationStatus where
  | stopped | waiting | attention | upload_completed
  deriving DecidableEq, Repr

structure CancellationSnapshot where
  status : Option CancellationStatus
  code : String := ""
  outcome : Option UploadOutcome := none

/-! ## classification -/

inductive AiDisposition where
  | waiting | ready | attention | invalid
  deriving DecidableEq, Repr

inductive EditDisposition where
  | waiting_confirmation | waiting_active | ready | failed | attention | invalid
  deriving DecidableEq, Repr

inductive UploadDisposition where
  | waiting_confirmation | waiting_active | ready | attention | invalid
  deriving DecidableEq, Repr

structure AiClassification where
  disposition : AiDisposition
  code : String := ""

structure EditClassification where
  disposition : EditDisposition
  code : String := ""

structure UploadClassification where
  disposition : UploadDisposition
  code : String := ""
  deriving DecidableEq

def classifyAiSnapshot (snapshot : AiSnapshot) : AiClassification :=
  match snapshot.status with
  | some .waiting => ⟨.waiting, snapshot.code⟩
  | some .review => ⟨.waiting, snapshot.code⟩
  | some .failed => ⟨.attention, orCode snapshot.code "ai_review_required"⟩
  | some .attention => ⟨.attention, orCode snapshot.code "ai_review_required"⟩
  | some .ready => { disposition := .ready }
  | none => { disposition := .invalid }

def classifyEditSnapshot (snapshot : EditSnapshot) : EditClassification :=
  match snapshot.status with
  | some .failed => ⟨.failed, orCode snapshot.code "edit_attention_required"⟩
  | some .attention => ⟨.attention, orCode snapshot.code "edit_attention_required"⟩
  | some .ready => ⟨.ready, snapshot.code⟩
  | some .waiting => ⟨if snapshot.needs_confirmation then .waiting_confirmation else .waiting_active, snapshot.code⟩
  | none => { disposition := .invalid }

def classifyUploadSnapshot (snapshot : UploadSnapshot) : UploadClassification :=
  match snapshot.status with
  | some .failed => ⟨.attention, orCode snapshot.code "upload_attention_required"⟩
  | some .attention => ⟨.attention, orCode snapshot.code "upload_attention_required"⟩
  | some .ready => { disposition := .ready }
  | some .waiting => ⟨if snapshot.needs_confirmation then .waiting_confirmation else .waiting_active, snapshot.code⟩
  | none => { disposition := .invalid }

/-- `_output_ids_from_snapshot` -/
def outputIdsFromSnapshot (snapshot : EditSnapshot) : Except Fault (List Text) := do
  let raw := if snapshot.output_ids = [] then snapshot.output_id.toList else snapshot.output_ids
  require (1 ≤ raw.length ∧ raw.length ≤ MAX_WORKFLOW_SEGMENTS ∧ raw.all (isHex 32) = true ∧ raw.Nodup ∧
    ∀ primary ∈ snapshot.output_id, raw = [primary]) (.workflow "workflow_domain_data_invalid")
  return raw

/-- `_unprepared_outputs` -/
def unpreparedOutputs (output_ids : List Text) : List Output :=
  (output_ids.zipIdx 1).map (fun x => ⟨x.2, x.1, none, []⟩)

end OpenFlame.Workflow
