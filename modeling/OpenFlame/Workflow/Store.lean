import OpenFlame.Base.Process
import OpenFlame.Base.Table
import OpenFlame.Workflow.Profile

/-!
# The store of workflows

`WorkflowRow`      a row of `workflows`, `public` what is read of it
`WorkflowEvent`    a row of `workflow_events`
`StoreOp`          the transactions of the service, `execStore` what they do

A transaction that raises leaves the store as it was.
-/

set_option linter.all false

namespace OpenFlame.Workflow
open Guard Text Json Editing
open Upload (Mode Platform)

/-- a `WorkflowError` by its code, or another exception -/
inductive Fault where
  | workflow (code : String)
  | other
  deriving DecidableEq, Repr

def Fault.data_invalid : Fault := .workflow "workflow_data_invalid"
def Fault.state_conflict : Fault := .workflow "workflow_state_conflict"
def Fault.revision_conflict : Fault := .workflow "workflow_revision_conflict"
def Fault.not_found : Fault := .workflow "workflow_not_found"

/-- `EditingError.code` -/
def recipeFault : RecipeErr → Fault
  | .invalid_recipe => .workflow "invalid_recipe"
  | .invalid_segments => .workflow "invalid_segments"
  | .invalid_cover => .workflow "invalid_cover"
  | .invalid_translation => .workflow "invalid_translation"
  | .invalid_dubbing => .workflow "invalid_dubbing"
  | .typeError => .other

/-- `WorkflowError.code` -/
def WorkflowErr.fault : WorkflowErr → Fault
  | .invalid_workflow_profile => .workflow "invalid_workflow_profile"
  | .upload_automation_requires_edit_automation => .workflow "upload_automation_requires_edit_automation"
  | .recipe e => recipeFault e
  | .workflow_output_count_invalid => .workflow "workflow_output_count_invalid"
  | .workflow_ai_segments_must_be_contiguous => .workflow "workflow_ai_segments_must_be_contiguous"
  | .workflow_translation_requires_dubbing => .workflow "workflow_translation_requires_dubbing"
  | .workflow_dubbing_requires_translation => .workflow "workflow_dubbing_requires_translation"
  | .workflow_translation_languages_match => .workflow "workflow_translation_languages_match"
  | .ai_authorization_required => .workflow "ai_authorization_required"
  | .ai_data_egress_confirmation_required => .workflow "ai_data_egress_confirmation_required"
  | .workflow_profile_too_large => .workflow "workflow_profile_too_large"
  | .workflow_data_invalid => .workflow "workflow_data_invalid"
  | .workflow_source_metadata_unavailable => .workflow "workflow_source_metadata_unavailable"
  | .typeError => .other

inductive WorkflowState where
  | created | downloading | preparing_edit | awaiting_ai_review | awaiting_edit_confirmation | rendering
  | preparing_upload | awaiting_upload_confirmation | uploading | completed | attention_required | canceled
  deriving DecidableEq, Repr

/-- `_ACTIVE_STATES` -/
def WorkflowState.isActive : WorkflowState → Bool
  | .completed | .attention_required | .canceled => false
  | _ => true

/-- `_CANCELLABLE_STATES` -/
def WorkflowState.isCancellable (s : WorkflowState) : Bool := s.isActive || s == .attention_required

/-- the states with a `finished_at` -/
def WorkflowState.isFinished : WorkflowState → Bool
  | .completed | .attention_required | .canceled => true
  | _ => false

/-- `_CANCELLATION_REQUESTED` -/
def CANCELLATION_REQUESTED : String := "workflow_cancellation_requested"

/-! ## outputs -/

structure Target where
  account_id : Text
  platform : Platform
  job_id : Text
  deriving DecidableEq

/-- one output of the edit, and its uploads once they are prepared -/
structure Output where
  segment_ordinal : Nat
  edit_output_id : Text
  upload_source_id : Option Text
  targets : List Target
  deriving DecidableEq

def Output.isPrepared (o : Output) : Bool := o.upload_source_id.isSome

/-- `[target["job_id"] for item in outputs for target in item["targets"]]` -/
def uploadJobIds (outputs : List Output) : List Text := outputs.flatMap (fun o => o.targets.map (·.job_id))

def MAX_WORKFLOW_UPLOAD_JOBS : Nat := MAX_WORKFLOW_SEGMENTS * MAX_WORKFLOW_ACCOUNTS

section
variable {F : Type} {fl : Floats F} {py : Python fl}

/-- `expected_outputs` -/
def WorkflowProfile.outputCount {bound : Bool} (p : WorkflowProfile py bound) : Nat :=
  if p.edit_recipe.segments.1.length = 0 then 1 else p.edit_recipe.segments.1.length

/-- `platforms[account_id]` -/
def WorkflowProfile.platformOf (p : WorkflowProfile py true) (account_id : HexIdentifier) : Option Platform :=
  (p.upload.account_bindings.find? (fun b => b.account_id == account_id)).map (·.platform)

/-- the checks of one output -/
def OutputFits (p : WorkflowProfile py true) (ordinal : Nat) (o : Output) : Prop :=
  o.segment_ordinal = ordinal ∧ isHex 32 o.edit_output_id = true ∧ (∀ s ∈ o.upload_source_id, isHex 32 s = true) ∧
    o.targets.map (fun t => (t.account_id, some t.platform)) =
      (if o.isPrepared then p.upload.account_ids.map (fun id => (id.1, p.platformOf id)) else []) ∧
    ∀ t ∈ o.targets, isHex 32 t.job_id = true

instance (p : WorkflowProfile py true) (ordinal : Nat) (o : Output) : Decidable (OutputFits p ordinal o) :=
  inferInstanceAs (Decidable (_ ∧ _ ∧ _ ∧ _ ∧ _))

/-- no output is prepared before the one it follows -/
def preparedInOrder : List Output → Bool
  | a :: b :: outputs => (!b.isPrepared || a.isPrepared) && preparedInOrder (b :: outputs)
  | _ => true

/-- the checks of all outputs -/
def OutputsFit (p : WorkflowProfile py true) (outputs : List Output) : Prop :=
  outputs.length ≤ MAX_WORKFLOW_SEGMENTS ∧ (outputs ≠ [] → outputs.length = p.outputCount) ∧
    (∀ x ∈ outputs.zipIdx 1, OutputFits p x.2 x.1) ∧ (outputs.map (·.edit_output_id)).Nodup ∧
    (outputs.filterMap (·.upload_source_id)).Nodup ∧ (uploadJobIds outputs).Nodup ∧ preparedInOrder outputs = true ∧
    (uploadJobIds outputs).length ≤ MAX_WORKFLOW_UPLOAD_JOBS

instance (p : WorkflowProfile py true) (outputs : List Output) : Decidable (OutputsFit p outputs) :=
  inferInstanceAs (Decidable (_ ∧ _ ∧ _ ∧ _ ∧ _ ∧ _ ∧ _ ∧ _))

/-- `normalize_workflow_outputs`; the bindings of a bound profile are one for each account -/
def normalizeWorkflowOutputs (p : WorkflowProfile py true) (outputs : List Output) : Except Fault (List Output) := do
  require (OutputsFit p outputs) .data_invalid
  return outputs

end

/-- `workflow_outputs_match_state` -/
def workflowOutputsMatchState (state : WorkflowState) (outputs : List Output) (expected_count : Nat) : Bool :=
  let prepared_count := outputs.countP (·.isPrepared)
  decide (1 ≤ expected_count ∧ expected_count ≤ MAX_WORKFLOW_SEGMENTS) &&
    (outputs.length == 0 || outputs.length == expected_count) &&
    match state with
    | .created | .downloading | .preparing_edit | .awaiting_ai_review => outputs.isEmpty
    | .awaiting_edit_confirmation | .rendering => outputs.isEmpty || prepared_count == 0
    | .preparing_upload => outputs.length == expected_count
    | .awaiting_upload_confirmation | .uploading | .completed =>
      outputs.length == expected_count && prepared_count == expected_count
    | .attention_required | .canceled => true

/-! ## rows -/

/-- `_download_identifier`: the canonical text of a UUID -/
def isDownloadIdentifier (s : Text) : Bool :=
  (s.zipIdx.all (fun c => if c.2 ∈ [8, 13, 18, 23] then c.1 == '-' else c.1.isDigit || ('a' ≤ c.1 && c.1 ≤ 'f'))) &&
    s.length == 36

/-- a row of `workflows`, its JSON columns decoded -/
structure WorkflowRow (F : Type) where
  id : Text
  request_key : Text
  request_digest : Text
  source_url : Text
  name : Text
  profile_json : Value F
  profile_sha256 : Text
  state : WorkflowState
  code : String
  batch_name : Text
  batch_id : Option Text
  download_asset_id : Option Text
  edit_project_id : Option Text
  edit_draft_version : Option Int
  edit_plan_id : Option Text
  edit_cover_id : Option Text
  upload_cover_id : Option Text
  outputs : List Output
  resolved_upload : Option (Value F)
  auto_confirm_edit : Bool
  auto_confirm_upload : Bool
  revision : Nat
  finished_at : Option Text

structure WorkflowEvent where
  workflow_id : Text
  sequence : Nat
  from_state : Option WorkflowState
  to_state : WorkflowState
  code : String
  deriving DecidableEq

/-- the tables -/
structure Store (F : Type) where
  workflows : Table (WorkflowRow F) (fun r : WorkflowRow F => r.id)
  events : Table WorkflowEvent (fun e : WorkflowEvent => (e.workflow_id, e.sequence))

def Store.empty (F : Type) : Store F := ⟨∅, ∅⟩

section
variable {F : Type} {fl : Floats F} (py : Python fl)

/-- a row as it is read, with its profile -/
structure Record extends WorkflowRow F where
  profile : WorkflowProfile py true

variable {py}

def Record.upload_job_ids (r : Record py) : List Text := uploadJobIds r.outputs

variable (py)

/-- the checks of `resolved_upload_json` -/
def checkResolvedColumn (p : WorkflowProfile py true) (row : WorkflowRow F) : Except Fault Unit :=
  match row.resolved_upload with
  | some raw => do
    require (row.download_asset_id ≠ none ∧ utf8Size (dumps fl raw) ≤ 128 * 1024) .data_invalid
    let (_, encoded) ← (normalizeResolvedUpload py (record p.items) raw).mapError WorkflowErr.fault
    require (encoded = dumps fl raw ∧ p.upload.title_mode = .source) .data_invalid
  | none =>
    require (¬ (p.upload.title_mode = .source ∧ row.download_asset_id ≠ none ∧
      row.state ∉ [WorkflowState.downloading, .attention_required, .canceled])) .data_invalid

/-- the identifiers of a row -/
def IdentifiersFit (row : WorkflowRow F) : Prop :=
  (∀ o ∈ [row.batch_id, row.download_asset_id], ∀ s ∈ o, isDownloadIdentifier s = true) ∧
    ∀ o ∈ [row.edit_project_id, row.edit_plan_id, row.edit_cover_id, row.upload_cover_id], ∀ s ∈ o, isHex 32 s = true

instance (row : WorkflowRow F) : Decidable (IdentifiersFit row) := inferInstanceAs (Decidable (_ ∧ _))

/-- `_public` -/
def WorkflowRow.public (row : WorkflowRow F) : Except Fault (Record py) := do
  let p ← (parseProfile py true false row.profile_json).mapError WorkflowErr.fault
  let (encoded, profile_digest) ← (canonicalWorkflowMapping py p.toDict).mapError WorkflowErr.fault
  require (encoded = dumps fl row.profile_json ∧ profile_digest = row.profile_sha256 ∧
    row.auto_confirm_edit = p.auto_confirm_edit ∧ row.auto_confirm_upload = p.auto_confirm_upload) .data_invalid
  checkResolvedColumn py p row
  let outputs ← normalizeWorkflowOutputs p row.outputs
  require (workflowOutputsMatchState row.state outputs p.outputCount = true) .data_invalid
  require (IdentifiersFit row) .data_invalid
  return { toWorkflowRow := row, profile := p }

end

/-! ## transactions -/

/-- the columns that `_set_refs` is asked to write; `none` where it is not -/
structure Refs (F : Type) where
  batch_id : Option Text := none
  download_asset_id : Option Text := none
  edit_project_id : Option Text := none
  edit_draft_version : Option Int := none
  edit_plan_id : Option (Option Text) := none
  edit_cover_id : Option (Option Text) := none
  upload_cover_id : Option (Option Text) := none
  outputs : Option (List Output) := none
  resolved_upload : Option (Value F) := none

/-- a workflow to be inserted -/
structure NewWorkflow (F : Type) where
  request_key : Text
  request_digest : Text
  source_url : Text
  name : Text
  profile_json : Value F
  profile_sha256 : Text
  auto_confirm_edit : Bool
  auto_confirm_upload : Bool

/-- what a transaction takes from outside the store -/
structure Moment where
  now : Text
  uuid : HexIdentifier

section
variable {F : Type} {fl : Floats F} (py : Python fl)

/-- the transactions of the service -/
inductive StoreOp : Type → Type where
  /-- `get` -/
  | get (id : Text) : StoreOp (Record py)
  /-- the first check of the request key in `create` -/
  | findKey (request_key request_digest : Text) : StoreOp (Option (Record py))
  /-- the insertion of `create` -/
  | insert (new : NewWorkflow F) : StoreOp (Record py)
  /-- the first part of `cancel`; the record of a canceled workflow -/
  | requestCancel (id : Text) (expected_revision : Nat) : StoreOp (Option (Record py))
  /-- `_set_refs` -/
  | setRefs (expected : Record py) (values : Refs F) : StoreOp (Record py)
  /-- `_transition` -/
  | transition (expected : Record py) (state : WorkflowState) (code : String) : StoreOp (Record py)

/-- the next sequence number of a workflow -/
def nextSequence (s : Store F) (id : Text) : Nat :=
  ((s.events.filter (fun e => e.workflow_id == id)).map (·.sequence)).foldr max 0 + 1

/-- `_event` -/
def Store.event (s : Store F) (id : Text) (previous : Option WorkflowState) (state : WorkflowState) (code : String) :
    Except Fault (Store F) := do
  let events ← fetch (s.events.insert
    { workflow_id := id, sequence := nextSequence s id, from_state := previous, to_state := state, code }) .other
  return { s with events }

/-- `_by_id` -/
def Store.byId (s : Store F) (id : Text) : Except Fault (Record py) := do
  (← fetch (s.workflows.get id) .not_found).public py

/-- the row with a request key, which must be for the same request -/
def Store.keyed (s : Store F) (request_key request_digest : Text) : Except Fault (Option (Record py)) :=
  match s.workflows.find (fun r => r.request_key == request_key) with
  | none => .ok none
  | some prior => do
    require (prior.request_digest = request_digest) (.workflow "idempotency_conflict")
    return some (← prior.public py)

/-- the row as `create` inserts it -/
def NewWorkflow.row (new : NewWorkflow F) (id : HexIdentifier) : WorkflowRow F where
  id := id.1
  request_key := new.request_key
  request_digest := new.request_digest
  source_url := new.source_url
  name := new.name
  profile_json := new.profile_json
  profile_sha256 := new.profile_sha256
  state := .created
  code := ""
  batch_name := "Open-Flame workflow ".toList ++ id.1
  batch_id := none
  download_asset_id := none
  edit_project_id := none
  edit_draft_version := none
  edit_plan_id := none
  edit_cover_id := none
  upload_cover_id := none
  outputs := []
  resolved_upload := none
  auto_confirm_edit := new.auto_confirm_edit
  auto_confirm_upload := new.auto_confirm_upload
  revision := 1
  finished_at := none

/-- what `_set_refs` checks before its transaction -/
def Refs.Fit (v : Refs F) : Prop :=
  (∀ o ∈ [v.batch_id, v.download_asset_id], ∀ s ∈ o, isDownloadIdentifier s = true) ∧
    (∀ s ∈ v.edit_project_id, isHex 32 s = true) ∧
    (∀ o ∈ [v.edit_plan_id, v.edit_cover_id, v.upload_cover_id], ∀ s ∈ o.join, isHex 32 s = true) ∧
    ∀ i ∈ v.edit_draft_version, 1 ≤ i

instance (v : Refs F) : Decidable v.Fit := inferInstanceAs (Decidable (_ ∧ _ ∧ _ ∧ _))

/-- `resolved_upload`, as `_set_refs` writes it -/
def normalizeResolvedRef (p : WorkflowProfile py true) (raw : Value F) : Except Fault (Value F) := do
  let (resolved, _) ← (normalizeResolvedUpload py (record p.items) raw).mapError WorkflowErr.fault
  require (p.upload.title_mode = .source) .data_invalid
  return resolved

/-- a column that is only checked where it is written -/
def written {α : Type} (f : α → Except Fault α) : Option α → Except Fault (Option α)
  | none => .ok none
  | some a => (f a).map some

/-- what `_set_refs` checks of outputs and of a resolved upload, and writes -/
def Refs.normalize (v : Refs F) (profile_json : Value F) : Except Fault (Refs F) :=
  if v.outputs = none ∧ v.resolved_upload.isNone = true then .ok v
  else do
    let p ← (parseProfile py true false profile_json).mapError WorkflowErr.fault
    let _ ← (canonicalWorkflowMapping py p.toDict).mapError WorkflowErr.fault
    let outputs ← written (normalizeWorkflowOutputs p) v.outputs
    let resolved_upload ← written (normalizeResolvedRef py p) v.resolved_upload
    return { v with outputs, resolved_upload }

/-- the columns written -/
def Refs.write (v : Refs F) (row : WorkflowRow F) : WorkflowRow F :=
  { row with
    batch_id := v.batch_id.or row.batch_id
    download_asset_id := v.download_asset_id.or row.download_asset_id
    edit_project_id := v.edit_project_id.or row.edit_project_id
    edit_draft_version := v.edit_draft_version.or row.edit_draft_version
    edit_plan_id := v.edit_plan_id.getD row.edit_plan_id
    edit_cover_id := v.edit_cover_id.getD row.edit_cover_id
    upload_cover_id := v.upload_cover_id.getD row.upload_cover_id
    outputs := v.outputs.getD row.outputs
    resolved_upload := v.resolved_upload.or row.resolved_upload
    revision := row.revision + 1 }

/-- the trigger `workflow_resolved_upload_immutable` lets the row be written -/
def ResolvedKept (fl : Floats F) (old new : WorkflowRow F) : Prop :=
  ∀ resolved ∈ old.resolved_upload, new.resolved_upload.map (dumps fl) = some (dumps fl resolved) ∧
    new.download_asset_id = old.download_asset_id

instance (old new : WorkflowRow F) : Decidable (ResolvedKept fl old new) := by
  unfold ResolvedKept
  infer_instance

/-- the columns of a state -/
def WorkflowRow.move (state : WorkflowState) (code : String) (finished_at : Option Text) (row : WorkflowRow F) :
    WorkflowRow F :=
  { row with state, code, finished_at, revision := row.revision + 1 }

/-- `WHERE id=? AND revision=? AND state=? AND code=?` -/
def WorkflowRow.isHeld (held row : WorkflowRow F) : Bool :=
  row.id == held.id && (row.revision == held.revision && (row.state == held.state && row.code == held.code))

/-- an `UPDATE` of the row that a writer holds -/
def Store.write (s : Store F) (held : WorkflowRow F) (f : WorkflowRow F → WorkflowRow F)
    (hf : ∀ r, (f r).id = r.id := by intro _; rfl) : Except Fault (Store F) := do
  require (s.workflows.count held.isHeld = 1) .revision_conflict
  return { s with workflows := s.workflows.update held.isHeld f hf }

/-- the row that a writer holds, as it is stored -/
def Store.held (s : Store F) (expected : WorkflowRow F) : Except Fault (WorkflowRow F) := do
  let row ← fetch (s.workflows.get expected.id) .not_found
  require (expected.isHeld row = true) .revision_conflict
  return row

/-- the insertion of `create` -/
def execInsert (new : NewWorkflow F) (m : Moment) (s : Store F) : Except Fault (Record py × Store F) := do
  match ← s.keyed py new.request_key new.request_digest with
  | some prior => return (prior, s)
  | none =>
    let workflows ← fetch (s.workflows.insert (new.row m.uuid)) .other
    let s ← Store.event { s with workflows } m.uuid.1 none .created ""
    return (← s.byId py m.uuid.1, s)

/-- the first part of `cancel` -/
def execRequestCancel (id : Text) (expected_revision : Nat) (m : Moment) (s : Store F) :
    Except Fault (Option (Record py) × Store F) := do
  let row ← fetch (s.workflows.get id) .not_found
  let record ← row.public py
  if row.state = .canceled then return (some record, s)
  require (row.state ≠ .completed) .state_conflict
  if row.code = CANCELLATION_REQUESTED then
    require (row.state.isCancellable = true) .state_conflict
    return (none, s)
  require (row.revision = expected_revision) .revision_conflict
  require (row.state.isCancellable = true) .state_conflict
  let s ← s.write row
    (WorkflowRow.move row.state CANCELLATION_REQUESTED (if row.state = .attention_required then some m.now else none))
  let s ← s.event id (some row.state) row.state CANCELLATION_REQUESTED
  return (none, s)

/-- `_set_refs` -/
def execSetRefs (expected : Record py) (values : Refs F) (s : Store F) : Except Fault (Record py × Store F) := do
  require values.Fit .data_invalid
  let row ← s.held expected.toWorkflowRow
  let values ← values.normalize py row.profile_json
  require (ResolvedKept fl row (values.write row)) .other
  let s ← s.write row values.write
  return (← s.byId py row.id, s)

/-- `_transition` -/
def execTransition (expected : Record py) (state : WorkflowState) (code : String) (m : Moment) (s : Store F) :
    Except Fault (Record py × Store F) := do
  let row ← s.held expected.toWorkflowRow
  if row.state = state ∧ row.code = code then return (← row.public py, s)
  let s ← s.write row (WorkflowRow.move state code (if state.isFinished then some m.now else none))
  let s ← s.event row.id (some row.state) state code
  return (← s.byId py row.id, s)

/-- what the transactions do -/
def execStore : {β : Type} → StoreOp py β → Moment → Store F → Except Fault (β × Store F)
  | _, .get id, _, s => do return (← s.byId py id, s)
  | _, .findKey key digest, _, s => do return (← s.keyed py key digest, s)
  | _, .insert new, m, s => execInsert py new m s
  | _, .requestCancel id revision, m, s => execRequestCancel py id revision m s
  | _, .setRefs expected values, _, s => execSetRefs py expected values s
  | _, .transition expected state code, m, s => execTransition py expected state code m s

/-- the workflow store -/
def storeMachine : Machine (StoreOp py) Moment (Store F) Fault := ⟨execStore py⟩

end
end OpenFlame.Workflow
