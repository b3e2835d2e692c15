import OpenFlame.Escapes.Texts
import OpenFlame.Workflow.Profile

/-!
# What escapes from the validation of a profile

`normalize_workflow_profile` over any JSON value.  It catches what the validators that it calls declare; what they
raise besides, and what the encoding of the normal form raises, it lets through.

`normalizeWorkflowProfile`   the validator
`ProfileFits py v`           what has to hold of a value, where it is reached, for nothing to escape
-/

set_option linter.all false

namespace OpenFlame.Escapes
open Guard Points
open Editing (TaskOperation SpecState isToken isHex utf8Size)
open Workflow (CredentialMode TranscriptionMode TitleMode AiForm MAX_WORKFLOW_SEGMENTS MAX_WORKFLOW_ACCOUNTS)

def Exn.IsWorkflowError : Exn → Prop
  | .workflowError _ => True
  | .recipeError _ => True
  | _ => False

/-- `WorkflowError("invalid_workflow_profile")` -/
abbrev invalidProfile : Exn := .workflowError .invalid_workflow_profile

/-- `except EditingError as exc: raise WorkflowError(exc.code)` -/
def exceptEditingError {α : Type} (x : Except Exn α) : Except Exn α :=
  match x with
  | .error (.editingError code) => .error (.recipeError code)
  | _ => x

/-- `except AiAuthorizationError: raise WorkflowError("invalid_workflow_profile")` -/
def exceptAiAuthorizationError {α : Type} (x : Except Exn α) : Except Exn α :=
  match x with
  | .error .aiAuthorizationError => .error invalidProfile
  | _ => x

/-- `except UploadError: raise WorkflowError("invalid_workflow_profile")` -/
def exceptUploadError {α : Type} (x : Except Exn α) : Except Exn α :=
  match x with
  | .error (.uploadError _) => .error invalidProfile
  | _ => x

section
variable {F : Type} (py : Python F)

/-! ## digests -/

/-- `canonical_json_bytes`, the bytes as the text they encode -/
def canonicalJsonBytes (value : Value F) : Except Exn (List Char) := do
  require (finite py.isfinite value = true) .aiProtocolError
  fetch (scalars? (dumps py.repr value)) .aiProtocolError

/-- `AiOperationAuthorization.sha256` -/
def authorizationSha256 (a : AiOperationAuthorization F) : Except Exn (List Char) := do
  return py.sha256 (← canonicalJsonBytes py a.toDict)

/-- `canonical_workflow_mapping` -/
def canonicalWorkflowMapping (value : Value F) : Except Exn (Text × List Char) := do
  require (finite py.isfinite value = true) invalidProfile
  let bytes ← fetch (scalars? (dumps py.repr value)) .unicodeEncodeError
  require (utf8Size bytes ≤ 128 * 1024) (.workflowError .workflow_profile_too_large)
  return (dumps py.repr value, py.sha256 bytes)

/-! ## AI calls -/

/-- what is asked of an authorization besides its digest -/
def IsFor (operation : TaskOperation) (provider model : Text) (a : AiOperationAuthorization F) : Prop :=
  a.operation = operation ∧ ofChars a.provider_id = provider ∧ a.model_id.map ofChars = some model

instance (operation : TaskOperation) (provider model : Text) (a : AiOperationAuthorization F) :
    Decidable (IsFor operation provider model a) := inferInstanceAs (Decidable (_ ∧ _ ∧ _))

/-- `_bound_ai_authorization` -/
def boundAiAuthorization (value : Value F) (operation : TaskOperation) (provider model : Text)
    (expected_sha256 : List Char) : Except Exn (AiOperationAuthorization F) := do
  let parsed ← exceptAiAuthorizationError (parseOperationAuthorization py value)
  let authorization ← fetch parsed invalidProfile
  require (IsFor operation provider model authorization) invalidProfile
  let sha256 ← authorizationSha256 py authorization
  require (sha256 = expected_sha256) invalidProfile
  return authorization

/-- the checks of a recipe that come before those of the AI calls -/
def checkRecipe (r : EditRecipe F) : Except Exn Unit := do
  require (r.translation.revision_id = none) invalidProfile
  require (r.segments.length ≤ MAX_WORKFLOW_SEGMENTS) (.workflowError .workflow_output_count_invalid)
  require (¬ ((r.translation.enabled || r.dubbing.enabled) = true ∧ 1 < r.segments.length ∧
    (r.segments.zip r.segments.tail).any (fun p => p.1.end_ms != p.2.start_ms) = true))
    (.workflowError .workflow_ai_segments_must_be_contiguous)
  require (¬ (r.translation.enabled = true ∧ r.dubbing.enabled = false))
    (.workflowError .workflow_translation_requires_dubbing)

/-- `_AI_TOKEN` -/
def isAiToken : List Char → Bool := isToken "._:+/-".toList 200

/-- `runtime_tokens` -/
def runtimeTokens (r : EditRecipe F) : List Text :=
  [r.translation.provider, r.translation.model] ++
    if r.dubbing.enabled then [r.dubbing.provider, r.dubbing.model] else []

/-- the form with exactly the keys that a mapping has -/
def aiForm (ms : List (Text × Value F)) : Option AiForm :=
  [AiForm.legacy, .digests, .bound].find? (fun f => decide (HasKeys ms f.keys (f.keys ++ ["transcription_mode"])))

/-- what is known of the AI calls before their authorizations are looked at -/
structure AiHead (F : Type) where
  ms : List (Text × Value F)
  form : AiForm
  transcription_provider : List Char
  transcription_model : List Char
  transcription_mode : Option TranscriptionMode
  transcription_authorization_sha256 : List Char
  translation_authorization_sha256 : List Char

/-- a text of characters that a pattern matches -/
def matched (pattern : List Char → Bool) (value : Value F) : Except Exn (List Char) :=
  fetch ((text? value).bind (fullmatch pattern)) invalidProfile

/-- `transcription_mode`, where there is one -/
def transcriptionMode (ms : List (Text × Value F)) : Except Exn (Option TranscriptionMode) :=
  if text "transcription_mode" ∈ keys ms then do
    return some (← fetch ((text? (get ms "transcription_mode")).bind (memberOf TranscriptionMode.ofText)) invalidProfile)
  else .ok none

/-- a digest, where the form has digests -/
def aiDigest (form : AiForm) (value : Value F) : Except Exn (List Char) :=
  match form with
  | .legacy => .ok []
  | _ => matched (isHex 64) value

/-- the checks of the AI calls up to their authorizations -/
def aiHead (require_ai_authorization : Bool) (r : EditRecipe F) (value : Value F) : Except Exn (AiHead F) := do
  require ((runtimeTokens r).all (fun s => (fullmatch isAiToken s).isSome) = true) invalidProfile
  let ms ← fetch (object? value) invalidProfile
  let form ← fetch (aiForm ms) invalidProfile
  require (require_ai_authorization = true → form = .bound) invalidProfile
  let transcription_provider ← matched isAiToken (get ms "transcription_provider")
  let transcription_model ← matched isAiToken (get ms "transcription_model")
  require (¬ (r.dubbing.enabled = true ∧ r.translation.enabled = false))
    (.workflowError .workflow_dubbing_requires_translation)
  require (¬ (py.casefold r.translation.source_language ≠ text "auto" ∧
    py.casefold r.translation.source_language = py.casefold r.translation.target_language))
    (.workflowError .workflow_translation_languages_match)
  let transcription_mode ← transcriptionMode ms
  let transcription_authorization_sha256 ← aiDigest form (get ms "transcription_authorization_sha256")
  let translation_authorization_sha256 ← aiDigest form (get ms "translation_authorization_sha256")
  return {
    ms, form, transcription_provider, transcription_model, transcription_mode, transcription_authorization_sha256
    translation_authorization_sha256 }

/-- the authorizations of the AI calls, where their form has them -/
def aiAuthorizations (r : EditRecipe F) (head : AiHead F) :
    Except Exn (Option (AiOperationAuthorization F × AiOperationAuthorization F)) :=
  match head.form with
  | .bound => do
    let transcription ← boundAiAuthorization py (get head.ms "transcription_authorization") .transcribe
      (ofChars head.transcription_provider) (ofChars head.transcription_model) head.transcription_authorization_sha256
    let translation ← boundAiAuthorization py (get head.ms "translation_authorization") .translate
      r.translation.provider r.translation.model head.translation_authorization_sha256
    return some (transcription, translation)
  | _ => .ok none

/-- `normalized_ai` -/
def aiItems (head : AiHead F) (authorizations : Option (AiOperationAuthorization F × AiOperationAuthorization F)) :
    List (String × Value F) :=
  [("transcription_provider", .str (ofChars head.transcription_provider)),
    ("transcription_model", .str (ofChars head.transcription_model))] ++
  optionItem "transcription_mode" (head.transcription_mode.map (fun m => .str (ofChars m.name))) ++
  (match head.form with
    | .legacy => []
    | _ => [
      ("transcription_authorization_sha256", .str (ofChars head.transcription_authorization_sha256)),
      ("translation_authorization_sha256", .str (ofChars head.translation_authorization_sha256))]) ++
  (match authorizations with
    | none => []
    | some (transcription, translation) => [
      ("transcription_authorization", transcription.toDict), ("translation_authorization", translation.toDict)])

/-- `ai_requires_data_egress`, where AI is used -/
def requiresDataEgress (r : EditRecipe F)
    (authorizations : Option (AiOperationAuthorization F × AiOperationAuthorization F)) : Bool :=
  match authorizations with
  -- what is not bound may be executed remotely
  | none => true
  | some (transcription, translation) =>
    ([transcription, translation] ++ r.dubbing.authorization.toList).any (fun a => a.execution == "remote".toList)

/-- the AI calls of a profile, and whether they send data away -/
def normalizeAi (require_ai_authorization : Bool) (r : EditRecipe F) (value : Value F) :
    Except Exn (Value F × Bool) :=
  if (r.translation.enabled || r.dubbing.enabled) = true then do
    let head ← aiHead py require_ai_authorization r value
    let authorizations ← aiAuthorizations py r head
    require (require_ai_authorization = true → r.dubbing.enabled = true ∧ r.dubbing.authorization.isSome = true)
      (.workflowError .ai_authorization_required)
    return (.obj (record (aiItems head authorizations)), requiresDataEgress r authorizations)
  else
    match value with
    | .null => .ok (.null, false)
    | _ => .error invalidProfile

/-! ## uploads -/

/-- one of the tags -/
def parseTag (value : Value F) : Except Exn Text := do
  let s ← fetch (text? value) invalidProfile
  require (strip s ≠ [] ∧ s.length ≤ 40) invalidProfile
  plainText invalidProfile 20 true (.str s : Value F)

/-- an integer between bounds, or `None` -/
def optionalInteger (minimum maximum : Int) (value : Value F) : Except Exn (Value F) :=
  match value with
  | .null => .ok .null
  | _ => do
    let i ← fetch (int? value) invalidProfile
    require (minimum ≤ i ∧ i ≤ maximum) invalidProfile
    return .int i

/-- what is known of an upload before its mode is looked at -/
structure UploadHead (F : Type) where
  ms : List (Text × Value F)
  title_mode : TitleMode
  prefer_download_cover : Bool
  title : Text
  account_ids : List (List Char)
  tags : List Text

/-- `prefer_download_cover`, which is only ever `True` -/
def preferDownloadCover (ms : List (Text × Value F)) : Except Exn Bool :=
  if text "prefer_download_cover" ∈ keys ms then do
    require (bool? (get ms "prefer_download_cover") = some true) invalidProfile
    return true
  else .ok false

/-- the checks of an upload up to its mode -/
def uploadHead (bound cover : Bool) (value : Value F) : Except Exn (UploadHead F) := do
  let ms ← fetch (object? value) invalidProfile
  require (HasKeys ms (Workflow.expectedUpload bound)
    (Workflow.expectedUpload bound ++ ["title_mode", "prefer_download_cover"])) invalidProfile
  let title_mode ← fetch ((text? (getOr ms "title_mode" (.str (ofChars TitleMode.explicit.name)))).bind
    (memberOf TitleMode.ofText)) invalidProfile
  let prefer_download_cover ← preferDownloadCover ms
  require (prefer_download_cover = true → cover = true) invalidProfile
  let title ← plainText invalidProfile 100 (title_mode == .explicit) (get ms "title")
  require (title_mode = .source → title = []) invalidProfile
  let raw_accounts ← fetch (array? (get ms "account_ids")) invalidProfile
  require (1 ≤ raw_accounts.length ∧ raw_accounts.length ≤ MAX_WORKFLOW_ACCOUNTS) invalidProfile
  let account_ids ← each (matched (isHex 32)) raw_accounts
  require account_ids.Nodup invalidProfile
  let raw_tags ← fetch (array? (get ms "tags")) invalidProfile
  require (raw_tags.length ≤ 10) invalidProfile
  let tags ← each parseTag raw_tags
  require tags.Nodup invalidProfile
  return { ms, title_mode, prefer_download_cover, title, account_ids, tags }

/-- one of the target overrides, after those for `override_accounts` -/
def overrideStep (head : UploadHead F) (override_accounts : List (List Char)) (item : List (Text × Value F)) :
    Except Exn (List (List Char)) := do
  let account_id ← matched (isHex 32) (get item "account_id")
  require (account_id ∈ head.account_ids ∧ account_id ∉ override_accounts) invalidProfile
  if head.title_mode = .source ∧ text "title" ∈ keys item then
    let override_title ← plainText invalidProfile 100 true (get item "title")
    require (text? (get item "title") = some override_title) invalidProfile
    return override_accounts ++ [account_id]
  else return override_accounts ++ [account_id]

/-- `_identifier` -/
def identifier (value : Value F) : Except Exn (List Char) :=
  fetch ((text? value).bind (fullmatch (isHex 32))) (.uploadError .invalid_identifier)

/-- `_normalize_account_binding`, as its items -/
def normalizeAccountBinding (ms : List (Text × Value F)) :
    Except Exn (List Char × Upload.Platform × List Char) := do
  let account_id ← identifier (get ms "account_id")
  let session_revision ← identifier (get ms "session_revision")
  let platform ← fetch ((text? (get ms "platform")).bind (memberOf Workflow.platformOfText))
    (.uploadError .invalid_account_bindings)
  return (account_id, platform, session_revision)

/-- the members of a binding -/
def bindingMembers (value : Value F) : Except Exn (List (Text × Value F)) := do
  let ms ← fetch (object? value) (.uploadError .invalid_account_bindings)
  require (HasKeys ms ["account_id", "platform", "session_revision"] ["account_id", "platform", "session_revision"])
    (.uploadError .invalid_account_bindings)
  return ms

/-- `normalize_account_bindings` of a list -/
def normalizeAccountBindings (values : List (Value F)) :
    Except Exn (List (List Char × Upload.Platform × List Char)) := do
  let rows ← each bindingMembers values
  let bindings ← each normalizeAccountBinding rows
  require (bindings.map (·.1)).Nodup (.uploadError .invalid_account_bindings)
  return bindings

/-- the bindings of an upload, where its accounts are bound -/
def parseBindings (bound : Bool) (head : UploadHead F) :
    Except Exn (List (List Char × Upload.Platform × List Char)) :=
  if bound = true then do
    let raw_bindings ← fetch (array? (get head.ms "account_bindings")) invalidProfile
    require (raw_bindings.length = head.account_ids.length) invalidProfile
    let bindings ← exceptUploadError (normalizeAccountBindings raw_bindings)
    require ((∀ b ∈ bindings, b.1 ∈ head.account_ids) ∧ ∀ id ∈ head.account_ids, id ∈ bindings.map (·.1)) invalidProfile
    return bindings
  else .ok []

/-- one of `normalized_bindings` -/
def bindingValue (b : List Char × Upload.Platform × List Char) : Value F :=
  .obj (record [
    ("account_id", .str (ofChars b.1)),
    ("platform", .str (ofChars (Workflow.platformName b.2.1))),
    ("session_revision", .str (ofChars b.2.2))])

/-- `normalized["upload"]` -/
def uploadItems (bound : Bool) (head : UploadHead F) (mode : Upload.Mode) (category_id copyright_value : Value F)
    (target_overrides : List (List (Text × Value F))) (bindings : List (List Char × Upload.Platform × List Char))
    (description source_credit : Text) : List (String × Value F) :=
  [("account_ids", .arr (head.account_ids.map (fun id => .str (ofChars id)))),
    ("title", .str head.title),
    ("description", .str description),
    ("tags", .arr (head.tags.map .str)),
    ("category_id", category_id),
    ("mode", .str (ofChars (Workflow.modeName mode))),
    ("copyright", copyright_value),
    ("source_credit", .str source_credit),
    ("target_overrides", .arr (target_overrides.map .obj))] ++
  (if bound = true then [("account_bindings", .arr (bindings.map bindingValue))] else []) ++
  (if head.title_mode = .source then [("title_mode", .str (ofChars TitleMode.source.name))] else []) ++
  (if head.prefer_download_cover = true then [("prefer_download_cover", .bool true)] else [])

/-- the checks of an upload from its mode on -/
def uploadTail (bound : Bool) (head : UploadHead F) (mode : Upload.Mode) : Except Exn (Value F) := do
  let category_id ← optionalInteger 1 10000 (get head.ms "category_id")
  let copyright_value ← optionalInteger 1 2 (get head.ms "copyright")
  let raw_overrides ← fetch (array? (get head.ms "target_overrides")) invalidProfile
  require (raw_overrides.length ≤ head.account_ids.length) invalidProfile
  let target_overrides ← each (fun v => fetch (object? v) invalidProfile) raw_overrides
  let _ ← thread (overrideStep head) [] target_overrides
  let bindings ← parseBindings bound head
  let description ← plainText invalidProfile 2000 false (get head.ms "description")
  let source_credit ← plainText invalidProfile 200 false (get head.ms "source_credit")
  return .obj (record (uploadItems bound head mode category_id copyright_value target_overrides bindings description
    source_credit))

/-- the upload of a profile -/
def parseUpload (bound cover : Bool) (value : Value F) : Except Exn (Value F) := do
  let head ← uploadHead bound cover value
  let mode ← member? Workflow.modeOfText invalidProfile (get head.ms "mode")
  uploadTail bound head mode

/-! ## profiles -/

/-- what is known of a profile before its credential mode is looked at -/
structure ProfileHead (F : Type) where
  ms : List (Text × Value F)
  auto_confirm_edit : Bool
  auto_confirm_upload : Bool
  ai_data_egress_accepted : Bool

/-- the checks of a profile up to its credential mode -/
def profileHead (value : Value F) : Except Exn (ProfileHead F) := do
  let ms ← fetch (object? value) invalidProfile
  require (HasKeys ms Workflow.profileKeys Workflow.profileKeys) invalidProfile
  let auto_confirm_edit ← fetch (bool? (get ms "auto_confirm_edit")) invalidProfile
  let auto_confirm_upload ← fetch (bool? (get ms "auto_confirm_upload")) invalidProfile
  require (¬ (auto_confirm_upload = true ∧ auto_confirm_edit = false))
    (.workflowError .upload_automation_requires_edit_automation)
  let ai_data_egress_accepted ← fetch (bool? (get ms "ai_data_egress_accepted")) invalidProfile
  return { ms, auto_confirm_edit, auto_confirm_upload, ai_data_egress_accepted }

/-- whether data is sent away is as it was accepted -/
def checkEgress (requires accepted : Bool) : Except Exn Unit := do
  require (¬ (requires = true ∧ accepted = false)) (.workflowError .ai_data_egress_confirmation_required)
  require (¬ (requires = false ∧ accepted = true)) invalidProfile

/-- the AI calls and the upload of a profile with a recipe -/
def parseParts (bound require_ai_authorization : Bool) (head : ProfileHead F) (r : EditRecipe F) :
    Except Exn (Value F × Value F) := do
  checkRecipe r
  let (ai, requires) ← normalizeAi py require_ai_authorization r (get head.ms "ai")
  checkEgress requires head.ai_data_egress_accepted
  let upload ← parseUpload bound r.cover.isSome (get head.ms "upload")
  return (ai, upload)

/-- `normalized` -/
def normalizedProfile (head : ProfileHead F) (credential_mode : CredentialMode) (r : EditRecipe F) (ai upload : Value F) :
    Value F :=
  .obj (record [
    ("download_credential_mode", .str (ofChars credential_mode.name)),
    ("edit_recipe", r.toDict py),
    ("ai", ai),
    ("upload", upload),
    ("auto_confirm_edit", .bool head.auto_confirm_edit),
    ("auto_confirm_upload", .bool head.auto_confirm_upload),
    ("ai_data_egress_accepted", .bool head.ai_data_egress_accepted)])

/-- `normalize_workflow_profile` -/
def normalizeWorkflowProfile (bound require_ai_authorization : Bool) (value : Value F) :
    Except Exn (Value F × Text × List Char) := do
  let head ← profileHead value
  let credential_mode ← member? CredentialMode.ofText invalidProfile (get head.ms "download_credential_mode")
  let recipe ← exceptEditingError (recipeFromMapping py (get head.ms "edit_recipe"))
  let (ai, upload) ← parseParts py bound require_ai_authorization head recipe
  let normalized := normalizedProfile py head credential_mode recipe ai upload
  let (encoded, digest) ← canonicalWorkflowMapping py normalized
  return (normalized, encoded, digest)

end

end OpenFlame.Escapes
