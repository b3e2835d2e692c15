import OpenFlame.Editing.Recipe
import OpenFlame.Upload.Contracts

/-!
# Workflow profiles

A profile says what a workflow does with a download: the recipe of the edit, the AI calls that may be made for it and
the upload of its outputs.  It is stored as the encoding of its normal form.

`normalizeWorkflowProfile`   a value to the normal form, its encoding and its digest
`normalizeResolvedUpload`    a concrete upload, checked against the profile that it belongs to
`resolveUpload`              the concrete upload of a profile that takes its title from the download
-/

set_option linter.all false

namespace OpenFlame.Workflow
open Guard Text Json Editing
open Upload (Mode Platform)

/-- `WorkflowError`, by its code, or a `TypeError` that nobody catches -/
inductive WorkflowErr where
  | invalid_workflow_profile | upload_automation_requires_edit_automation | recipe (e : RecipeErr)
  | workflow_output_count_invalid | workflow_ai_segments_must_be_contiguous | workflow_translation_requires_dubbing
  | workflow_dubbing_requires_translation | workflow_translation_languages_match | ai_authorization_required
  | ai_data_egress_confirmation_required | workflow_profile_too_large | workflow_data_invalid
  | workflow_source_metadata_unavailable | typeError
  deriving DecidableEq, Repr

def MAX_WORKFLOW_SEGMENTS : Nat := 10
def MAX_WORKFLOW_ACCOUNTS : Nat := 3

/-- `_AI_TOKEN` -/
abbrev AiToken := {s : Text // isToken "._:+/-".toList 200 s = true}

/-- `_HEX_IDENTIFIER` -/
abbrev HexIdentifier := {s : Text // isHex 32 s = true}

instance lawfulBEq_hexIdentifier : LawfulBEq HexIdentifier := inferInstance

/-- `download_credential_mode` -/
inductive CredentialMode where
  | anonymous | use_default
  deriving DecidableEq, Repr

def CredentialMode.name : CredentialMode → Text
  | .anonymous => "anonymous".toList
  | .use_default => "use_default".toList

def CredentialMode.ofText : Text → Option CredentialMode := named CredentialMode.name [.anonymous, .use_default]

/-- `transcription_modes` -/
inductive TranscriptionMode where
  | ai | prefer_source_caption
  deriving DecidableEq, Repr

def TranscriptionMode.name : TranscriptionMode → Text
  | .ai => "ai".toList
  | .prefer_source_caption => "prefer_source_caption".toList

def TranscriptionMode.ofText : Text → Option TranscriptionMode := named TranscriptionMode.name [.ai, .prefer_source_caption]

inductive TitleMode where
  | explicit | source
  deriving DecidableEq, Repr

def TitleMode.name : TitleMode → Text
  | .explicit => "explicit".toList
  | .source => "source".toList

def TitleMode.ofText : Text → Option TitleMode := named TitleMode.name [.explicit, .source]

def modeName : Mode → Text
  | .draft => "draft".toList
  | .publish => "publish".toList

def modeOfText : Text → Option Mode := named modeName [.draft, .publish]

def platformName : Platform → Text
  | .bilibili => "bilibili".toList
  | .douyin => "douyin".toList
  | .tencent => "tencent".toList

def platformOfText : Text → Option Platform := named platformName [.bilibili, .douyin, .tencent]

@[simp] theorem CredentialMode.ofText_name (m : CredentialMode) : CredentialMode.ofText m.name = some m := by
  cases m <;> decide

@[simp] theorem TranscriptionMode.ofText_name (m : TranscriptionMode) : TranscriptionMode.ofText m.name = some m := by
  cases m <;> decide

@[simp] theorem TitleMode.ofText_name (m : TitleMode) : TitleMode.ofText m.name = some m := by
  cases m <;> decide

@[simp] theorem modeOfText_name (m : Mode) : modeOfText (modeName m) = some m := by
  cases m <;> decide

@[simp] theorem platformOfText_name (p : Platform) : platformOfText (platformName p) = some p := by
  cases p <;> decide

/-! ## what Python computes -/

section
variable {F : Type}

/-- `isfinite` -/
def isFinite (fl : Floats F) (f : F) : Bool :=
  [Constant.nan, .infinity, .negInfinity].all (fun k => k.name != fl.repr f)

mutual

/-- `allow_nan=False`: every float in a value is finite -/
def finite (fl : Floats F) : Value F → Bool
  | .float f => isFinite fl f
  | .arr vs => finiteList fl vs
  | .obj ms => finiteMembers fl ms
  | _ => true

def finiteList (fl : Floats F) : List (Value F) → Bool
  | [] => true
  | v :: vs => finite fl v && finiteList fl vs

def finiteMembers (fl : Floats F) : List (Text × Value F) → Bool
  | [] => true
  | (_, v) :: ms => finite fl v && finiteMembers fl ms

end

/-- letters, case, digests and the comparison of floats -/
structure Python (fl : Floats F) where
  rates : SpeechRates fl
  isalnum : Alnum
  casefold : Text → Text
  /-- `sha256(text.encode()).hexdigest()` -/
  sha256 : Text → Text
  /-- `f == g` -/
  equal : F → F → Bool
  equal_self : ∀ f, isFinite fl f = true → equal f f = true

end

section
variable {F : Type} {fl : Floats F} (py : Python fl)

mutual

/-- `a == b` of values -/
def equals : Value F → Value F → Bool
  | .null, .null => true
  | .bool a, .bool b => a == b
  | .bool a, .int j => a.toInt == j
  | .bool a, .float g => fl.equals g a.toInt
  | .int i, .bool b => i == b.toInt
  | .int i, .int j => i == j
  | .int i, .float g => fl.equals g i
  | .float f, .bool b => fl.equals f b.toInt
  | .float f, .int j => fl.equals f j
  | .float f, .float g => py.equal f g
  | .str s, .str t => s == t
  | .arr vs, .arr ws => equalsList vs ws
  | .obj ms, .obj ns => equalsMembers ms ns
  | _, _ => false

def equalsList : List (Value F) → List (Value F) → Bool
  | [], [] => true
  | v :: vs, w :: ws => equals v w && equalsList vs ws
  | _, _ => false

def equalsMembers : List (Text × Value F) → List (Text × Value F) → Bool
  | [], [] => true
  | (k, v) :: ms, (l, w) :: ns => k == l && equals v w && equalsMembers ms ns
  | _, _ => false

end

end

/-! ## parts -/

section
variable {F : Type} (fl : Floats F)

/-- what is frozen of the AI calls besides their providers and models -/
inductive AiContract where
  | legacy
  | digests (transcription_authorization_sha256 translation_authorization_sha256 : Sha256)
  | bound (transcription_authorization_sha256 translation_authorization_sha256 : Sha256)
      (transcription_authorization translation_authorization : AiOperationAuthorization fl)

structure AiProfile where
  transcription_provider : AiToken
  transcription_model : AiToken
  transcription_mode : Option TranscriptionMode
  contract : AiContract fl

end

structure AccountBinding where
  account_id : HexIdentifier
  platform : Platform
  session_revision : HexIdentifier
  deriving DecidableEq

section
variable {F : Type}

/-- the account that an override is for -/
def overrideAccount (ms : List (Text × Value F)) : Option Text := text? (get ms "account_id")

/-- a title that normalization leaves as it is -/
def isFixedTitle (value : Value F) : Bool :=
  match plainText () 100 true value with
  | .ok t => text? value == some t.1
  | .error _ => false

/-- what is checked of a target override, which otherwise stays as it is -/
def OverrideFits (account_ids : List HexIdentifier) (title_mode : TitleMode) (ms : List (Text × Value F)) : Prop :=
  (∃ id ∈ account_ids, overrideAccount ms = some id.1) ∧
    (title_mode = .source → "title".toList ∈ keys ms → isFixedTitle (get ms "title") = true)

instance (account_ids : List HexIdentifier) (title_mode : TitleMode) (ms : List (Text × Value F)) :
    Decidable (OverrideFits account_ids title_mode ms) := inferInstanceAs (Decidable (_ ∧ _))

/-- the checks of all target overrides -/
def OverridesFit (account_ids : List HexIdentifier) (title_mode : TitleMode) (overrides : List (List (Text × Value F))) :
    Prop :=
  overrides.length ≤ account_ids.length ∧ (∀ ms ∈ overrides, OverrideFits account_ids title_mode ms) ∧
    (overrides.map overrideAccount).Nodup

instance (account_ids : List HexIdentifier) (title_mode : TitleMode) (overrides : List (List (Text × Value F))) :
    Decidable (OverridesFit account_ids title_mode overrides) := inferInstanceAs (Decidable (_ ∧ _ ∧ _))

/-- the checks of the bindings: one for each account, and none where accounts are not bound -/
def BindingsFit (bound : Bool) (account_ids : List HexIdentifier) (bindings : List AccountBinding) : Prop :=
  if bound = true then
    bindings.length = account_ids.length ∧ (bindings.map (·.account_id)).Nodup ∧
      (∀ b ∈ bindings, b.account_id ∈ account_ids) ∧ ∀ id ∈ account_ids, id ∈ bindings.map (·.account_id)
  else bindings = []

instance (bound : Bool) (account_ids : List HexIdentifier) (bindings : List AccountBinding) :
    Decidable (BindingsFit bound account_ids bindings) := by
  unfold BindingsFit
  infer_instance

/-- an upload, with or without the bindings of its accounts, beside a recipe with or without a cover -/
structure UploadProfile (F : Type) (bound cover : Bool) where
  title_mode : TitleMode
  prefer_download_cover : Bool
  title : PlainText 100 (title_mode == .explicit)
  account_ids : List HexIdentifier
  tags : List (PlainText 20 true)
  mode : Mode
  category_id : Option {i : Int // 1 ≤ i ∧ i ≤ 10000}
  copyright : Option {i : Int // 1 ≤ i ∧ i ≤ 2}
  target_overrides : List (List (Text × Value F))
  account_bindings : List AccountBinding
  description : PlainText 2000 false
  source_credit : PlainText 200 false
  valid_cover : prefer_download_cover = true → cover = true
  valid_title : title_mode = .source → title.1 = []
  valid_accounts : 1 ≤ account_ids.length ∧ account_ids.length ≤ MAX_WORKFLOW_ACCOUNTS ∧ account_ids.Nodup
  valid_tags : tags.length ≤ 10 ∧ tags.Nodup
  valid_overrides : OverridesFit account_ids title_mode target_overrides
  valid_bindings : BindingsFit bound account_ids account_bindings

/-! ## writing an upload -/

/-- an integer, or `None` -/
def optionalInt (o : Option Int) : Value F :=
  match o with
  | none => .null
  | some i => .int i

def AccountBinding.items (b : AccountBinding) : List (String × Value F) :=
  [("account_id", .str b.account_id.1), ("platform", .str (platformName b.platform)),
    ("session_revision", .str b.session_revision.1)]

def UploadProfile.items {bound cover : Bool} (u : UploadProfile F bound cover) : List (String × Value F) :=
  (if bound then [("account_bindings", .arr (u.account_bindings.map (fun b => .obj (record b.items))))] else []) ++
    ([("account_ids", .arr (u.account_ids.map (fun id => .str id.1))),
      ("category_id", optionalInt (u.category_id.map Subtype.val)),
      ("copyright", optionalInt (u.copyright.map Subtype.val)),
      ("description", .str u.description.1),
      ("mode", .str (modeName u.mode))] ++
    ((if u.prefer_download_cover then [("prefer_download_cover", .bool true)] else []) ++
    ([("source_credit", .str u.source_credit.1),
      ("tags", .arr (u.tags.map (fun t => .str t.1))),
      ("target_overrides", .arr (u.target_overrides.map .obj)),
      ("title", .str u.title.1)] ++
    (if u.title_mode = .source then [("title_mode", .str u.title_mode.name)] else []))))

def UploadProfile.toDict {bound cover : Bool} (u : UploadProfile F bound cover) : Value F := .obj (record u.items)

/-! ## parsing an upload -/

/-- `required_upload` -/
def requiredUpload : List String :=
  ["account_ids", "title", "description", "tags", "category_id", "mode", "copyright", "source_credit",
    "target_overrides"]

/-- `expected_upload` -/
def expectedUpload (bound : Bool) : List String := requiredUpload ++ if bound then ["account_bindings"] else []

/-- a hexadecimal identifier -/
def hexIdentifier {ε : Type} (e : ε) (value : Value F) : Except ε HexIdentifier := do
  ensure _ (← fetch (text? value) e) e

/-- `prefer_download_cover`, which is only ever `True` -/
def preferDownloadCover (ms : List (Text × Value F)) : Except WorkflowErr Bool :=
  if "prefer_download_cover".toList ∈ keys ms then do
    require (bool? (get ms "prefer_download_cover") = some true) .invalid_workflow_profile
    return true
  else .ok false

/-- one of the tags -/
def parseTag (value : Value F) : Except WorkflowErr (PlainText 20 true) := do
  let s ← fetch (text? value) .invalid_workflow_profile
  require (isBlank s = false ∧ s.length ≤ 40) .invalid_workflow_profile
  plainText .invalid_workflow_profile 20 true (.str s : Value F)

/-- an integer between bounds, or `None` -/
def optionalInteger (minimum maximum : Int) (value : Value F) :
    Except WorkflowErr (Option {i : Int // minimum ≤ i ∧ i ≤ maximum}) :=
  match value with
  | .null => .ok none
  | _ => do return some (← ensure _ (← fetch (int? value) .invalid_workflow_profile) .invalid_workflow_profile)

/-- `_normalize_account_binding`, whose errors become `e` -/
def normalizeAccountBinding {ε : Type} (e : ε) (value : Value F) : Except ε AccountBinding := do
  let ms ← fetch (object? value) e
  require (HasKeys ms ["account_id", "platform", "session_revision"] ["account_id", "platform", "session_revision"]) e
  let account_id ← hexIdentifier e (get ms "account_id")
  let session_revision ← hexIdentifier e (get ms "session_revision")
  let platform ← fetch ((text? (get ms "platform")).bind platformOfText) e
  return { account_id, platform, session_revision }

/-- `normalize_account_bindings`, whose errors become `e` -/
def normalizeAccountBindings {ε : Type} (e : ε) (value : Value F) : Except ε (List AccountBinding) := do
  let values ← fetch (array? value) e
  let bindings ← each (normalizeAccountBinding e) values
  require (bindings.map (·.account_id)).Nodup e
  return bindings

/-- the bindings of an upload, where its accounts are bound -/
def parseBindings (bound : Bool) (value : Value F) : Except WorkflowErr (List AccountBinding) :=
  if bound then normalizeAccountBindings .invalid_workflow_profile value else .ok []

/-- the upload of a profile -/
def parseUpload (bound cover : Bool) (value : Value F) : Except WorkflowErr (UploadProfile F bound cover) := do
  let invalid := WorkflowErr.invalid_workflow_profile
  let ms ← fetch (object? value) invalid
  require (HasKeys ms (expectedUpload bound) (expectedUpload bound ++ ["title_mode", "prefer_download_cover"])) invalid
  let title_mode ← fetch ((text? (getOr ms "title_mode" (.str TitleMode.explicit.name))).bind TitleMode.ofText) invalid
  let prefer_download_cover ← preferDownloadCover ms
  let valid_cover ← ensure (fun _ => prefer_download_cover = true → cover = true) () invalid
  let title ← plainText invalid 100 (title_mode == .explicit) (get ms "title")
  let valid_title ← ensure (fun _ => title_mode = .source → title.1 = []) () invalid
  let raw_accounts ← fetch (array? (get ms "account_ids")) invalid
  let account_ids ← each (hexIdentifier invalid) raw_accounts
  let valid_accounts ← ensure (fun _ => 1 ≤ account_ids.length ∧ account_ids.length ≤ MAX_WORKFLOW_ACCOUNTS ∧
    account_ids.Nodup) () invalid
  let raw_tags ← fetch (array? (get ms "tags")) invalid
  let tags ← each parseTag raw_tags
  let valid_tags ← ensure (fun _ => tags.length ≤ 10 ∧ tags.Nodup) () invalid
  let mode ← member? modeOfText invalid .typeError (get ms "mode")
  let category_id ← optionalInteger 1 10000 (get ms "category_id")
  let copyright ← optionalInteger 1 2 (get ms "copyright")
  let raw_overrides ← fetch (array? (get ms "target_overrides")) invalid
  let target_overrides ← each (fun v => fetch (object? v) invalid) raw_overrides
  let valid_overrides ← ensure (fun _ => OverridesFit account_ids title_mode target_overrides) () invalid
  let account_bindings ← parseBindings bound (get ms "account_bindings")
  let valid_bindings ← ensure (fun _ => BindingsFit bound account_ids account_bindings) () invalid
  let description ← plainText invalid 2000 false (get ms "description")
  let source_credit ← plainText invalid 200 false (get ms "source_credit")
  return {
    title_mode, prefer_download_cover, title, account_ids, tags, mode, category_id, copyright, target_overrides
    account_bindings, description, source_credit
    valid_cover := valid_cover.2
    valid_title := valid_title.2
    valid_accounts := valid_accounts.2
    valid_tags := valid_tags.2
    valid_overrides := valid_overrides.2
    valid_bindings := valid_bindings.2 }

end

/-! ## profiles -/

section
variable {F : Type} {fl : Floats F} (py : Python fl)

/-- `AiOperationAuthorization.sha256` -/
def authorizationSha256 (a : AiOperationAuthorization fl) : Text := py.sha256 (dumps fl a.toDict)

abbrev Recipe := EditRecipe py.rates py.isalnum

structure WorkflowProfile (bound : Bool) where
  edit_recipe : Recipe py
  ai : Option (AiProfile fl)
  download_credential_mode : CredentialMode
  auto_confirm_edit : Bool
  auto_confirm_upload : Bool
  ai_data_egress_accepted : Bool
  upload : UploadProfile F bound edit_recipe.cover.isSome

variable {py}

/-! ### writing -/

def AiProfile.items (a : AiProfile fl) : List (String × Value F) :=
  let mode := optionItem "transcription_mode" (a.transcription_mode.map (fun m => Value.str m.name))
  let tokens := [("transcription_model", .str a.transcription_model.1),
    ("transcription_provider", .str a.transcription_provider.1)]
  match a.contract with
  | .legacy => mode ++ tokens
  | .digests t r =>
    [("transcription_authorization_sha256", .str t.1)] ++ mode ++ tokens ++
      [("translation_authorization_sha256", .str r.1)]
  | .bound t r transcription translation =>
    [("transcription_authorization", transcription.toDict), ("transcription_authorization_sha256", .str t.1)] ++ mode ++
      tokens ++ [("translation_authorization", translation.toDict), ("translation_authorization_sha256", .str r.1)]

def aiValue : Option (AiProfile fl) → Value F
  | none => .null
  | some a => .obj (record a.items)

def WorkflowProfile.items {bound : Bool} (p : WorkflowProfile py bound) : List (String × Value F) :=
  [("ai", aiValue p.ai), ("ai_data_egress_accepted", .bool p.ai_data_egress_accepted),
    ("auto_confirm_edit", .bool p.auto_confirm_edit), ("auto_confirm_upload", .bool p.auto_confirm_upload),
    ("download_credential_mode", .str p.download_credential_mode.name), ("edit_recipe", p.edit_recipe.toDict),
    ("upload", p.upload.toDict)]

/-- `normalized` -/
def WorkflowProfile.toDict {bound : Bool} (p : WorkflowProfile py bound) : Value F := .obj (record p.items)

/-! ### parsing -/

/-- `ai_enabled` -/
def aiEnabled (r : Recipe py) : Bool := r.translation.enabled || r.dubbing.enabled

/-- what a workflow asks of its recipe -/
def checkRecipe (r : Recipe py) : Except WorkflowErr Unit := do
  require (r.translation.revision_id = none) .invalid_workflow_profile
  require (r.segments.1.length ≤ MAX_WORKFLOW_SEGMENTS) .workflow_output_count_invalid
  require (¬ (aiEnabled r = true ∧ 1 < r.segments.1.length ∧
    (r.segments.1.zip r.segments.1.tail).any (fun p => p.1.end_ms != p.2.start_ms) = true))
    .workflow_ai_segments_must_be_contiguous
  require (¬ (r.translation.enabled = true ∧ r.dubbing.enabled = false)) .workflow_translation_requires_dubbing

/-- `runtime_tokens` -/
def runtimeTokens (r : Recipe py) : List Text :=
  [r.translation.provider.1.1, r.translation.model.1.1] ++
    if r.dubbing.enabled then [r.dubbing.provider.1.1, r.dubbing.model.1.1] else []

/-- `legacy_ai_keys` -/
def legacyAiKeys : List String := ["transcription_provider", "transcription_model"]

/-- `digest_ai_keys` -/
def digestAiKeys : List String :=
  legacyAiKeys ++ ["transcription_authorization_sha256", "translation_authorization_sha256"]

/-- `bound_ai_keys` -/
def boundAiKeys : List String := digestAiKeys ++ ["transcription_authorization", "translation_authorization"]

/-- which keys an AI contract has, besides the mode of transcription -/
inductive AiForm where
  | legacy | digests | bound
  deriving DecidableEq, Repr

def AiForm.keys : AiForm → List String
  | .legacy => legacyAiKeys
  | .digests => digestAiKeys
  | .bound => boundAiKeys

/-- the form with exactly the keys that a mapping has -/
def aiForm (ms : List (Text × Value F)) : Option AiForm :=
  [AiForm.legacy, .digests, .bound].find? (fun f => decide (HasKeys ms f.keys (f.keys ++ ["transcription_mode"])))

/-- a token of an AI provider or model -/
def aiToken (value : Value F) : Except WorkflowErr AiToken := do
  ensure _ (← fetch (text? value) .invalid_workflow_profile) .invalid_workflow_profile

/-- one of the two digests -/
def aiDigest (value : Value F) : Except WorkflowErr Sha256 := do
  ensure _ (← fetch (text? value) .invalid_workflow_profile) .invalid_workflow_profile

/-- `transcription_mode`, where there is one -/
def transcriptionMode (ms : List (Text × Value F)) : Except WorkflowErr (Option TranscriptionMode) :=
  if "transcription_mode".toList ∈ keys ms then do
    return some (← fetch ((text? (get ms "transcription_mode")).bind TranscriptionMode.ofText) .invalid_workflow_profile)
  else .ok none

variable (py)

/-- an authorization of one operation by one provider and model, with a known digest -/
def IsBoundTo (a : AiOperationAuthorization fl) (operation : TaskOperation) (provider model expected_sha256 : Text) :
    Prop :=
  a.operation = operation ∧ a.provider_id.1 = provider ∧ a.model_id.map Subtype.val = some model ∧
    authorizationSha256 py a = expected_sha256

instance (a : AiOperationAuthorization fl) (operation : TaskOperation) (provider model expected_sha256 : Text) :
    Decidable (IsBoundTo py a operation provider model expected_sha256) := inferInstanceAs (Decidable (_ ∧ _ ∧ _ ∧ _))

/-- `_bound_ai_authorization` -/
def boundAiAuthorization (value : Value F) (operation : TaskOperation) (provider model expected_sha256 : Text) :
    Except WorkflowErr (AiOperationAuthorization fl) := do
  let parsed ← (parseOperationAuthorization fl value).mapError (fun _ => WorkflowErr.invalid_workflow_profile)
  let authorization ← fetch parsed .invalid_workflow_profile
  require (IsBoundTo py authorization operation provider model expected_sha256) .invalid_workflow_profile
  return authorization

/-- what is frozen of the AI calls -/
def aiContract (r : Recipe py) (form : AiForm) (ms : List (Text × Value F)) (provider model : AiToken) :
    Except WorkflowErr (AiContract fl) :=
  match form with
  | .legacy => .ok .legacy
  | .digests => do
    let t ← aiDigest (get ms "transcription_authorization_sha256")
    let s ← aiDigest (get ms "translation_authorization_sha256")
    return .digests t s
  | .bound => do
    let t ← aiDigest (get ms "transcription_authorization_sha256")
    let s ← aiDigest (get ms "translation_authorization_sha256")
    let transcription ← boundAiAuthorization py (get ms "transcription_authorization") .transcribe provider.1 model.1 t.1
    let translation ← boundAiAuthorization py (get ms "translation_authorization") .translate
      r.translation.provider.1.1 r.translation.model.1.1 s.1
    return .bound t s transcription translation

/-- the AI contract of a recipe that uses AI -/
def parseAi (require_ai_authorization : Bool) (r : Recipe py) (value : Value F) : Except WorkflowErr (AiProfile fl) := do
  let invalid := WorkflowErr.invalid_workflow_profile
  require ((runtimeTokens r).all (isToken "._:+/-".toList 200) = true) invalid
  let ms ← fetch (object? value) invalid
  let form ← fetch (aiForm ms) invalid
  require (require_ai_authorization = true → form = .bound) invalid
  let transcription_provider ← aiToken (get ms "transcription_provider")
  let transcription_model ← aiToken (get ms "transcription_model")
  require (¬ (r.dubbing.enabled = true ∧ r.translation.enabled = false)) .workflow_dubbing_requires_translation
  require (¬ (py.casefold r.translation.source_language.1.1 ≠ "auto".toList ∧
    py.casefold r.translation.source_language.1.1 = py.casefold r.translation.target_language.1.1))
    .workflow_translation_languages_match
  let transcription_mode ← transcriptionMode ms
  let contract ← aiContract py r form ms transcription_provider transcription_model
  require (require_ai_authorization = true → r.dubbing.enabled = true ∧ r.dubbing.authorization.isSome = true)
    .ai_authorization_required
  return { transcription_provider, transcription_model, transcription_mode, contract }

/-- the AI contract of any recipe -/
def normalizeAi (require_ai_authorization : Bool) (r : Recipe py) (value : Value F) :
    Except WorkflowErr (Option (AiProfile fl)) :=
  if aiEnabled r then (parseAi py require_ai_authorization r value).map some
  else match value with
    | .null => .ok none
    | _ => .error .invalid_workflow_profile

variable {py}

/-- `ai_requires_data_egress` -/
def aiRequiresDataEgress (r : Recipe py) : Option (AiProfile fl) → Bool
  | none => false
  | some a =>
    match a.contract with
    -- what is not bound may be executed remotely
    | .legacy => true
    | .digests _ _ => true
    | .bound _ _ transcription translation =>
      ([transcription, translation] ++ r.dubbing.authorization.toList).any (fun a => a.execution == "remote".toList)

variable (py)

/-- the keys of a profile -/
def profileKeys : List String :=
  ["edit_recipe", "ai", "upload", "download_credential_mode", "auto_confirm_edit", "auto_confirm_upload",
    "ai_data_egress_accepted"]

/-- `normalize_workflow_profile`, before the encoding -/
def parseProfile (bound require_ai_authorization : Bool) (value : Value F) :
    Except WorkflowErr (WorkflowProfile py bound) := do
  let invalid := WorkflowErr.invalid_workflow_profile
  let ms ← fetch (object? value) invalid
  require (HasKeys ms profileKeys profileKeys) invalid
  let auto_confirm_edit ← fetch (bool? (get ms "auto_confirm_edit")) invalid
  let auto_confirm_upload ← fetch (bool? (get ms "auto_confirm_upload")) invalid
  require (¬ (auto_confirm_upload = true ∧ auto_confirm_edit = false)) .upload_automation_requires_edit_automation
  let ai_data_egress_accepted ← fetch (bool? (get ms "ai_data_egress_accepted")) invalid
  let download_credential_mode ← member? CredentialMode.ofText invalid .typeError (get ms "download_credential_mode")
  let edit_recipe ← (recipeFromMapping py.rates py.isalnum (get ms "edit_recipe")).mapError .recipe
  checkRecipe edit_recipe
  let ai ← normalizeAi py require_ai_authorization edit_recipe (get ms "ai")
  require (¬ (aiRequiresDataEgress edit_recipe ai = true ∧ ai_data_egress_accepted = false))
    .ai_data_egress_confirmation_required
  require (¬ (aiRequiresDataEgress edit_recipe ai = false ∧ ai_data_egress_accepted = true)) invalid
  let upload ← parseUpload bound edit_recipe.cover.isSome (get ms "upload")
  return {
    edit_recipe, ai, download_credential_mode, auto_confirm_edit, auto_confirm_upload, ai_data_egress_accepted, upload }

/-- `canonical_workflow_mapping` -/
def canonicalWorkflowMapping (value : Value F) : Except WorkflowErr (Text × Text) := do
  require (finite fl value = true) .invalid_workflow_profile
  require (utf8Size (dumps fl value) ≤ 128 * 1024) .workflow_profile_too_large
  return (dumps fl value, py.sha256 (dumps fl value))

/-- `normalize_workflow_profile` -/
def normalizeWorkflowProfile (bound require_ai_authorization : Bool) (value : Value F) :
    Except WorkflowErr (Value F × Text × Text) := do
  let p ← parseProfile py bound require_ai_authorization value
  let (encoded, digest) ← canonicalWorkflowMapping py p.toDict
  return (p.toDict, encoded, digest)

/-! ## resolved uploads -/

/-- `immutable_fields` -/
def immutableFields : List String :=
  ["account_ids", "description", "tags", "category_id", "mode", "copyright", "source_credit", "account_bindings",
    "prefer_download_cover"]

/-- whether a value can be a key of a `dict` -/
def isHashable : Value F → Bool
  | .arr _ => false
  | .obj _ => false
  | _ => true

/-- no value equals another one -/
def distinct : List (Value F) → Bool
  | [] => true
  | v :: vs => vs.all (fun w => !equals py v w) && distinct vs

/-- one resolved override against its source -/
def checkOverride (source_by_account : List (List (Text × Value F))) (resolved : List (Text × Value F)) :
    Except WorkflowErr Unit := do
  let account_id := get resolved "account_id"
  let source_override := (source_by_account.find? (fun ms => equals py (get ms "account_id") account_id)).getD
    [("account_id".toList, account_id)]
  let title ← plainText .workflow_data_invalid 100 true (get resolved "title")
  require ((∀ k ∈ keys resolved, k ∈ "title".toList :: keys source_override) ∧
    (∀ k ∈ "title".toList :: keys source_override, k ∈ keys resolved) ∧
    (∀ m ∈ source_override, equals py ((resolved.lookup m.1).getD .null) m.2 = true) ∧
    text? (get resolved "title") = some title.1) .workflow_data_invalid

/-- what a concrete upload may change of the upload of its profile -/
def checkResolved {cover : Bool} (profile : List (Text × Value F)) (upload : UploadProfile F true cover) :
    Except WorkflowErr Unit := do
  let invalid := WorkflowErr.workflow_data_invalid
  require (upload.title_mode ≠ .source) invalid
  let profile_upload ← fetch (object? (get profile "upload")) invalid
  require (equals py (get profile_upload "title_mode") (.str TitleMode.source.name) = true) invalid
  require (∀ field ∈ immutableFields, equals py (get (record upload.items) field) (get profile_upload field) = true)
    invalid
  let source_overrides ← fetch (array? (get profile_upload "target_overrides")) invalid
  require (upload.target_overrides.map overrideAccount = upload.account_ids.map (fun id => some id.1)) invalid
  let source_by_account := source_overrides.filterMap object?
  require (source_by_account.all (fun ms => isHashable (get ms "account_id")) = true) .typeError
  require (source_by_account.length = source_overrides.length ∧
    distinct py (source_by_account.map (fun ms => get ms "account_id")) = true) invalid
  let _ ← each (checkOverride py source_by_account) upload.target_overrides

/-- `normalize_resolved_upload` against the members of a profile -/
def normalizeResolvedUpload (profile : List (Text × Value F)) (value : Value F) :
    Except WorkflowErr (Value F × Text) := do
  let ms ← fetch (object? value) .workflow_data_invalid
  let p ← parseProfile py true false (.obj (Json.insert "upload".toList (.obj ms) profile))
  let _ ← canonicalWorkflowMapping py p.toDict
  checkResolved py profile p.upload
  let (encoded, _) ← canonicalWorkflowMapping py p.upload.toDict
  return (p.upload.toDict, encoded)

end

end OpenFlame.Workflow
