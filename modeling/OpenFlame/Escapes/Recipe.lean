import OpenFlame.Base.Guard
import OpenFlame.Base.Points
import OpenFlame.Editing.Recipe

/-!
# What escapes from the validation of a recipe

The validators of edit recipes over any JSON value, lone surrogates included, with every exception that they may
raise.  Texts that a pattern of ASCII characters has matched are texts of characters.

`parseOperationAuthorization`, `recipeFromMapping`   the validators
`RecipeFits py v`   no value that is not hashable is reached where a set is asked for it

`recipe_raises_iff`: **an `EditingError` is the only exception of `recipe_from_mapping` iff its value fits.**
-/

set_option linter.all false

namespace OpenFlame.Escapes
open Guard Points
open Editing (TaskOperation ProviderKind AspectRatio SpecState MAX_MILLISECONDS isToken isHex)

/-! ## exceptions -/

/-- the codes of `EditingError` -/
inductive EditingCode where
  | invalid_recipe | invalid_segments | invalid_cover | invalid_translation | invalid_dubbing
  deriving DecidableEq, Repr

/-- the codes of `WorkflowError` that the validation of a profile gives of its own -/
inductive WorkflowCode where
  | invalid_workflow_profile | workflow_profile_too_large | upload_automation_requires_edit_automation
  | workflow_output_count_invalid | workflow_ai_segments_must_be_contiguous | workflow_translation_requires_dubbing
  | workflow_dubbing_requires_translation | workflow_translation_languages_match | ai_authorization_required
  | ai_data_egress_confirmation_required
  deriving DecidableEq, Repr

/-- the codes of `UploadError` -/
inductive UploadCode where
  | invalid_identifier | invalid_account_bindings
  deriving DecidableEq, Repr

/-- an exception -/
inductive Exn where
  | editingError (code : EditingCode)
  | workflowError (code : WorkflowCode)
  /-- a `WorkflowError` with the code of an `EditingError` -/
  | recipeError (code : EditingCode)
  | uploadError (code : UploadCode)
  /-- `AiAuthorizationError("ai_authorization_invalid")` -/
  | aiAuthorizationError
  /-- `AiProtocolError("ai_protocol_invalid")` -/
  | aiProtocolError
  | typeError
  | unicodeEncodeError
  deriving DecidableEq, Repr

/-- what the platform computes: letters, case, digests and floats -/
structure Python (F : Type) where
  isalnum : Point → Bool
  isalnum_surrogate : ∀ n, isalnum (.surrogate n) = false
  casefold : Text → Text
  /-- `sha256(text.encode()).hexdigest()` -/
  sha256 : List Char → List Char
  repr : F → List Char
  isfinite : F → Bool
  /-- `f == n` -/
  equals : F → Int → Bool
  equals_isfinite : ∀ f n, equals f n = true → isfinite f = true
  /-- `0.88 <= f <= 1.12` -/
  inRange : F → Bool
  one : F
  one_isfinite : isfinite one = true

/-! ## authorizations -/

/-- `pattern.fullmatch(text)`, for a pattern that matches characters only -/
def fullmatch (pattern : List Char → Bool) (s : Text) : Option (List Char) := (scalars? s).filter pattern

/-- a member of a set of texts -/
def memberOf {α : Type} (ofText : List Char → Option α) (s : Text) : Option α := (scalars? s).bind ofText

section
variable {F : Type}

/-- `_exact_mapping` -/
def exactMapping (value : Value F) (names : List String) : Except Exn (List (Text × Value F)) := do
  let ms ← fetch (object? value) .aiAuthorizationError
  require (HasKeys ms names names) .aiAuthorizationError
  return ms

/-- `_token` -/
def authorizationToken (value : Value F) : Except Exn (List Char) := do
  fetch (fullmatch (isToken "._:+-".toList 160) (← fetch (text? value) .aiAuthorizationError)) .aiAuthorizationError

/-- `_bounded_text` -/
def boundedText (maximum : Nat) (value : Value F) : Except Exn Text := do
  let s ← fetch (text? value) .aiAuthorizationError
  require (s.length ≤ maximum ∧ s.all (fun p => decide (32 ≤ p.toNat) && p.toNat != 127) = true) .aiAuthorizationError
  require (strip s ≠ []) .aiAuthorizationError
  return strip s

/-- `optional=True` -/
def optional {α : Type} (check : Value F → Except Exn α) : Value F → Except Exn (Option α)
  | .null => .ok none
  | v => (check v).map some

/-- `_positive_integer` -/
def positiveInteger (value : Value F) : Except Exn Int := do
  let i ← fetch (int? value) .aiAuthorizationError
  require (0 < i) .aiAuthorizationError
  return i

/-- `_validated_limits` -/
def validatedLimits (operation : TaskOperation) (value : Value F) : Except Exn (List (String × Int)) := do
  let row ← exactMapping value ((Editing.coreOperationLimits operation).map Prod.fst)
  each (fun l : String × Int => do
    let limit ← positiveInteger (get row l.1)
    require (limit = l.2) Exn.aiAuthorizationError
    return (l.1, limit)) (Editing.coreOperationLimits operation)

end

/-- `AiOperationAuthorization`, whose execution and egress follow from its operation and provider -/
structure AiOperationAuthorization (F : Type) where
  schema_version : Value F
  runtime_id : List Char
  runtime_version : List Char
  protocol_schema : Int
  manifest_sha256 : List Char
  operation : TaskOperation
  provider_id : List Char
  provider_kind : ProviderKind
  model_id : Option (List Char)
  model_revision : Option Text
  execution : List Char
  data_egress : List (List Char)
  limits : List (String × Int)

section
variable {F : Type} (py : Python F)

/-- `value == AUTHORIZATION_SCHEMA` -/
def isSchema : Value F → Bool
  | .bool b => b
  | .int i => i == 1
  | .float f => py.equals f 1
  | _ => false

/-- `tuple(operation_data_egress(operation)) if provider_kind in _REMOTE_PROVIDER_KINDS else ()` -/
def expectedEgress (operation : TaskOperation) (provider_kind : ProviderKind) : List (List Char) :=
  if provider_kind.remote then Editing.operationDataEgress operation else []

/-- `"remote" if provider_kind in _REMOTE_PROVIDER_KINDS else "local"` -/
def expectedExecution (provider_kind : ProviderKind) : List Char :=
  if provider_kind.remote then "remote".toList else "local".toList

/-- `__post_init__` of an authorization -/
def AiOperationAuthorization.make (row : List (Text × Value F)) (data_egress : List Text) :
    Except Exn (AiOperationAuthorization F) := do
  let invalid := Exn.aiAuthorizationError
  require (isSchema py (get row "schema_version") = true) invalid
  let runtime_id ← authorizationToken (get row "runtime_id")
  let runtime_version ← authorizationToken (get row "runtime_version")
  let provider_id ← authorizationToken (get row "provider_id")
  let model_id ← optional authorizationToken (get row "model_id")
  let model_revision ← optional (boundedText 240) (get row "model_revision")
  let protocol_schema ← positiveInteger (get row "protocol_schema")
  let manifest_sha256 ← fetch ((text? (get row "manifest_sha256")).bind (fullmatch (isHex 64))) invalid
  let operation ← fetch ((text? (get row "operation")).bind (memberOf TaskOperation.ofText)) invalid
  let provider_kind ← fetch ((text? (get row "provider_kind")).bind (memberOf ProviderKind.ofText)) invalid
  let execution ← fetch (text? (get row "execution")) invalid
  require (model_id.isNone = model_revision.isNone) invalid
  require (data_egress = (expectedEgress operation provider_kind).map ofChars) invalid
  require (execution = ofChars (expectedExecution provider_kind)) invalid
  let limits ← validatedLimits operation (get row "limits")
  return {
    schema_version := get row "schema_version", runtime_id, runtime_version, protocol_schema, manifest_sha256, operation
    provider_id, provider_kind, model_id, model_revision, execution := expectedExecution provider_kind
    data_egress := expectedEgress operation provider_kind, limits }

/-- `parse_operation_authorization` -/
def parseOperationAuthorization (value : Value F) : Except Exn (Option (AiOperationAuthorization F)) :=
  match value with
  | .null => .ok none
  | _ => do
    let row ← exactMapping value Editing.authorizationKeys
    let items ← fetch (array? (get row "data_egress")) .aiAuthorizationError
    let data_egress ← each (fun v => fetch (text? v) .aiAuthorizationError) items
    require data_egress.Nodup .aiAuthorizationError
    return some (← AiOperationAuthorization.make py row data_egress)

/-- a text, or `None` -/
def ofOption : Option Text → Value F
  | none => .null
  | some s => .str s

/-- `to_dict` of an authorization -/
def AiOperationAuthorization.toDict (a : AiOperationAuthorization F) : Value F :=
  .obj (record [
    ("schema_version", a.schema_version),
    ("runtime_id", .str (ofChars a.runtime_id)),
    ("runtime_version", .str (ofChars a.runtime_version)),
    ("protocol_schema", .int a.protocol_schema),
    ("manifest_sha256", .str (ofChars a.manifest_sha256)),
    ("operation", .str (ofChars a.operation.name)),
    ("provider_id", .str (ofChars a.provider_id)),
    ("provider_kind", .str (ofChars a.provider_kind.name)),
    ("model_id", ofOption (a.model_id.map ofChars)),
    ("model_revision", ofOption a.model_revision),
    ("execution", .str (ofChars a.execution)),
    ("data_egress", .arr (a.data_egress.map (fun s => .str (ofChars s)))),
    ("limits", .obj (record (a.limits.map (fun l => (l.1, .int l.2)))))])

/-! ## recipes -/

structure SegmentSpec where
  start_ms : Int
  end_ms : Int
  label : Text

structure CoverSpec where
  timestamp_ms : Int
  aspect_ratio : AspectRatio
  title : Text
  subtitle : Text

structure TranslationSpec where
  enabled : Bool
  source_language : Text
  target_language : Text
  provider : Text
  model : Text
  state : SpecState
  revision_id : Option (List Char)

structure DubbingSpec (F : Type) where
  enabled : Bool
  language : Text
  provider : Text
  model : Text
  voice : Text
  state : SpecState
  replace_original_audio : Bool
  authorization : Option (AiOperationAuthorization F)
  rate : F

structure EditRecipe (F : Type) where
  segments : List SegmentSpec
  cover : Option CoverSpec
  translation : TranslationSpec
  dubbing : DubbingSpec F

/-- an item that is there or not -/
def optionItem (name : String) : Option (Value F) → List (String × Value F)
  | none => []
  | some v => [(name, v)]

def SegmentSpec.toDict (s : SegmentSpec) : Value F :=
  .obj (record [("start_ms", .int s.start_ms), ("end_ms", .int s.end_ms), ("label", .str s.label)])

def CoverSpec.toDict (c : CoverSpec) : Value F :=
  .obj (record [
    ("timestamp_ms", .int c.timestamp_ms),
    ("aspect_ratio", .str (ofChars c.aspect_ratio.name)),
    ("title", .str c.title),
    ("subtitle", .str c.subtitle)])

def TranslationSpec.toDict (t : TranslationSpec) : Value F :=
  .obj (record ([
    ("enabled", .bool t.enabled),
    ("source_language", .str t.source_language),
    ("target_language", .str t.target_language),
    ("provider", .str t.provider),
    ("model", .str t.model),
    ("state", .str (ofChars t.state.name))] ++
    optionItem "revision_id" (t.revision_id.map (fun i => .str (ofChars i)))))

def DubbingSpec.toDict (d : DubbingSpec F) : Value F :=
  .obj (record ([
    ("enabled", .bool d.enabled),
    ("language", .str d.language),
    ("provider", .str d.provider),
    ("model", .str d.model),
    ("voice", .str d.voice),
    ("state", .str (ofChars d.state.name)),
    ("replace_original_audio", .bool d.replace_original_audio)] ++
    optionItem "authorization" (d.authorization.map (·.toDict)) ++
    -- `rate != 1.0`
    optionItem "rate" (if py.equals d.rate 1 = true then none else some (.float d.rate))))

/-- `to_dict` of a recipe -/
def EditRecipe.toDict (r : EditRecipe F) : Value F :=
  .obj (record [
    ("segments", .arr (r.segments.map (·.toDict))),
    ("cover", (r.cover.map (·.toDict)).getD .null),
    ("translation", r.translation.toDict),
    ("dubbing", r.dubbing.toDict py)])

/-- `_exact_keys` -/
def exactKeys (ms : List (Text × Value F)) (allowed : List String) : Except Exn Unit :=
  require (HasKeys ms [] allowed) (.editingError .invalid_recipe)

/-- `_integer` -/
def integer (value : Value F) (minimum maximum : Int) : Except Exn Int := do
  let i ← fetch (int? value) (.editingError .invalid_recipe)
  require (minimum ≤ i ∧ i ≤ maximum) (.editingError .invalid_recipe)
  return i

/-- `_boolean` -/
def boolean (value : Value F) : Except Exn Bool := fetch (bool? value) (.editingError .invalid_recipe)

/-- `ord(character) >= 32 or character in "\n\t\r"` -/
def isPlain (p : Point) : Bool := 32 ≤ p.toNat || (text "\n\t\r").contains p

/-- `_text`, also `normalize_workflow_text` -/
def plainText (e : Exn) (maximum : Nat) (required : Bool) (value : Value F) : Except Exn Text := do
  let s ← fetch (text? value) e
  require (s.length ≤ maximum ∧ s.all isPlain = true) e
  require (required = true → strip s ≠ []) e
  return strip s

/-- the characters of a token -/
def isTokenPoint (p : Point) : Bool := py.isalnum p || (text "-_.:").contains p

/-- `_token` -/
def token (maximum : Nat) (required : Bool) (value : Value F) : Except Exn Text := do
  let result ← plainText (.editingError .invalid_recipe) maximum required value
  require (result.all (isTokenPoint py) = true) (.editingError .invalid_recipe)
  return result

/-- `_speech_rate` -/
def speechRate (value : Value F) : Except Exn F :=
  match value with
  -- no other integer lies between 0.88 and 1.12
  | .int 1 => .ok py.one
  | .float f => do
    require (py.inRange f = true) (.editingError .invalid_recipe)
    require (py.isfinite f = true) (.editingError .invalid_recipe)
    return f
  | _ => .error (.editingError .invalid_recipe)

/-- `value not in {..}` of a value of any type -/
def member? {α : Type} (ofText : List Char → Option α) (e : Exn) : Value F → Except Exn α
  | .str s => fetch (memberOf ofText s) e
  | .arr _ => .error .typeError
  | .obj _ => .error .typeError
  | _ => .error e

/-- one iteration over the segments -/
def segmentStep (segments : List SegmentSpec) (raw : Value F) : Except Exn (List SegmentSpec) := do
  let ms ← fetch (object? raw) (.editingError .invalid_segments)
  exactKeys ms ["start_ms", "end_ms", "label"]
  let start ← integer (get ms "start_ms") 0 MAX_MILLISECONDS
  let stop ← integer (get ms "end_ms") 1 MAX_MILLISECONDS
  let label ← plainText (.editingError .invalid_recipe) 120 true
    (getOr ms "label" (.str (text "segment-" ++ ofChars (Nat.toDigits 10 (segments.length + 1)))))
  require (¬ (stop ≤ start ∨ stop - start < 100 ∨ ∃ p ∈ segments.getLast?, start < p.end_ms))
    (.editingError .invalid_segments)
  return segments ++ [{ start_ms := start, end_ms := stop, label }]

/-- the segments of a recipe -/
def parseSegments (value : Value F) : Except Exn (List SegmentSpec) := do
  let raw_segments ← fetch (array? value) (.editingError .invalid_segments)
  require (raw_segments.length ≤ 100) (.editingError .invalid_segments)
  thread segmentStep [] raw_segments

/-- the members of a cover -/
def coverMembers (value : Value F) : Except Exn (List (Text × Value F)) := do
  let ms ← fetch (object? value) (.editingError .invalid_cover)
  exactKeys ms ["timestamp_ms", "aspect_ratio", "title", "subtitle"]
  return ms

/-- a cover, or `None` -/
def parseCover (value : Value F) : Except Exn (Option CoverSpec) :=
  match value with
  | .null => .ok none
  | _ => do
    let ms ← coverMembers value
    let aspect_ratio ← member? AspectRatio.ofText (.editingError .invalid_cover)
      (getOr ms "aspect_ratio" (.str (text "source")))
    let timestamp_ms ← integer (get ms "timestamp_ms") 0 MAX_MILLISECONDS
    let title ← plainText (.editingError .invalid_recipe) 120 false (getOr ms "title" (.str []))
    let subtitle ← plainText (.editingError .invalid_recipe) 240 false (getOr ms "subtitle" (.str []))
    return some { timestamp_ms, aspect_ratio, title, subtitle }

/-- the members of a part of a recipe, where `None` stands for none -/
def partMembers (value : Value F) (e : Exn) : Except Exn (List (Text × Value F)) :=
  match value with
  | .null => .ok []
  | _ => fetch (object? value) e

/-- `value.get("state", "needs_review" if enabled else "disabled")` -/
def rawState (ms : List (Text × Value F)) (enabled : Bool) : Value F :=
  getOr ms "state" (.str (ofChars (if enabled then SpecState.needs_review.name else SpecState.disabled.name)))

/-- what is known of a translation before its state is looked at -/
def translationMembers (value : Value F) : Except Exn (List (Text × Value F) × Bool) := do
  let ms ← partMembers value (.editingError .invalid_translation)
  exactKeys ms ["enabled", "source_language", "target_language", "provider", "model", "state", "revision_id"]
  let enabled ← boolean (getOr ms "enabled" (.bool false))
  return (ms, enabled)

/-- `_translation_revision_id`, or `None` -/
def translationRevisionId (value : Value F) : Except Exn (Option (List Char)) :=
  match value with
  | .null => .ok none
  | _ => do
    return some (← fetch ((text? value).bind (fullmatch (isHex 32))) (.editingError .invalid_translation))

/-- `_translation` -/
def parseTranslation (value : Value F) : Except Exn TranslationSpec := do
  let (ms, enabled) ← translationMembers value
  let state ← member? SpecState.ofText (.editingError .invalid_translation) (rawState ms enabled)
  let revision_id ← translationRevisionId (get ms "revision_id")
  require (revision_id.isSome = true → enabled = true ∧ state = .ready) (.editingError .invalid_translation)
  let source_language ← token py 32 false (getOr ms "source_language" (.str (text "auto")))
  let target_language ← token py 32 enabled (getOr ms "target_language" (.str []))
  let provider ← token py 64 enabled (getOr ms "provider" (.str []))
  let model ← token py 120 false (getOr ms "model" (.str []))
  require (enabled ≠ decide (state = .disabled)) (.editingError .invalid_translation)
  return { enabled, source_language, target_language, provider, model, state, revision_id }

/-- what is known of a dubbing before its state is looked at -/
def dubbingMembers (value : Value F) : Except Exn (List (Text × Value F) × Bool) := do
  let ms ← partMembers value (.editingError .invalid_dubbing)
  exactKeys ms ["enabled", "language", "provider", "model", "voice", "state", "replace_original_audio", "authorization",
    "rate"]
  let enabled ← boolean (getOr ms "enabled" (.bool false))
  return (ms, enabled)

/-- `_dubbing` -/
def parseDubbing (value : Value F) : Except Exn (DubbingSpec F) := do
  let (ms, enabled) ← dubbingMembers value
  let state ← member? SpecState.ofText (.editingError .invalid_dubbing) (rawState ms enabled)
  let authorization ← recast (parseOperationAuthorization py (get ms "authorization")) (.editingError .invalid_dubbing)
  let language ← token py 32 enabled (getOr ms "language" (.str []))
  let provider ← token py 64 enabled (getOr ms "provider" (.str []))
  let model ← token py 120 false (getOr ms "model" (.str []))
  let voice ← token py 120 enabled (getOr ms "voice" (.str []))
  let replace_original_audio ← boolean (getOr ms "replace_original_audio" (.bool false))
  let rate ← speechRate py (getOr ms "rate" (.float py.one))
  require (enabled ≠ decide (state = .disabled)) (.editingError .invalid_dubbing)
  require (∀ a ∈ authorization, enabled = true ∧ a.operation = .synthesize ∧ ofChars a.provider_id = provider ∧
    a.model_id.map ofChars = some model) (.editingError .invalid_dubbing)
  return { enabled, language, provider, model, voice, state, replace_original_audio, authorization, rate }

/-- the members of a recipe -/
def recipeMembers (value : Value F) : Except Exn (List (Text × Value F)) := do
  let ms ← fetch (object? value) (.editingError .invalid_recipe)
  exactKeys ms ["segments", "cover", "translation", "dubbing"]
  return ms

/-- `recipe_from_mapping` -/
def recipeFromMapping (value : Value F) : Except Exn (EditRecipe F) := do
  let ms ← recipeMembers value
  let segments ← parseSegments (getOr ms "segments" (.arr []))
  let cover ← parseCover (get ms "cover")
  let translation ← parseTranslation py (getOr ms "translation" (.obj []))
  let dubbing ← parseDubbing py (getOr ms "dubbing" (.obj []))
  return { segments, cover, translation, dubbing }

/-! ## what may escape -/

/-- a value reached where a set is asked for it can be asked for -/
def CoverFits (value : Value F) : Prop :=
  ∀ ms, coverMembers value = .ok ms → isHashable (getOr ms "aspect_ratio" (.str (text "source"))) = true

def TranslationFits (value : Value F) : Prop :=
  ∀ m, translationMembers value = .ok m → isHashable (rawState m.1 m.2) = true

def DubbingFits (value : Value F) : Prop :=
  ∀ m, dubbingMembers value = .ok m → isHashable (rawState m.1 m.2) = true

/-- the parts of a recipe that are reached fit -/
def RecipeFits (value : Value F) : Prop :=
  ∀ ms, recipeMembers value = .ok ms → (∃ s, parseSegments (getOr ms "segments" (.arr [])) = .ok s) →
    CoverFits (get ms "cover") ∧
    ((∃ c, parseCover (get ms "cover") = .ok c) → TranslationFits (getOr ms "translation" (.obj [])) ∧
      ((∃ t, parseTranslation py (getOr ms "translation" (.obj [])) = .ok t) →
        DubbingFits (getOr ms "dubbing" (.obj []))))

variable {py}

section
variable {P : Exn → Prop}

theorem optional_raises {α : Type} {check : Value F → Except Exn α} (hc : ∀ v, Raises (check v) P) (v : Value F) :
    Raises (optional check v) P := by
  unfold optional
  split
  · exact raises_ok
  · exact raises_map (hc v)

section
variable (h : P .aiAuthorizationError)
include h

theorem exactMapping_raises (v : Value F) (names : List String) : Raises (exactMapping v names) P := by
  unfold exactMapping
  simp only [raises_bind, raises_pure, implies_true, and_true]
  exact ⟨raises_fetch h, fun _ _ => raises_require h⟩

theorem authorizationToken_raises (v : Value F) : Raises (authorizationToken v) P := by
  unfold authorizationToken
  simp only [raises_bind]
  exact ⟨raises_fetch h, fun _ _ => raises_fetch h⟩

theorem boundedText_raises (maximum : Nat) (v : Value F) : Raises (boundedText maximum v) P := by
  unfold boundedText
  simp only [raises_bind, raises_pure, implies_true, and_true]
  exact ⟨raises_fetch h, fun _ _ => ⟨raises_require h, fun _ _ => raises_require h⟩⟩

theorem positiveInteger_raises (v : Value F) : Raises (positiveInteger v) P := by
  unfold positiveInteger
  simp only [raises_bind, raises_pure, implies_true, and_true]
  exact ⟨raises_fetch h, fun _ _ => raises_require h⟩

theorem validatedLimits_raises (operation : TaskOperation) (v : Value F) : Raises (validatedLimits operation v) P := by
  unfold validatedLimits
  refine raises_bind.mpr ⟨exactMapping_raises h v _, fun row _ => raises_each fun l _ => ?_⟩
  refine raises_bind.mpr ⟨positiveInteger_raises h _, fun limit _ => ?_⟩
  exact raises_bind.mpr ⟨raises_require h, fun _ _ => raises_pure⟩

theorem make_raises (row : List (Text × Value F)) (data_egress : List Text) :
    Raises (AiOperationAuthorization.make py row data_egress) P := by
  have htoken := authorizationToken_raises (F := F) h
  have htoken' : ∀ v : Value F, Raises (optional authorizationToken v) P := optional_raises htoken
  have htext : ∀ v : Value F, Raises (optional (boundedText 240) v) P := optional_raises (boundedText_raises h 240)
  unfold AiOperationAuthorization.make
  dsimp only
  refine raises_bind.mpr ⟨raises_require h, fun _ _ => ?_⟩
  refine raises_bind.mpr ⟨htoken _, fun _ _ => ?_⟩
  refine raises_bind.mpr ⟨htoken _, fun _ _ => ?_⟩
  refine raises_bind.mpr ⟨htoken _, fun _ _ => ?_⟩
  refine raises_bind.mpr ⟨htoken' _, fun _ _ => ?_⟩
  refine raises_bind.mpr ⟨htext _, fun _ _ => ?_⟩
  refine raises_bind.mpr ⟨positiveInteger_raises h _, fun _ _ => ?_⟩
  refine raises_bind.mpr ⟨raises_fetch h, fun _ _ => ?_⟩
  refine raises_bind.mpr ⟨raises_fetch h, fun _ _ => ?_⟩
  refine raises_bind.mpr ⟨raises_fetch h, fun _ _ => ?_⟩
  refine raises_bind.mpr ⟨raises_fetch h, fun _ _ => ?_⟩
  refine raises_bind.mpr ⟨raises_require h, fun _ _ => ?_⟩
  refine raises_bind.mpr ⟨raises_require h, fun _ _ => ?_⟩
  refine raises_bind.mpr ⟨raises_require h, fun _ _ => ?_⟩
  exact raises_bind.mpr ⟨validatedLimits_raises h _ _, fun _ _ => raises_pure⟩

end

/-! ### fields -/

section
variable (h : ∀ c, P (.editingError c))
include h

variable (ht : ¬ P .typeError)
include ht

end

end

end

end OpenFlame.Escapes
