import Mathlib.Algebra.Ring.Nat
import OpenFlame.Editing.Pipeline
import Mathlib.Data.List.Chain

/-!
# Edit recipes

A recipe carries what was checked of it: its texts are stripped, its segments follow one another, and what is
required of an enabled translation or dubbing is there.

`recipeFromMapping`   a value to a recipe
`EditRecipe.toDict`   a recipe to a value

`recipe_toDict`: **a recipe is parsed back from the value it is written as.**
-/

set_option linter.all false

namespace OpenFlame.Editing
open Guard Text Json

/-- `EditingError`, by its code, or a `TypeError` that nobody catches -/
inductive RecipeErr where
  | invalid_recipe | invalid_segments | invalid_cover | invalid_translation | invalid_dubbing
  | typeError
  deriving DecidableEq, Repr

/-! ## texts -/

/-- `ord(character) >= 32 or character in "\n\t\r"` -/
def isPlain (c : Char) : Bool := 32 ≤ c.toNat || c == '\n' || c == '\t' || c == '\r'

/-- what is checked of a text before it is stripped -/
def IsPlain (maximum : Nat) (s : Text) : Prop := s.length ≤ maximum ∧ s.all isPlain = true

instance (maximum : Nat) (s : Text) : Decidable (IsPlain maximum s) := inferInstanceAs (Decidable (_ ∧ _))

theorem IsPlain.strip {maximum : Nat} {s : Text} (h : IsPlain maximum s) : IsPlain maximum (strip s) :=
  ⟨Nat.le_trans (strip_length_le s) h.1,
    List.all_eq_true.mpr (fun c hc => List.all_eq_true.mp h.2 c (strip_subset s hc))⟩

/-- a stripped text, not empty when it is `required` -/
abbrev PlainText (maximum : Nat) (required : Bool) :=
  {s : Text // IsPlain maximum s ∧ strip s = s ∧ (required = true → s ≠ [])}

section
variable {F ε : Type}

/-- `_text`, also `normalize_workflow_text` -/
def plainText (e : ε) (maximum : Nat) (required : Bool) (value : Value F) : Except ε (PlainText maximum required) := do
  let s ← ensure (IsPlain maximum) (← fetch (text? value) e) e
  let filled ← ensure (fun _ => required = true → strip s.1 ≠ []) () e
  return ⟨strip s.1, s.2.strip, strip_strip s.1, filled.2⟩

theorem plainText_str (e : ε) {maximum : Nat} {required : Bool} (t : PlainText maximum required) :
    plainText (F := F) e maximum required (.str t.1) = .ok t := by
  obtain ⟨s, hs, hstrip, hne⟩ := t
  have hne' : required = true → strip s ≠ [] := by
    rw [hstrip]
    exact hne
  simp only [plainText, bind_eq_ok, fetch_eq_ok, ensure_eq_ok, pure_eq_ok]
  exact ⟨s, rfl, ⟨s, hs⟩, rfl, ⟨(), hne'⟩, trivial, Subtype.ext hstrip⟩

end

/-- what is known of characters that are letters or digits -/
abbrev Alnum := Char → Bool

/-- the characters of a token -/
def isTokenText (isalnum : Alnum) (s : Text) : Bool := s.all (fun c => isalnum c || "-_.:".toList.contains c)

abbrev RecipeToken (isalnum : Alnum) (maximum : Nat) (required : Bool) :=
  {t : PlainText maximum required // isTokenText isalnum t.1 = true}

/-! ## parts -/

def MAX_MILLISECONDS : Int := 7 * 24 * 60 * 60 * 1000

structure SegmentSpec where
  start_ms : Int
  end_ms : Int
  label : PlainText 120 true
  valid : 0 ≤ start_ms ∧ start_ms ≤ MAX_MILLISECONDS ∧ 1 ≤ end_ms ∧ end_ms ≤ MAX_MILLISECONDS ∧ start_ms < end_ms ∧
    100 ≤ end_ms - start_ms

/-- segments that do not overlap, in order -/
abbrev Segments := {l : List SegmentSpec // l.IsChain (fun a b => a.end_ms ≤ b.start_ms)}

inductive AspectRatio where
  | source | wide | four_three | three_four | tall | square
  deriving DecidableEq, Repr

def AspectRatio.name : AspectRatio → Text
  | .source => "source".toList
  | .wide => "16:9".toList
  | .four_three => "4:3".toList
  | .three_four => "3:4".toList
  | .tall => "9:16".toList
  | .square => "1:1".toList

def AspectRatio.ofText : Text → Option AspectRatio :=
  named AspectRatio.name [.source, .wide, .four_three, .three_four, .tall, .square]

structure CoverSpec where
  timestamp_ms : {i : Int // 0 ≤ i ∧ i ≤ MAX_MILLISECONDS}
  aspect_ratio : AspectRatio
  title : PlainText 120 false
  subtitle : PlainText 240 false

/-- the states of a translation or a dubbing -/
inductive SpecState where
  | disabled | needs_review | ready | blocked
  deriving DecidableEq, Repr

def SpecState.name : SpecState → Text
  | .disabled => "disabled".toList
  | .needs_review => "needs_review".toList
  | .ready => "ready".toList
  | .blocked => "blocked".toList

def SpecState.ofText : Text → Option SpecState := named SpecState.name [.disabled, .needs_review, .ready, .blocked]

@[simp] theorem AspectRatio.ofText_name (a : AspectRatio) : AspectRatio.ofText a.name = some a := by
  cases a <;> decide

@[simp] theorem SpecState.ofText_name (s : SpecState) : SpecState.ofText s.name = some s := by
  cases s <;> decide

/-- speech rates: the floats from 0.88 to 1.12, and `1.0` among them -/
structure SpeechRates {F : Type} (fl : Floats F) where
  inRange : F → Bool
  one : F
  one_inRange : inRange one = true
  /-- `rate != 1.0` -/
  equals_one : ∀ f, fl.equals f 1 = true ↔ f = one

section
variable {F : Type} {fl : Floats F} (rates : SpeechRates fl) (isalnum : Alnum)

structure TranslationSpec where
  enabled : Bool
  source_language : RecipeToken isalnum 32 false
  target_language : RecipeToken isalnum 32 enabled
  provider : RecipeToken isalnum 64 enabled
  model : RecipeToken isalnum 120 false
  state : SpecState
  revision_id : Option Identifier
  valid_revision : revision_id.isSome = true → enabled = true ∧ state = .ready
  valid_state : enabled = true ↔ state ≠ .disabled

structure DubbingSpec where
  enabled : Bool
  language : RecipeToken isalnum 32 enabled
  provider : RecipeToken isalnum 64 enabled
  model : RecipeToken isalnum 120 false
  voice : RecipeToken isalnum 120 enabled
  state : SpecState
  replace_original_audio : Bool
  authorization : Option (AiOperationAuthorization fl)
  rate : {f : F // rates.inRange f = true}
  valid_state : enabled = true ↔ state ≠ .disabled
  valid_authorization : ∀ a ∈ authorization, enabled = true ∧ a.operation = .synthesize ∧
    a.provider_id.1 = provider.1.1 ∧ a.model_id.map Subtype.val = some model.1.1

structure EditRecipe where
  segments : Segments
  cover : Option CoverSpec
  translation : TranslationSpec isalnum
  dubbing : DubbingSpec rates isalnum

/-! ## writing -/

variable {rates isalnum}

/-- an item that is there or not -/
def optionItem (name : String) : Option (Value F) → List (String × Value F)
  | none => []
  | some v => [(name, v)]

def SegmentSpec.items (s : SegmentSpec) : List (String × Value F) :=
  [("end_ms", .int s.end_ms), ("label", .str s.label.1), ("start_ms", .int s.start_ms)]

def CoverSpec.items (c : CoverSpec) : List (String × Value F) :=
  [("aspect_ratio", .str c.aspect_ratio.name), ("subtitle", .str c.subtitle.1), ("timestamp_ms", .int c.timestamp_ms.1),
    ("title", .str c.title.1)]

def TranslationSpec.items (t : TranslationSpec isalnum) : List (String × Value F) :=
  [("enabled", .bool t.enabled), ("model", .str t.model.1.1), ("provider", .str t.provider.1.1)] ++
    optionItem "revision_id" (t.revision_id.map (fun i => .str i.1)) ++
    [("source_language", .str t.source_language.1.1), ("state", .str t.state.name),
      ("target_language", .str t.target_language.1.1)]

def DubbingSpec.items (d : DubbingSpec rates isalnum) : List (String × Value F) :=
  optionItem "authorization" (d.authorization.map (·.toDict)) ++
    [("enabled", .bool d.enabled), ("language", .str d.language.1.1), ("model", .str d.model.1.1),
      ("provider", .str d.provider.1.1)] ++
    optionItem "rate" (if fl.equals d.rate.1 1 = true then none else some (.float d.rate.1)) ++
    [("replace_original_audio", .bool d.replace_original_audio), ("state", .str d.state.name),
      ("voice", .str d.voice.1.1)]

def EditRecipe.items (r : EditRecipe rates isalnum) : List (String × Value F) :=
  [("cover", match r.cover with
      | none => .null
      | some c => .obj (record c.items)),
    ("dubbing", .obj (record r.dubbing.items)),
    ("segments", .arr (r.segments.1.map (fun s => .obj (record s.items)))),
    ("translation", .obj (record r.translation.items))]

/-- `to_dict`, its keys sorted -/
def EditRecipe.toDict (r : EditRecipe rates isalnum) : Value F := .obj (record r.items)

/-! ## parsing -/

variable (rates isalnum)

/-- `_exact_keys` -/
def exactKeys (ms : List (Text × Value F)) (allowed : List String) : Except RecipeErr PUnit :=
  require (HasKeys ms [] allowed) .invalid_recipe

/-- `_integer` -/
def integer (value : Value F) (minimum maximum : Int) : Except RecipeErr {i : Int // minimum ≤ i ∧ i ≤ maximum} := do
  ensure _ (← fetch (int? value) .invalid_recipe) .invalid_recipe

/-- `_boolean` of `editing/contracts.py` -/
def recipeBoolean (value : Value F) : Except RecipeErr Bool := fetch (bool? value) .invalid_recipe

/-- `_token` -/
def recipeToken (maximum : Nat) (required : Bool) (value : Value F) :
    Except RecipeErr (RecipeToken isalnum maximum required) := do
  ensure _ (← plainText .invalid_recipe maximum required value) .invalid_recipe

/-- `_speech_rate` -/
def speechRate (value : Value F) : Except RecipeErr {f : F // rates.inRange f = true} :=
  match value with
  -- no other integer lies between 0.88 and 1.12
  | .int 1 => .ok ⟨rates.one, rates.one_inRange⟩
  | .float f => ensure _ f .invalid_recipe
  | _ => .error .invalid_recipe

/-- `value not in {..}`, which cannot be asked of a list or an object -/
def member? {α ε : Type} (ofText : Text → Option α) (e unhashable : ε) : Value F → Except ε α
  | .str s => fetch (ofText s) e
  | .arr _ => .error unhashable
  | .obj _ => .error unhashable
  | _ => .error e

/-- one iteration over the segments -/
def segmentStep (segments : Segments) (raw : Value F) : Except RecipeErr Segments := do
  let ms ← fetch (object? raw) .invalid_segments
  exactKeys ms ["start_ms", "end_ms", "label"]
  let start ← integer (get ms "start_ms") 0 MAX_MILLISECONDS
  let stop ← integer (get ms "end_ms") 1 MAX_MILLISECONDS
  let label ← plainText .invalid_recipe 120 true
    (getOr ms "label" (.str ("segment-".toList ++ Nat.toDigits 10 (segments.1.length + 1))))
  let valid ← ensure (fun _ => start.1 < stop.1 ∧ 100 ≤ stop.1 - start.1 ∧
    ∀ p ∈ segments.1.getLast?, p.end_ms ≤ start.1) () .invalid_segments
  return ⟨segments.1 ++ [{
    start_ms := start.1
    end_ms := stop.1
    label
    valid := ⟨start.2.1, start.2.2, stop.2.1, stop.2.2, valid.2.1, valid.2.2.1⟩ }],
    List.isChain_append.mpr ⟨segments.2, List.isChain_singleton _, fun p hp q hq => by
      cases hq
      exact valid.2.2.2 p hp⟩⟩

/-- a cover, or `None` -/
def parseCover (value : Value F) : Except RecipeErr (Option CoverSpec) :=
  match value with
  | .null => .ok none
  | _ => do
    let ms ← fetch (object? value) .invalid_cover
    exactKeys ms ["timestamp_ms", "aspect_ratio", "title", "subtitle"]
    let aspect_ratio ← member? AspectRatio.ofText .invalid_cover .typeError (getOr ms "aspect_ratio" (.str "source".toList))
    let timestamp_ms ← integer (get ms "timestamp_ms") 0 MAX_MILLISECONDS
    let title ← plainText .invalid_recipe 120 false (getOr ms "title" (.str []))
    let subtitle ← plainText .invalid_recipe 240 false (getOr ms "subtitle" (.str []))
    return some { timestamp_ms, aspect_ratio, title, subtitle }

/-- the members of a part of a recipe, where `None` stands for none -/
def partMembers (value : Value F) (e : RecipeErr) : Except RecipeErr (List (Text × Value F)) :=
  match value with
  | .null => .ok []
  | _ => fetch (object? value) e

/-- the state a part has when it names none -/
def defaultState (enabled : Bool) : Value F := .str (if enabled then SpecState.needs_review.name else SpecState.disabled.name)

/-- `_translation_revision_id`, or `None` -/
def parseRevision (value : Value F) : Except RecipeErr (Option Identifier) :=
  match value with
  | .null => .ok none
  | _ => do return some (← ensure _ (← fetch (text? value) .invalid_translation) .invalid_translation)

/-- `_translation` -/
def parseTranslationSpec (value : Value F) : Except RecipeErr (TranslationSpec isalnum) := do
  let ms ← partMembers value .invalid_translation
  exactKeys ms ["enabled", "source_language", "target_language", "provider", "model", "state", "revision_id"]
  let enabled ← recipeBoolean (getOr ms "enabled" (.bool false))
  let state ← member? SpecState.ofText .invalid_translation .typeError (getOr ms "state" (defaultState enabled))
  let revision_id ← parseRevision (get ms "revision_id")
  let valid_revision ← ensure (fun _ => revision_id.isSome = true → enabled = true ∧ state = .ready) ()
    .invalid_translation
  let source_language ← recipeToken isalnum 32 false (getOr ms "source_language" (.str "auto".toList))
  let target_language ← recipeToken isalnum 32 enabled (getOr ms "target_language" (.str []))
  let provider ← recipeToken isalnum 64 enabled (getOr ms "provider" (.str []))
  let model ← recipeToken isalnum 120 false (getOr ms "model" (.str []))
  let valid_state ← ensure (fun _ => enabled = true ↔ state ≠ .disabled) () .invalid_translation
  return {
    enabled, source_language, target_language, provider, model, state, revision_id
    valid_revision := valid_revision.2
    valid_state := valid_state.2 }

/-- `_dubbing` -/
def parseDubbingSpec (value : Value F) : Except RecipeErr (DubbingSpec rates isalnum) := do
  let ms ← partMembers value .invalid_dubbing
  exactKeys ms ["enabled", "language", "provider", "model", "voice", "state", "replace_original_audio", "authorization",
    "rate"]
  let enabled ← recipeBoolean (getOr ms "enabled" (.bool false))
  let state ← member? SpecState.ofText .invalid_dubbing .typeError (getOr ms "state" (defaultState enabled))
  let authorization ← (parseOperationAuthorization fl (get ms "authorization")).mapError (fun _ => .invalid_dubbing)
  let language ← recipeToken isalnum 32 enabled (getOr ms "language" (.str []))
  let provider ← recipeToken isalnum 64 enabled (getOr ms "provider" (.str []))
  let model ← recipeToken isalnum 120 false (getOr ms "model" (.str []))
  let voice ← recipeToken isalnum 120 enabled (getOr ms "voice" (.str []))
  let replace_original_audio ← recipeBoolean (getOr ms "replace_original_audio" (.bool false))
  let rate ← speechRate rates (getOr ms "rate" (.float rates.one))
  let valid_state ← ensure (fun _ => enabled = true ↔ state ≠ .disabled) () .invalid_dubbing
  let valid_authorization ← ensure (fun _ => ∀ a ∈ authorization, enabled = true ∧ a.operation = .synthesize ∧
    a.provider_id.1 = provider.1.1 ∧ a.model_id.map Subtype.val = some model.1.1) () .invalid_dubbing
  return {
    enabled, language, provider, model, voice, state, replace_original_audio, authorization, rate
    valid_state := valid_state.2
    valid_authorization := valid_authorization.2 }

/-- `recipe_from_mapping` of a mapping -/
def recipeFromMapping (value : Value F) : Except RecipeErr (EditRecipe rates isalnum) := do
  let ms ← fetch (object? value) .invalid_recipe
  exactKeys ms ["segments", "cover", "translation", "dubbing"]
  let raw_segments ← fetch (array? (getOr ms "segments" (.arr []))) .invalid_segments
  require (raw_segments.length ≤ 100) .invalid_segments
  let segments ← thread segmentStep ⟨[], List.isChain_nil⟩ raw_segments
  let cover ← parseCover (get ms "cover")
  let translation ← parseTranslationSpec isalnum (getOr ms "translation" (.obj []))
  let dubbing ← parseDubbingSpec rates isalnum (getOr ms "dubbing" (.obj []))
  return { segments, cover, translation, dubbing }

/-! ## what is written is parsed -/

variable {rates isalnum}

theorem integer_int {minimum maximum : Int} (i : {i : Int // minimum ≤ i ∧ i ≤ maximum}) :
    integer (F := F) (.int i.1) minimum maximum = .ok i := by
  simp only [integer, bind_eq_ok, fetch_eq_ok, ensure_eq_ok]
  exact ⟨i.1, rfl, rfl⟩

theorem recipeToken_str {maximum : Nat} {required : Bool} (t : RecipeToken isalnum maximum required) :
    recipeToken (F := F) isalnum maximum required (.str t.1.1) = .ok t := by
  simp only [recipeToken, bind_eq_ok, ensure_eq_ok, plainText_str]
  exact ⟨t.1, rfl, rfl⟩

theorem member?_name {α ε : Type} {ofText : Text → Option α} {e unhashable : ε} {a : α} {s : Text}
    (h : ofText s = some a) : member? (F := F) ofText e unhashable (.str s) = .ok a := by
  show fetch (ofText s) e = _
  rw [h]
  rfl

theorem parseRevision_item (o : Option Identifier) :
    parseRevision (F := F) (ofOption (o.map Subtype.val)) = .ok o := by
  cases o with
  | none => rfl
  | some i =>
    show (do return some (← ensure (fun s => isHex 32 s = true) (← fetch (text? (Value.str (F := F) i.1))
      RecipeErr.invalid_translation) .invalid_translation)) = _
    simp only [bind_eq_ok, fetch_eq_ok, ensure_eq_ok, pure_eq_ok]
    exact ⟨i.1, rfl, i, rfl, rfl⟩

/-- a rate that is left out is `1.0` -/
theorem speechRate_item (r : {f : F // rates.inRange f = true}) :
    speechRate rates (((if fl.equals r.1 1 = true then none else some (.float r.1)) : Option (Value F)).getD
      (.float rates.one)) = .ok r := by
  have hfloat : ∀ f : {f : F // rates.inRange f = true}, speechRate rates (.float f.1) = .ok f := fun f => by
    show ensure (fun f => rates.inRange f = true) f.1 RecipeErr.invalid_recipe = _
    exact ensure_eq_ok.mpr rfl
  by_cases h : fl.equals r.1 1 = true
  · rw [if_pos h]
    have hone : r = ⟨rates.one, rates.one_inRange⟩ := Subtype.ext ((rates.equals_one r.1).mp h)
    rw [hone]
    exact hfloat ⟨rates.one, rates.one_inRange⟩
  · rw [if_neg h]
    exact hfloat r

theorem segmentStep_item (done : Segments) (s : SegmentSpec) (h : (done.1 ++ [s]).IsChain (fun a b => a.end_ms ≤ b.start_ms)) :
    segmentStep (F := F) done (.obj (record s.items)) = .ok ⟨done.1 ++ [s], h⟩ := by
  have hkeys : HasKeys (record (s.items (F := F))) [] ["start_ms", "end_ms", "label"] :=
    (hasKeys_record ["end_ms", "label", "start_ms"] rfl).mpr (by decide)
  have hchain := List.isChain_append.mp h
  obtain ⟨start, stop, label, hvalid⟩ := s
  simp only [segmentStep, object?, exactKeys, bind_eq_ok, fetch_eq_ok, Option.some.injEq, exists_eq_left', require_eq_ok,
    ensure_eq_ok, pure_eq_ok, get_record, getOr_record]
  exact ⟨⟨⟩, hkeys, _, integer_int ⟨start, hvalid.1, hvalid.2.1⟩, _,
    integer_int ⟨stop, hvalid.2.2.1, hvalid.2.2.2.1⟩, label, plainText_str _ _, ⟨(), hvalid.2.2.2.2.1, hvalid.2.2.2.2.2, fun p hp => hchain.2.2 p hp _ rfl⟩,
    trivial, rfl⟩

/-- **Segments are parsed back**, after those that were parsed before them. -/
theorem thread_segmentStep (rest : List SegmentSpec) (done : Segments)
    (h : (done.1 ++ rest).IsChain (fun a b => a.end_ms ≤ b.start_ms)) :
    thread (segmentStep (F := F)) done (rest.map (fun s => .obj (record s.items))) = .ok ⟨done.1 ++ rest, h⟩ := by
  induction rest generalizing done with
  | nil => exact congrArg Except.ok (Subtype.ext (List.append_nil _).symm)
  | cons s rest ih =>
    have hassoc : done.1 ++ s :: rest = (done.1 ++ [s]) ++ rest := by simp
    have hfirst : (done.1 ++ [s]).IsChain (fun a b => a.end_ms ≤ b.start_ms) :=
      (List.isChain_append.mp (hassoc ▸ h)).1
    have hstep := segmentStep_item (F := F) done s hfirst
    rw [List.map_cons, thread_cons hstep]
    rw [ih ⟨done.1 ++ [s], hfirst⟩ (hassoc ▸ h)]
    exact congrArg Except.ok (Subtype.ext hassoc.symm)

theorem parseCover_item (o : Option CoverSpec) :
    parseCover (F := F) (match o with
      | none => .null
      | some c => .obj (record c.items)) = .ok o := by
  cases o with
  | none => rfl
  | some c =>
    have hkeys : HasKeys (record (c.items (F := F))) [] ["timestamp_ms", "aspect_ratio", "title", "subtitle"] :=
      (hasKeys_record ["aspect_ratio", "subtitle", "timestamp_ms", "title"] rfl).mpr (by decide)
    simp only [parseCover, object?, exactKeys, bind_eq_ok, fetch_eq_ok, Option.some.injEq, exists_eq_left', require_eq_ok, pure_eq_ok,
      get_record, getOr_record]
    exact ⟨⟨⟩, hkeys, c.aspect_ratio, member?_name (AspectRatio.ofText_name _), c.timestamp_ms, integer_int _,
      c.title, plainText_str _ _, c.subtitle, plainText_str _ _, rfl⟩

theorem TranslationSpec.names (t : TranslationSpec isalnum) : (t.items (F := F)).map Prod.fst =
    if t.revision_id.isSome then
      ["enabled", "model", "provider", "revision_id", "source_language", "state", "target_language"]
    else ["enabled", "model", "provider", "source_language", "state", "target_language"] := by
  obtain ⟨_, _, _, _, _, _, r, _, _⟩ := t
  cases r <;> rfl

theorem TranslationSpec.lookups (t : TranslationSpec isalnum) :
    (t.items (F := F)).lookup "enabled" = some (.bool t.enabled) ∧
      (t.items (F := F)).lookup "source_language" = some (.str t.source_language.1.1) ∧
      (t.items (F := F)).lookup "target_language" = some (.str t.target_language.1.1) ∧
      (t.items (F := F)).lookup "provider" = some (.str t.provider.1.1) ∧
      (t.items (F := F)).lookup "model" = some (.str t.model.1.1) ∧
      (t.items (F := F)).lookup "state" = some (.str t.state.name) ∧
      ((t.items (F := F)).lookup "revision_id").getD .null = ofOption (t.revision_id.map Subtype.val) := by
  obtain ⟨_, _, _, _, _, _, r, _, _⟩ := t
  cases r <;> exact ⟨rfl, rfl, rfl, rfl, rfl, rfl, rfl⟩

theorem parseTranslationSpec_items (t : TranslationSpec isalnum) :
    parseTranslationSpec (F := F) isalnum (.obj (record t.items)) = .ok t := by
  have hkeys : HasKeys (record (t.items (F := F))) []
      ["enabled", "source_language", "target_language", "provider", "model", "state", "revision_id"] := by
    refine (hasKeys_record _ t.names).mpr ?_
    generalize t.revision_id.isSome = b
    cases b <;> decide
  obtain ⟨henabled, hsource, htarget, hprovider, hmodel, hstate, hrevision⟩ := t.lookups (F := F)
  simp only [parseTranslationSpec, partMembers, object?, exactKeys, bind_eq_ok, fetch_eq_ok, Option.some.injEq,
    exists_eq_left', require_eq_ok, ensure_eq_ok, pure_eq_ok, get_record, getOr_record, henabled, hsource, htarget,
    hprovider, hmodel, hstate, hrevision, Option.getD_some]
  exact ⟨⟨⟩, hkeys, t.enabled, rfl, t.state, member?_name (SpecState.ofText_name _), t.revision_id,
    parseRevision_item _, ⟨(), t.valid_revision⟩, trivial, t.source_language, recipeToken_str _, t.target_language,
    recipeToken_str _, t.provider, recipeToken_str _, t.model, recipeToken_str _, ⟨(), t.valid_state⟩, trivial, rfl⟩

theorem DubbingSpec.names (d : DubbingSpec rates isalnum) : d.items.map Prod.fst =
    (if d.authorization.isSome then ["authorization"] else []) ++ (["enabled", "language", "model", "provider"] ++
      ((if fl.equals d.rate.1 1 then [] else ["rate"]) ++ ["replace_original_audio", "state", "voice"])) := by
  obtain ⟨_, _, _, _, _, _, _, a, r, _, _⟩ := d
  unfold DubbingSpec.items
  cases a <;> cases fl.equals r.1 1 <;> rfl

theorem DubbingSpec.lookups (d : DubbingSpec rates isalnum) :
    (d.items.lookup "authorization").getD .null = (d.authorization.map (·.toDict)).getD .null ∧
      d.items.lookup "enabled" = some (.bool d.enabled) ∧
      d.items.lookup "language" = some (.str d.language.1.1) ∧
      d.items.lookup "provider" = some (.str d.provider.1.1) ∧
      d.items.lookup "model" = some (.str d.model.1.1) ∧
      d.items.lookup "voice" = some (.str d.voice.1.1) ∧
      d.items.lookup "state" = some (.str d.state.name) ∧
      d.items.lookup "replace_original_audio" = some (.bool d.replace_original_audio) ∧
      d.items.lookup "rate" = (if fl.equals d.rate.1 1 = true then none else some (.float d.rate.1)) := by
  obtain ⟨_, _, _, _, _, _, _, a, r, _, _⟩ := d
  unfold DubbingSpec.items
  cases a <;> cases fl.equals r.1 1 <;> exact ⟨rfl, rfl, rfl, rfl, rfl, rfl, rfl, rfl, rfl⟩

theorem parseDubbingSpec_items (d : DubbingSpec rates isalnum) :
    parseDubbingSpec rates isalnum (.obj (record d.items)) = .ok d := by
  have hkeys : HasKeys (record d.items) [] ["enabled", "language", "provider", "model", "voice", "state",
      "replace_original_audio", "authorization", "rate"] := by
    refine (hasKeys_record _ d.names).mpr ?_
    generalize d.authorization.isSome = a
    generalize fl.equals d.rate.1 1 = r
    cases a <;> cases r <;> decide
  have hauthorization : (parseOperationAuthorization fl ((d.authorization.map (·.toDict)).getD .null)).mapError
      (fun _ => RecipeErr.invalid_dubbing) = .ok d.authorization := by
    cases d.authorization with
    | none => rfl
    | some a =>
      show (parseOperationAuthorization fl a.toDict).mapError _ = _
      rw [parse_toDict]
      rfl
  obtain ⟨ha, henabled, hlanguage, hprovider, hmodel, hvoice, hstate, hreplace, hrate⟩ := d.lookups
  simp only [parseDubbingSpec, partMembers, object?, exactKeys, bind_eq_ok, fetch_eq_ok, Option.some.injEq,
    exists_eq_left', require_eq_ok, ensure_eq_ok, pure_eq_ok, get_record, getOr_record, henabled, hlanguage, hprovider,
    hmodel, hvoice, hstate, hreplace, hrate, ha, hauthorization, Option.getD_some]
  exact ⟨⟨⟩, hkeys, d.enabled, rfl, d.state, member?_name (SpecState.ofText_name _), d.authorization, rfl, d.language,
    recipeToken_str _, d.provider, recipeToken_str _, d.model, recipeToken_str _, d.voice, recipeToken_str _,
    d.replace_original_audio, rfl, d.rate, speechRate_item _, ⟨(), d.valid_state⟩, trivial, ⟨(), d.valid_authorization⟩,
    trivial, rfl⟩

/-- **A recipe is parsed back**, if it has no more segments than a recipe may have. -/
theorem recipe_toDict {r : EditRecipe rates isalnum} (h : r.segments.1.length ≤ 100) :
    recipeFromMapping rates isalnum r.toDict = .ok r := by
  have hkeys : HasKeys (record r.items) [] ["segments", "cover", "translation", "dubbing"] :=
    (hasKeys_record ["cover", "dubbing", "segments", "translation"] rfl).mpr (by decide)
  have hlen : (r.segments.1.map (fun s => Value.obj (F := F) (record s.items))).length ≤ 100 := by
    rw [List.length_map]
    exact h
  have hsegments := thread_segmentStep (F := F) r.segments.1 ⟨[], List.isChain_nil⟩ r.segments.2
  simp only [recipeFromMapping, EditRecipe.toDict, object?, exactKeys, bind_eq_ok, fetch_eq_ok, Option.some.injEq,
    exists_eq_left', require_eq_ok, pure_eq_ok, get_record, getOr_record]
  exact ⟨⟨⟩, hkeys, _, rfl, ⟨⟩, hlen, r.segments, hsegments, r.cover, parseCover_item _, r.translation,
    parseTranslationSpec_items _, r.dubbing, parseDubbingSpec_items _, rfl⟩

/-! ## what is parsed -/

/-- a parsed recipe has at most a hundred segments -/
theorem recipe_length {v : Value F} {r : EditRecipe rates isalnum} (h : recipeFromMapping rates isalnum v = .ok r) :
    r.segments.1.length ≤ 100 := by
  simp only [recipeFromMapping, bind_eq_ok, require_eq_ok, pure_eq_ok] at h
  obtain ⟨ms, -, _, -, raw, -, _, hlen, segments, hthread, _, -, _, -, _, -, rfl⟩ := h
  have hgrow : ∀ (raws : List (Value F)) (s s' : Segments), thread segmentStep s raws = .ok s' →
      s'.1.length = s.1.length + raws.length := by
    intro raws
    induction raws with
    | nil =>
      intro s s' hs
      cases hs
      rfl
    | cons v raws ih =>
      intro s s' hs
      cases hstep : segmentStep s v with
      | error e => simp [thread, hstep] at hs
      | ok mid =>
        rw [thread_cons hstep] at hs
        have hmid : mid.1.length = s.1.length + 1 := by
          simp only [segmentStep, bind_eq_ok, pure_eq_ok] at hstep
          obtain ⟨_, -, _, -, _, -, _, -, _, -, _, -, rfl⟩ := hstep
          exact List.length_append
        rw [ih mid s' hs, hmid, List.length_cons]
        omega
  have := hgrow raw _ _ hthread
  rw [List.length_nil] at this
  show segments.1.length ≤ 100
  omega

/-- what a recipe is written as is canonical -/
theorem EditRecipe.canonical (r : EditRecipe rates isalnum) : Canonical r.toDict := by
  have hcover : Canonical (F := F) (match r.cover with
      | none => .null
      | some c => .obj (record c.items)) := by
    cases r.cover with
    | none => exact .null
    | some c =>
      refine canonical_record ["aspect_ratio", "subtitle", "timestamp_ms", "title"] rfl (by decide) ?_
      unfold CoverSpec.items
      simp only [List.forall_mem_cons]
      exact ⟨.str _, .str _, .int _, .str _, fun m hm => nomatch hm⟩
  have hdubbing : Canonical (.obj (record r.dubbing.items)) := by
    refine canonical_record _ r.dubbing.names ?_ ?_
    · generalize r.dubbing.authorization.isSome = a
      generalize fl.equals r.dubbing.rate.1 1 = b
      cases a <;> cases b <;> decide
    · obtain ⟨enabled, _, _, _, _, _, replace, a, rate, _, _⟩ := r.dubbing
      unfold DubbingSpec.items
      simp only [List.forall_mem_append, List.forall_mem_cons]
      refine ⟨⟨⟨?_, .bool _, .str _, .str _, .str _, fun m hm => nomatch hm⟩, ?_⟩, .bool _, .str _, .str _,
        fun m hm => nomatch hm⟩
      · cases a with
        | none => exact fun m hm => nomatch hm
        | some a => exact fun m hm => by rw [List.mem_singleton.mp hm]; exact canonical_toDict a
      · cases fl.equals rate.1 1 with
        | true => exact fun m hm => nomatch hm
        | false => exact fun m hm => by rw [List.mem_singleton.mp hm]; exact .float _
  have hsegments : Canonical (F := F) (.arr (r.segments.1.map (fun s => .obj (record s.items)))) := by
    refine .arr (fun v hv => ?_)
    obtain ⟨s, -, rfl⟩ := List.mem_map.mp hv
    refine canonical_record ["end_ms", "label", "start_ms"] rfl (by decide) ?_
    unfold SegmentSpec.items
    simp only [List.forall_mem_cons]
    exact ⟨.int _, .str _, .int _, fun m hm => nomatch hm⟩
  have htranslation : Canonical (F := F) (.obj (record r.translation.items)) := by
    refine canonical_record _ r.translation.names ?_ ?_
    · generalize r.translation.revision_id.isSome = b
      cases b <;> decide
    · obtain ⟨_, _, _, _, _, _, revision, _, _⟩ := r.translation
      unfold TranslationSpec.items
      simp only [List.forall_mem_append, List.forall_mem_cons]
      refine ⟨⟨⟨.bool _, .str _, .str _, fun m hm => nomatch hm⟩, ?_⟩, .str _, .str _, .str _, fun m hm => nomatch hm⟩
      cases revision with
      | none => exact fun m hm => nomatch hm
      | some i => exact fun m hm => by rw [List.mem_singleton.mp hm]; exact .str _
  refine canonical_record ["cover", "dubbing", "segments", "translation"] rfl (by decide) ?_
  unfold EditRecipe.items
  simp only [List.forall_mem_cons]
  exact ⟨hcover, hdubbing, hsegments, htranslation, fun m hm => nomatch hm⟩

end

end OpenFlame.Editing
