import OpenFlame.Editing.Timeline

/-!
# Canonical AI requests and timelines

What is stored of an AI request and of a timeline is one exact text and its digest.  The values that are written
into it carry what was checked of them.

`canonicalAiRequest`, `decodeAiRequest`    requests
`canonicalTimeline`, `decodeTimeline`      timelines
`translationTimeline`                      the timeline of a translation
-/

set_option linter.all false

namespace OpenFlame.Editing
open Guard Text Json

def MAX_AI_REQUEST_BYTES : Nat := 256 * 1024
def MAX_TIMELINE_JSON_BYTES : Nat := 3 * 1024 * 1024
def MAX_GLOSSARY_ITEMS : Nat := 200
def MAX_TIMELINE_MILLISECONDS : Nat := 7 * 24 * 60 * 60 * 1000

/-- `AiPipelineError`, or an error of another kind that nobody catches -/
inductive PipelineErr where
  | pipeline (message : String)
  | timeline (e : TimelineErr)
  | attributeError
  | keyError
  deriving DecidableEq, Repr

/-- the length of a text in UTF-8 -/
def utf8Size (s : Text) : Nat := (String.ofList s).toByteArray.size

/-! ## texts -/

/-- `_IDENTIFIER` -/
abbrev Identifier := {s : Text // isHex 32 s = true}

/-- `_PROVIDER_TOKEN` -/
abbrev ProviderToken := {s : Text // isToken "._:+/-".toList 200 s = true}

/-- `_LANGUAGE` -/
def isLanguage (s : Text) : Bool :=
  match splitOn '-' s with
  | [] => false
  | first :: rest =>
    decide (2 ≤ first.length ∧ first.length ≤ 8) && first.all Char.isAlpha &&
      rest.all (fun p => decide (1 ≤ p.length ∧ p.length ≤ 8) && p.all Char.isAlphanum)

abbrev Language := {s : Text // isLanguage s = true}

/-- `_CUE_ID`, `_SPEAKER_ID` -/
def isCueId (s : Text) : Bool := isToken "._:-".toList 64 s

/-- the texts of a glossary -/
abbrev Term := {s : Text // s.length ≤ 500 ∧ isBlank s = false ∧ s.all (fun c => !isControl c) = true ∧ strip s = s}

section
variable {F : Type}

/-- `_identifier` -/
def identifier (value : Value F) : Except PipelineErr Identifier := do
  ensure _ (← fetch (text? value) (.pipeline "invalid identifier")) (.pipeline "invalid identifier")

/-- `_provider_token` -/
def providerToken (value : Value F) : Except PipelineErr ProviderToken := do
  ensure _ (← fetch (text? value) (.pipeline "invalid provider or model")) (.pipeline "invalid provider or model")

/-- `_language` -/
def language (value : Value F) : Except PipelineErr Language := do
  ensure _ (← fetch (text? value) (.pipeline "invalid language")) (.pipeline "invalid language")

/-- `_boolean` -/
def boolean (value : Value F) : Except PipelineErr Bool := fetch (bool? value) (.pipeline "invalid boolean")

/-- `_text`, of 500 characters at most -/
def term (value : Value F) : Except PipelineErr Term := do
  let s ← fetch (text? value) (.pipeline "invalid text")
  require (s.length ≤ 500) (.pipeline "invalid text")
  ensure _ (strip s) (.pipeline "invalid text")

/-! ## requests -/

/-- a part of the audio -/
structure Clip where
  clip_start_ms : Int
  clip_end_ms : Int
  valid : 0 ≤ clip_start_ms ∧ clip_start_ms < clip_end_ms ∧ clip_end_ms ≤ MAX_TIMELINE_MILLISECONDS

/-- `casefold` of an ASCII text -/
def casefold (s : Text) : Text := s.map Char.toLower

structure Transcription where
  language : Option Language
  vad : Bool
  word_timestamps : Bool
  clip : Option Clip

structure Translation where
  source_revision_id : Identifier
  source_language : Language
  target_language : Language
  glossary : List (Term × Term)
  valid_languages : casefold source_language.1 ≠ casefold target_language.1
  valid_glossary : glossary.length ≤ MAX_GLOSSARY_ITEMS ∧ (glossary.map (·.1.1)).Nodup

/-- the operation of a request and its normalized options -/
inductive AiOptions where
  | transcribe (options : Transcription)
  | translate (options : Translation)

def AiOptions.operation : AiOptions → TaskOperation
  | .transcribe _ => .transcribe
  | .translate _ => .translate

def AiOptions.source_revision_id : AiOptions → Option Text
  | .transcribe _ => none
  | .translate o => some o.source_revision_id.1

def AiOptions.source_language : AiOptions → Option Text
  | .transcribe _ => none
  | .translate o => some o.source_language.1

def AiOptions.target_language : AiOptions → Option Text
  | .transcribe _ => none
  | .translate o => some o.target_language.1

/-- the items that a clip adds to the options -/
def clipItems : Option Clip → List (String × Value F)
  | none => []
  | some c => [("clip_end_ms", .int c.clip_end_ms), ("clip_start_ms", .int c.clip_start_ms)]

/-- the items of `normalized_options`, sorted -/
def AiOptions.items : AiOptions → List (String × Value F)
  | .transcribe o => clipItems o.clip ++
      [("language", ofOption (o.language.map Subtype.val)), ("vad", .bool o.vad),
        ("word_timestamps", .bool o.word_timestamps)]
  | .translate o =>
      [("glossary", .arr (o.glossary.map (fun g => .arr [.str g.1.1, .str g.2.1]))),
        ("source_language", .str o.source_language.1), ("target_language", .str o.target_language.1)]

/-- a clip, from two values that are both `None` or both integers -/
def parseClip (clip_start clip_end : Value F) : Except PipelineErr (Option Clip) :=
  match clip_start, clip_end with
  | .null, .null => .ok none
  | .null, _ => .error (.pipeline "incomplete transcription clip")
  | _, .null => .error (.pipeline "incomplete transcription clip")
  | _, _ => do
    let start ← fetch (int? clip_start) (.pipeline "invalid transcription clip")
    let stop ← fetch (int? clip_end) (.pipeline "invalid transcription clip")
    let valid ← ensure (fun _ => 0 ≤ start ∧ start < stop ∧ stop ≤ (MAX_TIMELINE_MILLISECONDS : Int)) ()
      (.pipeline "invalid transcription clip")
    return some { clip_start_ms := start, clip_end_ms := stop, valid := valid.2 }

/-- a language, or `None` -/
def spokenLanguage : Value F → Except PipelineErr (Option Language)
  | .null => .ok none
  | v => (language v).map some

/-- the options of a transcription -/
def parseTranscription (source_revision_id : Value F) (options : List (Text × Value F)) :
    Except PipelineErr Transcription := do
  require (source_revision_id matches .null) (.pipeline "transcription cannot have a source revision")
  require (HasKeys options [] ["language", "word_timestamps", "vad", "clip_start_ms", "clip_end_ms"])
    (.pipeline "invalid request fields")
  let spoken ← spokenLanguage (get options "language")
  let vad ← boolean (getOr options "vad" (.bool true))
  let word_timestamps ← boolean (getOr options "word_timestamps" (.bool true))
  let clip ← parseClip (get options "clip_start_ms") (get options "clip_end_ms")
  return { language := spoken, vad, word_timestamps, clip }

/-- one iteration over the glossary -/
def glossaryStep (glossary : List (Term × Term)) (item : Value F) : Except PipelineErr (List (Term × Term)) :=
  match item with
  | .arr [source, target] => do
    let source_text ← term source
    let target_text ← term target
    require (source_text.1 ∉ glossary.map (·.1.1)) (.pipeline "duplicate glossary term")
    return glossary ++ [(source_text, target_text)]
  | _ => .error (.pipeline "invalid glossary")

/-- the options of a translation -/
def parseTranslation (source_revision_id : Value F) (options : List (Text × Value F)) :
    Except PipelineErr Translation := do
  let source_revision_id ← identifier source_revision_id
  require (HasKeys options ["source_language", "target_language"] ["source_language", "target_language", "glossary"])
    (.pipeline "invalid request fields")
  let source_language ← language (get options "source_language")
  let target_language ← language (get options "target_language")
  let differ ← ensure (fun _ => casefold source_language.1 ≠ casefold target_language.1) ()
    (.pipeline "translation languages must differ")
  let raw_glossary ← fetch (array? (getOr options "glossary" (.arr []))) (.pipeline "invalid glossary")
  require (raw_glossary.length ≤ MAX_GLOSSARY_ITEMS) (.pipeline "invalid glossary")
  let glossary ← thread glossaryStep [] raw_glossary
  -- the loop keeps one entry an item and no term twice, so this holds whenever it is reached
  let valid ← ensure (fun _ => glossary.length ≤ MAX_GLOSSARY_ITEMS ∧ (glossary.map (·.1.1)).Nodup) ()
    (.pipeline "invalid glossary")
  return {
    source_revision_id, source_language, target_language, glossary
    valid_languages := differ.2
    valid_glossary := valid.2 }

def parseOptions (operation source_revision_id : Value F) (options : List (Text × Value F)) :
    Except PipelineErr AiOptions :=
  match (text? operation).bind TaskOperation.ofText with
  | some .transcribe => (parseTranscription source_revision_id options).map .transcribe
  | some .translate => (parseTranslation source_revision_id options).map .translate
  | _ => .error (.pipeline "unsupported AI operation")

variable (lib : Library) (fl : Floats F)

structure CanonicalAiRequest where
  project_id : Identifier
  provider_id : ProviderToken
  model_id : ProviderToken
  options : AiOptions
  authorization : Option (AiOperationAuthorization fl)
  request_json : Text
  request_sha256 : Text

variable {fl}

/-- the item that an authorization adds to a request -/
def authorizationItems : Option (AiOperationAuthorization fl) → List (String × Value F)
  | none => []
  | some a => [("authorization", a.toDict)]

/-- the items of `request`, sorted -/
def requestItems (project_id : Identifier) (provider_id model_id : ProviderToken) (options : AiOptions)
    (authorization : Option (AiOperationAuthorization fl)) : List (String × Value F) :=
  authorizationItems authorization ++
    [("model_id", .str model_id.1), ("operation", .str options.operation.name),
      ("options", .obj (record options.items)), ("project_id", .str project_id.1), ("provider_id", .str provider_id.1),
      ("source_revision_id", ofOption options.source_revision_id)]

/-- an authorization is one of this request -/
def Authorizes (provider_id model_id : ProviderToken) (options : AiOptions) (a : AiOperationAuthorization fl) : Prop :=
  a.operation = options.operation ∧ a.provider_id.1 = provider_id.1 ∧ a.model_id.map Subtype.val = some model_id.1

instance (provider_id model_id : ProviderToken) (options : AiOptions) (a : AiOperationAuthorization fl) :
    Decidable (Authorizes provider_id model_id options a) := inferInstanceAs (Decidable (_ ∧ _ ∧ _))

variable (fl)

/-- `canonical_ai_request` -/
def canonicalAiRequest (project_id operation provider_id model_id source_revision_id options authorization : Value F) :
    Except PipelineErr (CanonicalAiRequest fl) := do
  let project_id ← identifier project_id
  let provider_id ← providerToken provider_id
  let model_id ← providerToken model_id
  let options ← fetch (object? options) (.pipeline "invalid request options")
  let options ← parseOptions operation source_revision_id options
  let authorization ← (parseOperationAuthorization fl authorization).mapError
    (fun _ => .pipeline "invalid AI authorization")
  require (∀ a ∈ authorization, Authorizes provider_id model_id options a)
    (.pipeline "AI authorization does not match request")
  let encoded := dumps fl (.obj (record (requestItems project_id provider_id model_id options authorization)))
  require (utf8Size encoded ≤ MAX_AI_REQUEST_BYTES) (.pipeline "AI request is too large")
  return {
    project_id, provider_id, model_id, options, authorization
    request_json := encoded
    request_sha256 := lib.sha256 encoded }

/-- `decode_ai_request` -/
def decodeAiRequest (value expected_sha256 : Text) : Except PipelineErr (CanonicalAiRequest fl) := do
  require (isHex 64 expected_sha256 = true ∧ utf8Size value ≤ MAX_AI_REQUEST_BYTES)
    (.pipeline "invalid stored AI request")
  let raw ← fetch ((loads fl value).bind object?) (.pipeline "invalid stored AI request")
  require (HasKeys raw
      ["model_id", "operation", "options", "project_id", "provider_id", "source_revision_id"]
      ["model_id", "operation", "options", "project_id", "provider_id", "source_revision_id", "authorization"])
    (.pipeline "invalid request fields")
  require (¬ ("authorization".toList ∈ keys raw ∧ (get raw "authorization" matches .null)))
    (.pipeline "invalid stored AI request")
  let canonical ← canonicalAiRequest lib fl (get raw "project_id") (get raw "operation") (get raw "provider_id")
    (get raw "model_id") (get raw "source_revision_id") (get raw "options") (get raw "authorization")
  require (canonical.request_json = value ∧ canonical.request_sha256 = expected_sha256)
    (.pipeline "stored AI request changed")
  return canonical

/-! ## timelines -/

structure CanonicalTimeline where
  language : Text
  cues : List TimelineCue
  cues_json : Text
  cues_sha256 : Text
  deriving DecidableEq

/-- a cue as it is written -/
def TimelineCue.items (cue : TimelineCue) : List (String × Value F) :=
  [("end_ms", .int cue.end_ms), ("id", .str cue.id), ("order", .int cue.order),
    ("source_language", .str cue.source_language), ("source_text", .str cue.source_text),
    ("speaker_id", ofOption cue.speaker_id), ("start_ms", .int cue.start_ms)]

/-- `TimelineCue(..)` of the fields of a cue -/
def TimelineCue.again (cue : TimelineCue) : Except TimelineErr TimelineCue :=
  TimelineCue.make cue.id cue.order cue.start_ms cue.end_ms cue.source_text cue.source_language cue.speaker_id

/-- what the loop of `canonical_timeline` checks of a cue alone -/
def CueFits (language : Text) (order : Nat) (cue : TimelineCue) : Prop :=
  cue.order = order ∧ isCueId cue.id = true ∧ cue.end_ms ≤ MAX_TIMELINE_MILLISECONDS ∧
    cue.source_language = language ∧ ∀ s ∈ cue.speaker_id, isCueId s = true

instance (language : Text) (order : Nat) (cue : TimelineCue) : Decidable (CueFits language order cue) :=
  inferInstanceAs (Decidable (_ ∧ _ ∧ _ ∧ _ ∧ _))

/-- one iteration of it -/
def timelineStep (language : Text) (normalized : List TimelineCue) (cue : TimelineCue) :
    Except PipelineErr (List TimelineCue) := do
  require (CueFits language normalized.length cue ∧ cue.id ∉ normalized.map (·.id) ∧
    ∀ c ∈ normalized.getLast?, c.start_ms ≤ cue.start_ms) (.pipeline "invalid timeline cue")
  let normalized_cue ← cue.again.mapError (fun _ => .pipeline "invalid timeline cue")
  return normalized ++ [normalized_cue]

/-- the text of a timeline -/
def timelineJson (cues : List TimelineCue) : Text := dumps fl (.arr (cues.map (fun c => .obj (record c.items))))

/-- `canonical_timeline` -/
def canonicalTimeline (cues : List TimelineCue) (language : Text) : Except PipelineErr CanonicalTimeline := do
  require (isLanguage language = true) (.pipeline "invalid language")
  require (cues ≠ [] ∧ cues.length ≤ MAX_CUES) (.pipeline "invalid timeline cue count")
  let normalized ← thread (timelineStep language) [] cues
  let encoded := timelineJson fl normalized
  require (utf8Size encoded ≤ MAX_TIMELINE_JSON_BYTES) (.pipeline "timeline is too large")
  let _ ← (serializeWebvtt normalized none).mapError (fun _ => .pipeline "invalid timeline")
  return { language, cues := normalized, cues_json := encoded, cues_sha256 := lib.sha256 encoded }

/-- one item of a stored timeline -/
def decodeCue (item : Value F) : Except PipelineErr TimelineCue := do
  let stored := PipelineErr.pipeline "invalid stored timeline"
  let ms ← fetch (object? item) stored
  let required := ["end_ms", "id", "order", "source_language", "source_text", "speaker_id", "start_ms"]
  require (HasKeys ms required required) (.pipeline "invalid request fields")
  let order ← fetch (int? (get ms "order")) stored
  let start_ms ← fetch (int? (get ms "start_ms")) stored
  let end_ms ← fetch (int? (get ms "end_ms")) stored
  let id ← fetch (text? (get ms "id")) stored
  -- the id and the times are checked before the text, on which `strip` is called whatever it is
  require (ValidId id ∧ 0 ≤ order ∧ 0 ≤ start_ms ∧ start_ms < end_ms) stored
  let source_text ← fetch (text? (get ms "source_text")) .attributeError
  let source_language ← fetch (text? (get ms "source_language")) stored
  let speaker_id ← fetch (optionalText? (get ms "speaker_id")) stored
  (TimelineCue.make id order start_ms end_ms source_text source_language speaker_id).mapError (fun _ => stored)

/-- `decode_timeline` -/
def decodeTimeline (value expected_sha256 language : Text) : Except PipelineErr CanonicalTimeline := do
  let stored := PipelineErr.pipeline "invalid stored timeline"
  require (isHex 64 expected_sha256 = true ∧ utf8Size value ≤ MAX_TIMELINE_JSON_BYTES) stored
  require (isLanguage language = true) (.pipeline "invalid language")
  let raw ← fetch ((loads fl value).bind array?) stored
  require (raw ≠ []) stored
  let cues ← each decodeCue raw
  let canonical ← canonicalTimeline lib fl cues language
  require (canonical.cues_json = value ∧ canonical.cues_sha256 = expected_sha256) (.pipeline "stored timeline changed")
  return canonical

/-! ### translations -/

structure TranslationItem where
  segment_id : Text
  target_text : Text
  valid_id : ValidId segment_id
  valid_text : ValidText target_text

structure TranslationRevision where
  source_language : Language
  target_language : Language
  provider_id : Text
  model_id : Text
  items : List TranslationItem
  valid_items : items ≠ [] ∧ (items.map (·.segment_id)).Nodup

/-- the text of a cue in a revision, `by_id[cue.id]` -/
def TranslationRevision.text (revision : TranslationRevision) (cue : TimelineCue) : Option TranslationItem :=
  revision.items.find? (fun i => i.segment_id == cue.id)

/-- `translation_timeline` -/
def translationTimeline (parent : CanonicalTimeline) (revision : TranslationRevision)
    (provider_id model_id source_language target_language : Text) : Except PipelineErr CanonicalTimeline := do
  require (revision.provider_id = provider_id ∧ revision.model_id = model_id ∧
      revision.source_language.1 = source_language ∧ revision.target_language.1 = target_language ∧
      parent.language = source_language)
    (.pipeline "translation result does not match its request")
  -- `validate_against`
  require (revision.items.map (·.segment_id) = parent.cues.map (·.id))
    (.pipeline "translation changed cue identity or order")
  let cues ← each (fun cue : TimelineCue => do
    let item ← fetch (revision.text cue) .keyError
    (TimelineCue.make cue.id cue.order cue.start_ms cue.end_ms item.target_text target_language cue.speaker_id).mapError
      .timeline) parent.cues
  canonicalTimeline lib fl cues target_language

/-- `validate_translation_timeline` -/
def validateTranslationTimeline (parent child : CanonicalTimeline) : Except PipelineErr Unit := do
  require (parent.cues.length = child.cues.length) (.pipeline "translation changed cue count")
  require (∀ x ∈ parent.cues.zip child.cues, x.1.id = x.2.id ∧ x.1.order = x.2.order ∧ x.1.start_ms = x.2.start_ms ∧
      x.1.end_ms = x.2.end_ms ∧ x.1.speaker_id = x.2.speaker_id)
    (.pipeline "translation changed cue identity or timing")

end

end OpenFlame.Editing
