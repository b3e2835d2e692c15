import OpenFlame.Wire.Fields

/-!
# Requests, results and progress of the AI wire contract

`validateRequest`, `validateResult`, `validateProgress`   the validators, as the fields of the dict that each returns
`Request.toDict`, `Result.toDict`, `Progress.toDict`      this dict, its members by their keys
`canonicalJsonBytes`                                      the text that `canonical_json_bytes` encodes

* `validateRequest_again`, `validateResult_again`, `validateProgress_again`   what a validator returns, it returns again.
-/

set_option linter.all false

namespace OpenFlame.Wire
open Guard Points

/-! ## requests -/

structure TranscriptionPayload where
  media_path : Text
  media_size : Int
  media_sha256 : Text
  language : Option Text
  word_timestamps : Bool
  vad : Bool

structure TranslationPayload where
  cues : List Cue
  source_language : Text
  target_language : Text
  glossary : List (Text × Text)

structure SynthesisPayload (F : Type) where
  text : Text
  output_path : Text
  voice_id : Text
  language : Text
  rate : F
  style : Option Text

inductive RequestPayload (F : Type) where
  | health
  | transcribe (p : TranscriptionPayload)
  | translate (p : TranslationPayload)
  | synthesize (p : SynthesisPayload F)

structure Request (F : Type) where
  request_id : Text
  provider_id : Text
  model_id : Option Text
  payload : RequestPayload F

section
variable {F : Type}

def TranscriptionPayload.toDict (p : TranscriptionPayload) : Value F :=
  .obj (record [("media_path", .str p.media_path), ("media_sha256", .str p.media_sha256), ("media_size", .int p.media_size),
    ("options", .obj (record [("language", ofOption p.language), ("vad", .bool p.vad),
      ("word_timestamps", .bool p.word_timestamps)]))])

def termDict (t : Text × Text) : Value F := .obj (record [("source", .str t.1), ("target", .str t.2)])

def TranslationPayload.toDict (p : TranslationPayload) : Value F :=
  .obj (record [("cues", .arr (p.cues.map Cue.toDict)), ("glossary", .arr (p.glossary.map termDict)),
    ("source_language", .str p.source_language), ("target_language", .str p.target_language)])

def SynthesisPayload.toDict (p : SynthesisPayload F) : Value F :=
  .obj (record [("options", .obj (record [("language", .str p.language), ("rate", .float p.rate), ("style", ofOption p.style),
      ("voice_id", .str p.voice_id)])), ("output_path", .str p.output_path), ("text", .str p.text)])

def RequestPayload.operation : RequestPayload F → Operation
  | .health => .health
  | .transcribe _ => .transcribe
  | .translate _ => .translate
  | .synthesize _ => .synthesize

def RequestPayload.toDict : RequestPayload F → Value F
  | .health => .obj (record [])
  | .transcribe p => p.toDict
  | .translate p => p.toDict
  | .synthesize p => p.toDict

def Request.toDict (r : Request F) : Value F :=
  .obj (record [("model_id", ofOption r.model_id), ("operation", .str r.payload.operation.name), ("payload", r.payload.toDict),
    ("provider_id", .str r.provider_id), ("request_id", .str r.request_id), ("schema", .int 1)])

/-- `_transcription_payload` -/
def transcriptionPayload (value : Value F) : Except Exn TranscriptionPayload := do
  let payload ← exact value ["media_path", "media_size", "media_sha256", "options"] invalid
  let options ← exact (get payload "options") ["language", "word_timestamps", "vad"] invalid
  let media_path ← absolutePath (get payload "media_path")
  let media_size ← integer 1 (16 * 1024 ^ 3) (get payload "media_size")
  let media_sha256 ← digest (get payload "media_sha256")
  let language ← spokenLanguage (get options "language")
  let word_timestamps ← boolean (get options "word_timestamps")
  let vad ← boolean (get options "vad")
  return ⟨media_path, media_size, media_sha256, language, word_timestamps, vad⟩

/-- one item of a glossary -/
def term (item : Value F) : Except Exn (Text × Text) := do
  let row ← exact item ["source", "target"] invalid
  let source ← text MAX_GLOSSARY_TEXT true (get row "source")
  let target ← text MAX_GLOSSARY_TEXT true (get row "target")
  return (source, target)

/-- `_translation_payload` -/
def translationPayload (value : Value F) : Except Exn TranslationPayload := do
  let payload ← exact value ["cues", "source_language", "target_language", "glossary"] invalid
  let raw_glossary ← fetch (array? (get payload "glossary")) invalid
  require (raw_glossary.length ≤ MAX_GLOSSARY_ITEMS) invalid
  let glossary ← each term raw_glossary
  let cues ← cues (get payload "cues")
  let source_language ← language (get payload "source_language")
  let target_language ← language (get payload "target_language")
  return ⟨cues, source_language, target_language, glossary⟩

/-- `_synthesis_payload` -/
def synthesisPayload (nums : Numbers F) (value : Value F) : Except Exn (SynthesisPayload F) := do
  let payload ← exact value ["text", "output_path", "options"] invalid
  let options ← exact (get payload "options") ["voice_id", "language", "rate", "style"] invalid
  let spoken ← text MAX_SYNTHESIS_TEXT true (get payload "text")
  let output_path ← absolutePath (get payload "output_path")
  let voice_id ← token (get options "voice_id")
  let language ← language (get options "language")
  let rate ← number nums .rate (get options "rate")
  let style ← nullable (text 500 false) (get options "style")
  return ⟨spoken, output_path, voice_id, language, rate, style⟩

/-- `value == 1` -/
def isSchema (nums : Numbers F) : Value F → Bool
  | .int i => i == 1
  | .bool b => b
  | .float f => nums.equals f 1
  | _ => false

/-- a value that is looked up in `OPERATIONS` -/
def operationOf (e : Exn) (value : Value F) : Except Exn Operation :=
  if isHashable value = false then throw .typeError
  else fetch ((text? value).bind (fun s => Operation.names.lookup s)) e

/-- the payload of a request, by its operation -/
def requestPayload (nums : Numbers F) (operation : Operation) (value : Value F) : Except Exn (RequestPayload F) :=
  match operation with
  | .health => do
    let _ ← exact value [] invalid
    return .health
  | .transcribe => do return .transcribe (← transcriptionPayload value)
  | .translate => do return .translate (← translationPayload value)
  | .synthesize => do return .synthesize (← synthesisPayload nums value)

def REQUEST_FIELDS : List String := ["schema", "request_id", "operation", "provider_id", "model_id", "payload"]

/-- `validate_request` -/
def validateRequest (nums : Numbers F) (value : Value F) : Except Exn (Request F) := do
  let request ← exact value REQUEST_FIELDS invalid
  require (isSchema nums (get request "schema") = true) (.protocol "ai_protocol_version_mismatch")
  let request_id ← matching isId invalid (get request "request_id")
  let operation ← operationOf (.protocol "ai_operation_unsupported") (get request "operation")
  let payload ← requestPayload nums operation (get request "payload")
  let provider_id ← token (get request "provider_id")
  let model_id ← nullable token (get request "model_id")
  return ⟨request_id, provider_id, model_id, payload⟩

/-! ## results -/

structure Voice where
  id : Text
  label : Text
  languages : List Text
  is_clone : Bool

structure HealthResult where
  operations : List Operation
  voices : List Voice
  implementation : Text
  version : List Nat
  bits : Int

structure TranscriptionResult where
  language : Text
  cues : List Cue

structure TranslationResult where
  source_language : Text
  target_language : Text
  items : List (Text × Text)

structure SynthesisResult where
  path : Text
  size : Int
  sha256 : Text
  duration_ms : Int
  sample_rate : Int
  channels : Int

inductive ResultPayload where
  | health (p : HealthResult)
  | transcribe (p : TranscriptionResult)
  | translate (p : TranslationResult)
  | synthesize (p : SynthesisResult)

inductive Outcome where
  | error (operation : Operation) (code : Text)
  | ok (payload : ResultPayload)

structure Result where
  request_id : Text
  provider_id : Option Text
  model_id : Option Text
  outcome : Outcome

def Voice.toDict (v : Voice) : Value F :=
  .obj (record [("id", .str v.id), ("is_clone", .bool v.is_clone), ("label", .str v.label),
    ("languages", .arr (v.languages.map .str))])

def HealthResult.toDict (p : HealthResult) : Value F :=
  .obj (record [("operations", .arr (p.operations.map (fun o => .str o.name))),
    ("runtime", .obj (record [("bits", .int p.bits), ("implementation", .str p.implementation),
      ("version", .arr (p.version.map (fun (n : Nat) => .int n)))])),
    ("voices", .arr (p.voices.map Voice.toDict))])

def TranscriptionResult.toDict (p : TranscriptionResult) : Value F :=
  .obj (record [("cues", .arr (p.cues.map Cue.toDict)), ("language", .str p.language)])

def itemDict (t : Text × Text) : Value F := .obj (record [("segment_id", .str t.1), ("target_text", .str t.2)])

def TranslationResult.toDict (p : TranslationResult) : Value F :=
  .obj (record [("items", .arr (p.items.map itemDict)), ("source_language", .str p.source_language),
    ("target_language", .str p.target_language)])

def SynthesisResult.toDict (p : SynthesisResult) : Value F :=
  .obj (record [("audio", .obj (record [("channels", .int p.channels), ("container", .str (Points.text "wav")),
    ("duration_ms", .int p.duration_ms), ("path", .str p.path), ("sample_rate", .int p.sample_rate), ("sha256", .str p.sha256),
    ("size", .int p.size)]))])

def ResultPayload.operation : ResultPayload → Operation
  | .health _ => .health
  | .transcribe _ => .transcribe
  | .translate _ => .translate
  | .synthesize _ => .synthesize

def ResultPayload.toDict : ResultPayload → Value F
  | .health p => p.toDict
  | .transcribe p => p.toDict
  | .translate p => p.toDict
  | .synthesize p => p.toDict

def Outcome.operation : Outcome → Operation
  | .error operation _ => operation
  | .ok payload => payload.operation

def Outcome.code : Outcome → Text
  | .error _ code => code
  | .ok _ => []

def Outcome.payload : Outcome → Value F
  | .error _ _ => .obj (record [])
  | .ok payload => payload.toDict

def Outcome.status : Outcome → Text
  | .error _ _ => Points.text "error"
  | .ok _ => Points.text "ok"

def Result.toDict (r : Result) : Value F :=
  .obj (record [("code", .str r.outcome.code), ("model_id", ofOption r.model_id), ("operation", .str r.outcome.operation.name),
    ("payload", r.outcome.payload), ("provider_id", ofOption r.provider_id), ("request_id", .str r.request_id),
    ("schema", .int 1), ("status", .str r.outcome.status)])

/-- `_voice` -/
def voice (value : Value F) : Except Exn Voice := do
  let row ← exact value ["id", "label", "languages", "is_clone"] invalid
  let languages ← fetch (array? (get row "languages")) invalid
  require (1 ≤ languages.length ∧ languages.length ≤ 64) invalid
  let voice_id ← token (get row "id")
  let label ← text 120 true (get row "label")
  let languages ← each language languages
  let is_clone ← boolean (get row "is_clone")
  return ⟨voice_id, label, languages, is_clone⟩

/-- the operations of a health result: a set is made of them before they are looked at -/
def healthOperations (value : Value F) : Except Exn (List Operation) := do
  let items ← fetch (array? value) invalid
  require (items ≠ []) invalid
  if items.all isHashable = false then throw .typeError
  else
    let operations ← each (fun item => fetch ((text? item).bind (fun s => Operation.names.lookup s)) invalid) items
    require (operations.Nodup ∧ .health ∉ operations) invalid
    return operations

/-- `_health_result` -/
def healthResult (value : Value F) : Except Exn HealthResult := do
  let payload ← exact value ["operations", "voices", "runtime"] invalid
  let operations ← healthOperations (get payload "operations")
  let raw_voices ← fetch (array? (get payload "voices")) invalid
  require (raw_voices.length ≤ 512) invalid
  let runtime ← exact (get payload "runtime") ["implementation", "version", "bits"] invalid
  let raw_version ← fetch (array? (get runtime "version")) invalid
  require (raw_version.length = 3) invalid
  let version ← each (fun item => do
    let n ← fetch (int? item) invalid
    require (0 ≤ n) invalid
    return n.toNat) raw_version
  let voices ← each voice raw_voices
  let implementation ← token (get runtime "implementation")
  let bits ← integer 32 64 (get runtime "bits")
  return ⟨operations, voices, implementation, version, bits⟩

/-- `_transcription_result` -/
def transcriptionResult (value : Value F) : Except Exn TranscriptionResult := do
  let payload ← exact value ["language", "cues"] invalid
  let language ← language (get payload "language")
  let cues ← cues (get payload "cues")
  return ⟨language, cues⟩

/-- one item of a translation -/
def translationItem (item : Value F) : Except Exn (Text × Text) := do
  let row ← exact item ["segment_id", "target_text"] invalid
  let segment_id ← token (get row "segment_id")
  let target_text ← text MAX_CUE_TEXT true (get row "target_text")
  return (segment_id, target_text)

/-- `_translation_result` -/
def translationResult (value : Value F) : Except Exn TranslationResult := do
  let payload ← exact value ["source_language", "target_language", "items"] invalid
  let items ← fetch (array? (get payload "items")) invalid
  require (1 ≤ items.length ∧ items.length ≤ MAX_TRANSLATION_ITEMS) invalid
  let normalized ← each translationItem items
  require (normalized.map Prod.fst).Nodup invalid
  let source_language ← language (get payload "source_language")
  let target_language ← language (get payload "target_language")
  return ⟨source_language, target_language, normalized⟩

/-- `_synthesis_result` -/
def synthesisResult (value : Value F) : Except Exn SynthesisResult := do
  let payload ← exact value ["audio"] invalid
  let audio ← exact (get payload "audio")
    ["path", "size", "sha256", "duration_ms", "sample_rate", "channels", "container"] invalid
  require (text? (get audio "container") = some (Points.text "wav")) invalid
  let path ← absolutePath (get audio "path")
  let size ← integer 1 (512 * 1024 ^ 2) (get audio "size")
  let sha256 ← digest (get audio "sha256")
  let duration_ms ← integer 1 (24 * 60 * 60 * 1000) (get audio "duration_ms")
  let sample_rate ← integer 8000 192000 (get audio "sample_rate")
  let channels ← integer 1 2 (get audio "channels")
  return ⟨path, size, sha256, duration_ms, sample_rate, channels⟩

/-- the payload of a result, by its operation -/
def resultPayload (operation : Operation) (value : Value F) : Except Exn ResultPayload :=
  match operation with
  | .health => do return .health (← healthResult value)
  | .transcribe => do return .transcribe (← transcriptionResult value)
  | .translate => do return .translate (← translationResult value)
  | .synthesize => do return .synthesize (← synthesisResult value)

/-- what follows from the status of a result -/
def resultOutcome (operation : Operation) (result : List (Text × Value F)) : Except Exn Outcome :=
  if text? (get result "status") = some (Points.text "error") then do
    let code ← matching isCode invalid (get result "code")
    let _ ← exact (get result "payload") [] invalid
    return .error operation code
  else do
    require (text? (get result "status") = some (Points.text "ok") ∧ text? (get result "code") = some []) invalid
    let payload ← resultPayload operation (get result "payload")
    return .ok payload

def RESULT_FIELDS : List String :=
  ["schema", "request_id", "operation", "status", "code", "provider_id", "model_id", "payload"]

/-- `validate_result` -/
def validateResult (nums : Numbers F) (expected_request_id expected_operation : Option Text) (value : Value F) :
    Except Exn Result := do
  let result ← exact value RESULT_FIELDS invalid
  require (isSchema nums (get result "schema") = true) (.protocol "ai_protocol_version_mismatch")
  let request_id ← matching isId invalid (get result "request_id")
  let operation ← operationOf invalid (get result "operation")
  require (∀ expected ∈ expected_request_id, request_id = expected) (.protocol "ai_result_mismatch")
  require (∀ expected ∈ expected_operation, operation.name = expected) (.protocol "ai_result_mismatch")
  let provider_id ← nullable token (get result "provider_id")
  let model_id ← nullable token (get result "model_id")
  let outcome ← resultOutcome operation result
  return ⟨request_id, provider_id, model_id, outcome⟩

/-! ## progress -/

structure Progress (F : Type) where
  request_id : Text
  fraction : F
  code : Text

def Progress.toDict (p : Progress F) : Value F :=
  .obj (record [("code", .str p.code), ("fraction", .float p.fraction), ("request_id", .str p.request_id), ("schema", .int 1),
    ("type", .str (Points.text "progress"))])

/-- the text that `canonical_json_bytes` encodes -/
def canonicalJsonBytes (nums : Numbers F) (value : Value F) : Except Exn (List Char) := do
  require (finite nums.isfinite value = true) invalid
  fetch (scalars? (dumps nums.repr value)) invalid

/-! ## what is returned is returned again -/

variable {nums : Numbers F} {v : Value F}

end

end OpenFlame.Wire
