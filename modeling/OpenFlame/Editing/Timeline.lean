import OpenFlame.Editing.Authorization
import OpenFlame.Base.Lines
import OpenFlame.Base.Decimal

/-!
# Subtitle timelines, their parsers and serializers

A `TimelineCue` carries what its constructor checks; times are numbers of milliseconds.

`parseSrt`, `parseWebvtt`           UTF-8 payloads to cues
`serializeSrt`, `serializeWebvtt`   cues to UTF-8 payloads

What the parsers know of characters and digests is a `Library`.
-/

set_option linter.all false

namespace OpenFlame.Editing
open Guard Text



structure Library where
  digits : Digits
  /-- `sha256(text.encode()).hexdigest()` -/
  sha256 : Text → Text
  hex_sha256 : ∀ s, isHex 64 (sha256 s) = true

def MAX_SUBTITLE_BYTES : Nat := 2 * 1024 * 1024
def MAX_CUES : Nat := 10000
def MAX_CUE_TEXT : Nat := 4096

/-- `TimelineError`, or an `IndexError` that nobody catches -/
inductive TimelineErr where
  | timeline (message : String)
  | indexError
  deriving DecidableEq, Repr

/-- `ord(character) < 32 and character not in "\n\t"` -/
def isControl (c : Char) : Bool := c.toNat < 32 && c != '\n' && c != '\t'

/-- the checks of a cue's text -/
def ValidText (text : Text) : Prop :=
  isBlank text = false ∧ text.length ≤ MAX_CUE_TEXT ∧ text.all (fun c => !isControl c) = true

instance (text : Text) : Decidable (ValidText text) := inferInstanceAs (Decidable (_ ∧ _ ∧ _))

/-- an id or a speaker id -/
def ValidId (id : Text) : Prop := id ≠ [] ∧ id.length ≤ 64

instance (id : Text) : Decidable (ValidId id) := inferInstanceAs (Decidable (_ ∧ _))

structure TimelineCue where
  id : Text
  order : Nat
  start_ms : Nat
  end_ms : Nat
  source_text : Text
  source_language : Text
  speaker_id : Option Text
  valid_id : ValidId id
  valid_times : start_ms < end_ms
  valid_text : ValidText source_text
  valid_speaker : ∀ s ∈ speaker_id, ValidId s
  deriving DecidableEq

theorem valid_noSpeaker : ∀ s ∈ (none : Option Text), ValidId s := nofun

/-- `TimelineCue(..)`, whose integers may still be negative -/
def TimelineCue.make (id : Text) (order start_ms end_ms : Int) (source_text source_language : Text)
    (speaker_id : Option Text) : Except TimelineErr TimelineCue :=
  if hid : ValidId id then
    if horder : 0 ≤ order ∧ 0 ≤ start_ms ∧ start_ms < end_ms then
      if htext : ValidText source_text then
        if hspeaker : ∀ s ∈ speaker_id, ValidId s then
          .ok
            { id
              order := order.toNat
              start_ms := start_ms.toNat
              end_ms := end_ms.toNat
              source_text
              source_language
              speaker_id
              valid_id := hid
              valid_times := by omega
              valid_text := htext
              valid_speaker := hspeaker }
        else .error (.timeline "invalid speaker id")
      else .error (.timeline "invalid cue text")
    else .error (.timeline "invalid cue timing")
  else .error (.timeline "invalid cue id")

/-! ## reading -/

/-- `_decode` -/
def decodePayload (payload : ByteArray) : Except TimelineErr Text := do
  require (payload.size ≠ 0 ∧ payload.size ≤ MAX_SUBTITLE_BYTES) (.timeline "subtitle size is invalid")
  let text ← fetch payload.utf8Decode? (.timeline "subtitles must be UTF-8")
  -- `utf-8-sig` takes one byte order mark off the start
  let text := if text.toList.head? = some '\uFEFF' then text.toList.tail else text.toList
  require ('\x00' ∉ text) (.timeline "subtitle contains a null byte")
  return unixLines text

/-- `_cue_id` -/
def Library.cueId (lib : Library) (order start_ms end_ms : Nat) (text : Text) : Text :=
  (lib.sha256 (Nat.toDigits 10 order ++ '\x00' :: Nat.toDigits 10 start_ms ++ '\x00' :: Nat.toDigits 10 end_ms ++
    '\x00' :: text)).take 32

/-- `_validate_order` -/
def validateOrder (cues : List TimelineCue) : Except TimelineErr (List TimelineCue) := do
  require (cues ≠ [] ∧ cues.length ≤ MAX_CUES) (.timeline "subtitle cue count is invalid")
  require (cues.IsChain (fun a b => a.start_ms ≤ b.start_ms)) (.timeline "subtitle cues are out of order")
  return cues

/-! ### clock times -/

/-- `\d{low,high}` -/
def numeral (d : Digits) (low high : Nat) (s : Text) : Option Nat :=
  if d.all s && decide (low ≤ s.length ∧ s.length ≤ high) then some (d.int s) else none

/-- `[0-5]\d` -/
def sixty (d : Digits) (s : Text) : Option Nat :=
  if (s.head?.any (fun c => '0' ≤ c && c ≤ '5')) then numeral d 2 2 s else none

/-- `_milliseconds` -/
def milliseconds (h m s ms : Nat) : Nat := h * 3600000 + m * 60000 + s * 1000 + ms

/-- seconds and milliseconds around `point` -/
def secondsOf (d : Digits) (point : Char) (text : Text) : Option (Nat × Nat) :=
  match splitOn point text with
  | [s, ms] => do return (← sixty d s, ← numeral d 3 3 ms)
  | _ => none

/-- `_SRT_TIME` -/
def srtTime (d : Digits) (text : Text) : Option Nat :=
  match splitOn ':' text with
  | [h, m, rest] => do
    let h ← numeral d 2 3 h
    let m ← sixty d m
    let (s, ms) ← secondsOf d ',' rest
    return milliseconds h m s ms
  | _ => none

/-- `[0-5]?\d` -/
def vttMinutes (d : Digits) (s : Text) : Option Nat := if s.length = 1 then numeral d 1 1 s else sixty d s

/-- `_VTT_TIME` -/
def vttTime (d : Digits) (text : Text) : Option Nat :=
  match splitOn ':' text with
  | [m, rest] => do
    let m ← vttMinutes d m
    let (s, ms) ← secondsOf d '.' rest
    return milliseconds 0 m s ms
  | [h, m, rest] => do
    let h ← numeral d 1 3 h
    let m ← vttMinutes d m
    let (s, ms) ← secondsOf d '.' rest
    return milliseconds h m s ms
  | _ => none

/-! ### cues -/

/-- `line.split(" --> ")` -/
def arrowParts (line : Text) : List Text := splitSub " --> ".toList 0 line

/-- `" --> " in line` -/
def hasArrow (line : Text) : Bool := 2 ≤ (arrowParts line).length

/-- the cue a block's lines and times make -/
def Library.cue (lib : Library) (language : Text) (order start_ms end_ms : Nat) (lines : List Text) :
    Except TimelineErr TimelineCue :=
  let source_text := strip (joinLines lines)
  TimelineCue.make (lib.cueId order start_ms end_ms source_text) order start_ms end_ms source_text language none

/-- one block of `parse_srt` -/
def srtCue (lib : Library) (language : Text) (order : Nat) (block : Text) : Except TimelineErr TimelineCue := do
  let lines := splitLines block
  require (2 ≤ lines.length) (.timeline "invalid SRT cue")
  let number := strip (lines.headD [])
  let lines := if number != [] && number.all lib.digits.isdigit then lines.tail else lines
  match lines with
  | time :: text :: rest =>
    match arrowParts time with
    | [a, b] => do
      let start ← fetch (srtTime lib.digits (strip a)) (.timeline "invalid SRT timing")
      let stop ← fetch (srtTime lib.digits (strip b)) (.timeline "invalid SRT timing")
      lib.cue language order start stop (text :: rest)
    | _ => throw (.timeline "invalid SRT timing")
  | _ => throw (.timeline "invalid SRT timing")

/-- `parse_srt` -/
def parseSrt (lib : Library) (payload : ByteArray) (language : Text) : Except TimelineErr (List TimelineCue) := do
  let text ← decodePayload payload
  let cues ← thread (fun cues block => do return cues ++ [← srtCue lib language cues.length block]) []
    (splitBlocks (strip text))
  validateOrder cues

/-- blocks that hold no cue -/
def skipsBlock (block : Text) : Bool :=
  isBlank block || ["NOTE", "STYLE", "REGION"].any (fun s => s.toList.isPrefixOf block)

/-- one block of `parse_webvtt` -/
def vttCue (lib : Library) (language : Text) (order : Nat) (block : Text) : Except TimelineErr TimelineCue := do
  let cue_lines := splitLines block
  -- an identifier line may come before the times
  let cue_lines := if hasArrow (cue_lines.headD []) then cue_lines else cue_lines.tail
  match cue_lines with
  | time :: text :: rest => do
    require (hasArrow time = true) (.timeline "invalid WebVTT cue")
    match arrowParts time with
    | [a, b] => do
      let end_token := (strip b).takeWhile (fun c => !isSpace c)
      require (end_token ≠ []) .indexError
      let start ← fetch (vttTime lib.digits (strip a)) (.timeline "invalid WebVTT timing")
      let stop ← fetch (vttTime lib.digits end_token) (.timeline "invalid WebVTT timing")
      lib.cue language order start stop (text :: rest)
    | _ => throw (.timeline "invalid WebVTT timing")
  | _ => throw (.timeline "invalid WebVTT cue")

/-- `parse_webvtt` -/
def parseWebvtt (lib : Library) (payload : ByteArray) (language : Text) : Except TimelineErr (List TimelineCue) := do
  let text ← decodePayload payload
  let lines := splitLines text
  require (lines ≠ [] ∧ "WEBVTT".toList.isPrefixOf ((lines.headD []).dropWhile (· == '\uFEFF')) = true)
    (.timeline "invalid WebVTT header")
  let cues ← thread (fun cues block =>
      if skipsBlock block then return cues
      else do return cues ++ [← vttCue lib language cues.length block]) []
    (splitBlocks (strip (joinLines lines.tail)))
  validateOrder cues

/-! ## writing -/

/-- `_format_time` -/
def formatTime (milliseconds : Nat) (separator : Char) : Text :=
  padded 2 (milliseconds / 3600000) ++ ':' :: padded 2 (milliseconds % 3600000 / 60000) ++ ':' ::
    padded 2 (milliseconds % 60000 / 1000) ++ separator :: padded 3 (milliseconds % 1000)

/-- the line with the times of a cue -/
def timeLine (separator : Char) (cue : TimelineCue) : Text :=
  formatTime cue.start_ms separator ++ " --> ".toList ++ formatTime cue.end_ms separator

/-- the text a cue is shown with; `texts` maps ids to texts -/
def shownText (texts : Option (Text → Option Text)) (cue : TimelineCue) : Text :=
  match texts with
  | none => cue.source_text
  | some texts => (texts cue.id).getD []

/-- the check of a text that is written -/
def Showable (text : Text) : Prop := isBlank text = false ∧ text.length ≤ MAX_CUE_TEXT

instance (text : Text) : Decidable (Showable text) := inferInstanceAs (Decidable (_ ∧ _))

/-- `serialize_srt` -/
def serializeSrt (cues : List TimelineCue) (texts : Option (Text → Option Text)) : Except TimelineErr ByteArray := do
  let cues ← validateOrder cues
  let rows ← each (fun (cue, index) => do
    let text := shownText texts cue
    require (Showable text) (.timeline "translated subtitle text is missing or invalid")
    return [Nat.toDigits 10 index, timeLine ',' cue, text, []]) (cues.zipIdx 1)
  return (String.ofList (joinLines rows.flatten)).toByteArray

/-- `serialize_webvtt` -/
def serializeWebvtt (cues : List TimelineCue) (texts : Option (Text → Option Text)) : Except TimelineErr ByteArray := do
  let cues ← validateOrder cues
  let rows ← each (fun cue => do
    let text := shownText texts cue
    require (Showable text) (.timeline "translated subtitle text is missing or invalid")
    return [timeLine '.' cue, text, []]) cues
  return (String.ofList (joinLines ("WEBVTT".toList :: [] :: rows.flatten))).toByteArray

end OpenFlame.Editing
