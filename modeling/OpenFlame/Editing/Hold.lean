import OpenFlame.Editing.Subtitles

/-!
# Captions held on the screen

`holdCaptions`   captions shown until they are read, in the styles of `CaptionStyle`
`serializeAss`   the captions as an Advanced SubStation Alpha file, with times in hundredths of a second
`assEvents`      the times of such a file, read back

* `Held.apart`               held captions keep apart;
* `assEvents_serialize`      the file has one event for every caption, and no others;
* **`holdCaptions_held`**    captions are held, in their order and apart, and written with their times.

A reading time is a quotient of floats: what they do with it is a `Speeds`.
-/

set_option linter.all false

namespace OpenFlame.Editing
open Guard Text

def MAX_DISPLAY_MS : Nat := 24 * 60 * 60 * 1000
def MAX_LINE_CHARS_LIMIT : Nat := 96
def MAX_FONT_SIZE : Nat := 512
def MAX_PLAY_RESOLUTION : Nat := 16384

/-- `CaptionError`, a `TimelineError`, or an `OverflowError` that nobody catches -/
inductive CaptionErr where
  | caption (message : String)
  | timeline (e : TimelineErr)
  | overflow
  deriving DecidableEq, Repr

structure Speeds (F : Type) where
  /-- `0 < float(speed) <= 1000` -/
  allowed : F → Bool
  /-- `int(characters * 1000 / speed + 0.5)`; an infinite quotient is no integer -/
  readable : F → Nat → Option Nat

/-- the check of a font's name -/
def ValidFont (name : Text) : Prop :=
  isBlank name = false ∧ name.length ≤ 120 ∧
    name.all (fun c => !([',', '\r', '\n', '\x7b', '\x7d', '\\'].contains c) && !decide (c.toNat < 32)) = true

instance (name : Text) : Decidable (ValidFont name) := inferInstanceAs (Decidable (_ ∧ _ ∧ _))

structure CaptionStyle {F : Type} (sp : Speeds F) where
  font_name : Text
  font_size : Nat
  play_res_x : Nat
  play_res_y : Nat
  margin_horizontal : Nat
  margin_vertical : Nat
  max_line_chars : Nat
  min_comma_run : Nat
  max_reading_speed : F
  target_reading_speed : F
  lead_out_ms : Nat
  min_duration_ms : Nat
  min_gap_ms : Nat
  valid_font : ValidFont font_name
  valid_sizes : ∀ v ∈ [(font_size, MAX_FONT_SIZE), (play_res_x, MAX_PLAY_RESOLUTION),
    (play_res_y, MAX_PLAY_RESOLUTION), (max_line_chars, MAX_LINE_CHARS_LIMIT),
    (min_comma_run, MAX_LINE_CHARS_LIMIT)], 1 ≤ v.1 ∧ v.1 ≤ v.2
  valid_margins : margin_horizontal ≤ MAX_PLAY_RESOLUTION ∧ margin_vertical ≤ MAX_PLAY_RESOLUTION
  valid_speeds : sp.allowed max_reading_speed = true ∧ sp.allowed target_reading_speed = true
  valid_times : lead_out_ms ≤ MAX_DISPLAY_MS ∧ min_duration_ms ≤ MAX_DISPLAY_MS ∧ min_gap_ms ≤ MAX_DISPLAY_MS

section
variable {F : Type} {sp : Speeds F} (style : CaptionStyle sp) (texts : Text → Option Text)

/-! ## holding -/

/-- `texts.get(cue.id, cue.source_text)` -/
def displayed (cue : TimelineCue) : Text := (texts cue.id).getD cue.source_text

/-- `len(displayed.replace("\n", ""))` -/
def characters (cue : TimelineCue) : Nat := (displayed texts cue).countP (· != '\n')

/-- where a caption is held to -/
def heldEnd (cue : TimelineCue) (readable_ms following limit_ms : Nat) : Nat :=
  let wanted := max (max (cue.end_ms + style.lead_out_ms) (cue.start_ms + style.min_duration_ms))
    (cue.start_ms + readable_ms)
  -- a difference below zero is below every end
  let ceiling := max cue.end_ms (following - style.min_gap_ms)
  max cue.end_ms (min (min wanted ceiling) (max cue.end_ms limit_ms))

/-- one turn of the loop of `hold_captions` -/
def holdCue (cue : TimelineCue) (following limit_ms : Nat) : Except CaptionErr TimelineCue := do
  let readable_ms ← fetch (sp.readable style.target_reading_speed (characters texts cue)) .overflow
  let end_ms := heldEnd style cue readable_ms following limit_ms
  if end_ms = cue.end_ms then
    return cue
  else
    (TimelineCue.make cue.id cue.order cue.start_ms end_ms cue.source_text cue.source_language cue.speaker_id).mapError
      .timeline

/-- `cues[index + 1].start_ms if index + 1 < len(cues) else limit_ms` -/
def followingStart (rest : List TimelineCue) (limit_ms : Nat) : Nat :=
  match rest with
  | [] => limit_ms
  | next :: _ => next.start_ms

/-- the loop of `hold_captions` -/
def holdFrom (limit_ms : Nat) : List TimelineCue → Except CaptionErr (List TimelineCue)
  | [] => return []
  | cue :: rest => do
    let held ← holdCue style texts cue (followingStart rest limit_ms) limit_ms
    return held :: (← holdFrom limit_ms rest)

/-- `hold_captions` -/
def holdCaptions (cues : List TimelineCue) (limit_ms : Int) : Except CaptionErr (List TimelineCue) := do
  require (0 ≤ limit_ms) (.caption "invalid caption window")
  holdFrom style texts limit_ms.toNat cues

/-! ## writing -/

/-- `_ass_escape` -/
def assEscape (value : Text) : Text :=
  let value := value.map (fun c => if c = '\\' then '＼' else if c = '\x7b' then '｛' else if c = '\x7d' then '｝' else c)
  (unixLines value).flatMap (fun c => if c = '\n' then ['\\', 'N'] else [c])

/-- `(milliseconds + 5) // 10` -/
def centiseconds (milliseconds : Nat) : Nat := (milliseconds + 5) / 10

/-- `_ass_time` -/
def assTime (milliseconds : Nat) : Text :=
  let centiseconds := centiseconds milliseconds
  Nat.toDigits 10 (centiseconds / 360000) ++ ':' :: padded 2 (centiseconds % 360000 / 6000) ++ ':' ::
    padded 2 (centiseconds % 6000 / 100) ++ '.' :: padded 2 (centiseconds % 100)

def assHeaderFormat : Text :=
  ("Format: Name, Fontname, Fontsize, PrimaryColour, SecondaryColour, OutlineColour, BackColour, Bold, Italic, " ++
    "Underline, StrikeOut, ScaleX, ScaleY, Spacing, Angle, BorderStyle, Outline, Shadow, Alignment, MarginL, " ++
    "MarginR, MarginV, Encoding").toList

def assEventFormat : Text :=
  "Format: Layer, Start, End, Style, Name, MarginL, MarginR, MarginV, Effect, Text".toList

/-- the rows before the events -/
def assHeader : List Text :=
  ["[Script Info]".toList, "ScriptType: v4.00+".toList,
    "PlayResX: ".toList ++ Nat.toDigits 10 style.play_res_x, "PlayResY: ".toList ++ Nat.toDigits 10 style.play_res_y,
    "ScaledBorderAndShadow: yes".toList, [], "[V4+ Styles]".toList, assHeaderFormat,
    "Style: Default,".toList ++ style.font_name ++ ',' :: Nat.toDigits 10 style.font_size ++
      ",&H00FFFFFF,&H000000FF,&H00111111,&H99000000,0,0,0,0,100,100,0,0,1,2,1,2,".toList ++
      Nat.toDigits 10 style.margin_horizontal ++ ',' :: Nat.toDigits 10 style.margin_horizontal ++ ',' ::
      Nat.toDigits 10 style.margin_vertical ++ ",1".toList,
    [], "[Events]".toList, assEventFormat]

/-- the row of an event -/
def assRow (cue : TimelineCue) (text : Text) : Text :=
  "Dialogue: 0,".toList ++ assTime cue.start_ms ++ ',' :: assTime cue.end_ms ++ ',' :: "Default,,0,0,0,,".toList ++
    assEscape text

/-- the rows of the events after one that starts at `previous_start_ms` -/
def assRows : Nat → List TimelineCue → Except CaptionErr (List Text)
  | _, [] => return []
  | previous_start_ms, cue :: cues => do
    require (previous_start_ms ≤ cue.start_ms) (.caption "captions are out of order")
    require (Showable (displayed texts cue)) (.caption "caption text is missing or invalid")
    return assRow cue (displayed texts cue) :: (← assRows cue.start_ms cues)

/-- `serialize_ass` -/
def serializeAss (cues : List TimelineCue) : Except CaptionErr ByteArray := do
  let rows ← assRows texts 0 cues
  return (String.ofList (joinLines (assHeader style ++ rows) ++ ['\n'])).toByteArray

end

/-! ## reading -/

/-- a numeral of ASCII digits -/
def natural (s : Text) : Option Nat := if Digits.ascii.all s = true then some (Digits.ascii.int s) else none

/-- the hundredths of a second that a time stands for -/
def readAssTime (text : Text) : Option Nat :=
  match splitOn ':' text with
  | [h, m, rest] =>
    match splitOn '.' rest with
    | [s, cs] => do return (← natural h) * 360000 + (← natural m) * 6000 + (← natural s) * 100 + (← natural cs)
    | _ => none
  | _ => none

/-- the times of an event's row; other rows have none -/
def readAssRow (row : Text) : Option (Nat × Nat) :=
  if "Dialogue: ".toList.isPrefixOf row then
    match splitOn ',' row with
    | _ :: start :: stop :: _ => do return (← readAssTime start, ← readAssTime stop)
    | _ => none
  else none

/-- the times of the events of a file -/
def assEvents (payload : ByteArray) : List (Nat × Nat) :=
  match payload.utf8Decode? with
  | some text => (splitOn '\n' text.toList).filterMap readAssRow
  | none => []

theorem natural_of_isDigit {s : Text} (h : ∀ c ∈ s, c.isDigit = true) : natural s = some (Nat.ofDigitChars 10 s 0) := by
  unfold natural
  rw [if_pos (Digits.all_of_isDigit h), Digits.int_of_isDigit h]

theorem natural_padded (width n : Nat) : natural (padded width n) = some n := by
  rw [natural_of_isDigit (fun _ => padded_isDigit), ofDigitChars_padded]

theorem toDigits_isDigit (n : Nat) : ∀ c ∈ Nat.toDigits 10 n, c.isDigit = true :=
  fun _ hc => Nat.isDigit_of_mem_toDigits (by decide) (by decide) hc

theorem natural_toDigits (n : Nat) : natural (Nat.toDigits 10 n) = some n := by
  rw [natural_of_isDigit (toDigits_isDigit n), Nat.ofDigitChars_ten_toDigits]

theorem not_mem_toDigits {c : Char} (hc : c.isDigit = false) (n : Nat) : c ∉ Nat.toDigits 10 n := by
  intro h
  rw [toDigits_isDigit n c h] at hc
  cases hc

theorem mem_assTime {c : Char} {ms : Nat} (h : c ∈ assTime ms) : c.isDigit = true ∨ c = ':' ∨ c = '.' := by
  simp only [assTime, List.mem_append, List.mem_cons] at h
  rcases h with ((h | h | h) | h | h) | h | h
  · exact .inl (toDigits_isDigit _ c h)
  · exact .inr (.inl h)
  · exact .inl (padded_isDigit h)
  · exact .inr (.inl h)
  · exact .inl (padded_isDigit h)
  · exact .inr (.inr h)
  · exact .inl (padded_isDigit h)

/-- **A time is read back**, to the hundredth of a second. -/
theorem readAssTime_assTime (ms : Nat) : readAssTime (assTime ms) = some (centiseconds ms) := by
  have hrest : ':' ∉ padded 2 (centiseconds ms % 6000 / 100) ++ '.' :: padded 2 (centiseconds ms % 100) := by
    intro h
    rcases List.mem_append.mp h with h | h
    · exact not_mem_padded (by decide) _ _ h
    · rcases List.mem_cons.mp h with h | h
      · exact absurd h (by decide)
      · exact not_mem_padded (by decide) _ _ h
  have hsplit : splitOn ':' (assTime ms) = [Nat.toDigits 10 (centiseconds ms / 360000),
      padded 2 (centiseconds ms % 360000 / 6000),
      padded 2 (centiseconds ms % 6000 / 100) ++ '.' :: padded 2 (centiseconds ms % 100)] := by
    simp only [assTime, List.append_assoc, List.cons_append]
    rw [splitOn_append (not_mem_toDigits (by decide) _), splitOn_append (not_mem_padded (by decide) _ _),
      splitOn_eq_self hrest]
  unfold readAssTime
  rw [hsplit]
  dsimp only
  rw [splitOn_append (not_mem_padded (by decide) _ _), splitOn_eq_self (not_mem_padded (by decide) _ _)]
  dsimp only
  rw [natural_toDigits, natural_padded, natural_padded, natural_padded]
  show some (_ + _ + _ + _) = some (centiseconds ms)
  congr 1
  omega

/-- an escaped text is one line -/
theorem newline_not_mem_assEscape (text : Text) : '\n' ∉ assEscape text := by
  unfold assEscape
  intro h
  obtain ⟨c, -, hc⟩ := List.mem_flatMap.mp h
  split at hc
  · exact absurd hc (by decide)
  · next hne => exact hne (List.mem_singleton.mp hc).symm

theorem newline_not_mem_assTime (ms : Nat) : '\n' ∉ assTime ms := by
  intro h
  rcases mem_assTime h with h | h | h <;> exact absurd h (by decide)

theorem comma_not_mem_assTime (ms : Nat) : ',' ∉ assTime ms := by
  intro h
  rcases mem_assTime h with h | h | h <;> exact absurd h (by decide)

theorem newline_not_mem_assRow (cue : TimelineCue) (text : Text) : '\n' ∉ assRow cue text := by
  have hopen : '\n' ∉ "Dialogue: 0,".toList := by decide
  have hcomma : '\n' ≠ ',' := by decide
  have hclose : '\n' ∉ "Default,,0,0,0,,".toList := by decide
  have htime := newline_not_mem_assTime
  unfold assRow
  generalize "Dialogue: 0,".toList = opening at hopen ⊢
  generalize "Default,,0,0,0,,".toList = closing at hclose ⊢
  simp only [List.mem_append, List.mem_cons, not_or]
  exact ⟨⟨⟨⟨hopen, htime _⟩, hcomma, htime _⟩, hcomma, hclose⟩, newline_not_mem_assEscape _⟩

/-- an event is read back from its row -/
theorem readAssRow_assRow (cue : TimelineCue) (text : Text) :
    readAssRow (assRow cue text) = some (centiseconds cue.start_ms, centiseconds cue.end_ms) := by
  have hopen : "Dialogue: 0,".toList = "Dialogue: ".toList ++ ['0', ','] := by decide
  have hlayer : "Dialogue: 0,".toList = "Dialogue: 0".toList ++ [','] := by decide
  have hcomma : ',' ∉ "Dialogue: 0".toList := by decide
  have hdialogue : "Dialogue: ".toList.isPrefixOf (assRow cue text) = true := by
    unfold assRow
    rw [hopen]
    simp only [List.append_assoc]
    exact List.isPrefixOf_iff_prefix.mpr ⟨_, rfl⟩
  have hsplit : ∃ rest, splitOn ',' (assRow cue text) =
      "Dialogue: 0".toList :: assTime cue.start_ms :: assTime cue.end_ms :: rest := by
    unfold assRow
    rw [hlayer]
    simp only [List.append_assoc, List.cons_append, List.nil_append]
    rw [splitOn_append hcomma, splitOn_append (comma_not_mem_assTime _), splitOn_append (comma_not_mem_assTime _)]
    exact ⟨_, rfl⟩
  obtain ⟨rest, hsplit⟩ := hsplit
  unfold readAssRow
  rw [if_pos hdialogue, hsplit]
  dsimp only
  rw [readAssTime_assTime, readAssTime_assTime]
  rfl

/-- a line that is no event -/
def Plain (row : Text) : Prop := '\n' ∉ row ∧ row.head? ≠ some 'D'

instance (row : Text) : Decidable (Plain row) := inferInstanceAs (Decidable (_ ∧ _))

theorem Plain.append {a b : Text} (ha : Plain a) (hne : a ≠ []) (hb : '\n' ∉ b) : Plain (a ++ b) := by
  refine ⟨fun h => ?_, ?_⟩
  · rcases List.mem_append.mp h with h | h
    · exact ha.1 h
    · exact hb h
  · rw [List.head?_append_of_ne_nil _ hne]
    exact ha.2

theorem Plain.no_event {row : Text} (h : Plain row) : readAssRow row = none := by
  unfold readAssRow
  rw [if_neg]
  intro hprefix
  obtain ⟨t, ht⟩ := List.isPrefixOf_iff_prefix.mp hprefix
  exact h.2 (ht ▸ rfl)

section
variable {F : Type} {sp : Speeds F} {style : CaptionStyle sp} {texts : Text → Option Text} {cues : List TimelineCue}

theorem assHeader_plain (style : CaptionStyle sp) : ∀ row ∈ assHeader style, Plain row := by
  have hdigits : ∀ n, '\n' ∉ Nat.toDigits 10 n := fun n => not_mem_toDigits (by decide) n
  have hcomma : '\n' ≠ ',' := by decide
  have hfont : '\n' ∉ style.font_name := by
    intro hmem
    exact absurd (List.all_eq_true.mp style.valid_font.2.2 _ hmem) (by decide)
  have hcolours : '\n' ∉ ",&H00FFFFFF,&H000000FF,&H00111111,&H99000000,0,0,0,0,100,100,0,0,1,2,1,2,".toList := by
    rw [String.toList_ofList]
    decide +kernel
  have hstyles : Plain assHeaderFormat := by
    unfold assHeaderFormat
    rw [String.toList_append, String.toList_append, String.toList_ofList, String.toList_ofList, String.toList_ofList]
    decide +kernel
  have hevents : Plain assEventFormat := by
    unfold assEventFormat
    rw [String.toList_ofList]
    decide +kernel
  have hlast : '\n' ∉ ",1".toList := by decide
  have hopen : Plain "Style: Default,".toList ∧ "Style: Default,".toList ≠ [] := by decide
  have hx : Plain "PlayResX: ".toList ∧ "PlayResX: ".toList ≠ [] := by decide
  have hy : Plain "PlayResY: ".toList ∧ "PlayResY: ".toList ≠ [] := by decide
  unfold assHeader
  generalize ",&H00FFFFFF,&H000000FF,&H00111111,&H99000000,0,0,0,0,100,100,0,0,1,2,1,2,".toList = colours at hcolours ⊢
  generalize ",1".toList = last at hlast ⊢
  generalize "Style: Default,".toList = opening at hopen ⊢
  generalize "PlayResX: ".toList = resX at hx ⊢
  generalize "PlayResY: ".toList = resY at hy ⊢
  have hstyle : Plain (opening ++ style.font_name ++ ',' :: Nat.toDigits 10 style.font_size ++ colours ++
      Nat.toDigits 10 style.margin_horizontal ++ ',' :: Nat.toDigits 10 style.margin_horizontal ++ ',' ::
      Nat.toDigits 10 style.margin_vertical ++ last) := by
    simp only [List.append_assoc, List.cons_append]
    refine hopen.1.append hopen.2 ?_
    simp only [List.mem_append, List.mem_cons, not_or]
    exact ⟨hfont, hcomma, hdigits _, hcolours, hdigits _, hcomma, hdigits _, hcomma, hdigits _, hlast⟩
  simp only [List.forall_mem_cons]
  exact ⟨by decide, by decide, hx.1.append hx.2 (hdigits _), hy.1.append hy.2 (hdigits _), by decide, by decide,
    by decide, hstyles, hstyle, by decide, by decide, hevents, fun row h => (nomatch h)⟩

/-- the rows of captions in order, with texts to show -/
theorem assRows_eq_ok {previous : Nat} {rows : List Text} : assRows texts previous cues = .ok rows ↔
    (∀ c ∈ cues.head?, previous ≤ c.start_ms) ∧ cues.IsChain (fun a b => a.start_ms ≤ b.start_ms) ∧
      (∀ c ∈ cues, Showable (displayed texts c)) ∧ rows = cues.map (fun c => assRow c (displayed texts c)) := by
  induction cues generalizing previous rows with
  | nil =>
    simp only [assRows, pure_eq_ok]
    exact ⟨fun h => ⟨fun c hc => absurd hc (Option.not_mem_none c), .nil, fun _ hc => absurd hc List.not_mem_nil, h.symm⟩,
      fun h => h.2.2.2.symm⟩
  | cons cue cues ih =>
    simp only [assRows, bind_eq_ok, require_eq_ok, pure_eq_ok, ih, List.isChain_cons, List.forall_mem_cons]
    constructor
    · rintro ⟨_, horder, _, hshow, rest, ⟨hhead, hchain, htexts, rfl⟩, rfl⟩
      refine ⟨?_, ⟨hhead, hchain⟩, ⟨hshow, htexts⟩, rfl⟩
      intro c hc
      obtain rfl := Option.some.inj hc
      exact horder
    · rintro ⟨hprevious, ⟨hhead, hchain⟩, ⟨hshow, htexts⟩, rfl⟩
      exact ⟨⟨⟩, hprevious cue rfl, ⟨⟩, hshow, _, ⟨hhead, hchain, htexts, rfl⟩, rfl⟩

/-- **One event for every caption**, with its times to the hundredth of a second. -/
theorem assEvents_serialize {payload : ByteArray} (h : serializeAss style texts cues = .ok payload) :
    assEvents payload = cues.map (fun c => (centiseconds c.start_ms, centiseconds c.end_ms)) := by
  simp only [serializeAss, bind_eq_ok, pure_eq_ok] at h
  obtain ⟨rows, hrows, rfl⟩ := h
  obtain ⟨-, -, -, rfl⟩ := assRows_eq_ok.mp hrows
  have hheader := assHeader_plain style
  have hne : assHeader style ≠ [] := List.cons_ne_nil _ _
  generalize assHeader style = header at hheader hne ⊢
  have hlines : joinLines (header ++ cues.map (fun c => assRow c (displayed texts c))) ++ ['\n'] =
      joinLines (header ++ cues.map (fun c => assRow c (displayed texts c)) ++ [[]]) := by
    rw [joinLines_append (fun h => hne (List.append_eq_nil_iff.mp h).1) (List.cons_ne_nil [] [])]
    rfl
  have hsplit : splitOn '\n' (joinLines (header ++ cues.map (fun c => assRow c (displayed texts c)) ++ [[]])) =
      header ++ cues.map (fun c => assRow c (displayed texts c)) ++ [[]] := by
    refine splitOn_joinLines (fun h => List.cons_ne_nil _ _ (List.append_eq_nil_iff.mp h).2) (fun row hrow => ?_)
    rcases List.mem_append.mp hrow with hrow | hrow
    · rcases List.mem_append.mp hrow with hrow | hrow
      · exact (hheader row hrow).1
      · obtain ⟨c, -, rfl⟩ := List.mem_map.mp hrow
        exact newline_not_mem_assRow _ _
    · rw [List.mem_singleton.mp hrow]
      exact List.not_mem_nil
  have hnone : header.filterMap readAssRow = [] :=
    List.filterMap_eq_nil_iff.mpr (fun row hrow => (hheader row hrow).no_event)
  have hevents : (cues.map (fun c => assRow c (displayed texts c))).filterMap readAssRow =
      cues.map (fun c => (centiseconds c.start_ms, centiseconds c.end_ms)) := by
    rw [List.filterMap_map, ← List.filterMap_eq_map]
    exact List.filterMap_congr (fun c _ => readAssRow_assRow _ _)
  unfold assEvents
  rw [utf8Decode_ofList, hlines]
  show ((splitOn '\n' (joinLines _)).filterMap readAssRow) = _
  rw [hsplit, List.filterMap_append, List.filterMap_append, hnone, hevents]
  exact List.append_nil _

/-! ## what holding keeps -/

/-- each caption ends before the next one starts -/
def Apart (cues : List TimelineCue) : Prop := cues.IsChain (fun a b => a.end_ms ≤ b.start_ms)

instance (cues : List TimelineCue) : Decidable (Apart cues) := inferInstanceAs (Decidable (List.IsChain _ _))

/-- a caption as it is held: all but its end is kept -/
structure Kept (cue held : TimelineCue) : Prop where
  id : held.id = cue.id
  order : held.order = cue.order
  start : held.start_ms = cue.start_ms
  stop : cue.end_ms ≤ held.end_ms
  text : held.source_text = cue.source_text
  language : held.source_language = cue.source_language
  speaker : held.speaker_id = cue.speaker_id

/-- a caption with the gap after it: an end that moved is within the limit and leaves the gap -/
structure Gap (style : CaptionStyle sp) (limit_ms : Nat) (cue held : TimelineCue) (rest : List TimelineCue) : Prop where
  kept : Kept cue held
  limit : cue.end_ms < held.end_ms → held.end_ms ≤ limit_ms
  next : cue.end_ms < held.end_ms → ∀ n ∈ rest.head?, held.end_ms + style.min_gap_ms ≤ n.start_ms

/-- captions as they are held -/
inductive Held (style : CaptionStyle sp) (limit_ms : Nat) : List TimelineCue → List TimelineCue → Prop
  | nil : Held style limit_ms [] []
  | cons {cue held : TimelineCue} {rest holds : List TimelineCue} (hgap : Gap style limit_ms cue held rest)
      (hrest : Held style limit_ms rest holds) : Held style limit_ms (cue :: rest) (held :: holds)

/-- the bounds of the end of a caption -/
theorem heldEnd_bounds (cue : TimelineCue) (readable_ms following limit_ms : Nat) :
    cue.end_ms ≤ heldEnd style cue readable_ms following limit_ms ∧
      (cue.end_ms < heldEnd style cue readable_ms following limit_ms →
        heldEnd style cue readable_ms following limit_ms ≤ limit_ms ∧
          heldEnd style cue readable_ms following limit_ms + style.min_gap_ms ≤ following) := by
  unfold heldEnd
  dsimp only
  omega

/-- a caption that is shown longer -/
def TimelineCue.lasting (cue : TimelineCue) (stop : Nat) (h : cue.end_ms ≤ stop) : TimelineCue :=
  { cue with end_ms := stop, valid_times := Nat.lt_of_lt_of_le cue.valid_times h }

/-- one turn gives the caption up to the end it is held to -/
theorem holdCue_eq_ok {cue held : TimelineCue} {following limit_ms : Nat} :
    holdCue style texts cue following limit_ms = .ok held ↔
      ∃ r, sp.readable style.target_reading_speed (characters texts cue) = some r ∧
        held = cue.lasting (heldEnd style cue r following limit_ms) (heldEnd_bounds cue r following limit_ms).1 := by
  simp only [holdCue, bind_eq_ok, fetch_eq_ok]
  refine exists_congr (fun r => and_congr_right (fun _ => ?_))
  have hle := (@heldEnd_bounds F sp style cue r following limit_ms).1
  have htimes := cue.valid_times
  split
  · next hsame =>
    rw [pure_eq_ok]
    have hcue : cue.lasting (heldEnd style cue r following limit_ms) hle = cue := by
      unfold TimelineCue.lasting
      congr 1
    rw [hcue]
    exact eq_comm
  · rw [mapError_eq_ok]
    unfold TimelineCue.make
    rw [dif_pos cue.valid_id, dif_pos (by omega), dif_pos cue.valid_text, dif_pos cue.valid_speaker]
    exact ⟨fun h => (Except.ok.inj h).symm, fun h => congrArg _ h.symm⟩

theorem holdCue_gap {cue held : TimelineCue} {rest : List TimelineCue} {limit_ms : Nat}
    (h : holdCue style texts cue (followingStart rest limit_ms) limit_ms = .ok held) :
    Gap style limit_ms cue held rest := by
  obtain ⟨r, -, rfl⟩ := holdCue_eq_ok.mp h
  obtain ⟨hle, hmoved⟩ := @heldEnd_bounds F sp style cue r (followingStart rest limit_ms) limit_ms
  refine ⟨⟨rfl, rfl, rfl, hle, rfl, rfl, rfl⟩, fun h => (hmoved h).1, fun h n hn => ?_⟩
  cases rest with
  | nil => cases hn
  | cons m rest =>
    obtain rfl := Option.some.inj hn
    exact (hmoved h).2

/-- captions are held when each of their reading times is a number -/
theorem holdFrom_total (limit_ms : Nat)
    (h : ∀ c ∈ cues, (sp.readable style.target_reading_speed (characters texts c)).isSome = true) :
    ∃ held, holdFrom style texts limit_ms cues = .ok held ∧ Held style limit_ms cues held := by
  induction cues with
  | nil => exact ⟨[], rfl, .nil⟩
  | cons cue rest ih =>
    rw [List.forall_mem_cons] at h
    obtain ⟨holds, hrest, hheld⟩ := ih h.2
    obtain ⟨r, hr⟩ := Option.isSome_iff_exists.mp h.1
    have hcue : holdCue style texts cue (followingStart rest limit_ms) limit_ms = .ok _ :=
      holdCue_eq_ok.mpr ⟨r, hr, rfl⟩
    refine ⟨_ :: holds, ?_, .cons (holdCue_gap hcue) hheld⟩
    rw [holdFrom, hcue, ok_bind, hrest]
    rfl

namespace Held

variable {limit_ms : Nat} {held : List TimelineCue}

/-- the first of held captions starts with the first caption -/
theorem head? (h : Held style limit_ms cues held) : ∀ d ∈ held.head?, ∃ c ∈ cues.head?, d.start_ms = c.start_ms := by
  cases h with
  | nil => exact nofun
  | cons hgap hrest =>
    intro d hd
    obtain rfl := Option.some.inj hd
    exact ⟨_, rfl, hgap.kept.start⟩

/-- **Held captions keep apart.** -/
theorem apart (h : Held style limit_ms cues held) (hapart : Apart cues) : Apart held := by
  induction h with
  | nil => exact .nil
  | @cons cue held rest holds hgap hrest ih =>
    obtain ⟨hnext, hchain⟩ := List.isChain_cons.mp hapart
    refine List.isChain_cons.mpr ⟨fun d hd => ?_, ih hchain⟩
    obtain ⟨c, hc, hstart⟩ := hrest.head? d hd
    rw [hstart]
    rcases Nat.eq_or_lt_of_le hgap.kept.stop with heq | hlt
    · rw [← heq]
      exact hnext c hc
    · have := hgap.next hlt c hc
      omega

/-- held captions show the texts of the captions -/
theorem displayed (h : Held style limit_ms cues held) :
    held.map (OpenFlame.Editing.displayed texts) = cues.map (OpenFlame.Editing.displayed texts) := by
  induction h with
  | nil => rfl
  | cons hgap hrest ih =>
    rw [List.map_cons, List.map_cons, ih]
    congr 1
    unfold OpenFlame.Editing.displayed
    rw [hgap.kept.id, hgap.kept.text]

end Held

/-- captions that keep apart are in order -/
theorem Apart.ordered (h : Apart cues) : cues.IsChain (fun a b => a.start_ms ≤ b.start_ms) :=
  h.imp (fun a _ hab => Nat.le_trans (Nat.le_of_lt a.valid_times) hab)

/-- a written end is after its start iff the caption lasts into the next hundredth -/
theorem centiseconds_lt_iff (start stop : Nat) (h : start < stop) :
    centiseconds start < centiseconds stop ↔ 10 ≤ (start + 5) % 10 + (stop - start) := by
  unfold centiseconds
  omega

/-- what is written are the captions in order, iff each has a text to show -/
theorem serializeAss_total (hordered : cues.IsChain (fun a b => a.start_ms ≤ b.start_ms)) :
    (∃ payload, serializeAss style texts cues = .ok payload) ↔ ∀ c ∈ cues, Showable (displayed texts c) := by
  simp only [serializeAss, bind_eq_ok, pure_eq_ok, assRows_eq_ok]
  constructor
  · rintro ⟨_, _, ⟨-, -, hshow, -⟩, -⟩
    exact hshow
  · intro hshow
    exact ⟨_, _, ⟨fun _ _ => Nat.zero_le _, hordered, hshow, rfl⟩, rfl⟩

end

/-- **Captions are held without an overlap**, and written with times that never run backwards: a caption is on the
screen for a hundredth of a second at least iff it is held into the next one. -/
theorem holdCaptions_held {F : Type} {sp : Speeds F} (style : CaptionStyle sp) (texts : Text → Option Text)
    (cues : List TimelineCue) (limit_ms : Int) (hlimit : 0 ≤ limit_ms) (hapart : Apart cues)
    (hfinite : ∀ c ∈ cues, (sp.readable style.target_reading_speed (characters texts c)).isSome = true) :
    ∃ held, holdCaptions style texts cues limit_ms = .ok held ∧ Held style limit_ms.toNat cues held ∧ Apart held ∧
      ((∃ payload, serializeAss style texts held = .ok payload) ↔ ∀ c ∈ cues, Showable (displayed texts c)) ∧
      ∀ payload, serializeAss style texts held = .ok payload →
        assEvents payload = held.map (fun c => (centiseconds c.start_ms, centiseconds c.end_ms)) ∧
        ∀ c ∈ held, centiseconds c.start_ms ≤ centiseconds c.end_ms ∧
          (centiseconds c.start_ms < centiseconds c.end_ms ↔ 10 ≤ (c.start_ms + 5) % 10 + (c.end_ms - c.start_ms)) := by
  obtain ⟨held, hhold, hheld⟩ := holdFrom_total limit_ms.toNat hfinite
  have hcaptions : holdCaptions style texts cues limit_ms = .ok held := by
    unfold holdCaptions
    rw [require_pos hlimit, ok_bind, hhold]
  have hshown : (∀ c ∈ held, Showable (displayed texts c)) ↔ ∀ c ∈ cues, Showable (displayed texts c) := by
    rw [← List.forall_mem_map (f := displayed texts), hheld.displayed, List.forall_mem_map]
  have happart := hheld.apart hapart
  refine ⟨held, hcaptions, hheld, happart, (serializeAss_total happart.ordered).trans hshown, fun payload h => ?_⟩
  refine ⟨assEvents_serialize h, fun c _ => ⟨?_, centiseconds_lt_iff _ _ c.valid_times⟩⟩
  have htimes := c.valid_times
  unfold centiseconds
  omega

/-! ## runs -/

/-- whole speeds, whose quotients are rounded once -/
def wholeSpeeds : Speeds Nat where
  allowed speed := 0 < speed && speed ≤ 1000
  readable speed n := some ((2000 * n + speed) / (2 * speed))

/-- `CHINESE_CAPTION_STYLE` -/
def chineseCaptionStyle : CaptionStyle wholeSpeeds where
  font_name := "Microsoft YaHei".toList
  font_size := 48
  play_res_x := 1920
  play_res_y := 1080
  margin_horizontal := 60
  margin_vertical := 48
  max_line_chars := 22
  min_comma_run := 6
  max_reading_speed := 12
  target_reading_speed := 9
  lead_out_ms := 250
  min_duration_ms := 1000
  min_gap_ms := 100
  valid_font := by decide
  valid_sizes := by decide
  valid_margins := by decide
  valid_speeds := by decide
  valid_times := by decide

/-- a caption of one letter -/
def letterCue (id : Char) (order start stop : Nat) (h : start < stop) : TimelineCue where
  id := [id]
  order := order
  start_ms := start
  end_ms := stop
  source_text := ['a']
  source_language := "zh".toList
  speaker_id := none
  valid_id := ⟨List.cons_ne_nil _ _, Nat.le_of_ble_eq_true rfl⟩
  valid_times := h
  valid_text := by decide
  valid_speaker := valid_noSpeaker

/-- two captions that touch, of a millisecond each -/
def touchingCues : List TimelineCue := [letterCue 'a' 0 0 1 (by decide), letterCue 'b' 1 1 2 (by decide)]

/-- the first of two captions is held to the gap before the second one -/
theorem holdCaptions_held_example : ∃ held,
    holdCaptions chineseCaptionStyle (fun _ => none)
      [letterCue 'a' 0 0 200 (by decide), letterCue 'b' 1 900 1000 (by decide)] 1500 = .ok held ∧ Apart held ∧
    held.map (fun c => (c.start_ms, c.end_ms)) = [(0, 800), (900, 1400)] := by
  obtain ⟨held, hhold, -, hapart, -⟩ := holdCaptions_held chineseCaptionStyle (fun _ => none)
    [letterCue 'a' 0 0 200 (by decide), letterCue 'b' 1 900 1000 (by decide)] 1500 (by decide) (by decide)
    (by decide)
  refine ⟨held, hhold, hapart, ?_⟩
  have htimes : (holdCaptions chineseCaptionStyle (fun _ => none)
      [letterCue 'a' 0 0 200 (by decide), letterCue 'b' 1 900 1000 (by decide)] 1500).toOption.map
      (List.map (fun c => (c.start_ms, c.end_ms))) = some [(0, 800), (900, 1400)] := by decide +kernel
  rw [hhold] at htimes
  exact Option.some.inj htimes

/-- **Captions of a millisecond are never shown**: the file gives them no time. -/
theorem touching_captions_vanish : Apart touchingCues ∧ (∀ c ∈ touchingCues, c.end_ms ≤ 2) ∧
    ∃ held payload, holdCaptions chineseCaptionStyle (fun _ => none) touchingCues 2 = .ok held ∧
      serializeAss chineseCaptionStyle (fun _ => none) held = .ok payload ∧ assEvents payload = [(0, 0), (0, 0)] := by
  refine ⟨by decide, by decide, ?_⟩
  have hhold : holdCaptions chineseCaptionStyle (fun _ => none) touchingCues 2 = .ok touchingCues := by decide +kernel
  have hordered : touchingCues.IsChain (fun a b => a.start_ms ≤ b.start_ms) := by decide
  obtain ⟨payload, hpayload⟩ := (@serializeAss_total _ _ chineseCaptionStyle (fun _ => none) _ hordered).mpr (by decide)
  exact ⟨_, payload, hhold, hpayload, (assEvents_serialize hpayload).trans rfl⟩

end OpenFlame.Editing
