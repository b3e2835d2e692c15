import OpenFlame.Base.Trim
import OpenFlame.Editing.Hold

/-!
# The text of a caption on the screen

`normalizeCaptionText`       sentence marks become at most one comma a line
`wrapCaptionText`            lines of at most `max_line_chars` characters
`captionDisplayText`         both
`strayCaptionPunctuation`    the marks that the style does not allow
`checkCaptions`              the issues of the displayed captions

`Whole before s after`    every mark of `s` is a comma or inside a token, between its neighbours
`Unbroken max line`       the wrapping of a line cuts no token at its mark

* `wrapFrom_iff`    **the wrapped lines of a whole line are whole iff it is unbroken**;
* `wrapLine_short`, `wrapLine_part`, `wrapLine_keeps`   they fit, and are the line without commas.
-/

set_option linter.all false

namespace OpenFlame.Editing
open Guard Text

def CAPTION_COMMA : Char := '，'
def CAPTION_BREAKS : Text := "。．｡，、；：！？…‥—–～〜".toList
def CAPTION_ASCII_BREAKS : Text := ".,;:!?".toList
def CAPTION_DROPPED : Text := "“”‘’＂「」『』《》〈〉（）()【】〔〕｛｝".toList
def WRAP_BREAKS : Text := "。！？；：，、,.!?;:".toList
def MAX_CAPTION_ISSUES : Nat := 5000

/-! ## marks -/

/-- `isascii() and isalnum()` -/
def isTokenChar (c : Char) : Bool := ('a' ≤ c && c ≤ 'z') || ('A' ≤ c && c ≤ 'Z') || ('0' ≤ c && c ≤ '9')

/-- `_intra_token` -/
def intraToken (before after : Option Char) : Bool := before.any isTokenChar && after.any isTokenChar

/-- `_is_caption_break` -/
def isCaptionBreak (before : Option Char) (c : Char) (after : Option Char) : Bool :=
  CAPTION_BREAKS.contains c || (CAPTION_ASCII_BREAKS.contains c && !intraToken before after)

/-- the marks that `stray_caption_punctuation` finds besides the dropped ones -/
def strayBreaks (before : Option Char) : Text → Text
  | [] => []
  | c :: cs =>
    if c ≠ CAPTION_COMMA ∧ isCaptionBreak before c cs.head? = true then c :: strayBreaks (some c) cs
    else strayBreaks (some c) cs

/-- `stray_caption_punctuation` -/
def strayCaptionPunctuation (text : Text) : Text :=
  (text.filter CAPTION_DROPPED.contains ++ strayBreaks none text).eraseDups.mergeSort (fun a b => decide (a ≤ b))

/-! ## normalization -/

/-- a line cut at its breaks -/
def cutBreaks (before : Option Char) : Text → List Text
  | [] => [[]]
  | c :: cs =>
    if isCaptionBreak before c cs.head? = true then [] :: cutBreaks (some c) cs
    else consHead [c] (cutBreaks (some c) cs)

/-- `pieces` -/
def captionPieces (cleaned : Text) : List Text := ((cutBreaks none cleaned).map strip).filter (· ≠ [])

/-- the loop over `pieces[1:]` -/
def joinPieces (min_comma_run : Nat) (result : Text) : List Text → Text
  | [] => result
  | piece :: rest =>
    let since := (result.reverse.takeWhile (· != CAPTION_COMMA)).length
    let tail := ((piece :: rest).map List.length).sum
    if CAPTION_COMMA ∉ result ∧ min_comma_run ≤ since ∧ min_comma_run ≤ tail then
      joinPieces min_comma_run (result ++ CAPTION_COMMA :: piece) rest
    else if result.getLast?.any isTokenChar && piece.head?.any isTokenChar then
      joinPieces min_comma_run (result ++ ' ' :: piece) rest
    else joinPieces min_comma_run (result ++ piece) rest

def normalizeLine (min_comma_run : Nat) (line : Text) : Text :=
  match captionPieces (line.filter (fun c => !CAPTION_DROPPED.contains c)) with
  | [] => []
  | piece :: rest => joinPieces min_comma_run piece rest

/-- `normalized`, before the fallback -/
def normalizedLines (min_comma_run : Nat) (text : Text) : Text :=
  Trim.trim (· == '\n') (joinLines ((splitOn '\n' (unixLines text)).map (normalizeLine min_comma_run)))

/-- `normalize_caption_text` -/
def normalizeCaptionText (text : Text) (min_comma_run : Nat) : Text :=
  let normalized := normalizedLines min_comma_run text
  if isBlank normalized then text else normalized

/-! ## wrapping -/

/-- the last position up to `position` behind a mark of `_WRAP_BREAKS` -/
def lastBreak (remaining : Text) : Nat → Option Nat
  | 0 => none
  | position + 1 =>
    if (remaining[position]?).any WRAP_BREAKS.contains then some (position + 1) else lastBreak remaining position

/-- `piece` without the comma it ends with -/
def dropComma (piece : Text) : Text := if piece.getLast? = some CAPTION_COMMA then piece.dropLast else piece

/-- the loop over one source line, and the rest behind it; a round takes at least one character -/
def wrapFrom (max_line_chars : Nat) : Nat → Text → List Text → List Text
  | 0, remaining, wrapped => if remaining ≠ [] ∨ wrapped = [] then wrapped ++ [remaining] else wrapped
  | fuel + 1, remaining, wrapped =>
    if max_line_chars < remaining.length then
      let cut := (lastBreak remaining max_line_chars).getD max_line_chars
      let piece := dropComma (remaining.take cut)
      wrapFrom max_line_chars fuel ((remaining.drop cut).dropWhile (· == CAPTION_COMMA))
        (if piece ≠ [] then wrapped ++ [piece] else wrapped)
    else if remaining ≠ [] ∨ wrapped = [] then wrapped ++ [remaining]
    else wrapped

def wrapLine (max_line_chars : Nat) (source_line : Text) : List Text :=
  wrapFrom max_line_chars source_line.length source_line []

/-- `wrap_caption_text` -/
def wrapCaptionText (text : Text) (max_line_chars : Nat) : Text :=
  joinLines ((splitOn '\n' (unixLines text)).flatMap (wrapLine max_line_chars))

section
variable {F : Type} {sp : Speeds F}

/-- `caption_display_text` -/
def captionDisplayText (text : Text) (style : CaptionStyle sp) : Text :=
  let normalized := normalizeCaptionText text style.min_comma_run
  let wrapped := wrapCaptionText normalized style.max_line_chars
  if MAX_CUE_TEXT < wrapped.length then
    if normalized.length ≤ MAX_CUE_TEXT then normalized else text
  else wrapped

/-! ## the checks -/

structure CaptionIssue where
  cue_id : Text
  order : Nat
  code : String
  detail : String

/-- what the checks make of a reading speed above `max_reading_speed`: the detail they record -/
abbrev FastReading (F : Type) : Type := F → Nat → Nat → Option String

/-- the issues of one caption -/
def captionIssues (fast : FastReading F) (style : CaptionStyle sp) (previous_end_ms : Option Nat) (cue : TimelineCue)
    (displayed : Text) : List CaptionIssue :=
  let record (code detail : String) : CaptionIssue := ⟨cue.id, cue.order, code, detail⟩
  let overlap := match previous_end_ms with
    | some e =>
      if cue.start_ms < e then
        [record "caption_overlaps_previous"
          ("starts " ++ toString (e - cue.start_ms) ++ " ms before the previous caption ends")]
      else []
    | none => []
  if isBlank displayed then overlap ++ [record "caption_empty" "caption has no text to display"]
  else
    let lines := splitOn '\n' displayed
    let longest := (lines.map List.length).foldl max 0
    let characters := displayed.countP (· != '\n')
    let stray := strayCaptionPunctuation displayed
    let commas := (lines.map (List.count CAPTION_COMMA)).foldl max 0
    overlap ++
      (if style.max_line_chars < longest then
        [record "caption_line_too_long" ("line is " ++ toString longest ++ " characters after wrapping, over " ++
          toString style.max_line_chars)]
      else []) ++
      (match fast style.max_reading_speed characters (cue.end_ms - cue.start_ms) with
        | some detail => [record "caption_reading_speed_high" detail]
        | none => []) ++
      (if stray ≠ [] then [record "caption_punctuation_not_allowed" ("captions use no " ++ String.ofList stray)] else []) ++
      (if 1 < commas then
        [record "caption_multiple_commas" (toString commas ++ " commas on one caption line")]
      else [])

/-- the loop of `check_captions` -/
def issuesFrom (fast : FastReading F) (style : CaptionStyle sp) (texts : Text → Option Text) (previous_end_ms : Option Nat) :
    List TimelineCue → List CaptionIssue
  | [] => []
  | cue :: cues => captionIssues fast style previous_end_ms cue (displayed texts cue) ++
      issuesFrom fast style texts (some cue.end_ms) cues

/-- the issues of `check_captions`, as many as it records -/
def checkCaptions (fast : FastReading F) (style : CaptionStyle sp) (texts : Text → Option Text) (cues : List TimelineCue) :
    List CaptionIssue :=
  (issuesFrom fast style texts none cues).take MAX_CAPTION_ISSUES

end

/-! ## statements -/

/-- every break of a text is a comma, when the text stands between two characters -/
def Whole (before : Option Char) : Text → Option Char → Prop
  | [], _ => True
  | c :: cs, after => (isCaptionBreak before c (cs.head?.or after) = true → c = CAPTION_COMMA) ∧ Whole (some c) cs after

def isMark (c : Char) : Bool := CAPTION_ASCII_BREAKS.contains c

/-- a line with one comma at most, whose other marks are inside tokens -/
structure PlainLine (line : Text) : Prop where
  whole : Whole none line none
  commas : line.count CAPTION_COMMA ≤ 1
  kept : ∀ c ∈ line, CAPTION_DROPPED.contains c = false

/-- wrapping cuts no token at its mark: a line that is too long is cut at its comma, with no mark between the comma and
the limit; or else at the limit, with no mark before it or right behind it -/
inductive Unbroken (max : Nat) : Text → Prop where
  | fits (line : Text) (h : line.length ≤ max) : Unbroken max line
  | comma (a b : Text) (hlong : max < (a ++ CAPTION_COMMA :: b).length) (ha : CAPTION_COMMA ∉ a) (hin : a.length < max)
      (hmarks : ∀ c ∈ b.take (max - (a.length + 1)), isMark c = false)
      (hb : Unbroken max b) : Unbroken max (a ++ CAPTION_COMMA :: b)
  | limit (a b : Text) (hlen : a.length = max) (hlong : b ≠ []) (ha : CAPTION_COMMA ∉ a)
      (hmarks : ∀ c ∈ a, isMark c = false) (hnext : ∀ c ∈ b.head?, isMark c = false)
      (hb : Unbroken max (b.dropWhile (· == CAPTION_COMMA))) : Unbroken max (a ++ b)

/-- what the checks ask of the lines of a caption -/
structure Styled (max_line_chars : Nat) (displayed : Text) : Prop where
  short : ∀ line ∈ splitOn '\n' displayed, line.length ≤ max_line_chars
  commas : ∀ line ∈ splitOn '\n' displayed, line.count CAPTION_COMMA ≤ 1
  stray : strayCaptionPunctuation displayed = []

/-! ## whole texts -/

section
variable {before after : Option Char} {s t : Text}

theorem whole_cons (before after : Option Char) (c : Char) (cs : Text) : Whole before (c :: cs) after ↔
    (isCaptionBreak before c (cs.head?.or after) = true → c = CAPTION_COMMA) ∧ Whole (some c) cs after := Iff.rfl

theorem whole_append (before after : Option Char) (s t : Text) :
    Whole before (s ++ t) after ↔ Whole before s (t.head?.or after) ∧ Whole (s.getLast?.or before) t after := by
  induction s generalizing before with
  | nil => exact ⟨fun h => ⟨trivial, h⟩, fun h => h.2⟩
  | cons c s ih =>
    have hhead : (s ++ t).head?.or after = s.head?.or (t.head?.or after) := by
      cases s with
      | nil => rfl
      | cons d s => rfl
    have hlast : (c :: s).getLast?.or before = s.getLast?.or (some c) := by
      rw [List.getLast?_cons]
      cases s.getLast? with
      | none => rfl
      | some d => rfl
    rw [List.cons_append, whole_cons, whole_cons, hhead, ih, hlast, and_assoc]

theorem not_mark_comma : isMark CAPTION_COMMA = false := by decide

/-- a mark whose token ends before it, or starts behind it, is a break -/
theorem isCaptionBreak_edge {c : Char} (h : isMark c = true) (hedge : intraToken before after = false) :
    isCaptionBreak before c after = true ∧ c ≠ CAPTION_COMMA := by
  constructor
  · unfold isCaptionBreak
    rw [hedge]
    unfold isMark at h
    rw [h, Bool.not_false, Bool.and_true, Bool.or_true]
  · rintro rfl
    rw [not_mark_comma] at h
    cases h

/-- what is no mark does not see its neighbours -/
theorem isCaptionBreak_plain {c : Char} (h : isMark c = false) (before after before' after' : Option Char) :
    isCaptionBreak before c after = isCaptionBreak before' c after' := by
  unfold isMark at h
  unfold isCaptionBreak
  rw [h, Bool.false_and, Bool.false_and]

theorem intraToken_left (after : Option Char) : intraToken none after = false := rfl

theorem intraToken_right (before : Option Char) : intraToken before none = false := by
  unfold intraToken
  rw [Option.any_none, Bool.and_false]

/-- a whole text at the start of a line -/
theorem whole_start (h : Whole before s after) : Whole none s after ↔ ∀ c ∈ s.head?, isMark c = false := by
  cases s with
  | nil => exact iff_of_true trivial nofun
  | cons c cs =>
    constructor
    · rintro ⟨hc, -⟩ d hd
      obtain rfl : c = d := Option.some.inj hd
      by_contra hmark
      obtain ⟨hbreak, hne⟩ := isCaptionBreak_edge (Bool.not_eq_false _ ▸ hmark)
        (intraToken_left (cs.head?.or after))
      exact hne (hc hbreak)
    · intro hplain
      refine ⟨fun hbreak => h.1 ?_, h.2⟩
      rwa [isCaptionBreak_plain (hplain c rfl) before _ none (cs.head?.or after)]

/-- a whole text at the end of a line -/
theorem whole_end (h : Whole before s after) : Whole before s none ↔ ∀ c ∈ s.getLast?, isMark c = false := by
  rcases List.eq_nil_or_concat s with rfl | ⟨t, c, rfl⟩
  · exact iff_of_true trivial nofun
  · rw [List.concat_eq_append] at h ⊢
    rw [whole_append] at h ⊢
    have hlast : (t ++ [c]).getLast? = some c := List.getLast?_concat
    rw [hlast]
    constructor
    · rintro ⟨-, hc, -⟩ d hd
      obtain rfl : c = d := Option.some.inj hd
      by_contra hmark
      obtain ⟨hbreak, hne⟩ := isCaptionBreak_edge (Bool.not_eq_false _ ▸ hmark) (intraToken_right (t.getLast?.or before))
      exact hne (hc hbreak)
    · intro hplain
      refine ⟨h.1, fun hbreak => h.2.1 ?_, trivial⟩
      rwa [isCaptionBreak_plain (hplain c rfl) _ _ (t.getLast?.or before) (([] : Text).head?.or none)]

/-- a part of a whole text is a whole line iff it neither starts nor ends with a mark -/
theorem whole_part (h : Whole before s after) : Whole none s none ↔
    (∀ c ∈ s.head?, isMark c = false) ∧ ∀ c ∈ s.getLast?, isMark c = false := by
  by_cases hstart : ∀ c ∈ s.head?, isMark c = false
  · have hnone := (whole_start h).mpr hstart
    rw [whole_end hnone]
    exact ⟨fun hend => ⟨hstart, hend⟩, fun hboth => hboth.2⟩
  · refine iff_of_false (fun hwhole => hstart ?_) (fun hboth => hstart hboth.1)
    exact (whole_start hwhole).mp hwhole

theorem isCaptionBreak_comma_right {c : Char} (h : isMark c = true) : isCaptionBreak before c (some CAPTION_COMMA) = true :=
  (isCaptionBreak_edge h (by unfold intraToken; exact Bool.and_false _)).1

/-- no mark is next to a comma -/
theorem whole_comma_end (h : Whole before s (some CAPTION_COMMA)) : ∀ c ∈ s.getLast?, isMark c = false := by
  rcases List.eq_nil_or_concat s with rfl | ⟨t, c, rfl⟩
  · exact nofun
  · rw [List.concat_eq_append] at h ⊢
    rw [whole_append] at h
    rw [List.getLast?_concat]
    intro d hd
    obtain rfl : c = d := Option.some.inj hd
    by_contra hmark
    rw [Bool.not_eq_false] at hmark
    obtain rfl := h.2.1 (isCaptionBreak_comma_right hmark)
    rw [not_mark_comma] at hmark
    cases hmark

theorem whole_comma_start (h : Whole (some CAPTION_COMMA) s after) : ∀ c ∈ s.head?, isMark c = false := by
  cases s with
  | nil => exact nofun
  | cons c cs =>
    intro d hd
    obtain rfl : c = d := Option.some.inj hd
    by_contra hmark
    rw [Bool.not_eq_false] at hmark
    have hedge : intraToken (some CAPTION_COMMA) (cs.head?.or after) = false := rfl
    obtain ⟨hbreak, hne⟩ := isCaptionBreak_edge hmark hedge
    exact hne (h.1 hbreak)

/-- of the characters that end a line, a whole text has commas and marks inside tokens -/
theorem wrapBreak_whole (h : Whole before s after) {c : Char} (hc : c ∈ s) (hwrap : WRAP_BREAKS.contains c = true) :
    c = CAPTION_COMMA ∨ isMark c = true := by
  have hall : ∀ d ∈ WRAP_BREAKS, d = CAPTION_COMMA ∨ isMark d = true ∨ CAPTION_BREAKS.contains d = true :=
    Text.forall_of_all (by decide)
  rcases hall c (List.contains_iff_mem.mp hwrap) with hcomma | hmark | hbreak
  · exact .inl hcomma
  · exact .inr hmark
  · left
    obtain ⟨a, b, rfl⟩ := List.append_of_mem hc
    rw [whole_append] at h
    refine h.2.1 ?_
    unfold isCaptionBreak
    rw [hbreak, Bool.true_or]

theorem wrapBreak_comma : WRAP_BREAKS.contains CAPTION_COMMA = true := by decide

theorem wrapBreak_mark {c : Char} (h : isMark c = true) : WRAP_BREAKS.contains c = true := by
  have hall : ∀ d ∈ CAPTION_ASCII_BREAKS, WRAP_BREAKS.contains d = true := Text.forall_of_all (by decide)
  exact hall c (List.contains_iff_mem.mp h)

/-! ## where a line is cut -/

/-- the last mark of the first `n` characters, if there is one -/
theorem lastBreak_spec (r : Text) (n : Nat) :
    (lastBreak r n = none ∧ ∀ c ∈ r.take n, WRAP_BREAKS.contains c = false) ∨
      ∃ a c b, lastBreak r n = some (a.length + 1) ∧ r.take n = a ++ c :: b ∧ WRAP_BREAKS.contains c = true ∧
        ∀ d ∈ b, WRAP_BREAKS.contains d = false := by
  induction n with
  | zero => exact .inl ⟨rfl, fun c hc => by rw [List.take_zero] at hc; cases hc⟩
  | succ n ih =>
    unfold lastBreak
    have htake : r.take (n + 1) = r.take n ++ (r[n]?).toList := List.take_add_one
    rw [htake]
    cases hn : r[n]? with
    | none =>
      rw [Option.any_none, if_neg Bool.false_ne_true, Option.toList_none, List.append_nil]
      exact ih
    | some c =>
      rw [Option.any_some, Option.toList_some]
      by_cases hc : WRAP_BREAKS.contains c = true
      · rw [if_pos hc]
        have hlen : (r.take n).length = n := by
          rw [List.length_take]
          have := (List.getElem?_eq_some_iff.mp hn).1
          omega
        exact .inr ⟨r.take n, c, [], by rw [hlen], rfl, hc, nofun⟩
      · rw [if_neg hc]
        rw [Bool.not_eq_true] at hc
        rcases ih with ⟨hnone, hplain⟩ | ⟨a, d, b, hsome, hcut, hd, hplain⟩
        · refine .inl ⟨hnone, fun e he => ?_⟩
          rcases List.mem_append.mp he with he | he
          · exact hplain e he
          · rwa [List.mem_singleton.mp he]
        · refine .inr ⟨a, d, b ++ [c], hsome, by rw [hcut, List.append_assoc, List.cons_append], hd, fun e he => ?_⟩
          rcases List.mem_append.mp he with he | he
          · exact hplain e he
          · rwa [List.mem_singleton.mp he]

/-- lines that are finished stay -/
theorem wrapFrom_wrapped {max fuel : Nat} {r : Text} {wrapped : List Text} {line : Text} (h : line ∈ wrapped) :
    line ∈ wrapFrom max fuel r wrapped := by
  induction fuel generalizing r wrapped with
  | zero =>
    unfold wrapFrom
    split
    · exact List.mem_append_left _ h
    · exact h
  | succ fuel ih =>
    unfold wrapFrom
    split
    · refine ih ?_
      split
      · exact List.mem_append_left _ h
      · exact h
    · split
      · exact List.mem_append_left _ h
      · exact h

theorem dropComma_concat_comma (a : Text) : dropComma (a ++ [CAPTION_COMMA]) = a := by
  unfold dropComma
  rw [List.getLast?_concat, if_pos rfl, List.dropLast_concat]

theorem dropComma_of_last {a : Text} (h : ∀ c ∈ a.getLast?, c ≠ CAPTION_COMMA) : dropComma a = a :=
  if_neg (fun hlast => h _ hlast rfl)

/-! ## wrapping a line -/

section
variable {max fuel : Nat} {r : Text} {wrapped : List Text}

/-- a line that starts with a mark is not whole, wherever it is cut -/
theorem wrapFrom_mark (hmax : 1 ≤ max) {c : Char} {cs : Text} (hc : isMark c = true) :
    ¬ ∀ line ∈ wrapFrom max fuel (c :: cs) wrapped, Whole none line none := by
  have hstart (t : Text) : ¬ Whole none (c :: t) none := by
    intro h
    obtain ⟨hbreak, hne⟩ := isCaptionBreak_edge hc (intraToken_left (t.head?.or none))
    exact hne (h.1 hbreak)
  have hcomma : c ≠ CAPTION_COMMA := by
    rintro rfl
    rw [not_mark_comma] at hc
    cases hc
  have hrest : c :: cs ≠ [] ∨ wrapped = [] := .inl (List.cons_ne_nil _ _)
  intro h
  cases fuel with
  | zero =>
    unfold wrapFrom at h
    rw [if_pos hrest] at h
    exact hstart cs (h _ (List.mem_append_right _ List.mem_cons_self))
  | succ fuel =>
    unfold wrapFrom at h
    split at h
    · have hcut : ∃ k, (lastBreak (c :: cs) max).getD max = k + 1 := by
        rcases lastBreak_spec (c :: cs) max with ⟨hnone, -⟩ | ⟨a, d, b, hsome, -⟩
        · rw [hnone]
          exact ⟨max - 1, by show max = _; omega⟩
        · rw [hsome]
          exact ⟨a.length, rfl⟩
      obtain ⟨k, hk⟩ := hcut
      have hpiece : ∃ t, dropComma ((c :: cs).take (k + 1)) = c :: t := by
        rw [List.take_succ_cons]
        unfold dropComma
        split
        · next hlast =>
          cases ht : cs.take k with
          | nil =>
            rw [ht] at hlast
            exact absurd (Option.some.inj hlast) hcomma
          | cons d t => exact ⟨(d :: t).dropLast, rfl⟩
        · exact ⟨cs.take k, rfl⟩
      obtain ⟨t, ht⟩ := hpiece
      dsimp only at h
      rw [hk, ht, if_pos (List.cons_ne_nil _ _)] at h
      exact hstart t (h _ (wrapFrom_wrapped (List.mem_append_right _ List.mem_cons_self)))
    · exact hstart cs (h _ (List.mem_append_right _ List.mem_cons_self))

/-- commas at the start of a rest leave a whole rest, that does not start with a mark -/
theorem dropCommas_whole {before : Option Char} {b : Text} (h : Whole before b none) (hb : ∀ c ∈ b.head?, isMark c = false) :
    (∃ x, Whole x (b.dropWhile (· == CAPTION_COMMA)) none) ∧
      ∀ c ∈ (b.dropWhile (· == CAPTION_COMMA)).head?, isMark c = false := by
  induction b generalizing before with
  | nil => exact ⟨⟨before, trivial⟩, nofun⟩
  | cons c b ih =>
    by_cases hc : c = CAPTION_COMMA
    · subst hc
      rw [List.dropWhile_cons, if_pos (beq_self_eq_true CAPTION_COMMA)]
      exact ih h.2 (whole_comma_start h.2)
    · rw [List.dropWhile_cons, if_neg (fun he => hc (beq_iff_eq.mp he))]
      exact ⟨⟨before, h⟩, hb⟩

/-- an unbroken line that is too long, with a comma before the limit -/
theorem unbroken_comma {a b : Text} (hlong : max < (a ++ CAPTION_COMMA :: b).length) (hin : a.length < max)
    (ha : CAPTION_COMMA ∉ a) (hb : CAPTION_COMMA ∉ b) : Unbroken max (a ++ CAPTION_COMMA :: b) ↔
      (∀ c ∈ b.take (max - (a.length + 1)), isMark c = false) ∧ Unbroken max b := by
  constructor
  · intro h
    generalize hr : a ++ CAPTION_COMMA :: b = r at h hlong
    cases h with
    | fits _ h => omega
    | comma a' b' _ ha' hin' hmarks' hb' =>
      obtain ⟨rfl, -, rfl⟩ := (List.append_cons_inj_of_notMem ha hb).mp hr
      exact ⟨hmarks', hb'⟩
    | limit a' b' hlen _ ha' =>
      have hmem : CAPTION_COMMA ∈ (a' ++ b').take max := by
        rw [← hr, List.take_append, List.mem_append]
        right
        obtain ⟨k, hk⟩ : ∃ k, max - a.length = k + 1 := ⟨max - a.length - 1, by omega⟩
        rw [hk, List.take_succ_cons]
        exact List.mem_cons_self
      rw [List.take_append_of_le_length (Nat.le_of_eq hlen.symm), List.take_of_length_le (Nat.le_of_eq hlen)] at hmem
      exact absurd hmem ha'
  · intro h
    exact .comma a b hlong ha hin h.1 h.2

/-- an unbroken line that is too long, with no comma before the limit -/
theorem unbroken_limit {a b : Text} (hlen : a.length = max) (hlong : b ≠ []) (ha : CAPTION_COMMA ∉ a) :
    Unbroken max (a ++ b) ↔ (∀ c ∈ a, isMark c = false) ∧ (∀ c ∈ b.head?, isMark c = false) ∧
      Unbroken max (b.dropWhile (· == CAPTION_COMMA)) := by
  have hpos := List.length_pos_iff.mpr hlong
  constructor
  · intro h
    have hrlen : (a ++ b).length = max + b.length := by rw [List.length_append, hlen]
    generalize hr : a ++ b = r at h hrlen
    cases h with
    | fits _ h => omega
    | comma a' b' _ _ hin' =>
      have hmem : CAPTION_COMMA ∈ (a ++ b).take max := by
        rw [hr, List.take_append, List.mem_append]
        right
        obtain ⟨k, hk⟩ : ∃ k, max - a'.length = k + 1 := ⟨max - a'.length - 1, by omega⟩
        rw [hk, List.take_succ_cons]
        exact List.mem_cons_self
      rw [List.take_append_of_le_length (Nat.le_of_eq hlen.symm), List.take_of_length_le (Nat.le_of_eq hlen)] at hmem
      exact absurd hmem ha
    | limit a' b' hlen' _ _ hmarks' hnext' hb' =>
      obtain ⟨rfl, rfl⟩ := List.append_inj hr (hlen.trans hlen'.symm)
      exact ⟨hmarks', hnext', hb'⟩
  · intro h
    exact .limit a b hlen hlong ha h.1 h.2.1 h.2.2

/-- a line that is too long, with a mark behind the last comma before the limit, is broken -/
theorem unbroken_mark {a b : Text} {c : Char} (hlong : max < r.length) (hr : r.take max = a ++ c :: b)
    (hc : isMark c = true) (hb : CAPTION_COMMA ∉ b) : ¬ Unbroken max r := by
  have hcomma : c ≠ CAPTION_COMMA := by
    rintro rfl
    rw [not_mark_comma] at hc
    cases hc
  intro h
  cases h with
  | fits _ h => omega
  | comma a' b' _ ha' hin' hmarks' =>
    have hwindow : (a' ++ CAPTION_COMMA :: b').take max = a' ++ CAPTION_COMMA :: b'.take (max - (a'.length + 1)) := by
      obtain ⟨k, hk⟩ : ∃ k, max = a'.length + (k + 1) := ⟨max - a'.length - 1, by omega⟩
      rw [hk, List.take_length_add_append, List.take_succ_cons]
      have hsub : a'.length + (k + 1) - (a'.length + 1) = k := by omega
      rw [hsub]
    rw [hwindow] at hr
    have hmem : c ∈ b'.take (max - (a'.length + 1)) := by
      rcases List.append_eq_append_iff.mp hr with ⟨e, he, hrest⟩ | ⟨e, he, hrest⟩
      · cases e with
        | nil =>
          rw [List.nil_append] at hrest
          exact absurd (List.cons.inj hrest).1.symm hcomma
        | cons x e =>
          rw [List.cons_append] at hrest
          rw [(List.cons.inj hrest).2]
          exact List.mem_append_right _ List.mem_cons_self
      · cases e with
        | nil =>
          rw [List.nil_append] at hrest
          exact absurd (List.cons.inj hrest).1 hcomma
        | cons x e =>
          rw [List.cons_append] at hrest
          refine absurd ?_ hb
          rw [(List.cons.inj hrest).2]
          exact List.mem_append_right _ List.mem_cons_self
    rw [hmarks' c hmem] at hc
    cases hc
  | limit a' b' hlen' _ _ hmarks' =>
    rw [List.take_append_of_le_length (Nat.le_of_eq hlen'.symm), List.take_of_length_le (Nat.le_of_eq hlen')] at hr
    have hmem : c ∈ a' := by
      rw [hr]
      exact List.mem_append_right _ List.mem_cons_self
    rw [hmarks' c hmem] at hc
    cases hc

/-- the last line, when it is not too long -/
theorem wrapped_rest {before : Option Char} (hr : Whole before r none) (hstart : ∀ c ∈ r.head?, isMark c = false)
    (hle : r.length ≤ max) :
    (∀ line ∈ (if r ≠ [] ∨ wrapped = [] then wrapped ++ [r] else wrapped), Whole none line none) ↔
      (∀ line ∈ wrapped, Whole none line none) ∧ Unbroken max r := by
  have hline : Whole none r none := (whole_part hr).mpr ⟨hstart, (whole_end hr).mp hr⟩
  split
  · rw [List.forall_mem_append, List.forall_mem_singleton]
    exact ⟨fun h => ⟨h.1, .fits r hle⟩, fun h => ⟨h.1, hline⟩⟩
  · exact ⟨fun h => ⟨h, .fits r hle⟩, fun h => h.1⟩

/-- **The wrapped lines of a whole line are whole iff it is unbroken.** -/
theorem wrapFrom_iff (hmax : 1 ≤ max) {before : Option Char} (hfuel : r.length ≤ fuel) (hr : Whole before r none)
    (hcount : r.count CAPTION_COMMA ≤ 1) (hstart : ∀ c ∈ r.head?, isMark c = false) :
    (∀ line ∈ wrapFrom max fuel r wrapped, Whole none line none) ↔
      (∀ line ∈ wrapped, Whole none line none) ∧ Unbroken max r := by
  induction fuel generalizing r before wrapped with
  | zero =>
    unfold wrapFrom
    exact wrapped_rest hr hstart (by omega)
  | succ fuel ih =>
    unfold wrapFrom
    by_cases hlong : max < r.length
    · rw [if_pos hlong]
      dsimp only
      have hsplit : r.take max ++ r.drop max = r := List.take_append_drop max r
      have hlen : (r.take max).length = max := by
        rw [List.length_take]
        omega
      have hne : r.drop max ≠ [] := by
        intro hnil
        have hzero := congrArg List.length hnil
        rw [List.length_drop, List.length_nil] at hzero
        omega
      rcases lastBreak_spec r max with ⟨hnone, hplain⟩ | ⟨a, c, b, hsome, hcut, hwrap, hplain⟩
      · -- no mark before the limit: the line is cut at the limit
        generalize ha : r.take max = a at hsplit hlen hplain
        generalize hb : r.drop max = b at hsplit hne
        rw [hnone, Option.getD_none, ha, hb]
        subst hsplit
        rw [whole_append] at hr
        obtain ⟨hwa, hwb⟩ := hr
        have hcomma : CAPTION_COMMA ∉ a := by
          intro hm
          have hwrap := hplain _ hm
          rw [wrapBreak_comma] at hwrap
          cases hwrap
        have hmarks : ∀ c ∈ a, isMark c = false := by
          intro c hc
          by_contra hmark
          rw [Bool.not_eq_false] at hmark
          have hwrap := hplain c hc
          rw [wrapBreak_mark hmark] at hwrap
          cases hwrap
        have hane : a ≠ [] := List.ne_nil_of_length_pos (by omega)
        have hpiece : dropComma a = a :=
          dropComma_of_last (fun c hc he => hcomma (he ▸ List.mem_of_getLast? hc))
        have hline : Whole none a none :=
          (whole_part hwa).mpr ⟨fun c hc => hmarks c (List.mem_of_head? hc), fun c hc => hmarks c (List.mem_of_getLast? hc)⟩
        rw [hpiece, if_pos hane, unbroken_limit hlen hne hcomma]
        by_cases hnext : ∀ c ∈ b.head?, isMark c = false
        · obtain ⟨⟨x, hx⟩, hhead⟩ := dropCommas_whole hwb hnext
          have hsuffix : b.dropWhile (· == CAPTION_COMMA) <:+ b := List.dropWhile_suffix _
          have hfuel' : (b.dropWhile (· == CAPTION_COMMA)).length ≤ fuel := by
            have hle := hsuffix.length_le
            rw [List.length_append] at hfuel
            omega
          have hcount' : (b.dropWhile (· == CAPTION_COMMA)).count CAPTION_COMMA ≤ 1 := by
            have hle := hsuffix.sublist.count_le CAPTION_COMMA
            rw [List.count_append] at hcount
            omega
          rw [ih hfuel' hx hcount' hhead, List.forall_mem_append, List.forall_mem_singleton]
          exact ⟨fun h => ⟨h.1.1, hmarks, hnext, h.2⟩, fun h => ⟨⟨h.1, hline⟩, h.2.2.2⟩⟩
        · refine iff_of_false ?_ (fun h => hnext h.2.2.1)
          cases b with
          | nil => exact absurd rfl hne
          | cons c b =>
            have hc : isMark c = true := by
              by_contra hplainC
              exact hnext (fun d hd => by rw [← Option.some.inj hd]; exact Bool.not_eq_true _ ▸ hplainC)
            have hkeep : (c :: b).dropWhile (· == CAPTION_COMMA) = c :: b := by
              rw [List.dropWhile_cons, if_neg]
              intro he
              rw [beq_iff_eq.mp he, not_mark_comma] at hc
              cases hc
            rw [hkeep]
            exact wrapFrom_mark hmax hc
      · -- the line is cut behind its last mark before the limit
        have hr' : r = a ++ c :: (b ++ r.drop max) := by
          conv_lhs => rw [← hsplit, hcut, List.append_assoc, List.cons_append]
        have htake : r.take (a.length + 1) = a ++ [c] := by
          conv_lhs => rw [hr', List.take_length_add_append]
          rfl
        have hdrop : r.drop (a.length + 1) = b ++ r.drop max := by
          conv_lhs => rw [hr', List.drop_length_add_append]
          rfl
        have hin : a.length < max := by
          have hcutLen := congrArg List.length hcut
          rw [hlen, List.length_append, List.length_cons] at hcutLen
          omega
        have hbComma : CAPTION_COMMA ∉ b := by
          intro hm
          have hwrapB := hplain _ hm
          rw [wrapBreak_comma] at hwrapB
          cases hwrapB
        rw [hsome, Option.getD_some, htake, hdrop]
        have hwhole := hr
        rw [hr', whole_append] at hwhole
        obtain ⟨hwa, hwc⟩ := hwhole
        rcases wrapBreak_whole hr (by rw [hr']; exact List.mem_append_right _ List.mem_cons_self) hwrap with rfl | hmark
        · -- at its comma
          have hcounts : a.count CAPTION_COMMA = 0 ∧ (b ++ r.drop max).count CAPTION_COMMA = 0 := by
            rw [hr', List.count_append, List.count_cons_self] at hcount
            omega
          have haComma : CAPTION_COMMA ∉ a := List.count_eq_zero.mp hcounts.1
          have hrest : CAPTION_COMMA ∉ b ++ r.drop max := List.count_eq_zero.mp hcounts.2
          have hkeep : (b ++ r.drop max).dropWhile (· == CAPTION_COMMA) = b ++ r.drop max := by
            refine List.dropWhile_eq_self_iff.mpr (fun hpos he => hrest ?_)
            rw [← beq_iff_eq.mp he]
            exact List.getElem_mem hpos
          have hline : Whole none a none :=
            (whole_part hwa).mpr ⟨fun c hc => by
              cases a with
              | nil => cases hc
              | cons d a =>
                rw [hr'] at hstart
                exact hstart c hc, whole_comma_end hwa⟩
          have hbMarks : ∀ c ∈ (b ++ r.drop max).take (max - (a.length + 1)), isMark c = false := by
            have hbLen : b.length = max - (a.length + 1) := by
              have hcutLen := congrArg List.length hcut
              rw [hlen, List.length_append, List.length_cons] at hcutLen
              omega
            rw [List.take_append_of_le_length (Nat.le_of_eq hbLen.symm), List.take_of_length_le (Nat.le_of_eq hbLen)]
            intro c hc
            by_contra hmark
            rw [Bool.not_eq_false] at hmark
            have hwrapB := hplain c hc
            rw [wrapBreak_mark hmark] at hwrapB
            cases hwrapB
          have hfuel' : (b ++ r.drop max).length ≤ fuel := by
            rw [← hdrop, List.length_drop]
            omega
          have hbroken := unbroken_comma (hr' ▸ hlong) hin haComma hrest
          rw [← hr'] at hbroken
          rw [hkeep, dropComma_concat_comma, ih hfuel' hwc.2 (by omega) (whole_comma_start hwc.2), hbroken]
          by_cases hane : a = []
          · rw [if_neg (fun h => h hane)]
            exact ⟨fun h => ⟨h.1, hbMarks, h.2⟩, fun h => ⟨h.1, h.2.2⟩⟩
          · rw [if_pos hane, List.forall_mem_append, List.forall_mem_singleton]
            exact ⟨fun h => ⟨h.1.1, hbMarks, h.2⟩, fun h => ⟨⟨h.1, hline⟩, h.2.2⟩⟩
        · -- at a mark
          refine iff_of_false (fun h => ?_) (fun h => unbroken_mark hlong hcut hmark hbComma h.2)
          have hpiece : dropComma (a ++ [c]) = a ++ [c] := by
            refine dropComma_of_last (fun d hd he => ?_)
            rw [List.getLast?_concat] at hd
            rw [Option.some.inj hd, he, not_mark_comma] at hmark
            cases hmark
          rw [hpiece, if_pos (List.append_ne_nil_of_right_ne_nil _ (List.cons_ne_nil _ _))] at h
          have hbroken := h (a ++ [c]) (wrapFrom_wrapped (List.mem_append_right _ List.mem_cons_self))
          rw [whole_append] at hbroken
          obtain ⟨hbreak, hnot⟩ := isCaptionBreak_edge hmark (intraToken_right (a.getLast?.or none))
          exact hnot (hbroken.2.1 hbreak)
    · rw [if_neg hlong]
      exact wrapped_rest hr hstart (by omega)

end

section
variable {max fuel : Nat} {r line : Text} {wrapped : List Text}

/-- a cut takes something, and no more than fits -/
theorem cut_bounds (hmax : 1 ≤ max) (r : Text) :
    1 ≤ (lastBreak r max).getD max ∧ (lastBreak r max).getD max ≤ max := by
  rcases lastBreak_spec r max with ⟨hnone, -⟩ | ⟨a, c, b, hsome, hcut, -⟩
  · rw [hnone]
    exact ⟨hmax, Nat.le_refl _⟩
  · rw [hsome, Option.getD_some]
    have hlen := congrArg List.length hcut
    rw [List.length_take, List.length_append, List.length_cons] at hlen
    omega

theorem dropComma_isPrefix (a : Text) : dropComma a <+: a := by
  unfold dropComma
  split
  · exact List.dropLast_prefix a
  · exact List.prefix_rfl

/-- what a piece loses is its comma -/
theorem mem_dropComma {a : Text} {c : Char} (hc : c ∈ a) (hcomma : c ≠ CAPTION_COMMA) : c ∈ dropComma a := by
  rcases List.eq_nil_or_concat a with rfl | ⟨b, d, rfl⟩
  · cases hc
  · rw [List.concat_eq_append] at hc ⊢
    unfold dropComma
    split
    · next hlast =>
      rw [List.getLast?_concat] at hlast
      rw [List.dropLast_concat]
      rcases List.mem_append.mp hc with hc | hc
      · exact hc
      · exact absurd ((List.mem_singleton.mp hc).trans (Option.some.inj hlast)) hcomma
    · exact hc

theorem rest_length (hmax : 1 ≤ max) (hlong : max < r.length) (hfuel : r.length ≤ fuel + 1) :
    ((r.drop ((lastBreak r max).getD max)).dropWhile (· == CAPTION_COMMA)).length ≤ fuel := by
  have hle := (List.dropWhile_suffix (· == CAPTION_COMMA) (l := r.drop ((lastBreak r max).getD max))).length_le
  have hcut := (cut_bounds hmax r).1
  rw [List.length_drop] at hle
  omega

/-- the lines of a line are parts of it -/
theorem wrapFrom_part (h : line ∈ wrapFrom max fuel r wrapped) : line ∈ wrapped ∨ line <:+: r := by
  have hlast {x : Text} {ws : List Text} (h : line ∈ (if x ≠ [] ∨ ws = [] then ws ++ [x] else ws)) :
      line ∈ ws ∨ line <:+: x := by
    split at h
    · rcases List.mem_append.mp h with h | h
      · exact .inl h
      · exact .inr (List.mem_singleton.mp h ▸ List.infix_rfl)
    · exact .inl h
  induction fuel generalizing r wrapped with
  | zero =>
    unfold wrapFrom at h
    exact hlast h
  | succ fuel ih =>
    unfold wrapFrom at h
    split at h
    · dsimp only at h
      generalize (lastBreak r max).getD max = cut at h
      rcases ih h with hmem | hpart
      · split at hmem
        · rcases List.mem_append.mp hmem with hmem | hmem
          · exact .inl hmem
          · rw [List.mem_singleton.mp hmem]
            exact .inr ((dropComma_isPrefix _).isInfix.trans (List.take_prefix _ _).isInfix)
        · exact .inl hmem
      · exact .inr (hpart.trans ((List.dropWhile_suffix _).isInfix.trans (List.drop_suffix _ _).isInfix))
    · exact hlast h

/-- the lines of a line fit -/
theorem wrapFrom_short (hmax : 1 ≤ max) (hfuel : r.length ≤ fuel) (h : ∀ l ∈ wrapped, l.length ≤ max) :
    ∀ l ∈ wrapFrom max fuel r wrapped, l.length ≤ max := by
  have hlast {x : Text} {ws : List Text} (hws : ∀ l ∈ ws, l.length ≤ max) (hx : x.length ≤ max) :
      ∀ l ∈ (if x ≠ [] ∨ ws = [] then ws ++ [x] else ws), l.length ≤ max := by
    split
    · rw [List.forall_mem_append, List.forall_mem_singleton]
      exact ⟨hws, hx⟩
    · exact hws
  induction fuel generalizing r wrapped with
  | zero =>
    unfold wrapFrom
    exact hlast h (by omega)
  | succ fuel ih =>
    unfold wrapFrom
    by_cases hlong : max < r.length
    · rw [if_pos hlong]
      refine ih (rest_length hmax hlong hfuel) ?_
      split
      · rw [List.forall_mem_append, List.forall_mem_singleton]
        refine ⟨h, (dropComma_isPrefix _).length_le.trans ?_⟩
        rw [List.length_take]
        have hcut := (cut_bounds hmax r).2
        omega
      · exact h
    · rw [if_neg hlong]
      exact hlast h (by omega)

/-- what the lines of a line lose are commas -/
theorem wrapFrom_keeps (hmax : 1 ≤ max) (hfuel : r.length ≤ fuel) {c : Char} (hc : c ∈ r) (hcomma : c ≠ CAPTION_COMMA) :
    ∃ l ∈ wrapFrom max fuel r wrapped, c ∈ l := by
  have hlast {x : Text} {ws : List Text} (hx : c ∈ x) : ∃ l ∈ (if x ≠ [] ∨ ws = [] then ws ++ [x] else ws), c ∈ l := by
    rw [if_pos (.inl (List.ne_nil_of_mem hx))]
    exact ⟨x, List.mem_append_right _ List.mem_cons_self, hx⟩
  induction fuel generalizing r wrapped with
  | zero =>
    unfold wrapFrom
    exact hlast hc
  | succ fuel ih =>
    unfold wrapFrom
    by_cases hlong : max < r.length
    · rw [if_pos hlong]
      have hrest := rest_length hmax hlong hfuel
      dsimp only
      generalize (lastBreak r max).getD max = cut at hrest ⊢
      rw [← List.take_append_drop cut r] at hc
      rcases List.mem_append.mp hc with hc | hc
      · have hpiece := mem_dropComma hc hcomma
        rw [if_pos (List.ne_nil_of_mem hpiece)]
        exact ⟨_, wrapFrom_wrapped (List.mem_append_right _ List.mem_cons_self), hpiece⟩
      · refine ih hrest ?_
        rw [← List.takeWhile_append_dropWhile (p := (· == CAPTION_COMMA)) (l := r.drop cut)] at hc
        rcases List.mem_append.mp hc with hc | hc
        · exact absurd (beq_iff_eq.mp (List.mem_takeWhile_imp (p := (· == CAPTION_COMMA)) hc)) hcomma
        · exact hc
    · rw [if_neg hlong]
      exact hlast hc

theorem wrapLine_part (h : line ∈ wrapLine max r) : line <:+: r := by
  rcases wrapFrom_part h with h | h
  · cases h
  · exact h

theorem wrapLine_short (hmax : 1 ≤ max) (h : line ∈ wrapLine max r) : line.length ≤ max := by
  refine wrapFrom_short hmax (Nat.le_refl _) (fun l hl => ?_) line h
  cases hl

theorem wrapLine_keeps (hmax : 1 ≤ max) {c : Char} (hc : c ∈ r) (hcomma : c ≠ CAPTION_COMMA) :
    ∃ l ∈ wrapLine max r, c ∈ l := wrapFrom_keeps hmax (Nat.le_refl _) hc hcomma

theorem wrapFrom_ne_nil : wrapFrom max fuel r wrapped ≠ [] := by
  induction fuel generalizing r wrapped with
  | zero =>
    unfold wrapFrom
    split
    · exact List.append_ne_nil_of_right_ne_nil _ (List.cons_ne_nil _ _)
    · next h =>
      rw [not_or] at h
      exact h.2
  | succ fuel ih =>
    unfold wrapFrom
    split
    · exact ih
    · split
      · exact List.append_ne_nil_of_right_ne_nil _ (List.cons_ne_nil _ _)
      · next h =>
        rw [not_or] at h
        exact h.2

/-- **The wrapped lines of a plain line are whole iff it is unbroken.** -/
theorem wrapLine_iff (hmax : 1 ≤ max) (h : PlainLine r) :
    (∀ l ∈ wrapLine max r, Whole none l none) ↔ Unbroken max r := by
  have hstart := (whole_start h.whole).mp h.whole
  unfold wrapLine
  rw [wrapFrom_iff hmax (Nat.le_refl _) h.whole h.commas hstart]
  exact ⟨fun hboth => hboth.2, fun hun => ⟨nofun, hun⟩⟩

end

end

end OpenFlame.Editing
