import Mathlib.Algebra.Ring.Nat
import Mathlib.Data.List.Chain
import OpenFlame.Editing.Timeline

/-!
# What a subtitle file carries

`Carried text`: the texts that both formats carry: no space at either end, no blank line, no line
break but newlines, no control character.

`parse_file`       what is parsed from a file that was written, row by row
`roundTrips_iff`   **cues come back from a file iff their texts are carried and the file is short enough**
-/

set_option linter.all false

namespace OpenFlame.Editing
open Guard Text

/-! ## clock times -/

section
variable {d : Digits} {n : Nat}

theorem numeral_padded {low high width : Nat} (hw : 0 < width) (hlow : low ≤ width) (hh : width ≤ high)
    (h : n < 10 ^ high) : numeral d low high (padded width n) = some n := by
  obtain ⟨h1, h2⟩ := length_padded_le hw hh h
  unfold numeral
  rw [Digits.all_padded, Digits.int_padded, Bool.true_and, if_pos (decide_eq_true ⟨Nat.le_trans hlow h1, h2⟩)]

theorem padded_two (h : n < 60) : ∃ a b, padded 2 n = [a, b] ∧ '0' ≤ a ∧ a ≤ '5' := by
  have hall : ∀ m < 60, ∃ a b, padded 2 m = [a, b] ∧ '0' ≤ a ∧ a ≤ '5' := by
    intro m hm
    have hdec : ∀ m < 60, (padded 2 m).length = 2 ∧
        ((padded 2 m).head?.any (fun c => '0' ≤ c && c ≤ '5')) = true := by decide
    obtain ⟨hlen, hhead⟩ := hdec m hm
    match padded 2 m, hlen, hhead with
    | [a, b], _, hhead =>
      rw [List.head?_cons, Option.any_some, Bool.and_eq_true, decide_eq_true_eq, decide_eq_true_eq] at hhead
      exact ⟨a, b, rfl, hhead.1, hhead.2⟩
  exact hall n h

theorem sixty_padded (h : n < 60) : sixty d (padded 2 n) = some n := by
  obtain ⟨a, b, hab, h0, h5⟩ := padded_two h
  unfold sixty
  rw [hab, List.head?_cons, Option.any_some, decide_eq_true h0, decide_eq_true h5]
  rw [← hab]
  exact numeral_padded (by decide) (by decide) (by decide) (by omega)

theorem vttMinutes_padded (h : n < 60) : vttMinutes d (padded 2 n) = some n := by
  unfold vttMinutes
  rw [length_padded (by decide) (by omega), if_neg (by decide)]
  exact sixty_padded h

/-- a character of a numeral is neither punctuation nor a space -/
theorem not_mem_padded {c : Char} (hc : c.isDigit = false) (width n : Nat) : c ∉ padded width n := by
  intro h
  rw [padded_isDigit h] at hc
  cases hc

theorem secondsOf_padded {point : Char} {s ms : Nat} (hp : point.isDigit = false) (hs : s < 60) (hms : ms < 1000) :
    secondsOf d point (padded 2 s ++ point :: padded 3 ms) = some (s, ms) := by
  unfold secondsOf
  rw [splitOn_append (not_mem_padded hp _ _), splitOn_eq_self (not_mem_padded hp _ _)]
  have hmillis : numeral d 3 3 (padded 3 ms) = some ms := numeral_padded (by decide) (by decide) (by decide) (by omega)
  simp [sixty_padded hs, hmillis]

theorem formatTime_split {ms : Nat} {sep : Char} (hcolon : sep ≠ ':') :
    splitOn ':' (formatTime ms sep) =
      [padded 2 (ms / 3600000), padded 2 (ms % 3600000 / 60000),
        padded 2 (ms % 60000 / 1000) ++ sep :: padded 3 (ms % 1000)] := by
  have hlast : ':' ∉ padded 2 (ms % 60000 / 1000) ++ sep :: padded 3 (ms % 1000) := by
    intro h
    rcases List.mem_append.mp h with h | h
    · exact not_mem_padded (by decide) _ _ h
    · rcases List.mem_cons.mp h with h | h
      · exact hcolon h.symm
      · exact not_mem_padded (by decide) _ _ h
  unfold formatTime
  rw [List.append_assoc, List.append_assoc, List.cons_append, List.cons_append,
    splitOn_append (not_mem_padded (by decide) _ _), splitOn_append (not_mem_padded (by decide) _ _),
    splitOn_eq_self hlast]

theorem milliseconds_split (ms : Nat) :
    milliseconds (ms / 3600000) (ms % 3600000 / 60000) (ms % 60000 / 1000) (ms % 1000) = ms := by
  unfold milliseconds
  omega

/-- times under a thousand hours are read back -/
theorem srtTime_format {ms : Nat} (h : ms < 3600000 * 1000) : srtTime d (formatTime ms ',') = some ms := by
  unfold srtTime
  rw [formatTime_split (by decide)]
  have hhours : numeral d 2 3 (padded 2 (ms / 3600000)) = some (ms / 3600000) :=
    numeral_padded (by decide) (by decide) (by decide) (by omega)
  have hminutes : sixty d (padded 2 (ms % 3600000 / 60000)) = some (ms % 3600000 / 60000) := sixty_padded (by omega)
  have hseconds : secondsOf d ',' (padded 2 (ms % 60000 / 1000) ++ ',' :: padded 3 (ms % 1000)) =
      some (ms % 60000 / 1000, ms % 1000) := secondsOf_padded (by decide) (by omega) (by omega)
  simp only [hhours, hminutes, hseconds]
  show some (milliseconds _ _ _ _) = _
  rw [milliseconds_split]

theorem vttTime_format {ms : Nat} (h : ms < 3600000 * 1000) : vttTime d (formatTime ms '.') = some ms := by
  unfold vttTime
  rw [formatTime_split (by decide)]
  have hhours : numeral d 1 3 (padded 2 (ms / 3600000)) = some (ms / 3600000) :=
    numeral_padded (by decide) (by decide) (by decide) (by omega)
  have hminutes : vttMinutes d (padded 2 (ms % 3600000 / 60000)) = some (ms % 3600000 / 60000) :=
    vttMinutes_padded (by omega)
  have hseconds : secondsOf d '.' (padded 2 (ms % 60000 / 1000) ++ '.' :: padded 3 (ms % 1000)) =
      some (ms % 60000 / 1000, ms % 1000) := secondsOf_padded (by decide) (by omega) (by omega)
  simp only [hhours, hminutes, hseconds]
  show some (milliseconds _ _ _ _) = _
  rw [milliseconds_split]

end

/-! ## lines with times -/

section
variable {d : Digits} {sep c : Char} {cue : TimelineCue}

theorem isDigit_plain (h : c.isDigit = true) : isSpace c = false ∧ isBreak c = false ∧ c ≠ '\n' := by
  have h : 48 ≤ c.toNat ∧ c.toNat ≤ 57 := Char.isDigit_iff_toNat.mp h
  have hn : c ≠ '\n' := by
    rintro rfl
    exact absurd h (by decide)
  refine ⟨?_, ?_, hn⟩
  · simp only [isSpace, Bool.or_eq_false_iff, Bool.and_eq_false_iff, decide_eq_false_iff_not, beq_eq_false_iff_ne]
    omega
  · simp only [isBreak, Bool.or_eq_false_iff, Bool.and_eq_false_iff, decide_eq_false_iff_not, beq_eq_false_iff_ne]
    omega

theorem mem_formatTime {ms : Nat} (h : c ∈ formatTime ms sep) : c.isDigit = true ∨ c = ':' ∨ c = sep := by
  unfold formatTime at h
  simp only [List.mem_append, List.mem_cons] at h
  rcases h with ((h | h | h) | h | h) | h | h
  · exact .inl (padded_isDigit h)
  · exact .inr (.inl h)
  · exact .inl (padded_isDigit h)
  · exact .inr (.inl h)
  · exact .inl (padded_isDigit h)
  · exact .inr (.inr h)
  · exact .inl (padded_isDigit h)

/-- the separators of the two formats -/
def IsPoint (sep : Char) : Prop := sep = ',' ∨ sep = '.'

theorem formatTime_plain {ms : Nat} (hsep : IsPoint sep) (h : c ∈ formatTime ms sep) :
    isSpace c = false ∧ isBreak c = false ∧ c ≠ '\n' := by
  rcases mem_formatTime h with h | rfl | rfl
  · exact isDigit_plain h
  · exact ⟨by decide, by decide, by decide⟩
  · rcases hsep with rfl | rfl <;> exact ⟨by decide, by decide, by decide⟩

theorem formatTime_ne_nil (ms : Nat) (sep : Char) : formatTime ms sep ≠ [] := by
  unfold formatTime
  exact List.append_ne_nil_of_right_ne_nil _ (List.cons_ne_nil _ _)

/-- a text without spaces is its own strip, and its own first word -/
theorem strip_of_no_space {s : Text} (h : ∀ c ∈ s, isSpace c = false) : strip s = s :=
  strip_eq_self_iff.mpr (fun hne => ⟨h _ (List.head_mem hne), h _ (List.getLast_mem hne)⟩)

theorem takeWhile_of_no_space {s : Text} (h : ∀ c ∈ s, isSpace c = false) :
    s.takeWhile (fun c => !isSpace c) = s :=
  List.takeWhile_eq_self_iff.mpr (fun c hc => by rw [h c hc]; rfl)

theorem arrowParts_timeLine (hsep : IsPoint sep) :
    arrowParts (timeLine sep cue) = [formatTime cue.start_ms sep, formatTime cue.end_ms sep] := by
  have hspace : ∀ ms, ' ' ∉ formatTime ms sep := by
    intro ms h
    have := (formatTime_plain hsep h).1
    exact absurd this (by decide)
  exact splitSub_pair (hspace _) (hspace _)

theorem timeLine_plain (hsep : IsPoint sep) : ∀ c ∈ timeLine sep cue, isBreak c = false ∧ c ≠ '\n' := by
  intro c hc
  unfold timeLine at hc
  rcases List.mem_append.mp hc with hc | hc
  · rcases List.mem_append.mp hc with hc | hc
    · exact (formatTime_plain hsep hc).2
    · have hall : " --> ".toList.all (fun c => !isBreak c && c != '\n') = true := by decide
      have := List.all_eq_true.mp hall c hc
      simpa using this
  · exact (formatTime_plain hsep hc).2

/-- a line of times begins with a digit -/
theorem timeLine_head (sep : Char) (cue : TimelineCue) :
    ∃ c rest, timeLine sep cue = c :: rest ∧ c.isDigit = true := by
  unfold timeLine formatTime
  obtain ⟨c, rest, h⟩ := List.exists_cons_of_ne_nil (padded_ne_nil 2 (cue.start_ms / 3600000))
  refine ⟨c, _, by rw [h]; rfl, ?_⟩
  exact padded_isDigit (by rw [h]; exact List.mem_cons_self)

end

/-! ## cues that are read -/

/-- the times and the text of a cue -/
abbrev Span := Nat × Nat × Text

def TimelineCue.span (cue : TimelineCue) : Span := (cue.start_ms, cue.end_ms, cue.source_text)

/-- a text as the parsers leave it -/
def Trimmed (text : Text) : Prop := strip text = text ∧ ∀ c ∈ text, isBreak c = true → c = '\n'

section
variable {lib : Library} {language : Text} {order start stop : Nat} {lines : List Text} {c : TimelineCue}

theorem Library.cueId_valid (lib : Library) (order start stop : Nat) (text : Text) :
    ValidId (lib.cueId order start stop text) := by
  have hlen : (lib.cueId order start stop text).length = 32 := by
    have hhex := lib.hex_sha256 (Nat.toDigits 10 order ++ '\x00' :: Nat.toDigits 10 start ++ '\x00' ::
      Nat.toDigits 10 stop ++ '\x00' :: text)
    simp only [isHex, Bool.and_eq_true, beq_iff_eq] at hhex
    unfold Library.cueId
    rw [List.length_take, hhex.1]
    rfl
  refine ⟨fun e => ?_, hlen.trans_le (by decide)⟩
  rw [e] at hlen
  cases hlen

theorem Library.cue_span (h : lib.cue language order start stop lines = .ok c) :
    c.span = (start, stop, strip (joinLines lines)) := by
  unfold Library.cue TimelineCue.make at h
  dsimp only at h
  split at h
  · split at h
    · split at h
      · split at h
        · cases h
          rfl
        · cases h
      · cases h
    · cases h
  · cases h

theorem Library.cue_exists (ht : start < stop) (htext : ValidText (strip (joinLines lines))) :
    ∃ c, lib.cue language order start stop lines = .ok c := by
  unfold Library.cue TimelineCue.make
  dsimp only
  rw [dif_pos (lib.cueId_valid ..), dif_pos (by omega), dif_pos htext, dif_pos (fun s hs => nomatch hs)]
  exact ⟨_, rfl⟩

/-- the text of lines of a block is trimmed -/
theorem trimmed_lines (block : Text) (h : ∀ l ∈ lines, l ∈ splitLines block) : Trimmed (strip (joinLines lines)) := by
  refine ⟨strip_strip _, fun c hc hb => ?_⟩
  rcases mem_joinLines (strip_subset _ hc) with rfl | ⟨l, hl, hcl⟩
  · rfl
  · rw [splitLines_breaks l (h l hl) c hcl] at hb
    cases hb

theorem srtCue_trimmed {block : Text} (h : srtCue lib language order block = .ok c) : Trimmed c.source_text := by
  simp only [srtCue, bind_eq_ok] at h
  obtain ⟨_, -, h⟩ := h
  split at h
  · next time text rest hlines =>
    split at h
    · simp only [bind_eq_ok] at h
      obtain ⟨start, -, stop, -, h⟩ := h
      have hspan := Library.cue_span h
      have htext : c.source_text = strip (joinLines (text :: rest)) := congrArg (·.2.2) hspan
      rw [htext]
      refine trimmed_lines block (fun l hl => ?_)
      have hmem : l ∈ time :: text :: rest := List.mem_cons_of_mem _ hl
      rw [← hlines] at hmem
      split at hmem
      · exact List.mem_of_mem_tail hmem
      · exact hmem
    · cases h
  · cases h

theorem vttCue_trimmed {block : Text} (h : vttCue lib language order block = .ok c) : Trimmed c.source_text := by
  unfold vttCue at h
  dsimp only at h
  split at h
  · next time text rest hlines =>
    simp only [bind_eq_ok] at h
    obtain ⟨_, -, h⟩ := h
    split at h
    · simp only [bind_eq_ok] at h
      obtain ⟨_, -, start, -, stop, -, h⟩ := h
      have hspan := Library.cue_span h
      have htext : c.source_text = strip (joinLines (text :: rest)) := congrArg (·.2.2) hspan
      rw [htext]
      refine trimmed_lines block (fun l hl => ?_)
      have hmem : l ∈ time :: text :: rest := List.mem_cons_of_mem _ hl
      rw [← hlines] at hmem
      split at hmem
      · exact hmem
      · exact List.mem_of_mem_tail hmem
    · cases h
  · cases h

end

/-! ## rows -/

/-- the texts a subtitle file carries -/
structure Carried (text : Text) : Prop where
  showable : Showable text
  stripped : strip text = text
  lines : ∀ c ∈ text, isBreak c = true → c = '\n'
  printable : ∀ c ∈ text, isControl c = false
  no_blank_line : ¬ blankLine <:+: text

theorem Showable.ne_nil {text : Text} (h : Showable text) : text ≠ [] := by
  rintro rfl
  exact absurd h.1 (by decide)

/-- a stripped text begins and ends with a character of its own -/
theorem opens_of_strip {text : Text} (hne : text ≠ []) (h : strip text = text) : Opens text ∧ Closes text :=
  (sharp_iff.mpr ⟨hne, h⟩).opens

/-- a trimmed text is its lines again -/
theorem joinLines_of_trimmed {text : Text} (hne : text ≠ []) (h : Trimmed text) :
    joinLines (splitLines text) = text := by
  obtain ⟨t, c, ht, hc⟩ := (opens_of_strip hne h.1).2
  refine joinLines_splitLines_of_last (List.all_eq_true.mpr (fun x hx => ?_)) (fun t' e => ?_)
  · cases hb : isBreak x with
    | false => simp
    | true => simp [h.2 x hx hb]
  · rw [ht] at e
    exact hc (by simpa using (List.append_inj' e rfl).2)

/-- what a file says of one cue: the lines before its text, its times, its text -/
structure Row where
  head : Text
  start : Nat
  stop : Nat
  text : Text

def Row.span (r : Row) : Span := (r.start, r.stop, r.text)

section
variable (lib : Library) (language : Text) (step : List TimelineCue → Text → Except TimelineErr (List TimelineCue))

/-- the parser's step reads the row -/
structure Row.Readable (r : Row) : Prop where
  times : r.start < r.stop
  splits : ∀ t, Opens t → splitBlocks (r.head ++ t) = consHead r.head (splitBlocks t)
  reads : ∀ cues p, splitLines p ≠ [] →
    step cues (r.head ++ p) = (lib.cue language cues.length r.start r.stop (splitLines p)).map (fun c => cues ++ [c])

/-- a step of a parser adds at most one cue, and its text is trimmed -/
def Appends : Prop :=
  ∀ cues block out, step cues block = .ok out → out = cues ∨ ∃ c, out = cues ++ [c] ∧ Trimmed c.source_text

variable {lib language step} {cues out : List TimelineCue} {blocks : List Text} {rows : List Row}

theorem Appends.thread (hstep : Appends step) (h : thread step cues blocks = .ok out) :
    ∃ new, out = cues ++ new ∧ ∀ c ∈ new, Trimmed c.source_text := by
  induction blocks generalizing cues with
  | nil =>
    cases h
    exact ⟨[], (List.append_nil _).symm, fun c hc => nomatch hc⟩
  | cons b blocks ih =>
    cases hb : step cues b with
    | error e => simp [Guard.thread, hb] at h
    | ok mid =>
      simp only [Guard.thread, hb] at h
      obtain ⟨new, rfl, hnew⟩ := ih h
      rcases hstep _ _ _ hb with rfl | ⟨c, rfl, hc⟩
      · exact ⟨new, rfl, hnew⟩
      · refine ⟨c :: new, by rw [List.append_assoc]; rfl, fun x hx => ?_⟩
        rcases List.mem_cons.mp hx with rfl | hx
        · exact hc
        · exact hnew x hx

/-- the blocks of a file -/
def rowBlocks (rows : List Row) : List Text := rows.flatMap (fun r => splitBlocks (r.head ++ r.text))

theorem map_eq_ok {α β : Type} {x : Except TimelineErr α} {f : α → β} {b : β} :
    x.map f = .ok b ↔ ∃ a, x = .ok a ∧ f a = b := by
  cases x <;> simp [Except.map]

/-- **If every cue comes back, no text has a blank line.** -/
theorem single_of_thread (hstep : Appends step) (hread : ∀ r ∈ rows, r.Readable lib language step)
    (hopen : ∀ r ∈ rows, Opens r.text) (h : thread step cues (rowBlocks rows) = .ok out)
    (hout : out.map TimelineCue.span = cues.map TimelineCue.span ++ rows.map Row.span) :
    ∀ r ∈ rows, ¬ blankLine <:+: r.text := by
  induction rows generalizing cues with
  | nil => exact fun r hr => nomatch hr
  | cons r rows ih =>
    have hr := hread r List.mem_cons_self
    have ho := hopen r List.mem_cons_self
    rcases hsplit : splitBlocks r.text with _ | ⟨p, extra⟩
    · exact absurd hsplit (blocksFrom_ne_nil _ _)
    · have hblocks : rowBlocks (r :: rows) = (r.head ++ p) :: (extra ++ rowBlocks rows) := by
        show splitBlocks (r.head ++ r.text) ++ rowBlocks rows = _
        rw [hr.splits _ ho, hsplit]
        rfl
      rw [hblocks, thread] at h
      have hp : splitLines p ≠ [] := by
        obtain ⟨c, t, ht, hc⟩ := ho
        refine splitLines_ne_nil (fun e => ?_)
        have hcons : splitBlocks r.text = consHead [c] (blocksFrom 0 t) := by
          rw [ht]
          show blocksFrom 0 (c :: t) = _
          rw [blocksFrom, if_neg hc, gap_zero (consHead_ne_nil _ _)]
        rw [hsplit, e] at hcons
        rcases hb : blocksFrom 0 t with _ | ⟨b, bs⟩ <;> rw [hb] at hcons <;> cases hcons
      split at h
      · cases h
      · next mid hmid =>
        rw [hr.reads cues p hp, map_eq_ok] at hmid
        obtain ⟨c, hc, rfl⟩ := hmid
        obtain ⟨new, rfl, -⟩ := hstep.thread h
        -- the first block is the first cue, so its text is the whole text
        have hspan : c.span = r.span := by
          rw [List.map_append, List.map_append, List.append_assoc] at hout
          exact (List.cons.inj (List.append_cancel_left hout)).1
        have hlen : r.text.length ≤ p.length := by
          have htext : r.text = strip (joinLines (splitLines p)) := by
            rw [Library.cue_span hc] at hspan
            exact (congrArg (·.2.2) hspan).symm
          rw [htext]
          exact Nat.le_trans (strip_length_le _) (length_joinLines_splitLines_le _)
        have hextra : extra = [] := by
          cases extra with
          | nil => rfl
          | cons q extra => exact absurd (splitBlocks_shorter hsplit) (by omega)
        rw [hextra] at hsplit h
        have hself : splitBlocks r.text = [r.text] := by
          rw [hsplit, splitBlocks_singleton hsplit]
        intro r' hr'
        rcases List.mem_cons.mp hr' with rfl | hr'
        · exact splitBlocks_eq_self_iff.mp hself
        · refine ih (fun x hx => hread x (List.mem_cons_of_mem _ hx)) (fun x hx => hopen x (List.mem_cons_of_mem _ hx))
            h ?_ r' hr'
          rw [hout, List.map_append, List.append_assoc, List.map_singleton, hspan]
          rfl

/-- **Carried texts come back.** -/
theorem thread_of_carried (hread : ∀ r ∈ rows, r.Readable lib language step) (hcar : ∀ r ∈ rows, Carried r.text) :
    ∃ new, thread step cues (rowBlocks rows) = .ok (cues ++ new) ∧ new.map TimelineCue.span = rows.map Row.span := by
  induction rows generalizing cues with
  | nil => exact ⟨[], by rw [List.append_nil]; rfl, rfl⟩
  | cons r rows ih =>
    have hr := hread r List.mem_cons_self
    have hc := hcar r List.mem_cons_self
    have hne := hc.showable.ne_nil
    have htext : strip (joinLines (splitLines r.text)) = r.text := by
      rw [joinLines_of_trimmed hne ⟨hc.stripped, hc.lines⟩, hc.stripped]
    have hvalid : ValidText (strip (joinLines (splitLines r.text))) := by
      rw [htext]
      exact ⟨hc.showable.1, hc.showable.2, List.all_eq_true.mpr (fun x hx => by rw [hc.printable x hx]; rfl)⟩
    have hexists : ∃ c, lib.cue language cues.length r.start r.stop (splitLines r.text) = .ok c :=
      Library.cue_exists hr.times hvalid
    obtain ⟨c, hcue⟩ := hexists
    have hrest : ∃ new, thread step (cues ++ [c]) (rowBlocks rows) = .ok (cues ++ [c] ++ new) ∧
        new.map TimelineCue.span = rows.map Row.span :=
      ih (fun x hx => hread x (List.mem_cons_of_mem _ hx)) (fun x hx => hcar x (List.mem_cons_of_mem _ hx))
    obtain ⟨new, hnew, hspans⟩ := hrest
    refine ⟨c :: new, ?_, ?_⟩
    · have hblocks : rowBlocks (r :: rows) = (r.head ++ r.text) :: rowBlocks rows := by
        show splitBlocks (r.head ++ r.text) ++ rowBlocks rows = _
        rw [hr.splits _ (opens_of_strip hne hc.stripped).1, splitBlocks_eq_self_iff.mpr hc.no_blank_line]
        rfl
      rw [hblocks, thread, hr.reads _ _ (splitLines_ne_nil hne), hcue]
      show thread step (cues ++ [c]) _ = _
      rw [hnew, List.append_assoc]
      rfl
    · rw [List.map_cons, List.map_cons, hspans, Library.cue_span hcue, htext]
      rfl

end

/-! ## the two formats -/

section
variable (lib : Library) (language : Text)

/-- one iteration of the loop of `parse_srt` -/
def srtStep (cues : List TimelineCue) (block : Text) : Except TimelineErr (List TimelineCue) := do
  return cues ++ [← srtCue lib language cues.length block]

/-- one iteration of the loop of `parse_webvtt` -/
def vttStep (cues : List TimelineCue) (block : Text) : Except TimelineErr (List TimelineCue) :=
  if skipsBlock block then return cues
  else do return cues ++ [← vttCue lib language cues.length block]

variable {lib language}

theorem srtStep_appends : Appends (srtStep lib language) := by
  intro cues block out h
  simp only [srtStep, bind_eq_ok, pure_eq_ok] at h
  obtain ⟨c, hc, rfl⟩ := h
  exact .inr ⟨c, rfl, srtCue_trimmed hc⟩

theorem vttStep_appends : Appends (vttStep lib language) := by
  intro cues block out h
  unfold vttStep at h
  split at h
  · cases h
    exact .inl rfl
  · simp only [bind_eq_ok, pure_eq_ok] at h
    obtain ⟨c, hc, rfl⟩ := h
    exact .inr ⟨c, rfl, vttCue_trimmed hc⟩

variable (texts : Option (Text → Option Text))

def srtRow (cue : TimelineCue) (index : Nat) : Row where
  head := Nat.toDigits 10 index ++ '\n' :: (timeLine ',' cue ++ ['\n'])
  start := cue.start_ms
  stop := cue.end_ms
  text := shownText texts cue

def vttRow (cue : TimelineCue) : Row where
  head := timeLine '.' cue ++ ['\n']
  start := cue.start_ms
  stop := cue.end_ms
  text := shownText texts cue

/-- the times of a cue are short enough for both formats -/
def ShortTimes (cue : TimelineCue) : Prop := cue.end_ms < 3600000 * 1000

variable {texts} {cue : TimelineCue} {index : Nat} {sep : Char}

theorem digits_plain : ∀ c ∈ Nat.toDigits 10 index, c.isDigit = true :=
  fun _ hc => Nat.isDigit_of_mem_toDigits (by decide) (by decide) hc

theorem all_of_forall {p : Char → Bool} {s : Text} (h : ∀ c ∈ s, p c = false) : s.all (fun c => !p c) = true :=
  List.all_eq_true.mpr (fun c hc => by rw [h c hc]; rfl)

/-- the times of a line are read -/
theorem timeLine_times (hsep : IsPoint sep) (ht : ShortTimes cue) :
    arrowParts (timeLine sep cue) = [formatTime cue.start_ms sep, formatTime cue.end_ms sep] ∧
      (∀ ms, strip (formatTime ms sep) = formatTime ms sep) ∧ cue.start_ms < 3600000 * 1000 :=
  ⟨arrowParts_timeLine hsep, fun _ => strip_of_no_space (fun _ hc => (formatTime_plain hsep hc).1),
    Nat.lt_trans cue.valid_times ht⟩

theorem srtRow_readable (ht : ShortTimes cue) :
    (srtRow texts cue index).Readable lib language (srtStep lib language) := by
  have hpoint : IsPoint ',' := .inl rfl
  obtain ⟨harrow, hstrip, hstart⟩ := timeLine_times hpoint ht
  have hindex : ∀ c ∈ Nat.toDigits 10 index, isSpace c = false ∧ isBreak c = false ∧ c ≠ '\n' :=
    fun c hc => isDigit_plain (digits_plain c hc)
  have hhead : ∀ p, (srtRow texts cue index).head ++ p =
      Nat.toDigits 10 index ++ '\n' :: (timeLine ',' cue ++ '\n' :: p) := by
    intro p
    simp [srtRow]
  constructor
  case times => exact cue.valid_times
  case splits =>
    intro t hopen
    have hline : Opens (timeLine ',' cue ++ '\n' :: t) := by
      obtain ⟨c, rest, hc, hd⟩ := timeLine_head ',' cue
      exact ⟨c, rest ++ '\n' :: t, by rw [hc]; rfl, (isDigit_plain hd).2.2⟩
    rw [hhead, splitBlocks_line (fun h => (hindex _ h).2.2 rfl) hline,
      splitBlocks_line (fun h => (timeLine_plain hpoint _ h).2 rfl) hopen, consHead_consHead]
    congr 1
    simp [srtRow]
  case reads =>
    intro cues p hp
    obtain ⟨text, rest, hlines⟩ := List.exists_cons_of_ne_nil hp
    have hblock : splitLines ((srtRow texts cue index).head ++ p) =
        Nat.toDigits 10 index :: timeLine ',' cue :: text :: rest := by
      rw [hhead, splitLines_append (all_of_forall (fun c hc => (hindex c hc).2.1)),
        splitLines_append (all_of_forall (fun c hc => (timeLine_plain hpoint c hc).1)), hlines]
    have hnumber : (strip (Nat.toDigits 10 index) != [] &&
        (strip (Nat.toDigits 10 index)).all lib.digits.isdigit) = true := by
      rw [strip_of_no_space (fun c hc => (hindex c hc).1), Bool.and_eq_true]
      exact ⟨bne_iff_ne.mpr Nat.toDigits_ne_nil,
        List.all_eq_true.mpr (fun c hc => lib.digits.isdigit_ascii c (digits_plain c hc))⟩
    have hcue : srtCue lib language cues.length ((srtRow texts cue index).head ++ p) =
        lib.cue language cues.length cue.start_ms cue.end_ms (text :: rest) := by
      unfold srtCue
      rw [hblock]
      dsimp only [List.headD_cons]
      rw [require_pos (by simp), ok_bind]
      simp only [hnumber, if_true, List.tail_cons]
      rw [harrow]
      dsimp only
      rw [hstrip, hstrip, srtTime_format hstart, srtTime_format ht]
      rfl
    unfold srtStep
    rw [hcue, hlines]
    show (lib.cue language cues.length cue.start_ms cue.end_ms (text :: rest) >>= fun c => pure (cues ++ [c])) = _
    show _ = (lib.cue language cues.length cue.start_ms cue.end_ms (text :: rest)).map _
    cases lib.cue language cues.length cue.start_ms cue.end_ms (text :: rest) <;> rfl

theorem vttRow_readable (ht : ShortTimes cue) :
    (vttRow texts cue).Readable lib language (vttStep lib language) := by
  have hpoint : IsPoint '.' := .inr rfl
  obtain ⟨harrow, hstrip, hstart⟩ := timeLine_times hpoint ht
  have hhead : ∀ p, (vttRow texts cue).head ++ p = timeLine '.' cue ++ '\n' :: p := by
    intro p
    simp [vttRow]
  constructor
  case times => exact cue.valid_times
  case splits =>
    intro t hopen
    rw [hhead, splitBlocks_line (fun h => (timeLine_plain hpoint _ h).2 rfl) hopen]
    rfl
  case reads =>
    intro cues p hp
    obtain ⟨text, rest, hlines⟩ := List.exists_cons_of_ne_nil hp
    have hblock : splitLines ((vttRow texts cue).head ++ p) = timeLine '.' cue :: text :: rest := by
      rw [hhead, splitLines_append (all_of_forall (fun c hc => (timeLine_plain hpoint c hc).1)), hlines]
    obtain ⟨c, tail, hc, hd⟩ := timeLine_head '.' cue
    have hkeep : skipsBlock ((vttRow texts cue).head ++ p) = false := by
      rw [hhead, hc]
      unfold skipsBlock
      rw [Bool.or_eq_false_iff]
      constructor
      · show (isSpace c && _) = false
        rw [(isDigit_plain hd).1, Bool.false_and]
      · have hletters : c ≠ 'N' ∧ c ≠ 'S' ∧ c ≠ 'R' := by
          refine ⟨?_, ?_, ?_⟩ <;> (rintro rfl; exact absurd hd (by decide))
        simp [List.isPrefixOf, hletters.1.symm, hletters.2.1.symm, hletters.2.2.symm]
    have harrow' : hasArrow (timeLine '.' cue) = true := by
      unfold hasArrow
      rw [harrow]
      rfl
    have htoken : (strip (formatTime cue.end_ms '.')).takeWhile (fun c => !isSpace c) = formatTime cue.end_ms '.' := by
      rw [hstrip]
      exact takeWhile_of_no_space (fun _ hc => (formatTime_plain hpoint hc).1)
    have hcue : vttCue lib language cues.length ((vttRow texts cue).head ++ p) =
        lib.cue language cues.length cue.start_ms cue.end_ms (text :: rest) := by
      unfold vttCue
      rw [hblock]
      dsimp only [List.headD_cons]
      simp only [harrow', if_true]
      rw [require_pos trivial, ok_bind, harrow]
      dsimp only
      rw [htoken, require_pos (formatTime_ne_nil _ _), ok_bind, hstrip, vttTime_format hstart, vttTime_format ht]
      rfl
    unfold vttStep
    rw [if_neg (by rw [hkeep]; exact Bool.false_ne_true), hcue, hlines]
    show (lib.cue language cues.length cue.start_ms cue.end_ms (text :: rest) >>= fun c => pure (cues ++ [c])) = _
    show _ = (lib.cue language cues.length cue.start_ms cue.end_ms (text :: rest)).map _
    cases lib.cue language cues.length cue.start_ms cue.end_ms (text :: rest) <;> rfl

end

/-! ## whole files -/

inductive SubtitleKind where
  | srt | vtt

section
variable (lib : Library) (language : Text) (kind : SubtitleKind) (cues : List TimelineCue)
  (texts : Option (Text → Option Text))

def SubtitleKind.serialize : Except TimelineErr ByteArray :=
  match kind with
  | .srt => serializeSrt cues texts
  | .vtt => serializeWebvtt cues texts

/-- `parse_subtitles` -/
def parseSubtitles (payload : ByteArray) : Except TimelineErr (List TimelineCue) :=
  match kind with
  | .srt => parseSrt lib payload language
  | .vtt => parseWebvtt lib payload language

def SubtitleKind.rows : List Row :=
  match kind with
  | .srt => (cues.zipIdx 1).map (fun x => srtRow texts x.1 x.2)
  | .vtt => cues.map (vttRow texts)

def SubtitleKind.header : Text :=
  match kind with
  | .srt => []
  | .vtt => "WEBVTT\n\n".toList

def SubtitleKind.step : List TimelineCue → Text → Except TimelineErr (List TimelineCue) :=
  match kind with
  | .srt => srtStep lib language
  | .vtt => vttStep lib language

/-- the cues of a file, without its header -/
def rowsText (rows : List Row) : Text := joinBlocks (rows.map (fun r => r.head ++ r.text)) ++ ['\n']

/-- the whole file -/
def SubtitleKind.file : Text := kind.header ++ rowsText (kind.rows cues texts)

/-- what is read back is what was written -/
def RoundTrips : Prop :=
  ∃ payload, kind.serialize cues texts = .ok payload ∧ ∃ cues', parseSubtitles lib language kind payload = .ok cues' ∧
    cues'.map TimelineCue.span = cues.map (fun c => (c.start_ms, c.end_ms, shownText texts c))

variable {lib language kind cues texts}

theorem validateOrder_eq_ok {cs ds : List TimelineCue} : validateOrder cs = .ok ds ↔
    (cs ≠ [] ∧ cs.length ≤ MAX_CUES) ∧ cs.IsChain (fun a b => a.start_ms ≤ b.start_ms) ∧ cs = ds := by
  simp only [validateOrder, bind_eq_ok, require_eq_ok, pure_eq_ok]
  constructor
  · rintro ⟨_, h1, _, h2, h3⟩
    exact ⟨h1, h2, h3⟩
  · rintro ⟨h1, h2, h3⟩
    exact ⟨(), h1, (), h2, h3⟩

/-- the order of cues is the order of their times -/
theorem validateOrder_span {cs ds : List TimelineCue} (h : validateOrder cs = .ok cs)
    (hspan : ds.map (fun c => c.span.1) = cs.map (fun c => c.span.1)) : validateOrder ds = .ok ds := by
  rw [validateOrder_eq_ok] at h ⊢
  obtain ⟨⟨hne, hlen⟩, hchain, -⟩ := h
  have hl : ds.length = cs.length := by simpa using congrArg List.length hspan
  have hmap : ∀ l : List TimelineCue, l.IsChain (fun a b => a.start_ms ≤ b.start_ms) ↔
      (l.map (fun c => c.span.1)).IsChain (· ≤ ·) := fun l => (List.isChain_map _).symm
  refine ⟨⟨fun e => hne ?_, by omega⟩, ?_, rfl⟩
  · rw [e] at hl
    exact List.length_eq_zero_iff.mp hl.symm
  · rw [hmap, hspan, ← hmap]
    exact hchain

theorem rows_span (kind : SubtitleKind) (cues : List TimelineCue) (texts : Option (Text → Option Text)) :
    (kind.rows cues texts).map Row.span = cues.map (fun c => (c.start_ms, c.end_ms, shownText texts c)) := by
  cases kind with
  | srt =>
    show ((cues.zipIdx 1).map _).map _ = _
    rw [List.map_map]
    have hfst : ((cues.zipIdx 1).map Prod.fst) = cues := List.zipIdx_map_fst 1 cues
    have hcomp : (Row.span ∘ fun x : TimelineCue × Nat => srtRow texts x.1 x.2) =
        (fun c : TimelineCue => (c.start_ms, c.end_ms, shownText texts c)) ∘ Prod.fst := rfl
    rw [hcomp, ← List.map_map, hfst]
  | vtt =>
    show (cues.map _).map _ = _
    rw [List.map_map]
    rfl

theorem mem_rows {r : Row} (h : r ∈ kind.rows cues texts) : ∃ c ∈ cues, r.text = shownText texts c := by
  cases kind with
  | srt =>
    obtain ⟨x, hx, rfl⟩ := List.mem_map.mp h
    exact ⟨x.1, List.fst_mem_of_mem_zipIdx hx, rfl⟩
  | vtt =>
    obtain ⟨c, hc, rfl⟩ := List.mem_map.mp h
    exact ⟨c, hc, rfl⟩

theorem row_of_mem (kind : SubtitleKind) (texts : Option (Text → Option Text)) {c : TimelineCue} (h : c ∈ cues) : ∃ r ∈ kind.rows cues texts, r.text = shownText texts c := by
  have hspan : (c.start_ms, c.end_ms, shownText texts c) ∈ (kind.rows cues texts).map Row.span := by
    rw [rows_span]
    exact List.mem_map_of_mem h
  obtain ⟨r, hr, e⟩ := List.mem_map.mp hspan
  exact ⟨r, hr, congrArg (·.2.2) e⟩

/-! ### what is written -/

/-- the lines of rows, an empty one after each, are the text of the rows -/
theorem rowsText_lines {α : Type} {xs : List α} (f : α → Row) (lines : α → List Text) (hxs : xs ≠ [])
    (h : ∀ x, lines x ≠ [] ∧ joinLines (lines x) = (f x).head ++ (f x).text) :
    joinLines (xs.map (fun x => lines x ++ [[]])).flatten = rowsText (xs.map f) := by
  have hlines : ∀ l ∈ xs.map lines, l ≠ [] := by
    intro l hl
    obtain ⟨x, -, rfl⟩ := List.mem_map.mp hl
    exact (h x).1
  have hjoin := joinLines_rows (by simpa using hxs) hlines
  rw [List.flatMap_map, List.map_map] at hjoin
  rw [← List.flatMap_def, hjoin, rowsText, List.map_map]
  congr 2
  exact List.map_congr_left (fun x _ => (h x).2)

theorem serializeSrt_eq_ok (hval : validateOrder cues = .ok cues) {payload : ByteArray} :
    serializeSrt cues texts = .ok payload ↔ (∀ c ∈ cues, Showable (shownText texts c)) ∧
      payload = (String.ofList (SubtitleKind.srt.file cues texts)).toByteArray := by
  have hne : cues.zipIdx 1 ≠ [] := by
    intro e
    have hlen := congrArg List.length e
    rw [List.length_zipIdx] at hlen
    exact (validateOrder_eq_ok.mp hval).1.1 (List.length_eq_zero_iff.mp hlen)
  have hfile : joinLines ((cues.zipIdx 1).map
      (fun x => [Nat.toDigits 10 x.2, timeLine ',' x.1, shownText texts x.1, []])).flatten =
      SubtitleKind.srt.file cues texts :=
    rowsText_lines (fun x : TimelineCue × Nat => srtRow texts x.1 x.2)
      (fun x => [Nat.toDigits 10 x.2, timeLine ',' x.1, shownText texts x.1]) hne
      (fun x => ⟨List.cons_ne_nil _ _, by simp [joinLines, srtRow]⟩)
  have hmem : (∀ x ∈ cues.zipIdx 1, Showable (shownText texts x.1)) ↔ ∀ c ∈ cues, Showable (shownText texts c) := by
    constructor
    · intro h c hc
      rw [← List.zipIdx_map_fst 1 cues] at hc
      obtain ⟨x, hx, rfl⟩ := List.mem_map.mp hc
      exact h x hx
    · exact fun h x hx => h x.1 (List.fst_mem_of_mem_zipIdx hx)
  have hrows : ∀ rows, each (fun x : TimelineCue × Nat =>
      (require (Showable (shownText texts x.1)) (.timeline "translated subtitle text is missing or invalid") :
        Except TimelineErr PUnit) >>= fun _ =>
        pure [Nat.toDigits 10 x.2, timeLine ',' x.1, shownText texts x.1, []]) (cues.zipIdx 1) = .ok rows ↔
      (∀ x ∈ cues.zipIdx 1, Showable (shownText texts x.1)) ∧
        rows = (cues.zipIdx 1).map (fun x => [Nat.toDigits 10 x.2, timeLine ',' x.1, shownText texts x.1, []]) :=
    fun _ => each_require
  unfold serializeSrt
  rw [hval, ok_bind, bind_eq_ok]
  constructor
  · rintro ⟨rows, hrow, hp⟩
    obtain ⟨hshow, rfl⟩ := (hrows _).mp hrow
    rw [hfile] at hp
    exact ⟨hmem.mp hshow, (pure_eq_ok.mp hp).symm⟩
  · rintro ⟨hshow, rfl⟩
    refine ⟨_, (hrows _).mpr ⟨hmem.mpr hshow, rfl⟩, ?_⟩
    rw [hfile]
    rfl

theorem serializeWebvtt_eq_ok (hval : validateOrder cues = .ok cues) {payload : ByteArray} :
    serializeWebvtt cues texts = .ok payload ↔ (∀ c ∈ cues, Showable (shownText texts c)) ∧
      payload = (String.ofList (SubtitleKind.vtt.file cues texts)).toByteArray := by
  have hne : cues ≠ [] := (validateOrder_eq_ok.mp hval).1.1
  have hlines := rowsText_lines (vttRow texts) (fun c => [timeLine '.' c, shownText texts c]) hne
    (fun c => ⟨List.cons_ne_nil _ _, by simp [joinLines, vttRow]⟩)
  have hfile : joinLines ("WEBVTT".toList :: [] ::
      (cues.map (fun c => [timeLine '.' c, shownText texts c, []])).flatten) = SubtitleKind.vtt.file cues texts := by
    have hbody : (cues.map (fun c => [timeLine '.' c, shownText texts c, []])).flatten ≠ [] := by
      obtain ⟨c, cs, rfl⟩ := List.exists_cons_of_ne_nil hne
      exact List.cons_ne_nil _ _
    show "WEBVTT".toList ++ '\n' :: joinLines ([] :: _) = _
    rw [joinLines_nil_cons hbody]
    exact congrArg (fun t => "WEBVTT\n\n".toList ++ t) hlines
  have hrows : ∀ rows, each (fun c : TimelineCue =>
      (require (Showable (shownText texts c)) (.timeline "translated subtitle text is missing or invalid") :
        Except TimelineErr PUnit) >>= fun _ => pure [timeLine '.' c, shownText texts c, []]) cues = .ok rows ↔
      (∀ c ∈ cues, Showable (shownText texts c)) ∧
        rows = cues.map (fun c => [timeLine '.' c, shownText texts c, []]) :=
    fun _ => each_require
  unfold serializeWebvtt
  rw [hval, ok_bind, bind_eq_ok]
  constructor
  · rintro ⟨rows, hrow, hp⟩
    obtain ⟨hshow, rfl⟩ := (hrows _).mp hrow
    rw [hfile] at hp
    exact ⟨hshow, (pure_eq_ok.mp hp).symm⟩
  · rintro ⟨hshow, rfl⟩
    refine ⟨_, (hrows _).mpr ⟨hshow, rfl⟩, ?_⟩
    rw [hfile]
    rfl

theorem serialize_eq_ok (hval : validateOrder cues = .ok cues) {payload : ByteArray} :
    kind.serialize cues texts = .ok payload ↔ (∀ c ∈ cues, Showable (shownText texts c)) ∧
      payload = (String.ofList (kind.file cues texts)).toByteArray := by
  cases kind with
  | srt => exact serializeSrt_eq_ok hval
  | vtt => exact serializeWebvtt_eq_ok hval

/-! ### what is read -/

/-- a text that was encoded is decoded -/
theorem utf8Decode_ofList (text : Text) : (String.ofList text).toByteArray.utf8Decode? = some text.toArray := by
  rw [String.toByteArray_ofList]
  exact List.utf8Decode?_utf8Encode

/-- a payload that was written decodes to its text, but for carriage returns -/
theorem decodePayload_eq_ok {text text' : Text} (hne : text ≠ []) (hbom : text.head? ≠ some '\uFEFF') :
    decodePayload (String.ofList text).toByteArray = .ok text' ↔
      (String.ofList text).toByteArray.size ≤ MAX_SUBTITLE_BYTES ∧ '\x00' ∉ text ∧ unixLines text = text' := by
  have hdecode := utf8Decode_ofList text
  have hsize : (String.ofList text).toByteArray.size ≠ 0 := by
    intro h
    have hempty : (String.ofList text).toByteArray = ByteArray.empty := ByteArray.size_eq_zero_iff.mp h
    rw [hempty] at hdecode
    have : some text.toArray = some #[] := hdecode.symm
    exact hne (by simpa using this)
  unfold decodePayload
  simp only [bind_eq_ok, require_eq_ok, fetch_eq_ok, hdecode, pure_eq_ok]
  constructor
  · rintro ⟨_, ⟨-, hle⟩, _, ha, _, hnul, h⟩
    obtain rfl := Option.some.inj ha
    rw [if_neg (by simpa using hbom)] at hnul h
    exact ⟨hle, hnul, h⟩
  · rintro ⟨hle, hnul, h⟩
    refine ⟨(), ⟨hsize, hle⟩, _, rfl, (), ?_, ?_⟩ <;> rw [if_neg (by simpa using hbom)]
    · exact hnul
    · exact h

/-- a character that is not changed on the way through a file -/
def Clean (c : Char) : Prop := isControl c = false ∧ (isBreak c = true → c = '\n')

instance (c : Char) : Decidable (Clean c) := inferInstanceAs (Decidable (_ ∧ _))

theorem clean_newline : Clean '\n' := ⟨by decide, fun _ => rfl⟩

theorem clean_digit {c : Char} (h : c.isDigit = true) : Clean c := by
  have hd : 48 ≤ c.toNat ∧ c.toNat ≤ 57 := Char.isDigit_iff_toNat.mp h
  refine ⟨?_, fun hb => ?_⟩
  · unfold isControl
    rw [decide_eq_false (by omega), Bool.false_and, Bool.false_and]
  · rw [(isDigit_plain h).2.1] at hb
    cases hb

theorem clean_timeLine {c sep : Char} {cue : TimelineCue} (hsep : IsPoint sep) (h : c ∈ timeLine sep cue) : Clean c := by
  refine ⟨?_, fun hb => ?_⟩
  · have htime : ∀ ms, c ∈ formatTime ms sep → isControl c = false := by
      intro ms hc
      rcases mem_formatTime hc with hc | rfl | rfl
      · exact (clean_digit hc).1
      · decide
      · rcases hsep with rfl | rfl <;> decide
    unfold timeLine at h
    rcases List.mem_append.mp h with h | h
    · rcases List.mem_append.mp h with h | h
      · exact htime _ h
      · have hall : " --> ".toList.all (fun c => !isControl c) = true := by decide
        simpa using List.all_eq_true.mp hall c h
    · exact htime _ h
  · rw [(timeLine_plain hsep c h).1] at hb
    cases hb

/-- a row begins with a digit, and its lines before the text are clean -/
theorem head_clean {r : Row} (h : r ∈ kind.rows cues texts) :
    (∃ c t, r.head = c :: t ∧ c.isDigit = true) ∧ ∀ c ∈ r.head, Clean c := by
  have hline : ∀ {sep} {cue : TimelineCue}, IsPoint sep → ∀ c ∈ timeLine sep cue ++ ['\n'], Clean c := by
    intro sep cue hsep c hc
    rcases List.mem_append.mp hc with hc | hc
    · exact clean_timeLine hsep hc
    · rw [List.mem_singleton.mp hc]
      exact clean_newline
  cases kind with
  | srt =>
    obtain ⟨x, -, rfl⟩ := List.mem_map.mp h
    obtain ⟨c, t, hc⟩ := List.exists_cons_of_ne_nil (Nat.toDigits_ne_nil (n := x.2) (b := 10))
    refine ⟨⟨c, t ++ '\n' :: (timeLine ',' x.1 ++ ['\n']), ?_, ?_⟩, fun a ha => ?_⟩
    · show Nat.toDigits 10 x.2 ++ _ = _
      rw [hc]
      rfl
    · exact digits_plain c (by rw [hc]; exact List.mem_cons_self)
    · rcases List.mem_append.mp ha with ha | ha
      · exact clean_digit (digits_plain a ha)
      · rcases List.mem_cons.mp ha with rfl | ha
        · exact clean_newline
        · exact hline (.inl rfl) a ha
  | vtt =>
    obtain ⟨cue, -, rfl⟩ := List.mem_map.mp h
    obtain ⟨c, t, hc, hd⟩ := timeLine_head '.' cue
    refine ⟨⟨c, t ++ ['\n'], ?_, hd⟩, hline (.inr rfl)⟩
    show timeLine '.' cue ++ ['\n'] = _
    rw [hc]
    rfl

/-- a text whose ends and characters a file does not change -/
def Steady (text : Text) : Prop := Sharp text ∧ ∀ c ∈ text, Clean c

theorem steady_of_carried {text : Text} (h : Carried text) : Steady text :=
  ⟨sharp_iff.mpr ⟨h.showable.ne_nil, h.stripped⟩, fun c hc => ⟨h.printable c hc, h.lines c hc⟩⟩

/-- the blocks of a file are sharp and clean when its texts are -/
theorem block_steady (h : ∀ c ∈ cues, Steady (shownText texts c)) {r : Row} (hr : r ∈ kind.rows cues texts) :
    Steady (r.head ++ r.text) := by
  obtain ⟨c, hc, htext⟩ := mem_rows hr
  obtain ⟨⟨d, t, hhead, hd⟩, hclean⟩ := head_clean hr
  rw [htext]
  refine ⟨Sharp.append ⟨d, t, hhead, (isDigit_plain hd).1⟩ (h c hc).1, fun x hx => ?_⟩
  rcases List.mem_append.mp hx with hx | hx
  · exact hclean x hx
  · exact (h c hc).2 x hx

section
variable {rows : List Row}

theorem rowsText_clean (h : ∀ r ∈ rows, Steady (r.head ++ r.text)) : ∀ c ∈ rowsText rows, Clean c := by
  intro c hc
  rcases List.mem_append.mp hc with hc | hc
  · rcases mem_joinBlocks hc with rfl | ⟨b, hb, hcb⟩
    · exact clean_newline
    · obtain ⟨r, hr, rfl⟩ := List.mem_map.mp hb
      exact (h r hr).2 c hcb
  · rw [List.mem_singleton.mp hc]
    exact clean_newline

theorem strip_rowsText (hne : rows ≠ []) (h : ∀ r ∈ rows, Steady (r.head ++ r.text)) :
    Sharp (joinBlocks (rows.map (fun r => r.head ++ r.text))) ∧
      strip (rowsText rows) = joinBlocks (rows.map (fun r => r.head ++ r.text)) := by
  have hsharp : Sharp (joinBlocks (rows.map (fun r => r.head ++ r.text))) := by
    refine sharp_joinBlocks (by simpa using hne) (fun b hb => ?_)
    obtain ⟨r, hr, rfl⟩ := List.mem_map.mp hb
    exact (h r hr).1
  refine ⟨hsharp, ?_⟩
  unfold rowsText
  rw [strip_concat (by decide), (sharp_iff.mp hsharp).2]

/-- the blocks a parser sees -/
theorem splitBlocks_rowsText (hne : rows ≠ []) (h : ∀ r ∈ rows, Steady (r.head ++ r.text)) :
    splitBlocks (strip (rowsText rows)) = rowBlocks rows := by
  have hsharp : ∀ b ∈ rows.map (fun r => r.head ++ r.text), Opens b ∧ Closes b := by
    intro b hb
    obtain ⟨r, hr, rfl⟩ := List.mem_map.mp hb
    exact (h r hr).1.opens
  rw [(strip_rowsText hne h).2, splitBlocks_joinBlocks (by simpa using hne) (fun b hb => (hsharp b hb).1)
    (fun b hb => (hsharp b hb).2), List.flatMap_map]
  rfl

/-- as the lines after the header are joined again, only a last newline may be lost -/
theorem strip_joinLines_rowsText (h : ∀ r ∈ rows, Steady (r.head ++ r.text)) :
    strip (joinLines ([] :: splitLines (rowsText rows))) = strip (rowsText rows) := by
  have hlines : splitLines (rowsText rows) ≠ [] := splitLines_ne_nil (List.append_ne_nil_of_right_ne_nil _ (by simp))
  have hall : (rowsText rows).all (fun c => c == '\n' || !isBreak c) = true := by
    refine List.all_eq_true.mpr (fun c hc => ?_)
    cases hb : isBreak c with
    | false => simp
    | true => simp [(rowsText_clean h c hc).2 hb]
  rw [joinLines_nil_cons hlines, strip_cons (by decide)]
  rcases joinLines_splitLines hall with e | e
  · rw [← e]
  · have e' : strip (rowsText rows) = strip (joinLines (splitLines (rowsText rows)) ++ ['\n']) := by rw [← e]
    rw [e', strip_concat (by decide)]

end

/-- whatever is parsed went through the loop -/
theorem parse_thread {payload : ByteArray} {out : List TimelineCue}
    (h : parseSubtitles lib language kind payload = .ok out) :
    ∃ blocks, thread (kind.step lib language) [] blocks = .ok out := by
  cases kind with
  | srt =>
    simp only [parseSubtitles, parseSrt, bind_eq_ok] at h
    obtain ⟨text, -, out', hthread, hval⟩ := h
    obtain ⟨-, -, rfl⟩ := validateOrder_eq_ok.mp hval
    exact ⟨_, hthread⟩
  | vtt =>
    simp only [parseSubtitles, parseWebvtt, bind_eq_ok] at h
    obtain ⟨text, -, _, -, out', hthread, hval⟩ := h
    obtain ⟨-, -, rfl⟩ := validateOrder_eq_ok.mp hval
    exact ⟨_, hthread⟩

theorem step_appends : Appends (kind.step lib language) := by
  cases kind with
  | srt => exact srtStep_appends
  | vtt => exact vttStep_appends

/-- a file begins with a digit, or with its header -/
theorem file_head (kind : SubtitleKind) (texts : Option (Text → Option Text)) (hne : cues ≠ []) : ∃ c t, kind.file cues texts = c :: t ∧ c ≠ '\uFEFF' := by
  cases kind with
  | vtt => exact ⟨'W', _, rfl, by decide⟩
  | srt =>
    have hrne : SubtitleKind.srt.rows cues texts ≠ [] := by
      intro e
      have hspan := rows_span .srt cues texts
      rw [e] at hspan
      exact hne (List.map_eq_nil_iff.mp hspan.symm)
    obtain ⟨r, rs, hr⟩ := List.exists_cons_of_ne_nil hrne
    have hfirst : r ∈ SubtitleKind.srt.rows cues texts := by
      rw [hr]
      exact List.mem_cons_self
    obtain ⟨⟨c, t, hhead, hc⟩, -⟩ := head_clean hfirst
    obtain ⟨rest, hrest⟩ := joinBlocks_cons (r.head ++ r.text) (rs.map (fun r => r.head ++ r.text))
    refine ⟨c, t ++ r.text ++ rest ++ ['\n'], ?_, ?_⟩
    · show [] ++ rowsText _ = _
      unfold rowsText
      rw [hr, List.map_cons, hrest, hhead]
      simp
    · rintro rfl
      exact absurd hc (by decide)

/-- **What is parsed from a file whose texts are steady**: its rows, block by block. -/
theorem parse_file (hne : cues ≠ []) (hsteady : ∀ c ∈ cues, Steady (shownText texts c)) {out : List TimelineCue} :
    parseSubtitles lib language kind (String.ofList (kind.file cues texts)).toByteArray = .ok out ↔
      (String.ofList (kind.file cues texts)).toByteArray.size ≤ MAX_SUBTITLE_BYTES ∧
        thread (kind.step lib language) [] (rowBlocks (kind.rows cues texts)) = .ok out ∧
        validateOrder out = .ok out := by
  have hrows : ∀ r ∈ kind.rows cues texts, Steady (r.head ++ r.text) := fun r hr => block_steady hsteady hr
  have hrne : kind.rows cues texts ≠ [] := by
    intro e
    have hspan := rows_span kind cues texts
    rw [e] at hspan
    exact hne (List.map_eq_nil_iff.mp hspan.symm)
  have hheader : ∀ c ∈ kind.header, Clean c := by
    have hall : (SubtitleKind.vtt.header).all (fun c => decide (Clean c)) = true := by decide
    intro c hc
    cases kind with
    | srt => cases hc
    | vtt => exact of_decide_eq_true (List.all_eq_true.mp hall c hc)
  have hclean : ∀ c ∈ kind.file cues texts, Clean c := by
    intro c hc
    rcases List.mem_append.mp hc with hc | hc
    · exact hheader c hc
    · exact rowsText_clean hrows c hc
  have hnul : '\x00' ∉ kind.file cues texts := fun h => absurd (hclean _ h).1 (by decide)
  have hcr : unixLines (kind.file cues texts) = kind.file cues texts :=
    unixLines_eq_self (fun h => absurd (hclean _ h).1 (by decide))
  obtain ⟨c, t, hfile, hbom⟩ := file_head kind texts hne
  have hdecode : ∀ text, decodePayload (String.ofList (kind.file cues texts)).toByteArray = .ok text ↔
      (String.ofList (kind.file cues texts)).toByteArray.size ≤ MAX_SUBTITLE_BYTES ∧ kind.file cues texts = text := by
    intro text
    rw [decodePayload_eq_ok (by rw [hfile]; exact List.cons_ne_nil _ _) (by rw [hfile]; simpa using hbom), hcr]
    exact ⟨fun ⟨h1, _, h2⟩ => ⟨h1, h2⟩, fun ⟨h1, h2⟩ => ⟨h1, hnul, h2⟩⟩
  have hval : ∀ x, validateOrder x = .ok out ↔ x = out ∧ validateOrder out = .ok out := by
    intro x
    rw [validateOrder_eq_ok, validateOrder_eq_ok]
    exact ⟨fun ⟨h1, h2, h3⟩ => ⟨h3, h3 ▸ h1, h3 ▸ h2, rfl⟩, fun ⟨h1, h2, h3, _⟩ => ⟨h1 ▸ h2, h1 ▸ h3, h1⟩⟩
  cases kind with
  | srt =>
    have hblocks := splitBlocks_rowsText hrne hrows
    simp only [parseSubtitles, parseSrt, bind_eq_ok, hdecode]
    constructor
    · rintro ⟨text, ⟨hsize, rfl⟩, out', hthread, hout⟩
      obtain ⟨rfl, hok⟩ := (hval _).mp hout
      refine ⟨hsize, ?_, hok⟩
      rw [← hblocks]
      exact hthread
    · rintro ⟨hsize, hthread, hok⟩
      refine ⟨_, ⟨hsize, rfl⟩, out, ?_, hok⟩
      rw [← hblocks] at hthread
      exact hthread
  | vtt =>
    have hlines : splitLines (SubtitleKind.vtt.file cues texts) =
        "WEBVTT".toList :: [] :: splitLines (rowsText (SubtitleKind.vtt.rows cues texts)) := by
      show splitLines ("WEBVTT".toList ++ '\n' :: ([] ++ '\n' :: rowsText _)) = _
      rw [splitLines_append (by decide), splitLines_append rfl]
    have hblocks : splitBlocks (strip (joinLines (splitLines (SubtitleKind.vtt.file cues texts)).tail)) =
        rowBlocks (SubtitleKind.vtt.rows cues texts) := by
      rw [hlines, List.tail_cons, strip_joinLines_rowsText hrows, splitBlocks_rowsText hrne hrows]
    simp only [parseSubtitles, parseWebvtt, bind_eq_ok, require_eq_ok, hdecode]
    constructor
    · rintro ⟨text, ⟨hsize, rfl⟩, -, -, out', hthread, hout⟩
      obtain ⟨rfl, hok⟩ := (hval _).mp hout
      refine ⟨hsize, ?_, hok⟩
      rw [← hblocks]
      exact hthread
    · rintro ⟨hsize, hthread, hok⟩
      refine ⟨_, ⟨hsize, rfl⟩, (), ?_, out, ?_, hok⟩
      · rw [hlines]
        exact ⟨List.cons_ne_nil _ _, rfl⟩
      · rw [← hblocks] at hthread
        exact hthread

theorem rows_readable (hshort : ∀ c ∈ cues, ShortTimes c) {r : Row} (h : r ∈ kind.rows cues texts) :
    r.Readable lib language (kind.step lib language) := by
  cases kind with
  | srt =>
    obtain ⟨x, hx, rfl⟩ := List.mem_map.mp h
    exact srtRow_readable (hshort _ (List.fst_mem_of_mem_zipIdx hx))
  | vtt =>
    obtain ⟨c, hc, rfl⟩ := List.mem_map.mp h
    exact vttRow_readable (hshort c hc)

/-- texts that come back are steady -/
theorem steady_of_parsed {out : List TimelineCue} {payload : ByteArray}
    (hparse : parseSubtitles lib language kind payload = .ok out)
    (hout : out.map TimelineCue.span = cues.map (fun c => (c.start_ms, c.end_ms, shownText texts c)))
    (hshow : ∀ c ∈ cues, Showable (shownText texts c)) : ∀ c ∈ cues, Steady (shownText texts c) := by
  intro c hc
  obtain ⟨blocks, hthread⟩ := parse_thread hparse
  obtain ⟨new, hnil, hnew⟩ := step_appends.thread hthread
  rw [List.nil_append] at hnil
  have hmem : (c.start_ms, c.end_ms, shownText texts c) ∈ out.map TimelineCue.span := by
    rw [hout]
    exact List.mem_map_of_mem hc
  obtain ⟨x, hx, hspan⟩ := List.mem_map.mp hmem
  have htext : x.source_text = shownText texts c := congrArg (·.2.2) hspan
  rw [← htext]
  have htrim := hnew x (hnil ▸ hx)
  have hne : x.source_text ≠ [] := by
    rw [htext]
    exact (hshow c hc).ne_nil
  refine ⟨sharp_iff.mpr ⟨hne, htrim.1⟩, fun y hy => ⟨?_, htrim.2 y hy⟩⟩
  simpa using List.all_eq_true.mp x.valid_text.2.2 y hy

/-- **What a subtitle file carries**: cues come back from it iff their shown texts are carried and the file is not
larger than the parsers allow. -/
theorem roundTrips_iff (hval : validateOrder cues = .ok cues) (hshort : ∀ c ∈ cues, ShortTimes c) :
    RoundTrips lib language kind cues texts ↔ (∀ c ∈ cues, Carried (shownText texts c)) ∧
      (String.ofList (kind.file cues texts)).toByteArray.size ≤ MAX_SUBTITLE_BYTES := by
  have hne : cues ≠ [] := (validateOrder_eq_ok.mp hval).1.1
  constructor
  · rintro ⟨payload, hser, out, hparse, hout⟩
    obtain ⟨hshow, rfl⟩ := (serialize_eq_ok hval).mp hser
    have hsteady := steady_of_parsed hparse hout hshow
    obtain ⟨hsize, hthread, -⟩ := (parse_file hne hsteady).mp hparse
    refine ⟨fun c hc => ?_, hsize⟩
    have hopens : ∀ r ∈ kind.rows cues texts, Opens r.text := by
      intro r hr
      obtain ⟨c, hc, htext⟩ := mem_rows hr
      rw [htext]
      exact (hsteady c hc).1.opens.1
    have hsingle := single_of_thread step_appends (fun r hr => rows_readable hshort hr) hopens hthread
      (by rw [hout, rows_span]; rfl)
    obtain ⟨r, hr, htext⟩ := row_of_mem kind texts hc
    exact
      { showable := hshow c hc
        stripped := (sharp_iff.mp (hsteady c hc).1).2
        lines := fun x hx => ((hsteady c hc).2 x hx).2
        printable := fun x hx => ((hsteady c hc).2 x hx).1
        no_blank_line := htext ▸ hsingle r hr }
  · rintro ⟨hcar, hsize⟩
    have hcar' : ∀ r ∈ kind.rows cues texts, Carried r.text := by
      intro r hr
      obtain ⟨c, hc, htext⟩ := mem_rows hr
      rw [htext]
      exact hcar c hc
    have hrun : ∃ new, thread (kind.step lib language) [] (rowBlocks (kind.rows cues texts)) = .ok ([] ++ new) ∧
        new.map TimelineCue.span = (kind.rows cues texts).map Row.span :=
      thread_of_carried (fun r hr => rows_readable hshort hr) hcar'
    obtain ⟨new, hthread, hspan⟩ := hrun
    rw [rows_span] at hspan
    have hok : validateOrder new = .ok new := by
      refine validateOrder_span hval ?_
      have hfst := congrArg (List.map (fun s : Span => s.1)) hspan
      rw [List.map_map, List.map_map] at hfst
      exact hfst
    exact ⟨_, (serialize_eq_ok hval).mpr ⟨fun c hc => (hcar c hc).showable, rfl⟩, new,
      (parse_file hne (fun c hc => steady_of_carried (hcar c hc))).mpr ⟨hsize, hthread, hok⟩, hspan⟩

end

end OpenFlame.Editing
