import OpenFlame.Editing.Rewriting

/-!
# What the wrapping of a caption keeps

`WrapLoop max line wrapped lines`   the `while` loop of `wrap_caption_text`, and what follows it
`Wrapped max line lead rows`        what `wrap_caption_text` may do to a line
`Wraps max text result`             what it may do to a text

* `wrapLine_loop`, `wrapLine_wrapped`   the loop ends, and breaks a line so;
* `captionDisplayText_kept`             what is displayed of a caption is not blank, and fits;
* `captionRewriting`                    **the rewriting of a caption keeps what is spoken.**
-/

set_option linter.all false

namespace OpenFlame.Editing
open Guard Text

/-! ## statements -/

/-- the loop over a source line, without a bound: it goes on as long as the line is too long -/
inductive WrapLoop (max : Nat) : Text → List Text → List Text → Prop where
  | again (remaining : Text) (wrapped lines : List Text) (cut : Nat) (hlong : max < remaining.length)
      (hcut : cut = (lastBreak remaining max).getD max)
      (h : WrapLoop max ((remaining.drop cut).dropWhile (· == CAPTION_COMMA))
        (if dropComma (remaining.take cut) ≠ [] then wrapped ++ [dropComma (remaining.take cut)] else wrapped) lines) :
      WrapLoop max remaining wrapped lines
  | done (remaining : Text) (wrapped : List Text) (hfits : remaining.length ≤ max) :
      WrapLoop max remaining wrapped (if remaining ≠ [] ∨ wrapped = [] then wrapped ++ [remaining] else wrapped)

/-- a line on the screen, and the commas deleted behind it -/
abbrev Shown : Type := Text × Text

def IsCommas (s : Text) : Prop := ∀ c ∈ s, c = CAPTION_COMMA

/-- a line is its rows on the screen, with commas deleted where it was broken or ends; one that fits is left alone -/
structure Wrapped (max : Nat) (line : Text) (lead : Text) (rows : List Shown) : Prop where
  source : line = lead ++ rows.flatMap (fun r => r.1 ++ r.2)
  front : IsCommas lead
  commas : ∀ r ∈ rows, IsCommas r.2
  short : ∀ r ∈ rows, r.1.length ≤ max
  nonempty : rows ≠ []
  fits : line.length ≤ max → lead = [] ∧ rows = [(line, [])]

/-- the lines of a text on the screen are the rows of its lines -/
def Wraps (max : Nat) (text result : Text) : Prop :=
  ∃ lines : List (Text × List Shown), List.Forall₂ (fun line l => Wrapped max line l.1 l.2) (splitOn '\n' (unixLines text)) lines ∧
    splitOn '\n' result = lines.flatMap (fun l => l.2.map Prod.fst)

/-! ## the loop -/

section
variable {max fuel : Nat} {r line : Text} {wrapped : List Text}

theorem wrapFrom_loop (hmax : 1 ≤ max) (hfuel : r.length ≤ fuel) : WrapLoop max r wrapped (wrapFrom max fuel r wrapped) := by
  induction fuel generalizing r wrapped with
  | zero => exact .done r wrapped (by omega)
  | succ fuel ih =>
    unfold wrapFrom
    by_cases hlong : max < r.length
    · rw [if_pos hlong]
      exact .again r wrapped _ _ hlong rfl (ih (rest_length hmax hlong hfuel))
    · rw [if_neg hlong]
      exact .done r wrapped (Nat.not_lt.mp hlong)

/-- **The loop ends**, with the lines that are displayed. -/
theorem wrapLine_loop (hmax : 1 ≤ max) (line : Text) : WrapLoop max line [] (wrapLine max line) :=
  wrapFrom_loop hmax (Nat.le_refl _)

theorem dropComma_commas (piece : Text) : ∃ commas, piece = dropComma piece ++ commas ∧ IsCommas commas := by
  unfold dropComma
  split
  · next h =>
    refine ⟨[CAPTION_COMMA], ?_, List.forall_mem_singleton.mpr rfl⟩
    rw [List.dropLast_append_getLast? _ h]
  · exact ⟨[], (List.append_nil _).symm, nofun⟩

theorem IsCommas.append {a b : Text} (ha : IsCommas a) (hb : IsCommas b) : IsCommas (a ++ b) :=
  List.forall_mem_append.mpr ⟨ha, hb⟩

/-- a cut: what is displayed of it, and the commas deleted behind it -/
theorem cut_commas (r : Text) (cut : Nat) : ∃ commas, IsCommas commas ∧
    r = dropComma (r.take cut) ++ (commas ++ (r.drop cut).dropWhile (· == CAPTION_COMMA)) := by
  obtain ⟨last, hlast, hcommas⟩ := dropComma_commas (r.take cut)
  refine ⟨last ++ (r.drop cut).takeWhile (· == CAPTION_COMMA), hcommas.append ?_, ?_⟩
  · intro c hc
    exact beq_iff_eq.mp (List.mem_takeWhile_imp (p := (· == CAPTION_COMMA)) hc)
  · rw [List.append_assoc, List.takeWhile_append_dropWhile, ← List.append_assoc, ← hlast, List.take_append_drop]

/-- what the loop adds to the lines it has -/
theorem WrapLoop.rows {lines : List Text} (hmax : 1 ≤ max) (h : WrapLoop max r wrapped lines) :
    ∃ (lead : Text) (rows : List Shown), r = lead ++ rows.flatMap (fun r => r.1 ++ r.2) ∧ IsCommas lead ∧
      (∀ r ∈ rows, IsCommas r.2) ∧ (∀ r ∈ rows, r.1.length ≤ max) ∧ lines = wrapped ++ rows.map Prod.fst := by
  induction h with
  | done remaining wrapped hfits =>
    split
    · refine ⟨[], [(remaining, [])], ?_, nofun, ?_, ?_, rfl⟩
      · rw [List.flatMap_singleton, List.nil_append, List.append_nil]
      · exact List.forall_mem_singleton.mpr nofun
      · exact List.forall_mem_singleton.mpr hfits
    · next h =>
      rw [not_or, not_not] at h
      exact ⟨[], [], h.1, nofun, nofun, nofun, (List.append_nil _).symm⟩
  | again remaining wrapped lines cut hlong hcut _ ih =>
    obtain ⟨lead, rows, hrest, hlead, hcommas, hshort, hlines⟩ := ih
    obtain ⟨commas, hdeleted, hsource⟩ := cut_commas remaining cut
    rw [hrest] at hsource
    by_cases hpiece : dropComma (remaining.take cut) = []
    · -- the cut was a comma at the start of the line
      rw [hpiece, if_neg (fun h => h rfl)] at hlines
      refine ⟨commas ++ lead, rows, ?_, hdeleted.append hlead, hcommas, hshort, hlines⟩
      rw [hpiece, List.nil_append] at hsource
      rw [List.append_assoc]
      exact hsource
    · rw [if_pos hpiece] at hlines
      refine ⟨[], (dropComma (remaining.take cut), commas ++ lead) :: rows, ?_, nofun,
        List.forall_mem_cons.mpr ⟨hdeleted.append hlead, hcommas⟩, List.forall_mem_cons.mpr ⟨?_, hshort⟩, ?_⟩
      · rw [List.nil_append, List.flatMap_cons, List.append_assoc, List.append_assoc]
        exact hsource
      · have hle := (dropComma_isPrefix (remaining.take cut)).length_le
        have hbound := (cut_bounds hmax remaining).2
        rw [← hcut] at hbound
        rw [List.length_take] at hle
        exact hle.trans ((Nat.min_le_left _ _).trans hbound)
      · rw [hlines, List.append_assoc]
        rfl

theorem wrapLine_fits (h : line.length ≤ max) : wrapLine max line = [line] := by
  unfold wrapLine
  cases hlength : line.length with
  | zero =>
    rw [List.length_eq_zero_iff.mp hlength]
    rfl
  | succ n =>
    unfold wrapFrom
    rw [if_neg (Nat.not_lt.mpr h), if_pos (.inr rfl)]
    rfl

/-- **A line is broken as the style says.** -/
theorem wrapLine_wrapped (hmax : 1 ≤ max) (line : Text) :
    ∃ lead rows, Wrapped max line lead rows ∧ wrapLine max line = rows.map Prod.fst := by
  by_cases hfits : line.length ≤ max
  · refine ⟨[], [(line, [])], ⟨?_, nofun, ?_, ?_, List.cons_ne_nil _ _, fun _ => ⟨rfl, rfl⟩⟩, wrapLine_fits hfits⟩
    · rw [List.flatMap_singleton, List.nil_append, List.append_nil]
    · exact List.forall_mem_singleton.mpr nofun
    · exact List.forall_mem_singleton.mpr hfits
  · obtain ⟨lead, rows, hsource, hlead, hcommas, hshort, hlines⟩ := (wrapLine_loop hmax line).rows hmax
    refine ⟨lead, rows, ⟨hsource, hlead, hcommas, hshort, ?_, fun h => absurd h hfits⟩, hlines⟩
    rintro rfl
    exact wrapFrom_ne_nil hlines

theorem splitOn_wrapCaptionText (max : Nat) (text : Text) :
    splitOn '\n' (wrapCaptionText text max) = (splitOn '\n' (unixLines text)).flatMap (wrapLine max) := by
  unfold wrapCaptionText
  refine splitOn_joinLines (fun hnil => ?_) (fun l hl hmem => ?_)
  · rw [List.flatMap_eq_nil_iff] at hnil
    obtain ⟨m, hm⟩ := List.exists_mem_of_ne_nil _ (splitOn_ne_nil '\n' (unixLines text))
    exact wrapFrom_ne_nil (hnil m hm)
  · obtain ⟨m, hm, hpart⟩ := List.mem_flatMap.mp hl
    exact (mem_splitOn hm).1 ((wrapLine_part hpart).subset hmem)

/-- **The lines of a text are broken as the style says.** -/
theorem wrapCaptionText_wraps (hmax : 1 ≤ max) (text : Text) : Wraps max text (wrapCaptionText text max) := by
  have hrows (ls : List Text) : ∃ lines : List (Text × List Shown),
      List.Forall₂ (fun line l => Wrapped max line l.1 l.2) ls lines ∧
        ls.flatMap (wrapLine max) = lines.flatMap (fun l => l.2.map Prod.fst) := by
    induction ls with
    | nil => exact ⟨[], .nil, rfl⟩
    | cons line ls ih =>
      obtain ⟨lead, rows, hwrapped, hline⟩ := wrapLine_wrapped hmax line
      obtain ⟨lines, hlines, hflat⟩ := ih
      refine ⟨(lead, rows) :: lines, .cons hwrapped hlines, ?_⟩
      rw [List.flatMap_cons, List.flatMap_cons, hline, hflat]
  obtain ⟨lines, hlines, hflat⟩ := hrows (splitOn '\n' (unixLines text))
  exact ⟨lines, hlines, (splitOn_wrapCaptionText max text).trans hflat⟩

/-! ## what is displayed -/

/-- a character that is neither a space nor a comma is still there when a text is wrapped -/
theorem wrapCaptionText_keeps (hmax : 1 ≤ max) {text : Text} {c : Char} (hc : c ∈ text) (hspace : isSpace c = false)
    (hcomma : c ≠ CAPTION_COMMA) : isBlank (wrapCaptionText text max) = false := by
  have hne (d : Char) (hd : isSpace d = true) : c ≠ d := by
    rintro rfl
    rw [hspace] at hd
    cases hd
  have hunix := mem_unixLines hc (hne '\n' (by decide)) (hne '\r' (by decide))
  obtain ⟨line, hline, hin⟩ := mem_splitOn_of_mem hunix (hne '\n' (by decide))
  obtain ⟨l, hl, hkept⟩ := wrapLine_keeps hmax hin hcomma
  have hmem : l ∈ splitOn '\n' (wrapCaptionText text max) := by
    rw [splitOn_wrapCaptionText]
    exact List.mem_flatMap.mpr ⟨line, hline, hl⟩
  refine List.all_eq_false.mpr ⟨c, (mem_splitOn hmem).2 c hkept, ?_⟩
  rw [hspace]
  exact Bool.false_ne_true

theorem normalizeCaptionText_keeps (k : Nat) {text : Text} {c : Char} (hc : c ∈ text) (hspace : isSpace c = false)
    (hcomma : c ≠ CAPTION_COMMA) : ∃ d ∈ normalizeCaptionText text k, isSpace d = false ∧ d ≠ CAPTION_COMMA := by
  unfold normalizeCaptionText
  dsimp only
  split
  · exact ⟨c, hc, hspace, hcomma⟩
  · next hblank =>
    obtain ⟨l, hl, d, hd, hkept⟩ := normalizedLines_letter (Bool.not_eq_true _ ▸ hblank)
    exact ⟨d, (mem_splitOn hl).2 d hd, hkept⟩

theorem not_isBlank {s : Text} {c : Char} (hc : c ∈ s) (hspace : isSpace c = false) : isBlank s = false := by
  refine List.all_eq_false.mpr ⟨c, hc, ?_⟩
  rw [hspace]
  exact Bool.false_ne_true

variable {F : Type} {sp : Speeds F}

/-- **What is displayed of a caption is not blank**, when the caption has more than spaces and commas. -/
theorem captionDisplayText_kept (style : CaptionStyle sp) {text : Text} {c : Char} (hc : c ∈ text)
    (hspace : isSpace c = false) (hcomma : c ≠ CAPTION_COMMA) : isBlank (captionDisplayText text style) = false := by
  obtain ⟨d, hd, hdspace, hdcomma⟩ := normalizeCaptionText_keeps style.min_comma_run hc hspace hcomma
  unfold captionDisplayText
  dsimp only
  split
  · split
    · exact not_isBlank hd hdspace
    · exact not_isBlank hc hspace
  · exact wrapCaptionText_keeps style.max_line_chars_pos hd hdspace hdcomma

/-- what is displayed of a caption that fits a cue fits it -/
theorem captionDisplayText_length (style : CaptionStyle sp) {text : Text} (h : text.length ≤ MAX_CUE_TEXT) :
    (captionDisplayText text style).length ≤ MAX_CUE_TEXT := by
  unfold captionDisplayText
  dsimp only
  split
  · split
    · next hfits => exact hfits
    · exact h
  · next hfits => exact Nat.not_lt.mp hfits

/-- **The rewriting of a caption keeps what is spoken**: it is normalized once, as `Normalizes` says; its lines are broken
as `Wraps` says, by a loop that ends; and what is displayed is not blank and fits. -/
theorem captionRewriting (text : Text) (min_comma_run max_line_chars : Nat) (hmax : 1 ≤ max_line_chars)
    (style : CaptionStyle sp) :
    (normalizeCaptionText (normalizeCaptionText text min_comma_run) min_comma_run = normalizeCaptionText text min_comma_run ∧
      Normalizes text (normalizeCaptionText text min_comma_run)) ∧
    ((∀ line ∈ splitOn '\n' (unixLines text), WrapLoop max_line_chars line [] (wrapLine max_line_chars line)) ∧
      Wraps max_line_chars text (wrapCaptionText text max_line_chars)) ∧
    (∀ c ∈ text, isSpace c = false → c ≠ CAPTION_COMMA → isBlank (captionDisplayText text style) = false) ∧
    (text.length ≤ MAX_CUE_TEXT → (captionDisplayText text style).length ≤ MAX_CUE_TEXT) :=
  ⟨⟨normalizeCaptionText_again min_comma_run text, normalizeCaptionText_normalizes min_comma_run text⟩,
    ⟨fun line _ => wrapLine_loop hmax line, wrapCaptionText_wraps hmax text⟩,
    fun _ hc hspace hcomma => captionDisplayText_kept style hc hspace hcomma,
    captionDisplayText_length style⟩

end

/-- a caption of two sentences, on one line and then on two -/
theorem captionRewriting_sentences :
    Normalizes "你好。 世界".toList (normalizeCaptionText "你好。 世界".toList 6) ∧
      normalizeCaptionText "你好。 世界".toList 6 = "你好世界".toList ∧
      Wraps 2 "你好，世界".toList (wrapCaptionText "你好，世界".toList 2) ∧
      wrapCaptionText "你好，世界".toList 2 = "你好\n世界".toList :=
  ⟨(captionRewriting "你好。 世界".toList 6 2 (by decide) chineseCaptionStyle).1.2, by decide,
    (captionRewriting "你好，世界".toList 6 2 (by decide) chineseCaptionStyle).2.1.2, by decide⟩

/-- lines of one character -/
def narrowStyle : CaptionStyle wholeSpeeds := { chineseCaptionStyle with max_line_chars := 1, valid_sizes := by decide }

/-- **What the rewriting of a caption loses**: a space at the start of a line that has no mark; a comma at the start of a
line that is not broken; a bracket between two words, that are one then; and the only commas of a caption. -/
theorem captionRewriting_loses :
    normalizeCaptionText " 好".toList 6 = "好".toList ∧ (∀ c ∈ " 好".toList, isPause c = false ∧ c ∉ CAPTION_DROPPED) ∧
    wrapCaptionText "，好的".toList 2 = "好的".toList ∧
    normalizeCaptionText "AI(GPT)".toList 6 = "AIGPT".toList ∧
    ('，' ∈ "，，".toList ∧ isSpace '，' = false ∧ captionDisplayText "，，".toList narrowStyle = []) :=
  ⟨by decide, Text.forall_of_all (by decide), by decide, by decide, by decide⟩

end OpenFlame.Editing
