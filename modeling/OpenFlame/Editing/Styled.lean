import OpenFlame.Editing.Display

/-!
# The style of what is displayed

* `normalizeLine_plain`      a normalized line has one comma at most, and its other marks inside tokens;
* `displayedLines`           the lines on the screen are the wrapped lines of the normalized ones;
* `captionDisplayText_iff`   **what is displayed has the style iff every normalized line is unbroken**;
* `checkCaptions_styled`     nothing is reported of the style of captions that have it.
-/

set_option linter.all false

namespace OpenFlame.Editing
open Guard Text

/-! ## neighbours -/

section
variable {before after before' after' : Option Char} {s : Text}

theorem isCaptionBreak_mono {c : Char} (hbefore : before'.any isTokenChar = true → before.any isTokenChar = true)
    (hafter : after'.any isTokenChar = true → after.any isTokenChar = true) (h : isCaptionBreak before c after = true) :
    isCaptionBreak before' c after' = true := by
  unfold isCaptionBreak at h ⊢
  rw [Bool.or_eq_true, Bool.and_eq_true, Bool.not_eq_true'] at h ⊢
  rcases h with h | ⟨hmark, htoken⟩
  · exact .inl h
  · refine .inr ⟨hmark, ?_⟩
    unfold intraToken at htoken ⊢
    rw [Bool.and_eq_false_iff] at htoken ⊢
    rcases htoken with htoken | htoken
    · left
      by_contra hb
      rw [hbefore (Bool.not_eq_false _ ▸ hb)] at htoken
      cases htoken
    · right
      by_contra ha
      rw [hafter (Bool.not_eq_false _ ▸ ha)] at htoken
      cases htoken

/-- more neighbours that are letters or digits leave a whole text whole -/
theorem whole_mono (hbefore : before'.any isTokenChar = true → before.any isTokenChar = true)
    (hafter : after'.any isTokenChar = true → after.any isTokenChar = true) (h : Whole before' s after') :
    Whole before s after := by
  induction s generalizing before before' with
  | nil => trivial
  | cons c s ih =>
    refine ⟨fun hbreak => h.1 (isCaptionBreak_mono hbefore ?_ hbreak), ih (fun hc => hc) h.2⟩
    cases s with
    | nil => exact hafter
    | cons d s => exact fun hd => hd

theorem whole_any (h : Whole none s none) : Whole before s after := by
  have hnone (o : Option Char) : (none : Option Char).any isTokenChar = true → o.any isTokenChar = true :=
    fun h => absurd h Bool.false_ne_true
  exact whole_mono (hnone _) (hnone _) h

theorem not_token_comma : isTokenChar CAPTION_COMMA = false := by decide

theorem not_token_break {c : Char} (h : CAPTION_BREAKS.contains c = true ∨ CAPTION_ASCII_BREAKS.contains c = true) :
    isTokenChar c = false := by
  have hall : ∀ d ∈ CAPTION_BREAKS ++ CAPTION_ASCII_BREAKS, isTokenChar d = false :=
    Text.forall_of_all (by decide)
  refine hall c (List.mem_append.mpr ?_)
  rcases h with h | h
  · exact .inl (List.contains_iff_mem.mp h)
  · exact .inr (List.contains_iff_mem.mp h)

theorem isCaptionBreak_token {c : Char} (h : isCaptionBreak before c after = true) : isTokenChar c = false := by
  unfold isCaptionBreak at h
  rw [Bool.or_eq_true, Bool.and_eq_true] at h
  rcases h with h | h
  · exact not_token_break (.inl h)
  · exact not_token_break (.inr h.1)

theorem isCaptionBreak_comma : isCaptionBreak before CAPTION_COMMA after = true := by
  have h : CAPTION_BREAKS.contains CAPTION_COMMA = true := by decide
  unfold isCaptionBreak
  rw [h, Bool.true_or]

theorem not_token_space {c : Char} (h : isSpace c = true) : isTokenChar c = false := by
  have hall : ∀ n : Fin 128, isTokenChar (Char.ofNat n.val) = true → isSpace (Char.ofNat n.val) = false := by
    decide +kernel
  by_contra htoken
  rw [Bool.not_eq_false] at htoken
  have hlt : c.toNat < 128 := by
    unfold isTokenChar at htoken
    simp only [Bool.or_eq_true, Bool.and_eq_true, decide_eq_true_eq] at htoken
    rcases htoken with (⟨-, h⟩ | ⟨-, h⟩) | ⟨-, h⟩
    · exact lt_of_le_of_lt (show c.toNat ≤ 'z'.toNat from h) (by decide)
    · exact lt_of_le_of_lt (show c.toNat ≤ 'Z'.toNat from h) (by decide)
    · exact lt_of_le_of_lt (show c.toNat ≤ '9'.toNat from h) (by decide)
  have hc := hall ⟨c.toNat, hlt⟩
  rw [Char.ofNat_toNat] at hc
  rw [hc htoken] at h
  cases h

/-- whole lines next to each other, with no letter or digit between them -/
theorem whole_joinLines {ls : List Text} : Whole none (joinLines ls) none ↔ ∀ l ∈ ls, Whole none l none := by
  have hnewline : isTokenChar '\n' = false := by decide
  have hbreak (x y : Option Char) : isCaptionBreak x '\n' y = false := by
    have h1 : CAPTION_BREAKS.contains '\n' = false := by decide
    have h2 : CAPTION_ASCII_BREAKS.contains '\n' = false := by decide
    unfold isCaptionBreak
    rw [h1, h2]
    rfl
  have hnone (o : Option Char) : (some '\n').any isTokenChar = true → o.any isTokenChar = true := by
    intro h
    rw [Option.any_some, hnewline] at h
    cases h
  induction ls with
  | nil => exact iff_of_true trivial nofun
  | cons l ls ih =>
    cases ls with
    | nil =>
      rw [List.forall_mem_singleton]
      rfl
    | cons m ls =>
      show Whole none (l ++ '\n' :: joinLines (m :: ls)) none ↔ _
      rw [whole_append, whole_cons, List.forall_mem_cons]
      constructor
      · rintro ⟨hl, -, hrest⟩
        exact ⟨whole_mono (fun h => h) (hnone _) hl, ih.mp (whole_mono (hnone _) (fun h => h) hrest)⟩
      · rintro ⟨hl, hrest⟩
        refine ⟨whole_any hl, fun h => ?_, whole_any (ih.mpr hrest)⟩
        rw [hbreak] at h
        cases h

theorem strayBreaks_eq_nil (before : Option Char) (s : Text) : strayBreaks before s = [] ↔ Whole before s none := by
  induction s generalizing before with
  | nil => exact iff_of_true rfl trivial
  | cons c s ih =>
    unfold strayBreaks
    rw [whole_cons, Option.or_none]
    split
    · next h => exact iff_of_false (List.cons_ne_nil _ _) (fun hw => h.1 (hw.1 h.2))
    · next h =>
      rw [ih]
      refine ⟨fun hw => ⟨fun hbreak => ?_, hw⟩, fun hw => hw.2⟩
      by_contra hc
      exact h ⟨hc, hbreak⟩

theorem strayCaptionPunctuation_eq_nil (s : Text) : strayCaptionPunctuation s = [] ↔
    Whole none s none ∧ ∀ c ∈ s, CAPTION_DROPPED.contains c = false := by
  have herase (l : Text) : l.eraseDups = [] ↔ l = [] := by
    cases l with
    | nil => exact iff_of_true rfl rfl
    | cons c l =>
      rw [List.eraseDups_cons]
      exact iff_of_false (List.cons_ne_nil _ _) (List.cons_ne_nil _ _)
  unfold strayCaptionPunctuation
  rw [← List.length_eq_zero_iff, List.length_mergeSort, List.length_eq_zero_iff, herase, List.append_eq_nil_iff,
    strayBreaks_eq_nil, List.filter_eq_nil_iff, and_comm]
  refine and_congr_right fun _ => forall₂_congr fun c _ => ?_
  rw [Bool.not_eq_true]

end

/-! ## normalized lines -/

section
variable {before : Option Char} {s line : Text}

/-- the pieces of a line are whole, and have no comma -/
theorem cutBreaks_whole (before : Option Char) (s : Text) : ∃ piece rest, cutBreaks before s = piece :: rest ∧
    piece.head?.any isTokenChar = s.head?.any isTokenChar ∧ Whole before piece none ∧ CAPTION_COMMA ∉ piece ∧
      ∀ p ∈ rest, Whole none p none ∧ CAPTION_COMMA ∉ p := by
  induction s generalizing before with
  | nil => exact ⟨[], [], rfl, rfl, trivial, nofun, nofun⟩
  | cons c s ih =>
    obtain ⟨piece, rest, hcut, hhead, hpiece, hcomma, hrest⟩ := ih (some c)
    unfold cutBreaks
    rw [hcut]
    split
    · next hbreak =>
      have htoken := isCaptionBreak_token hbreak
      refine ⟨[], piece :: rest, rfl, htoken.symm, trivial, nofun, ?_⟩
      rw [List.forall_mem_cons]
      refine ⟨⟨whole_mono (fun h => ?_) (fun h => h) hpiece, hcomma⟩, hrest⟩
      rw [Option.any_some, htoken] at h
      cases h
    · next hkept =>
      refine ⟨c :: piece, rest, rfl, rfl, ⟨fun hbreak => ?_, hpiece⟩, fun hmem => ?_, hrest⟩
      · -- the character behind it may have been cut off, and is then no letter or digit
        refine absurd (isCaptionBreak_mono (fun h => h) (fun h => ?_) hbreak) hkept
        rwa [Option.or_none, hhead]
      · rcases List.mem_cons.mp hmem with rfl | hmem
        · exact hkept isCaptionBreak_comma
        · exact hcomma hmem

theorem mem_cutBreaks {p : Text} {c : Char} (hp : p ∈ cutBreaks before s) (hc : c ∈ p) : c ∈ s := by
  induction s generalizing before p with
  | nil =>
    rw [List.mem_singleton.mp hp] at hc
    cases hc
  | cons d s ih =>
    unfold cutBreaks at hp
    split at hp
    · rcases List.mem_cons.mp hp with rfl | hp
      · cases hc
      · exact List.mem_cons_of_mem _ (ih hp hc)
    · obtain ⟨piece, rest, hcut, -⟩ := cutBreaks_whole (some d) s
      rw [hcut] at hp
      rcases List.mem_cons.mp hp with rfl | hp
      · rcases List.mem_cons.mp hc with rfl | hc
        · exact List.mem_cons_self
        · exact List.mem_cons_of_mem _ (ih (hcut ▸ List.mem_cons_self) hc)
      · exact List.mem_cons_of_mem _ (ih (hcut ▸ List.mem_cons_of_mem _ hp) hc)

theorem strip_whole (h : Whole none s none) : Whole none (strip s) none := by
  obtain ⟨a, b, hs, ha, hb, -⟩ := Trim.exists_trim isSpace s
  have hstrip : strip s = Trim.trim isSpace s := rfl
  rw [← hstrip] at hs
  rw [hs, whole_append, whole_append] at h
  refine whole_mono (fun hc => ?_) (fun hc => ?_) h.1.2
  · cases hlast : a.getLast? with
    | none =>
      rw [hlast] at hc
      exact hc
    | some c =>
      rw [hlast] at hc
      have hspace := List.all_eq_true.mp ha c (List.mem_of_getLast? hlast)
      rw [Option.some_or, Option.any_some, not_token_space hspace] at hc
      cases hc
  · cases hhead : b.head? with
    | none =>
      rw [hhead] at hc
      exact hc
    | some c =>
      rw [hhead] at hc
      have hspace := List.all_eq_true.mp hb c (List.mem_of_head? hhead)
      rw [Option.some_or, Option.any_some, not_token_space hspace] at hc
      cases hc

/-- what a piece of a line is -/
structure Piece (line piece : Text) : Prop where
  whole : Whole none piece none
  comma : CAPTION_COMMA ∉ piece
  inside : ∀ c ∈ piece, c ∈ line
  sharp : Sharp piece

theorem captionPieces_piece (s : Text) : ∀ p ∈ captionPieces s, Piece s p := by
  intro p hp
  unfold captionPieces at hp
  rw [List.mem_filter, decide_eq_true_eq, List.mem_map] at hp
  obtain ⟨⟨q, hq, rfl⟩, hne⟩ := hp
  have hwhole : Whole none q none ∧ CAPTION_COMMA ∉ q := by
    obtain ⟨piece, rest, hcut, -, hpiece, hcomma, hrest⟩ := cutBreaks_whole none s
    rw [hcut] at hq
    rcases List.mem_cons.mp hq with rfl | hq
    · exact ⟨hpiece, hcomma⟩
    · exact hrest q hq
  exact {
    whole := strip_whole hwhole.1
    comma := fun h => hwhole.2 (strip_subset q h)
    inside := fun c hc => mem_cutBreaks hq (strip_subset q hc)
    sharp := sharp_iff.mpr ⟨hne, strip_strip q⟩ }

/-- what the pieces are joined to -/
structure Joined (line result : Text) : Prop where
  whole : Whole none result none
  commas : result.count CAPTION_COMMA ≤ 1
  inside : ∀ c ∈ result, c ∈ line ∨ c = ' ' ∨ c = CAPTION_COMMA
  kept : ∃ c ∈ result, isSpace c = false ∧ c ≠ CAPTION_COMMA

theorem Piece.joined {piece : Text} (h : Piece line piece) : Joined line piece where
  whole := h.whole
  commas := by
    rw [List.count_eq_zero.mpr h.comma]
    omega
  inside c hc := .inl (h.inside c hc)
  kept := by
    obtain ⟨⟨c, t, rfl, hc⟩, -⟩ := h.sharp
    refine ⟨c, List.mem_cons_self, hc, fun he => h.comma ?_⟩
    rw [he]
    exact List.mem_cons_self

/-- a piece behind a separator that is no break, or is the first comma -/
theorem Joined.append {result piece : Text} (sep : Option Char) (h : Joined line result) (hp : Piece line piece)
    (hsep : sep = none ∨ sep = some ' ' ∨ sep = some CAPTION_COMMA ∧ CAPTION_COMMA ∉ result) :
    Joined line (result ++ (sep.toList ++ piece)) where
  whole := by
    rw [whole_append]
    refine ⟨whole_any h.whole, ?_⟩
    cases sep with
    | none => exact whole_any hp.whole
    | some c =>
      refine ⟨fun hbreak => ?_, whole_any hp.whole⟩
      rcases hsep with hsep | hsep | ⟨hsep, -⟩
      · cases hsep
      · obtain rfl := Option.some.inj hsep
        have h1 : CAPTION_BREAKS.contains ' ' = false := by decide
        have h2 : CAPTION_ASCII_BREAKS.contains ' ' = false := by decide
        unfold isCaptionBreak at hbreak
        rw [h1, h2] at hbreak
        cases hbreak
      · exact Option.some.inj hsep
  commas := by
    have hpiece := List.count_eq_zero.mpr hp.comma
    have hresult := h.commas
    rw [List.count_append, List.count_append, hpiece]
    rcases hsep with rfl | rfl | ⟨rfl, hno⟩
    · exact hresult
    · exact hresult
    · rw [List.count_eq_zero.mpr hno]
      exact Nat.le_refl 1
  inside c hc := by
    rcases List.mem_append.mp hc with hc | hc
    · exact h.inside c hc
    · rcases List.mem_append.mp hc with hc | hc
      · right
        rw [Option.mem_toList] at hc
        rcases hsep with rfl | rfl | ⟨rfl, -⟩
        · cases hc
        · exact .inl (Option.some.inj hc).symm
        · exact .inr (Option.some.inj hc).symm
      · exact .inl (hp.inside c hc)
  kept := by
    obtain ⟨c, hc, hkept⟩ := h.kept
    exact ⟨c, List.mem_append_left _ hc, hkept⟩

theorem joinPieces_joined (min_comma_run : Nat) {result : Text} {pieces : List Text} (h : Joined line result)
    (hp : ∀ p ∈ pieces, Piece line p) : Joined line (joinPieces min_comma_run result pieces) := by
  induction pieces generalizing result with
  | nil => exact h
  | cons piece rest ih =>
    have hpiece := hp piece List.mem_cons_self
    have hrest := fun p hmem => hp p (List.mem_cons_of_mem piece hmem)
    unfold joinPieces
    dsimp only
    split
    · next hfirst => exact ih (h.append (some CAPTION_COMMA) hpiece (.inr (.inr ⟨rfl, hfirst.1⟩))) hrest
    · split
      · exact ih (h.append (some ' ') hpiece (.inr (.inl rfl))) hrest
      · exact ih (h.append none hpiece (.inl rfl)) hrest

/-- a normalized line is empty or what its pieces are joined to -/
theorem normalizeLine_joined (min_comma_run : Nat) (line : Text) : normalizeLine min_comma_run line = [] ∨
    Joined (line.filter (fun c => !CAPTION_DROPPED.contains c)) (normalizeLine min_comma_run line) := by
  unfold normalizeLine
  have hpieces := captionPieces_piece (line.filter (fun c => !CAPTION_DROPPED.contains c))
  split
  · exact .inl rfl
  · next piece rest hcut =>
    rw [hcut] at hpieces
    exact .inr (joinPieces_joined min_comma_run (hpieces piece List.mem_cons_self).joined
      (fun p hp => hpieces p (List.mem_cons_of_mem _ hp)))

theorem mem_normalizeLine {min_comma_run : Nat} {c : Char} (hc : c ∈ normalizeLine min_comma_run line) :
    (c ∈ line ∧ CAPTION_DROPPED.contains c = false) ∨ c = ' ' ∨ c = CAPTION_COMMA := by
  rcases normalizeLine_joined min_comma_run line with hnil | hjoined
  · rw [hnil] at hc
    cases hc
  · rcases hjoined.inside c hc with hin | hsep
    · rw [List.mem_filter, Bool.not_eq_true'] at hin
      exact .inl hin
    · exact .inr hsep

/-- **A normalized line has one comma at most, and its other marks inside tokens.** -/
theorem normalizeLine_plain (min_comma_run : Nat) (line : Text) : PlainLine (normalizeLine min_comma_run line) := by
  have hkept : ∀ c ∈ normalizeLine min_comma_run line, CAPTION_DROPPED.contains c = false := by
    intro c hc
    rcases mem_normalizeLine hc with hin | rfl | rfl
    · exact hin.2
    · decide
    · decide
  rcases normalizeLine_joined min_comma_run line with hnil | hjoined
  · rw [hnil]
    exact ⟨trivial, Nat.zero_le _, nofun⟩
  · exact ⟨hjoined.whole, hjoined.commas, hkept⟩

end

/-! ## the lines on the screen -/

section
variable {k max : Nat} {text l : Text}

theorem mem_normalizedLines (h : l ∈ splitOn '\n' (normalizedLines k text)) :
    ∃ line ∈ splitOn '\n' (unixLines text), l = normalizeLine k line := by
  have hnewline : ∀ m ∈ (splitOn '\n' (unixLines text)).map (normalizeLine k), '\n' ∉ m := by
    intro m hm hmem
    obtain ⟨line, hline, rfl⟩ := List.mem_map.mp hm
    rcases mem_normalizeLine hmem with hin | hspace | hcomma
    · exact (mem_splitOn hline).1 hin.1
    · exact absurd hspace (by decide)
    · exact absurd hcomma (by decide)
  obtain ⟨a, b, hjoin, ha, hb, -⟩ := Trim.exists_trim (· == '\n')
    (joinLines ((splitOn '\n' (unixLines text)).map (normalizeLine k)))
  have hmem := mem_splitOn_between ha hb h
  have hsame : a ++ normalizedLines k text ++ b =
      joinLines ((splitOn '\n' (unixLines text)).map (normalizeLine k)) := hjoin.symm
  rw [hsame, splitOn_joinLines (fun hnil => splitOn_ne_nil _ _ (List.map_eq_nil_iff.mp hnil)) hnewline] at hmem
  obtain ⟨line, hline, rfl⟩ := List.mem_map.mp hmem
  exact ⟨line, hline, rfl⟩

theorem normalizedLines_plain (h : l ∈ splitOn '\n' (normalizedLines k text)) : PlainLine l := by
  obtain ⟨line, -, rfl⟩ := mem_normalizedLines h
  exact normalizeLine_plain k line

theorem normalizedLines_noReturn : '\r' ∉ normalizedLines k text := by
  intro hmem
  obtain ⟨l, hl, hin⟩ := mem_splitOn_of_mem hmem (show '\r' ≠ '\n' by decide)
  obtain ⟨line, hline, rfl⟩ := mem_normalizedLines hl
  rcases mem_normalizeLine hin with hin | hspace | hcomma
  · exact unixLines_noReturn text ((mem_splitOn hline).2 _ hin.1)
  · exact absurd hspace (by decide)
  · exact absurd hcomma (by decide)

/-- what is left of a text has a character that is neither a space nor a comma -/
theorem normalizedLines_letter (h : isBlank (normalizedLines k text) = false) :
    ∃ l ∈ splitOn '\n' (normalizedLines k text), ∃ c ∈ l, isSpace c = false ∧ c ≠ CAPTION_COMMA := by
  obtain ⟨c, hc, hspace⟩ := List.all_eq_false.mp h
  have hnewline : c ≠ '\n' := by
    rintro rfl
    exact hspace (by decide)
  obtain ⟨l, hl, hin⟩ := mem_splitOn_of_mem hc hnewline
  obtain ⟨line, -, rfl⟩ := mem_normalizedLines hl
  rcases normalizeLine_joined k line with hnil | hjoined
  · rw [hnil] at hin
    cases hin
  · exact ⟨_, hl, hjoined.kept⟩

/-- **The lines on the screen are the wrapped lines of the normalized ones.** -/
theorem displayedLines : splitOn '\n' (wrapCaptionText (normalizedLines k text) max) =
    (splitOn '\n' (normalizedLines k text)).flatMap (wrapLine max) := by
  unfold wrapCaptionText
  rw [unixLines_eq_self normalizedLines_noReturn]
  refine splitOn_joinLines (fun hnil => ?_) (fun l hl hmem => ?_)
  · rw [List.flatMap_eq_nil_iff] at hnil
    obtain ⟨m, hm⟩ := List.exists_mem_of_ne_nil _ (splitOn_ne_nil '\n' (normalizedLines k text))
    exact wrapFrom_ne_nil (hnil m hm)
  · obtain ⟨m, hm, hpart⟩ := List.mem_flatMap.mp hl
    exact (mem_splitOn hm).1 ((wrapLine_part hpart).subset hmem)

/-- what is displayed of a text that does not normalize to nothing has the style iff its normalized lines are unbroken -/
theorem wrapped_styled (hmax : 1 ≤ max) : Styled max (wrapCaptionText (normalizedLines k text) max) ↔
    ∀ line ∈ splitOn '\n' (normalizedLines k text), Unbroken max line := by
  have hlines : ∀ line ∈ splitOn '\n' (normalizedLines k text),
      (∀ l ∈ wrapLine max line, Whole none l none) ↔ Unbroken max line :=
    fun line hline => wrapLine_iff hmax (normalizedLines_plain hline)
  have hparts : ∀ l ∈ splitOn '\n' (wrapCaptionText (normalizedLines k text) max),
      ∃ line ∈ splitOn '\n' (normalizedLines k text), l ∈ wrapLine max line := by
    intro l hl
    rw [displayedLines] at hl
    exact List.mem_flatMap.mp hl
  have hwhole : Whole none (wrapCaptionText (normalizedLines k text) max) none ↔
      ∀ line ∈ splitOn '\n' (normalizedLines k text), Unbroken max line := by
    unfold wrapCaptionText
    rw [unixLines_eq_self normalizedLines_noReturn, whole_joinLines]
    constructor
    · intro h line hline
      exact (hlines line hline).mp (fun l hl => h l (List.mem_flatMap.mpr ⟨line, hline, hl⟩))
    · intro h l hl
      obtain ⟨line, hline, hpart⟩ := List.mem_flatMap.mp hl
      exact (hlines line hline).mpr (h line hline) l hpart
  constructor
  · intro h
    exact hwhole.mp ((strayCaptionPunctuation_eq_nil _).mp h.stray).1
  · intro h
    refine ⟨fun l hl => ?_, fun l hl => ?_, (strayCaptionPunctuation_eq_nil _).mpr ⟨hwhole.mpr h, fun c hc => ?_⟩⟩
    · obtain ⟨line, -, hpart⟩ := hparts l hl
      exact wrapLine_short hmax hpart
    · obtain ⟨line, hline, hpart⟩ := hparts l hl
      exact ((wrapLine_part hpart).sublist.count_le CAPTION_COMMA).trans (normalizedLines_plain hline).commas
    · by_cases hnewline : c = '\n'
      · rw [hnewline]
        decide
      · obtain ⟨l, hl, hin⟩ := mem_splitOn_of_mem hc hnewline
        obtain ⟨line, hline, hpart⟩ := hparts l hl
        exact (normalizedLines_plain hline).kept c ((wrapLine_part hpart).subset hin)

/-- what is displayed of a text that does not normalize to nothing is not empty -/
theorem wrapped_isBlank (hmax : 1 ≤ max) (h : isBlank (normalizedLines k text) = false) :
    isBlank (wrapCaptionText (normalizedLines k text) max) = false := by
  obtain ⟨line, hline, c, hc, hspace, hcomma⟩ := normalizedLines_letter h
  obtain ⟨l, hl, hin⟩ := wrapLine_keeps hmax hc hcomma
  have hmem : l ∈ splitOn '\n' (wrapCaptionText (normalizedLines k text) max) := by
    rw [displayedLines]
    exact List.mem_flatMap.mpr ⟨line, hline, hl⟩
  refine List.all_eq_false.mpr ⟨c, (mem_splitOn hmem).2 c hin, ?_⟩
  rw [hspace]
  exact Bool.false_ne_true

end

/-! ## the checks -/

/-- the codes that report the style of a text -/
def STYLE_CODES : List String :=
  ["caption_line_too_long", "caption_multiple_commas", "caption_punctuation_not_allowed"]

theorem foldl_max_le (l : List Nat) (a n : Nat) : l.foldl max a ≤ n ↔ a ≤ n ∧ ∀ x ∈ l, x ≤ n := by
  induction l generalizing a with
  | nil => exact ⟨fun h => ⟨h, nofun⟩, fun h => h.1⟩
  | cons x l ih =>
    rw [List.foldl_cons, ih, List.forall_mem_cons, Nat.max_le, and_assoc]

section
variable {F : Type} {sp : Speeds F} {fast : FastReading F} {style : CaptionStyle sp} {shown : Text}

/-- **What is displayed has the style iff nothing is reported of it.** -/
theorem captionIssues_styled (previous_end_ms : Option Nat) (cue : TimelineCue) (hshown : isBlank shown = false) :
    (∀ issue ∈ captionIssues fast style previous_end_ms cue shown, issue.code ∉ STYLE_CODES) ↔
      Styled style.max_line_chars shown := by
  have hoptional {p : Prop} [Decidable p] (issue : CaptionIssue) :
      (∀ i ∈ (if p then [issue] else []), i.code ∉ STYLE_CODES) ↔ (p → issue.code ∉ STYLE_CODES) := by
    by_cases hp : p
    · rw [if_pos hp, List.forall_mem_singleton]
      exact ⟨fun h _ => h, fun h => h hp⟩
    · rw [if_neg hp]
      exact ⟨fun _ h => absurd h hp, fun _ => nofun⟩
  have hoverlap (detail : String) : (⟨cue.id, cue.order, "caption_overlaps_previous", detail⟩ : CaptionIssue).code ∉
      STYLE_CODES := by
    show "caption_overlaps_previous" ∉ STYLE_CODES
    decide
  unfold captionIssues
  dsimp only
  rw [if_neg (by rw [hshown]; exact Bool.false_ne_true)]
  rw [List.forall_mem_append, List.forall_mem_append, List.forall_mem_append, List.forall_mem_append, hoptional, hoptional,
    hoptional]
  constructor
  · rintro ⟨⟨⟨⟨-, hlong⟩, -⟩, hstray⟩, hcommas⟩
    refine ⟨fun line hline => ?_, fun line hline => ?_, ?_⟩
    · by_contra hover
      refine hlong ?_ (by show "caption_line_too_long" ∈ STYLE_CODES; decide)
      rw [← Nat.not_le, foldl_max_le]
      exact fun h => hover (h.2 _ (List.mem_map_of_mem hline))
    · by_contra hover
      refine hcommas ?_ (by show "caption_multiple_commas" ∈ STYLE_CODES; decide)
      rw [← Nat.not_le, foldl_max_le]
      exact fun h => hover (h.2 _ (List.mem_map_of_mem hline))
    · by_contra hne
      exact hstray hne (by show "caption_punctuation_not_allowed" ∈ STYLE_CODES; decide)
  · intro h
    refine ⟨⟨⟨⟨?_, fun hlong => ?_⟩, ?_⟩, fun hstray => absurd h.stray hstray⟩, fun hcommas => ?_⟩
    · cases previous_end_ms with
      | none => exact nofun
      | some e => exact (hoptional _).mpr (fun _ => hoverlap _)
    · refine absurd hlong (Nat.not_lt.mpr ((foldl_max_le _ _ _).mpr ⟨Nat.zero_le _, fun n hn => ?_⟩))
      obtain ⟨line, hline, rfl⟩ := List.mem_map.mp hn
      exact h.short line hline
    · split
      · intro issue hissue
        rw [List.mem_singleton.mp hissue]
        show "caption_reading_speed_high" ∉ STYLE_CODES
        decide
      · exact nofun
    · refine absurd hcommas (Nat.not_lt.mpr ((foldl_max_le _ _ _).mpr ⟨Nat.zero_le _, fun n hn => ?_⟩))
      obtain ⟨line, hline, rfl⟩ := List.mem_map.mp hn
      exact h.commas line hline

theorem issuesFrom_mem {texts : Text → Option Text} {previous_end_ms : Option Nat} {cues : List TimelineCue}
    {issue : CaptionIssue} (h : issue ∈ issuesFrom fast style texts previous_end_ms cues) :
    ∃ cue ∈ cues, ∃ previous, issue ∈ captionIssues fast style previous cue (displayed texts cue) := by
  induction cues generalizing previous_end_ms with
  | nil => cases h
  | cons cue cues ih =>
    rcases List.mem_append.mp h with h | h
    · exact ⟨cue, List.mem_cons_self, previous_end_ms, h⟩
    · obtain ⟨other, hother, hissue⟩ := ih h
      exact ⟨other, List.mem_cons_of_mem _ hother, hissue⟩

/-- **Nothing is reported of the style of captions that have it.** -/
theorem checkCaptions_styled {texts : Text → Option Text} {cues : List TimelineCue}
    (hshown : ∀ cue ∈ cues, isBlank (displayed texts cue) = false)
    (h : ∀ cue ∈ cues, Styled style.max_line_chars (displayed texts cue)) :
    ∀ issue ∈ checkCaptions fast style texts cues, issue.code ∉ STYLE_CODES := by
  intro issue hissue
  obtain ⟨cue, hcue, previous, hmem⟩ := issuesFrom_mem (List.mem_of_mem_take hissue)
  exact (captionIssues_styled previous cue (hshown cue hcue)).mpr (h cue hcue) issue hmem

theorem CaptionStyle.max_line_chars_pos (style : CaptionStyle sp) : 1 ≤ style.max_line_chars := by
  refine (style.valid_sizes (style.max_line_chars, MAX_LINE_CHARS_LIMIT) ?_).1
  simp

/-- **What is displayed has the style, and nothing is reported of it, iff every normalized line is unbroken.** -/
theorem captionDisplayText_iff (style : CaptionStyle sp) (text : Text)
    (hkept : isBlank (normalizedLines style.min_comma_run text) = false)
    (hfits : (wrapCaptionText (normalizeCaptionText text style.min_comma_run) style.max_line_chars).length ≤ MAX_CUE_TEXT) :
    (Styled style.max_line_chars (captionDisplayText text style) ↔
      ∀ line ∈ splitOn '\n' (normalizeCaptionText text style.min_comma_run), Unbroken style.max_line_chars line) ∧
    ∀ (fast : FastReading F) (previous_end_ms : Option Nat) (cue : TimelineCue),
      (∀ issue ∈ captionIssues fast style previous_end_ms cue (captionDisplayText text style), issue.code ∉ STYLE_CODES) ↔
        ∀ line ∈ splitOn '\n' (normalizeCaptionText text style.min_comma_run), Unbroken style.max_line_chars line := by
  have hmax := style.max_line_chars_pos
  have hnormalized : normalizeCaptionText text style.min_comma_run = normalizedLines style.min_comma_run text := by
    unfold normalizeCaptionText
    exact if_neg (by rw [hkept]; exact Bool.false_ne_true)
  have hshown : captionDisplayText text style =
      wrapCaptionText (normalizeCaptionText text style.min_comma_run) style.max_line_chars := by
    unfold captionDisplayText
    exact if_neg (Nat.not_lt.mpr hfits)
  have hstyled : Styled style.max_line_chars (captionDisplayText text style) ↔
      ∀ line ∈ splitOn '\n' (normalizeCaptionText text style.min_comma_run), Unbroken style.max_line_chars line := by
    rw [hshown, hnormalized]
    exact wrapped_styled hmax
  refine ⟨hstyled, fun fast previous_end_ms cue => ?_⟩
  rw [captionIssues_styled, hstyled]
  rw [hshown, hnormalized]
  exact wrapped_isBlank hmax hkept

/-- a caption whose one line fits has the style -/
theorem captionDisplayText_fits :
    Styled 22 (captionDisplayText "好的。3.5".toList chineseCaptionStyle) := by
  refine (captionDisplayText_iff chineseCaptionStyle "好的。3.5".toList (by decide) (by decide)).1.mpr ?_
  have hlines : ∀ line ∈ splitOn '\n' (normalizeCaptionText "好的。3.5".toList 6), line.length ≤ 22 := by decide
  exact fun line hline => .fits line (hlines line hline)

/-- a caption with a decimal number of ten places before its point and thirteen behind it -/
def pointCue : TimelineCue where
  id := ['a']
  order := 0
  start_ms := 0
  end_ms := 5000
  source_text := "1234567890.1234567890123".toList
  source_language := "zh".toList
  speaker_id := none
  valid_id := ⟨List.cons_ne_nil _ _, Nat.le_of_ble_eq_true rfl⟩
  valid_times := by decide
  valid_text := by decide
  valid_speaker := valid_noSpeaker

/-- **The number is cut at its point, and the point is reported.** -/
theorem captionDisplayText_cuts_token :
    isBlank (normalizedLines chineseCaptionStyle.min_comma_run pointCue.source_text) = false ∧
    (wrapCaptionText (normalizeCaptionText pointCue.source_text chineseCaptionStyle.min_comma_run)
      chineseCaptionStyle.max_line_chars).length ≤ MAX_CUE_TEXT ∧
    captionDisplayText pointCue.source_text chineseCaptionStyle = "1234567890.\n1234567890123".toList ∧
    ¬ Styled chineseCaptionStyle.max_line_chars (captionDisplayText pointCue.source_text chineseCaptionStyle) ∧
    (checkCaptions (fun _ _ _ => none) chineseCaptionStyle
      (fun _ => some (captionDisplayText pointCue.source_text chineseCaptionStyle)) [pointCue]).map (·.code) =
        ["caption_punctuation_not_allowed"] := by
  have hshown : captionDisplayText pointCue.source_text chineseCaptionStyle = "1234567890.\n1234567890123".toList := by
    decide +kernel
  refine ⟨by decide +kernel, by decide +kernel, hshown, fun h => ?_, ?_⟩
  · have hstray := ((strayCaptionPunctuation_eq_nil _).mp h.stray).1
    rw [hshown, ← strayBreaks_eq_nil] at hstray
    revert hstray
    decide +kernel
  · rw [hshown]
    decide +kernel

end

end OpenFlame.Editing
