import OpenFlame.Editing.Styled

/-!
# What the normalization of a caption keeps

`Part`                     a piece of a line, what is written before it and what is removed behind it
`Rewrites line result`     what `normalize_caption_text` may do to a line
`Normalizes text result`   what it may do to a text

* `normalizeLine_rewrites`, `normalizeCaptionText_normalizes`   it does so;
* `normalizeCaptionText_again`                                  **it is idempotent**;
* `normalizeCaptionText_length`                                 what it returns is no longer.
-/

set_option linter.all false

namespace OpenFlame.Editing
open Guard Text

/-! ## statements -/

/-- a mark that may stand for a pause -/
def isPause (c : Char) : Bool := CAPTION_BREAKS.contains c || CAPTION_ASCII_BREAKS.contains c

/-- a piece of a line, what is written before it, and what is removed behind it -/
structure Part where
  separator : Text
  piece : Text
  gap : Text

def Part.source (p : Part) : Text := p.piece ++ p.gap

def Part.written (p : Part) : Text := p.separator ++ p.piece

/-- pauses and spaces only -/
def IsGap (gap : Text) : Prop := ∀ c ∈ gap, isPause c = true ∨ isSpace c = true

/-- what is between two pieces: a pause was removed, and what it kept apart is not glued together -/
structure Follows (p q : Part) : Prop where
  pause : ∃ c ∈ p.gap, isPause c = true
  apart : q.separator = [] → intraToken p.piece.getLast? q.piece.head? = false

/-- a line without its quotes and brackets is gaps and pieces; the result is the pieces, with a comma, a space or nothing
between them -/
structure Rewrites (line result : Text) (lead : Text) (parts : List Part) : Prop where
  source : line.filter (fun c => !CAPTION_DROPPED.contains c) = lead ++ parts.flatMap Part.source
  result : result = parts.flatMap Part.written
  lead : IsGap lead
  gaps : ∀ p ∈ parts, IsGap p.gap
  pieces : ∀ p ∈ parts, p.piece ≠ []
  separators : ∀ p ∈ parts, p.separator = [] ∨ p.separator = [' '] ∨ p.separator = [CAPTION_COMMA]
  first : ∀ p ∈ parts.head?, p.separator = []
  follows : parts.IsChain Follows

/-! ## the pieces of a line -/

/-- a line and what is between its pauses -/
inductive CutInto : Text → List Text → Prop where
  | last (segment : Text) : CutInto segment [segment]
  | cut (segment : Text) (c : Char) (s : Text) (segments : List Text) (hc : isPause c = true) (h : CutInto s segments) :
      CutInto (segment ++ c :: s) (segment :: segments)

theorem isPause_of_break {before after : Option Char} {c : Char} (h : isCaptionBreak before c after = true) :
    isPause c = true := by
  unfold isCaptionBreak at h
  unfold isPause
  rw [Bool.or_eq_true] at h ⊢
  rw [Bool.and_eq_true] at h
  exact h.imp_right And.left

theorem cuts_cutBreaks (before : Option Char) (s : Text) : CutInto s (cutBreaks before s) := by
  induction s generalizing before with
  | nil => exact .last []
  | cons c s ih =>
    unfold cutBreaks
    split
    · next hbreak => exact .cut [] c s _ (isPause_of_break hbreak) (ih (some c))
    · have hs := ih (some c)
      generalize cutBreaks (some c) s = segments at hs ⊢
      cases hs with
      | last => exact .last (c :: s)
      | cut segment d t segments hd h => exact .cut (c :: segment) d t segments hd h

theorem strip_gaps (s : Text) : ∃ lead gap, s = lead ++ strip s ++ gap ∧ IsGap lead ∧ IsGap gap := by
  obtain ⟨lead, gap, hs, hlead, hgap, -⟩ := Trim.exists_trim isSpace s
  exact ⟨lead, gap, hs, fun c hc => .inr (List.all_eq_true.mp hlead c hc), fun c hc => .inr (List.all_eq_true.mp hgap c hc)⟩

theorem IsGap.append {a b : Text} (ha : IsGap a) (hb : IsGap b) : IsGap (a ++ b) := by
  intro c hc
  rcases List.mem_append.mp hc with hc | hc
  · exact ha c hc
  · exact hb c hc

theorem IsGap.cons {c : Char} {s : Text} (hc : isPause c = true) (hs : IsGap s) : IsGap (c :: s) :=
  List.forall_mem_cons.mpr ⟨.inl hc, hs⟩

/-- a piece and the gap behind it -/
abbrev Gapped : Type := Text × Text

/-- a line is gaps and its pieces, with a pause in each gap between two pieces -/
theorem CutInto.gapped {s : Text} {segments : List Text} (h : CutInto s segments) : ∃ (lead : Text) (gs : List Gapped),
    s = lead ++ gs.flatMap (fun g => g.1 ++ g.2) ∧ gs.map Prod.fst = (segments.map strip).filter (· ≠ []) ∧ IsGap lead ∧
      (∀ g ∈ gs, IsGap g.2) ∧ gs.IsChain (fun g _ => ∃ c ∈ g.2, isPause c = true) := by
  induction h with
  | last segment =>
    obtain ⟨lead, gap, hs, hlead, hgap⟩ := strip_gaps segment
    by_cases hne : strip segment = []
    · refine ⟨segment, [], (List.append_nil _).symm, ?_, ?_, nofun, List.isChain_nil⟩
      · rw [List.map_cons, List.map_nil, hne]
        rfl
      · rw [hs, hne, List.append_nil]
        exact hlead.append hgap
    · refine ⟨lead, [(strip segment, gap)], ?_, ?_, hlead, ?_, List.isChain_singleton _⟩
      · rw [List.flatMap_singleton, ← List.append_assoc, ← hs]
      · rw [List.map_cons, List.map_nil, List.map_cons, List.map_nil, List.filter_cons_of_pos (by rwa [decide_eq_true_eq])]
        rfl
      · exact List.forall_mem_singleton.mpr hgap
  | cut segment c s segments hc _ ih =>
    obtain ⟨lead', gs, hs', hpieces, hlead', hgaps, hchain⟩ := ih
    obtain ⟨lead, gap, hs, hlead, hgap⟩ := strip_gaps segment
    by_cases hne : strip segment = []
    · refine ⟨segment ++ c :: lead', gs, ?_, ?_, ?_, hgaps, hchain⟩
      · rw [List.append_assoc, List.cons_append, ← hs']
      · rw [List.map_cons, hne, hpieces]
        rfl
      · rw [hs, hne, List.append_nil]
        exact (hlead.append hgap).append (.cons hc hlead')
    · refine ⟨lead, (strip segment, gap ++ c :: lead') :: gs, ?_, ?_, hlead, ?_, ?_⟩
      · rw [List.flatMap_cons, List.append_assoc, List.append_assoc, List.cons_append, ← hs', ← List.append_assoc,
          ← List.append_assoc, ← hs]
      · rw [List.map_cons, List.map_cons, List.filter_cons_of_pos (by rwa [decide_eq_true_eq]), hpieces]
      · exact List.forall_mem_cons.mpr ⟨hgap.append (.cons hc hlead'), hgaps⟩
      · exact List.isChain_cons.mpr ⟨fun _ _ => ⟨c, List.mem_append_right _ List.mem_cons_self, hc⟩, hchain⟩

/-! ## joining -/

/-- what one round of the loop over the pieces writes before its piece -/
theorem joinPieces_cons (k : Nat) (result piece : Text) (rest : List Text) : ∃ separator : Text,
    joinPieces k result (piece :: rest) = joinPieces k (result ++ (separator ++ piece)) rest ∧
      ((separator = [] ∧ intraToken result.getLast? piece.head? = false) ∨ separator = [' '] ∨
        (separator = [CAPTION_COMMA] ∧ CAPTION_COMMA ∉ result ∧
          k ≤ (result.reverse.takeWhile (· != CAPTION_COMMA)).length ∧ k ≤ ((piece :: rest).map List.length).sum)) := by
  rw [joinPieces]
  split
  · next h => exact ⟨[CAPTION_COMMA], rfl, .inr (.inr ⟨rfl, h⟩)⟩
  · split
    · exact ⟨[' '], rfl, .inr (.inl rfl)⟩
    · next h => exact ⟨[], rfl, .inl ⟨rfl, Bool.not_eq_true _ ▸ h⟩⟩

/-- the loop over the pieces writes them in their order, each behind its separator -/
theorem joinPieces_parts (k : Nat) (first : Part) {result : Text} {gs : List Gapped}
    (hlast : result.getLast? = first.piece.getLast?) (hne : ∀ g ∈ gs, g.1 ≠ [])
    (hchain : ((first.piece, first.gap) :: gs).IsChain (fun g _ => ∃ c ∈ g.2, isPause c = true)) :
    ∃ parts : List Part, parts.map (fun p => (p.piece, p.gap)) = gs ∧
      joinPieces k result (gs.map Prod.fst) = result ++ parts.flatMap Part.written ∧
      (∀ p ∈ parts, p.separator = [] ∨ p.separator = [' '] ∨ p.separator = [CAPTION_COMMA]) ∧
      (first :: parts).IsChain Follows := by
  induction gs generalizing first result with
  | nil => exact ⟨[], rfl, (List.append_nil _).symm, nofun, List.isChain_singleton _⟩
  | cons g gs ih =>
    obtain ⟨separator, hjoin, hseparator⟩ := joinPieces_cons k result g.1 (gs.map Prod.fst)
    obtain ⟨hhead, hrest⟩ := List.isChain_cons.mp hchain
    have hg := hne g List.mem_cons_self
    have hlast' : (result ++ (separator ++ g.1)).getLast? = g.1.getLast? := by
      rw [← List.append_assoc, List.getLast?_append_of_ne_nil _ hg]
    obtain ⟨parts, hparts, hwritten, hseparators, hfollows⟩ := ih ⟨separator, g.1, g.2⟩ hlast'
      (fun g' hg' => hne g' (List.mem_cons_of_mem _ hg')) hrest
    refine ⟨⟨separator, g.1, g.2⟩ :: parts, ?_, ?_, List.forall_mem_cons.mpr ⟨?_, hseparators⟩,
      List.isChain_cons.mpr ⟨fun p hp => ?_, hfollows⟩⟩
    · rw [List.map_cons, hparts]
    · rw [List.map_cons, hjoin, hwritten, List.flatMap_cons, List.append_assoc]
      rfl
    · rcases hseparator with h | h | h
      · exact .inl h.1
      · exact .inr (.inl h)
      · exact .inr (.inr h.1)
    · obtain rfl := Option.some.inj hp
      refine ⟨hhead g rfl, fun hnone => ?_⟩
      rw [← hlast]
      rcases hseparator with h | h | h
      · exact h.2
      · exact absurd (h.symm.trans hnone) (List.cons_ne_nil _ _)
      · exact absurd (h.1.symm.trans hnone) (List.cons_ne_nil _ _)

/-- **A line is rewritten as the style says.** -/
theorem normalizeLine_rewrites (k : Nat) (line : Text) :
    ∃ lead parts, Rewrites line (normalizeLine k line) lead parts := by
  obtain ⟨lead, gs, hsource, hpieces, hlead, hgaps, hchain⟩ :=
    (cuts_cutBreaks none (line.filter (fun c => !CAPTION_DROPPED.contains c))).gapped
  have hcut : captionPieces (line.filter (fun c => !CAPTION_DROPPED.contains c)) = gs.map Prod.fst := hpieces.symm
  unfold normalizeLine
  rw [hcut]
  have hne : ∀ g ∈ gs, g.1 ≠ [] := by
    intro g hg
    have hmem : g.1 ∈ gs.map Prod.fst := List.mem_map_of_mem hg
    rw [hpieces, List.mem_filter] at hmem
    exact of_decide_eq_true hmem.2
  cases gs with
  | nil => exact ⟨lead, [], hsource, rfl, hlead, nofun, nofun, nofun, nofun, List.isChain_nil⟩
  | cons g gs =>
    obtain ⟨parts, hparts, hwritten, hseparators, hfollows⟩ := joinPieces_parts k ⟨[], g.1, g.2⟩ rfl
      (fun g' hg' => hne g' (List.mem_cons_of_mem _ hg')) hchain
    have hmem : ∀ p ∈ parts, (p.piece, p.gap) ∈ g :: gs := by
      intro p hp
      rw [← hparts]
      exact List.mem_cons_of_mem _ (List.mem_map_of_mem (f := fun p : Part => (p.piece, p.gap)) hp)
    have hflat : gs.flatMap (fun g => g.1 ++ g.2) = parts.flatMap Part.source := by
      rw [← hparts, List.flatMap_map]
      rfl
    refine ⟨lead, ⟨[], g.1, g.2⟩ :: parts, ?_, ?_, hlead, List.forall_mem_cons.mpr ⟨hgaps g List.mem_cons_self, ?_⟩,
      List.forall_mem_cons.mpr ⟨hne g List.mem_cons_self, ?_⟩, List.forall_mem_cons.mpr ⟨.inl rfl, hseparators⟩, ?_, hfollows⟩
    · rw [hsource, List.flatMap_cons, List.flatMap_cons, hflat]
      rfl
    · rw [List.map_cons]
      dsimp only
      rw [hwritten, List.flatMap_cons]
      rfl
    · exact fun p hp => hgaps _ (hmem p hp)
    · exact fun p hp => hne _ (hmem p hp)
    · intro p hp
      obtain rfl := Option.some.inj hp
      rfl

/-- what is written of parts that follow a part is no longer than what was removed and kept of them -/
theorem written_length {p : Part} {parts : List Part} (hchain : (p :: parts).IsChain Follows)
    (hseparators : ∀ q ∈ parts, q.separator = [] ∨ q.separator = [' '] ∨ q.separator = [CAPTION_COMMA]) :
    p.piece.length + (parts.flatMap Part.written).length ≤ ((p :: parts).flatMap Part.source).length := by
  induction parts generalizing p with
  | nil =>
    rw [List.flatMap_nil, List.length_nil, List.flatMap_singleton]
    unfold Part.source
    rw [List.length_append]
    omega
  | cons q parts ih =>
    obtain ⟨hhead, hrest⟩ := List.isChain_cons.mp hchain
    obtain ⟨c, hc, -⟩ := (hhead q rfl).pause
    have hgap : 0 < p.gap.length := List.length_pos_of_mem hc
    have hq : q.separator.length ≤ 1 := by
      rcases hseparators q List.mem_cons_self with h | h | h
      · rw [h]
        exact Nat.zero_le 1
      · rw [h]
        exact Nat.le_refl 1
      · rw [h]
        exact Nat.le_refl 1
    have hlength := ih hrest (fun r hr => hseparators r (List.mem_cons_of_mem _ hr))
    rw [List.flatMap_cons, List.flatMap_cons, List.length_append, List.length_append]
    unfold Part.written Part.source at hlength ⊢
    rw [List.length_append, List.length_append]
    omega

/-- a rewritten line is no longer -/
theorem Rewrites.length_le {line result lead : Text} {parts : List Part} (h : Rewrites line result lead parts) :
    result.length ≤ line.length := by
  have hfilter := List.length_filter_le (fun c => !CAPTION_DROPPED.contains c) line
  rw [h.source, List.length_append] at hfilter
  rw [h.result]
  cases parts with
  | nil => exact Nat.zero_le _
  | cons p parts =>
    have hwritten := written_length h.follows (fun q hq => h.separators q (List.mem_cons_of_mem _ hq))
    rw [List.flatMap_cons, List.length_append]
    unfold Part.written at hwritten ⊢
    rw [List.length_append, h.first p rfl, List.length_nil]
    omega

/-! ## once more -/

section
variable {k : Nat} {before : Option Char} {a b s t result piece : Text} {pieces : List Text}

/-- a text without commas, or two of them with a comma between, each as long as a comma asks; `rest` is still to come -/
def AtComma (k rest : Nat) (result : Text) : Prop :=
  (Sharp result ∧ CAPTION_COMMA ∉ result) ∨
    ∃ a b, result = a ++ CAPTION_COMMA :: b ∧ (Sharp a ∧ CAPTION_COMMA ∉ a) ∧ (Sharp b ∧ CAPTION_COMMA ∉ b) ∧
      k ≤ a.length ∧ k ≤ b.length + rest

theorem sharp_append (ha : Sharp a) (hb : Sharp b) (separator : Text) : Sharp (a ++ (separator ++ b)) := by
  obtain ⟨c, t, rfl, hc⟩ := ha.1
  obtain ⟨t', d, rfl, hd⟩ := hb.2
  exact ⟨⟨c, t ++ (separator ++ (t' ++ [d])), rfl, hc⟩,
    ⟨c :: t ++ (separator ++ t'), d, by rw [List.append_assoc, List.append_assoc], hd⟩⟩

theorem notMem_append {c : Char} (ha : c ∉ a) (ht : c ∉ t) (hb : c ∉ b) : c ∉ a ++ (t ++ b) := by
  intro h
  rcases List.mem_append.mp h with h | h
  · exact ha h
  · rcases List.mem_append.mp h with h | h
    · exact ht h
    · exact hb h

/-- a piece behind nothing or a space, or behind the only comma -/
theorem AtComma.append {separator : Text} {rest : Nat} (h : AtComma k (piece.length + rest) result)
    (hpiece : Sharp piece ∧ CAPTION_COMMA ∉ piece)
    (hseparator : CAPTION_COMMA ∉ separator ∨ (separator = [CAPTION_COMMA] ∧ CAPTION_COMMA ∉ result ∧
      k ≤ result.length ∧ k ≤ piece.length + rest)) :
    AtComma k rest (result ++ (separator ++ piece)) := by
  rcases hseparator with hseparator | ⟨rfl, hno, hresult, hrest⟩
  · rcases h with ⟨hsharp, hno⟩ | ⟨a, b, rfl, ha, hb, hk, hk'⟩
    · exact .inl ⟨sharp_append hsharp hpiece.1 separator, notMem_append hno hseparator hpiece.2⟩
    · refine .inr ⟨a, b ++ (separator ++ piece), List.append_assoc .., ha,
        ⟨sharp_append hb.1 hpiece.1 separator, notMem_append hb.2 hseparator hpiece.2⟩, hk, ?_⟩
      rw [List.length_append, List.length_append]
      omega
  · rcases h with ⟨hsharp, -⟩ | ⟨a, b, rfl, -⟩
    · exact .inr ⟨result, piece, rfl, ⟨hsharp, hno⟩, hpiece, hresult, hrest⟩
    · exact absurd (List.mem_append_right _ List.mem_cons_self) hno

theorem joinPieces_atComma (h : AtComma k (pieces.map List.length).sum result)
    (hpieces : ∀ p ∈ pieces, Sharp p ∧ CAPTION_COMMA ∉ p) : AtComma k 0 (joinPieces k result pieces) := by
  induction pieces generalizing result with
  | nil => exact h
  | cons piece rest ih =>
    obtain ⟨separator, hjoin, hseparator⟩ := joinPieces_cons k result piece rest
    rw [List.map_cons, List.sum_cons] at h
    rw [hjoin]
    refine ih (h.append (hpieces piece List.mem_cons_self) ?_) (fun p hp => hpieces p (List.mem_cons_of_mem _ hp))
    rcases hseparator with ⟨rfl, -⟩ | rfl | ⟨rfl, hno, hsince, htail⟩
    · exact .inl nofun
    · exact .inl (by decide)
    · rw [List.map_cons, List.sum_cons] at htail
      have hle := (List.takeWhile_sublist (· != CAPTION_COMMA) (l := result.reverse)).length_le
      rw [List.length_reverse] at hle
      exact .inr ⟨rfl, hno, hsince.trans hle, htail⟩

/-- what has no pause at its start is not cut there -/
theorem cutBreaks_append (h : Whole before (a ++ t) none) (ha : CAPTION_COMMA ∉ a) :
    cutBreaks before (a ++ t) = consHead a (cutBreaks (a.getLast?.or before) t) := by
  induction a generalizing before with
  | nil =>
    have hne : cutBreaks before t ≠ [] := by
      obtain ⟨piece, rest, hcut, -⟩ := cutBreaks_whole before t
      rw [hcut]
      exact List.cons_ne_nil _ _
    exact (consHead_empty hne).symm
  | cons c a ih =>
    have hlast : (c :: a).getLast?.or before = a.getLast?.or (some c) := by
      rw [List.getLast?_cons]
      cases a.getLast? with
      | none => rfl
      | some d => rfl
    rw [List.cons_append] at h ⊢
    obtain ⟨hc, hrest⟩ := h
    rw [Option.or_none] at hc
    rw [cutBreaks, if_neg (fun hbreak => ha (hc hbreak ▸ List.mem_cons_self)), hlast,
      ih hrest (fun hmem => ha (List.mem_cons_of_mem c hmem)), consHead_consHead]
    rfl

theorem cutBreaks_noComma (h : Whole before a none) (ha : CAPTION_COMMA ∉ a) : cutBreaks before a = [a] := by
  have hcut := cutBreaks_append (t := []) (by rwa [List.append_nil]) ha
  rw [List.append_nil] at hcut
  rw [hcut]
  show [a ++ []] = [a]
  rw [List.append_nil]

theorem cutBreaks_comma (h : Whole before (a ++ CAPTION_COMMA :: b) none) (ha : CAPTION_COMMA ∉ a)
    (hb : CAPTION_COMMA ∉ b) : cutBreaks before (a ++ CAPTION_COMMA :: b) = [a, b] := by
  have hrest := (whole_append before none a _).mp h
  rw [cutBreaks_append h ha, cutBreaks, if_pos isCaptionBreak_comma, cutBreaks_noComma hrest.2.2 hb]
  show [a ++ [], b] = _
  rw [List.append_nil]

theorem captionPieces_sharp {segments : List Text} (hcut : cutBreaks none s = segments) (h : ∀ p ∈ segments, Sharp p) :
    captionPieces s = segments := by
  unfold captionPieces
  have hstrip : segments.map strip = segments := by
    rw [List.map_congr_left (g := id) (fun p hp => (sharp_iff.mp (h p hp)).2), List.map_id]
  rw [hcut, hstrip, List.filter_eq_self]
  exact fun p hp => decide_eq_true (sharp_iff.mp (h p hp)).1

/-- **A rewritten line is not rewritten again.** -/
theorem normalizeLine_again (k : Nat) (line : Text) : normalizeLine k (normalizeLine k line) = normalizeLine k line := by
  have hplain := normalizeLine_plain k line
  have hfilter : (normalizeLine k line).filter (fun c => !CAPTION_DROPPED.contains c) = normalizeLine k line := by
    rw [List.filter_eq_self]
    intro c hc
    rw [hplain.kept c hc]
    rfl
  have hshape : normalizeLine k line = [] ∨ AtComma k 0 (normalizeLine k line) := by
    unfold normalizeLine
    have hpieces : ∀ p ∈ captionPieces (line.filter (fun c => !CAPTION_DROPPED.contains c)), Sharp p ∧ CAPTION_COMMA ∉ p :=
      fun p hp => ⟨(captionPieces_piece _ p hp).sharp, (captionPieces_piece _ p hp).comma⟩
    split
    · exact .inl rfl
    · next piece rest hcut =>
      rw [hcut] at hpieces
      exact .inr (joinPieces_atComma (.inl (hpieces piece List.mem_cons_self))
        (fun p hp => hpieces p (List.mem_cons_of_mem _ hp)))
  generalize normalizeLine k line = r at hplain hfilter hshape
  unfold normalizeLine
  rw [hfilter]
  rcases hshape with rfl | ⟨hsharp, hno⟩ | ⟨a, b, rfl, ha, hb, hk, hk'⟩
  · rfl
  · rw [captionPieces_sharp (cutBreaks_noComma hplain.whole hno) (List.forall_mem_singleton.mpr hsharp)]
    rfl
  · have hsegments : ∀ p ∈ [a, b], Sharp p := List.forall_mem_cons.mpr ⟨ha.1, List.forall_mem_singleton.mpr hb.1⟩
    rw [captionPieces_sharp (cutBreaks_comma hplain.whole ha.2 hb.2) hsegments]
    have hsince : (a.reverse.takeWhile (· != CAPTION_COMMA)).length = a.length := by
      rw [List.takeWhile_eq_self_iff.mpr, List.length_reverse]
      intro c hc
      rw [bne_iff_ne]
      rintro rfl
      exact ha.2 (List.mem_reverse.mp hc)
    show joinPieces k a [b] = _
    rw [joinPieces, if_pos ⟨ha.2, by rw [hsince]; exact hk, by simpa using hk'⟩]
    rfl

/-! ## the lines of a text -/

theorem normalizedLines_again (k : Nat) (text : Text) :
    normalizedLines k (normalizedLines k text) = normalizedLines k text := by
  have hlines : (splitOn '\n' (normalizedLines k text)).map (normalizeLine k) = splitOn '\n' (normalizedLines k text) := by
    rw [List.map_congr_left (g := id), List.map_id]
    intro l hl
    obtain ⟨line, -, rfl⟩ := mem_normalizedLines hl
    exact normalizeLine_again k line
  obtain ⟨-, -, -, -, -, htrimmed⟩ := Trim.exists_trim (· == '\n')
    (joinLines ((splitOn '\n' (unixLines text)).map (normalizeLine k)))
  have hsame : normalizedLines k (normalizedLines k text) = Trim.trim (· == '\n')
      (joinLines ((splitOn '\n' (unixLines (normalizedLines k text))).map (normalizeLine k))) := rfl
  rw [hsame, unixLines_eq_self normalizedLines_noReturn, hlines, joinLines_splitOn]
  exact Trim.trim_self htrimmed

/-- **`normalize_caption_text` is idempotent.** -/
theorem normalizeCaptionText_again (k : Nat) (text : Text) :
    normalizeCaptionText (normalizeCaptionText text k) k = normalizeCaptionText text k := by
  by_cases hblank : isBlank (normalizedLines k text) = true
  · have hsame : normalizeCaptionText text k = text := if_pos hblank
    rw [hsame, hsame]
  · have hsame : normalizeCaptionText text k = normalizedLines k text := if_neg hblank
    rw [hsame]
    unfold normalizeCaptionText
    rw [normalizedLines_again]
    exact if_neg hblank

/-- the text as it was, when no line is left; or its lines rewritten, without the empty ones around them -/
def Normalizes (text result : Text) : Prop :=
  result = text ∨ ∃ (results : List Text) (m n : Nat),
    List.Forall₂ (fun line result => ∃ lead parts, Rewrites line result lead parts) (splitOn '\n' (unixLines text)) results ∧
    results = List.replicate m [] ++ splitOn '\n' result ++ List.replicate n []

theorem normalizeLine_noNewline {line : Text} (h : '\n' ∉ line) : '\n' ∉ normalizeLine k line := by
  intro hmem
  rcases mem_normalizeLine hmem with hin | hspace | hcomma
  · exact h hin.1
  · exact absurd hspace (by decide)
  · exact absurd hcomma (by decide)

theorem normalizedLines_around (k : Nat) (text : Text) : ∃ m n : Nat,
    (splitOn '\n' (unixLines text)).map (normalizeLine k) =
      List.replicate m [] ++ splitOn '\n' (normalizedLines k text) ++ List.replicate n [] := by
  obtain ⟨a, b, hjoin, ha, hb, -⟩ := Trim.exists_trim (· == '\n')
    (joinLines ((splitOn '\n' (unixLines text)).map (normalizeLine k)))
  have hnewlines {s : Text} (h : s.all (· == '\n') = true) : s = List.replicate s.length '\n' :=
    List.eq_replicate_iff.mpr ⟨rfl, fun c hc => beq_iff_eq.mp (List.all_eq_true.mp h c hc)⟩
  refine ⟨a.length, b.length, ?_⟩
  have hsplit : splitOn '\n' (joinLines ((splitOn '\n' (unixLines text)).map (normalizeLine k))) =
      (splitOn '\n' (unixLines text)).map (normalizeLine k) := by
    refine splitOn_joinLines (fun hnil => splitOn_ne_nil _ _ (List.map_eq_nil_iff.mp hnil)) (fun l hl => ?_)
    obtain ⟨line, hline, rfl⟩ := List.mem_map.mp hl
    exact normalizeLine_noNewline (mem_splitOn hline).1
  rw [← hsplit, hjoin, hnewlines ha, hnewlines hb, List.append_assoc, splitOn_replicate, splitOn_append_replicate,
    List.length_replicate, List.length_replicate, List.append_assoc]
  rfl

/-- **The lines of a text are rewritten as the style says.** -/
theorem normalizeCaptionText_normalizes (k : Nat) (text : Text) : Normalizes text (normalizeCaptionText text k) := by
  unfold normalizeCaptionText
  dsimp only
  split
  · exact .inl rfl
  · obtain ⟨m, n, hlines⟩ := normalizedLines_around k text
    refine .inr ⟨_, m, n, ?_, hlines⟩
    rw [List.forall₂_map_right_iff, List.forall₂_same]
    exact fun line _ => normalizeLine_rewrites k line

theorem normalizeCaptionText_length (k : Nat) (text : Text) : (normalizeCaptionText text k).length ≤ text.length := by
  unfold normalizeCaptionText
  dsimp only
  split
  · exact Nat.le_refl _
  · have htrim : (normalizedLines k text).length ≤
        (joinLines ((splitOn '\n' (unixLines text)).map (normalizeLine k))).length :=
      ((List.rdropWhile_prefix _ _).length_le).trans (List.dropWhile_suffix _).length_le
    have hlines : (joinLines ((splitOn '\n' (unixLines text)).map (normalizeLine k))).length ≤ (unixLines text).length := by
      conv_rhs => rw [← joinLines_splitOn (unixLines text)]
      refine length_joinLines_le ?_
      rw [List.forall₂_map_left_iff, List.forall₂_same]
      intro line _
      obtain ⟨lead, parts, hline⟩ := normalizeLine_rewrites k line
      exact hline.length_le
    exact htrim.trans (hlines.trans (length_unixLines_le text))

end

end OpenFlame.Editing
