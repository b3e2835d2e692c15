import Mathlib.Algebra.Ring.Nat
import Mathlib.Algebra.Ring.Int.Defs
import Mathlib.Data.List.DropRight

/-!
# Text as lists of characters

`isSpace`: the characters that `str.strip` removes, by code point.
`strip`: both ends without them.  `strip_strip`, `strip_eq_self_iff`: a stripped text is its own
strip, and has no such character at either end (`Sharp`).
-/

set_option linter.all false

namespace Text

instance lawfulBEq_chars : LawfulBEq (List Char) := inferInstance

/-- `str.isspace` of one character -/
def isSpace (c : Char) : Bool :=
  let n := c.toNat
  (9 ≤ n && n ≤ 13) || (28 ≤ n && n ≤ 32) || n == 0x85 || n == 0xA0 || n == 0x1680 ||
    (0x2000 ≤ n && n ≤ 0x200A) || n == 0x2028 || n == 0x2029 || n == 0x202F || n == 0x205F ||
    n == 0x3000

/-- `str.rstrip()` -/
def rstrip (s : List Char) : List Char := s.rdropWhile isSpace

/-- `str.strip()` -/
def strip (s : List Char) : List Char := rstrip (s.dropWhile isSpace)

/-- `not text.strip()` -/
def isBlank (s : List Char) : Bool := s.all isSpace

variable {s : List Char}

/-- what is checked of each character of a text -/
theorem forall_of_all {P : Char → Prop} [DecidablePred P] (h : s.all (fun c => decide (P c)) = true) : ∀ c ∈ s, P c :=
  fun c hc => of_decide_eq_true (List.all_eq_true.mp h c hc)

/-- what is stripped is a part of the text -/
theorem strip_isInfix (s : List Char) : strip s <:+: s :=
  (List.rdropWhile_prefix _ _).isInfix.trans (List.dropWhile_suffix _).isInfix

theorem strip_length_le (s : List Char) : (strip s).length ≤ s.length := (strip_isInfix s).length_le

theorem strip_subset (s : List Char) : strip s ⊆ s := (strip_isInfix s).subset

/-- a text is its own strip iff it neither starts nor ends with a space -/
theorem strip_eq_self_iff : strip s = s ↔ ∀ h : s ≠ [], isSpace (s.head h) = false ∧ isSpace (s.getLast h) = false := by
  have hboth : strip s = s ↔ s.dropWhile isSpace = s ∧ s.rdropWhile isSpace = s := by
    constructor
    · intro h
      have hlen : (strip s).length ≤ (s.dropWhile isSpace).length := (List.rdropWhile_prefix isSpace _).length_le
      rw [h] at hlen
      have hd := (List.dropWhile_suffix isSpace (l := s)).eq_of_length_le hlen
      unfold strip rstrip at h
      rw [hd] at h
      exact ⟨hd, h⟩
    · rintro ⟨hd, hr⟩
      unfold strip rstrip
      rw [hd, hr]
  rw [hboth, List.dropWhile_eq_self_iff, List.rdropWhile_eq_self_iff]
  constructor
  · intro h hne
    have hpos := List.length_pos_iff.mpr hne
    refine ⟨?_, by simpa using h.2 hne⟩
    rw [List.head_eq_getElem]
    simpa using h.1 hpos
  · intro h
    refine ⟨fun hpos => ?_, fun hne => by simpa using (h hne).2⟩
    have hne := List.length_pos_iff.mp hpos
    have := (h hne).1
    rw [List.head_eq_getElem] at this
    simpa using this

/-- a text does not start with a space once its start is stripped, nor end with one -/
theorem strip_ends (s : List Char) (h : strip s ≠ []) :
    isSpace ((strip s).head h) = false ∧ isSpace ((strip s).getLast h) = false := by
  constructor
  · have hpre : strip s <+: s.dropWhile isSpace := List.rdropWhile_prefix _ _
    have hne : s.dropWhile isSpace ≠ [] := fun e => h (List.prefix_nil.mp (e ▸ hpre))
    rw [hpre.head h]
    exact List.head_dropWhile_not isSpace hne
  · have hlast := List.rdropWhile_last_not isSpace (s.dropWhile isSpace) h
    rw [Bool.not_eq_true] at hlast
    exact hlast

/-- a text that begins and ends with a character that is not stripped -/
def Sharp (s : List Char) : Prop :=
  (∃ c t, s = c :: t ∧ isSpace c = false) ∧ ∃ t c, s = t ++ [c] ∧ isSpace c = false

theorem sharp_iff : Sharp s ↔ s ≠ [] ∧ strip s = s := by
  constructor
  · rintro ⟨⟨c, t, hs, hc⟩, t', c', hs', hc'⟩
    refine ⟨by rw [hs]; exact List.cons_ne_nil _ _, strip_eq_self_iff.mpr (fun h => ⟨?_, ?_⟩)⟩
    · simp only [hs, List.head_cons, hc]
    · simp only [hs', List.getLast_append_singleton, hc']
  · rintro ⟨hne, h⟩
    obtain ⟨h1, h2⟩ := strip_eq_self_iff.mp h hne
    exact ⟨⟨s.head hne, s.tail, (List.cons_head_tail hne).symm, h1⟩,
      ⟨s.dropLast, s.getLast hne, (List.dropLast_append_getLast hne).symm, h2⟩⟩

theorem Sharp.append {a b : List Char} (ha : ∃ c t, a = c :: t ∧ isSpace c = false) (hb : Sharp b) : Sharp (a ++ b) := by
  obtain ⟨c, t, rfl, hc⟩ := ha
  obtain ⟨-, t', c', rfl, hc'⟩ := hb
  exact ⟨⟨c, t ++ (t' ++ [c']), rfl, hc⟩, ⟨c :: t ++ t', c', (List.append_assoc ..).symm, hc'⟩⟩

@[simp] theorem strip_strip (s : List Char) : strip (strip s) = strip s := strip_eq_self_iff.mpr (strip_ends s)

theorem strip_cons {c : Char} (hc : isSpace c = true) (s : List Char) : strip (c :: s) = strip s := by
  unfold strip
  rw [List.dropWhile_cons_of_pos hc]

theorem strip_concat {c : Char} (hc : isSpace c = true) (s : List Char) : strip (s ++ [c]) = strip s := by
  unfold strip rstrip
  rw [List.dropWhile_append]
  split
  · next h =>
    have hnil : s.dropWhile isSpace = [] := List.isEmpty_iff.mp h
    rw [hnil, List.dropWhile_cons_of_pos hc]
    rfl
  · exact List.rdropWhile_concat_pos isSpace _ c hc

/-- a text with something in it keeps it -/
theorem isBlank_strip (h : isBlank s = false) : isBlank (strip s) = false := by
  obtain ⟨c, hc, hs⟩ := List.all_eq_false.mp h
  have hne : strip s ≠ [] := by
    intro e
    have hall := List.rdropWhile_eq_nil_iff.mp e
    have hmem : c ∈ s.dropWhile isSpace := by
      rw [← List.takeWhile_append_dropWhile (p := isSpace) (l := s)] at hc
      rcases List.mem_append.mp hc with h | h
      · exact absurd (List.mem_takeWhile_imp h) hs
      · exact h
    exact hs (hall c hmem)
  refine List.all_eq_false.mpr ⟨(strip s).head hne, List.head_mem hne, ?_⟩
  rw [(strip_ends s hne).1]
  exact Bool.false_ne_true

end Text
