import Mathlib.Algebra.Ring.Nat
import Mathlib.Data.List.DropRight

/-!
# Lists without what stands around them

* `trim_sandwich`   what is trimmed from around a list that starts and ends otherwise;
* `exists_trim`     every list is its trimmed part between what was trimmed.
-/

set_option linter.all false

namespace Trim

variable {α : Type*} {p : α → Bool} {before s after : List α}

/-- the list without what `p` holds of at its start and at its end -/
def trim (p : α → Bool) (s : List α) : List α := (s.dropWhile p).rdropWhile p

/-- nothing to trim -/
def Trimmed (p : α → Bool) (s : List α) : Prop := (∀ a ∈ s.head?, p a = false) ∧ ∀ a ∈ s.getLast?, p a = false

theorem rdropWhile_append (h : after.all p = true) : (s ++ after).rdropWhile p = s.rdropWhile p := by
  unfold List.rdropWhile
  rw [List.reverse_append, List.dropWhile_append_of_pos]
  intro a ha
  exact List.all_eq_true.mp h a (List.mem_reverse.mp ha)

theorem rdropWhile_self (h : ∀ a ∈ s.getLast?, p a = false) : s.rdropWhile p = s := by
  rw [List.rdropWhile_eq_self_iff]
  intro hs
  rw [h _ (List.getLast?_eq_some_getLast hs)]
  exact Bool.false_ne_true

theorem trim_sandwich (hbefore : before.all p = true) (hafter : after.all p = true) (hs : Trimmed p s) :
    trim p (before ++ s ++ after) = s := by
  unfold trim
  rw [List.append_assoc, List.dropWhile_append_of_pos (List.all_eq_true.mp hbefore)]
  cases s with
  | nil =>
    have hnil : after.dropWhile p = [] := List.dropWhile_eq_nil_iff.mpr (List.all_eq_true.mp hafter)
    rw [List.nil_append, hnil]
    rfl
  | cons a s =>
    have hhead : ¬ p a = true := by
      rw [hs.1 a rfl]
      exact Bool.false_ne_true
    rw [List.cons_append, List.dropWhile_cons_of_neg hhead, ← List.cons_append, rdropWhile_append hafter,
      rdropWhile_self hs.2]

theorem trim_self (hs : Trimmed p s) : trim p s = s := by
  have h := @trim_sandwich _ p [] s [] rfl rfl hs
  rwa [List.nil_append, List.append_nil] at h

theorem exists_trim (p : α → Bool) (s : List α) :
    ∃ before after, s = before ++ trim p s ++ after ∧ before.all p = true ∧ after.all p = true ∧ Trimmed p (trim p s) := by
  refine ⟨s.takeWhile p, (s.dropWhile p).rtakeWhile p, ?_, ?_, ?_, ?_, ?_⟩
  · unfold trim
    rw [List.append_assoc, List.rdropWhile_append_rtakeWhile, List.takeWhile_append_dropWhile]
  · exact List.all_takeWhile
  · rw [List.all_eq_true]
    intro a ha
    exact List.mem_rtakeWhile_imp ha
  · -- the start of what is left is the start of what was left of it
    intro a ha
    have hprefix : trim p s <+: s.dropWhile p := List.rdropWhile_prefix p _
    obtain ⟨rest, hrest⟩ := hprefix
    have hhead : a ∈ (s.dropWhile p).head? := by
      rw [← hrest, List.head?_append, Option.mem_def.mp ha]
      rfl
    have := List.head?_dropWhile_not p s
    rw [Option.mem_def.mp hhead] at this
    exact this
  · intro a ha
    have hne : (s.dropWhile p).rdropWhile p ≠ [] := by
      intro hnil
      unfold trim at ha
      rw [hnil] at ha
      cases ha
    have := List.rdropWhile_last_not p (s.dropWhile p) hne
    unfold trim at ha
    rw [List.getLast?_eq_some_getLast hne] at ha
    cases ha
    exact Bool.eq_false_iff.mpr this

end Trim
