import Mathlib.Algebra.Ring.Nat
import Mathlib.Data.List.Basic

/-!
# Things on a blank tape

`lay`    a tape that is blank but for things at their places
`Fits`   things that come one after another, with room for each

`lay_thing`, `lay_blank`: **each thing is where it was laid, and the rest of the tape is blank.**
-/

set_option linter.all false

namespace Tape

section
variable {α : Type*}

/-- the tape from `start` to `total` -/
def lay (blank : α) (total : Nat) : Nat → List (Nat × List α) → List α
  | start, [] => List.replicate (total - start) blank
  | start, (place, xs) :: rest => List.replicate (place - start) blank ++ xs ++ lay blank total (place + xs.length) rest

def Fits (total : Nat) : Nat → List (Nat × List α) → Prop
  | start, [] => start ≤ total
  | start, (place, xs) :: rest => start ≤ place ∧ Fits total (place + xs.length) rest

variable {blank : α} {total start place : Nat} {xs : List α} {things : List (Nat × List α)}

theorem Fits.start_le (h : Fits total start things) : start ≤ total := by
  induction things generalizing start with
  | nil => exact h
  | cons t things ih =>
    have := ih h.2
    have := h.1
    omega

theorem length_lay (h : Fits total start things) : (lay blank total start things).length = total - start := by
  induction things generalizing start with
  | nil => exact List.length_replicate
  | cons t things ih =>
    obtain ⟨hplace, hrest⟩ := h
    have hle := hrest.start_le
    rw [lay, List.length_append, List.length_append, List.length_replicate, ih hrest]
    omega

/-- things come after the start -/
theorem Fits.le_place (h : Fits total start things) (ht : (place, xs) ∈ things) :
    start ≤ place ∧ place + xs.length ≤ total := by
  induction things generalizing start with
  | nil => cases ht
  | cons t things ih =>
    obtain ⟨hplace, hrest⟩ := h
    rcases List.mem_cons.mp ht with rfl | ht
    · exact ⟨hplace, hrest.start_le⟩
    · have := ih hrest ht
      omega

/-- things do not overlap -/
theorem Fits.apart (h : Fits total start things) : things.Pairwise (fun a b => a.1 + a.2.length ≤ b.1) := by
  induction things generalizing start with
  | nil => exact .nil
  | cons t things ih => exact List.pairwise_cons.mpr ⟨fun b hb => (h.2.le_place hb).1, ih h.2⟩

/-- **Each thing is at its place.** -/
theorem lay_thing (h : Fits total start things) (ht : (place, xs) ∈ things) :
    ((lay blank total start things).drop (place - start)).take xs.length = xs := by
  induction things generalizing start with
  | nil => cases ht
  | cons t things ih =>
    obtain ⟨hplace, hrest⟩ := h
    rcases List.mem_cons.mp ht with rfl | ht
    · rw [lay, List.append_assoc, List.drop_left' List.length_replicate, List.take_left' rfl]
    · have hle := (hrest.le_place ht).1
      have hdrop : place - start = (List.replicate (t.1 - start) blank ++ t.2).length + (place - (t.1 + t.2.length)) := by
        rw [List.length_append, List.length_replicate]
        omega
      rw [lay, hdrop, List.drop_length_add_append]
      exact ih hrest ht

/-- **The rest is blank.** -/
theorem lay_blank (h : Fits total start things) {k : Nat} (hk : start + k < total)
    (hout : ∀ t ∈ things, start + k < t.1 ∨ t.1 + t.2.length ≤ start + k) :
    (lay blank total start things)[k]? = some blank := by
  induction things generalizing start k with
  | nil =>
    rw [lay, List.getElem?_replicate]
    exact if_pos (by omega)
  | cons t things ih =>
    obtain ⟨hplace, hrest⟩ := h
    rw [List.forall_mem_cons] at hout
    rw [lay, List.append_assoc]
    rcases hout.1 with hbefore | hafter
    · rw [List.getElem?_append_left (by rw [List.length_replicate]; omega), List.getElem?_replicate]
      exact if_pos (by omega)
    · have hindex : k = t.1 - start + (t.2.length + (start + k - (t.1 + t.2.length))) := by omega
      rw [List.getElem?_append_right (by rw [List.length_replicate]; omega),
        List.getElem?_append_right (by rw [List.length_replicate]; omega), List.length_replicate]
      have hshift : k - (t.1 - start) - t.2.length = start + k - (t.1 + t.2.length) := by omega
      rw [hshift]
      have hsame : t.1 + t.2.length + (start + k - (t.1 + t.2.length)) = start + k := by omega
      exact ih hrest (by omega) (fun u hu => by rw [hsame]; exact hout.2 u hu)

end

end Tape
