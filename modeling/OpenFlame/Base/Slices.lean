import Mathlib.Algebra.Ring.Nat
import Mathlib.Data.List.Basic
import Mathlib.Order.Lattice
import Mathlib.Order.Defs.LinearOrder

/-!
# Slices of a list

`slice xs lo hi`   `xs[lo:hi]`
`clamp lo hi n`    a place, moved into a span

* `slice_append`, `flatMap_slices`   slices that follow one another make one slice;
* `slice_slice`                      a slice of a slice;
* **`flatMap_clamped`**              the parts of a span that blocks of one size cut make the span.
-/

set_option linter.all false

namespace Slices

section
variable {α : Type*}

def slice (xs : List α) (lo hi : Nat) : List α := (xs.take hi).drop lo

variable {xs : List α} {lo mid hi a b : Nat}

theorem length_slice (h : hi ≤ xs.length) : (slice xs lo hi).length = hi - lo := by
  unfold slice
  rw [List.length_drop, List.length_take, Nat.min_eq_left h]

theorem slice_self (xs : List α) (lo : Nat) : slice xs lo lo = [] := by
  unfold slice
  exact List.drop_eq_nil_of_le (List.length_take_le _ _)

theorem slice_append (h1 : lo ≤ mid) (h2 : mid ≤ hi) : slice xs lo mid ++ slice xs mid hi = slice xs lo hi := by
  have htake : xs.take hi = xs.take mid ++ slice xs mid hi := by
    unfold slice
    have hmid : xs.take mid = (xs.take hi).take mid := by rw [List.take_take, Nat.min_eq_left h2]
    rw [hmid, List.take_append_drop]
  by_cases hlen : mid ≤ xs.length
  · show (xs.take mid).drop lo ++ slice xs mid hi = (xs.take hi).drop lo
    rw [htake, List.drop_append_of_le_length (by rw [List.length_take]; omega)]
  · have h3 : xs.take mid = xs := List.take_of_length_le (by omega)
    have h4 : xs.take hi = xs := List.take_of_length_le (by omega)
    unfold slice
    rw [h3, h4, List.drop_eq_nil_of_le (by omega : xs.length ≤ mid), List.append_nil]

/-- a slice of what is left after `a` -/
theorem slice_drop_take (xs : List α) (a b lo hi : Nat) :
    slice ((xs.drop a).take b) lo hi = slice xs (a + lo) (a + min hi b) := by
  unfold slice
  rw [List.take_take, List.take_drop, List.drop_drop, Nat.add_comm a (min hi b)]

/-- slices between places that ascend -/
theorem flatMap_slices {f : Nat → Nat} (hf : ∀ i, f i ≤ f (i + 1)) (m n : Nat) :
    (List.range' m n).flatMap (fun i => slice xs (f i) (f (i + 1))) = slice xs (f m) (f (m + n)) := by
  induction n generalizing m with
  | zero =>
    show [] = slice xs (f m) (f m)
    rw [slice_self]
  | succ n ih =>
    have hle : f (m + 1) ≤ f (m + 1 + n) := by
      clear ih
      induction n with
      | zero => exact Nat.le_refl _
      | succ n ih => exact Nat.le_trans ih (hf _)
    rw [List.range'_succ, List.flatMap_cons, ih, slice_append (hf m) hle]
    congr 2
    omega

def clamp (lo hi n : Nat) : Nat := max lo (min hi n)

theorem clamp_le (h : lo ≤ hi) (n : Nat) : clamp lo hi n ≤ hi := by
  unfold clamp
  omega

theorem clamp_of_le {n : Nat} (h : n ≤ lo) : clamp lo hi n = lo := by
  unfold clamp
  omega

theorem clamp_of_ge {n : Nat} (h : lo ≤ hi) (hn : hi ≤ n) : clamp lo hi n = hi := by
  unfold clamp
  omega

/-- **The parts of a span between multiples of a size make the span.** -/
theorem flatMap_clamped (k m n : Nat) :
    (List.range' m n).flatMap (fun i => slice xs (clamp lo hi (i * k)) (clamp lo hi ((i + 1) * k))) =
      slice xs (clamp lo hi (m * k)) (clamp lo hi ((m + n) * k)) := by
  refine flatMap_slices (fun i => ?_) m n
  have : i * k ≤ (i + 1) * k := Nat.mul_le_mul_right k (Nat.le_succ i)
  unfold clamp
  omega

end

end Slices
