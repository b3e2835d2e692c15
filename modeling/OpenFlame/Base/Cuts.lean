import Mathlib.Algebra.Ring.Nat
import Mathlib.Data.List.Chain
import Mathlib.Order.Lattice
import Mathlib.Order.Defs.LinearOrder

/-!
# Spans in windows

Things last from `start` to `stop`, and windows follow one another.

`Inside w x`   a thing within a window
`shows w x`    a thing that is seen through a window, in part at least

* `inside_of_uncut`   a thing that no common end of two windows cuts is inside one of them;
* `flatMap_shows`     **windows show the things that are inside them once each, and in their order.**
-/

set_option linter.all false

namespace Cuts

section
variable {α τ : Type*} [LinearOrder τ] (start stop : α → τ)

def Inside (w : τ × τ) (x : α) : Prop := w.1 ≤ start x ∧ stop x ≤ w.2

def shows (w : τ × τ) (x : α) : Bool := decide (w.1 < stop x ∧ start x < w.2)

/-- windows that follow one another -/
def Following (ws : List (τ × τ)) : Prop := ws.Pairwise (fun v w => v.2 ≤ w.1)

variable {start stop} {v w : τ × τ} {ws : List (τ × τ)} {x : α} {xs : List α}

theorem shows_of_inside (h : Inside start stop w x) (hx : start x < stop x) : shows start stop w x = true :=
  decide_eq_true ⟨lt_of_le_of_lt h.1 hx, lt_of_lt_of_le hx h.2⟩

/-- windows that touch follow one another -/
theorem following_of_touching (h : ws.IsChain (fun v w => v.2 = w.1)) (hpos : ∀ w ∈ ws, w.1 ≤ w.2) : Following ws := by
  induction ws with
  | nil => exact .nil
  | cons v ws ih =>
    obtain ⟨hnext, hrest⟩ := List.isChain_cons.mp h
    rw [List.forall_mem_cons] at hpos
    have hfollowing := ih hrest hpos.2
    refine List.pairwise_cons.mpr ⟨fun w hw => ?_, hfollowing⟩
    cases ws with
    | nil => cases hw
    | cons u ws =>
      rw [hnext u rfl]
      rcases List.mem_cons.mp hw with rfl | hw
      · exact le_refl _
      · exact le_trans (hpos.2 u List.mem_cons_self) ((List.pairwise_cons.mp hfollowing).1 w hw)

/-- **What no cut crosses is inside a window.** -/
theorem inside_of_uncut (h : (w :: ws).IsChain (fun v w => v.2 = w.1)) (hstart : w.1 ≤ start x)
    (hstop : ∀ v ∈ (w :: ws).getLast?, stop x ≤ v.2) (hcut : ∀ v ∈ (w :: ws).dropLast, stop x ≤ v.2 ∨ v.2 ≤ start x) :
    ∃ v ∈ w :: ws, Inside start stop v x := by
  induction ws generalizing w with
  | nil => exact ⟨w, List.mem_cons_self, hstart, hstop w rfl⟩
  | cons u ws ih =>
    obtain ⟨hnext, hrest⟩ := List.isChain_cons.mp h
    rcases hcut w List.mem_cons_self with hw | hw
    · exact ⟨w, List.mem_cons_self, hstart, hw⟩
    · rw [hnext u rfl] at hw
      obtain ⟨v, hv, hinside⟩ := ih hrest hw hstop (fun v hv => hcut v (List.mem_cons_of_mem _ hv))
      exact ⟨v, List.mem_cons_of_mem _ hv, hinside⟩

/-- a list whose first part is what `p` holds of -/
theorem filter_append_filter {p : α → Bool} (h : xs.Pairwise (fun a b => p b = true → p a = true)) :
    xs.filter p ++ xs.filter (fun x => !p x) = xs := by
  induction xs with
  | nil => rfl
  | cons x xs ih =>
    obtain ⟨hx, hrest⟩ := List.pairwise_cons.mp h
    by_cases hp : p x = true
    · rw [List.filter_cons_of_pos hp, List.filter_cons_of_neg (by rw [hp]; exact Bool.false_ne_true), List.cons_append,
        ih hrest]
    · have hnone : xs.filter p = [] := List.filter_eq_nil_iff.mpr (fun y hy hpy => hp (hx y hy hpy))
      have hall : xs.filter (fun x => !p x) = xs := by
        refine List.filter_eq_self.mpr (fun y hy => ?_)
        cases hpy : p y with
        | false => rfl
        | true => exact absurd (hx y hy hpy) hp
      rw [List.filter_cons_of_neg hp, hnone, List.filter_cons_of_pos (by simpa using hp), hall]
      rfl

/-- a window shows only what is inside it -/
theorem inside_of_shows (hws : Following ws) (hin : ∃ v ∈ ws, Inside start stop v x) (hw : w ∈ ws)
    (hshows : shows start stop w x = true) : Inside start stop w x := by
  obtain ⟨hstop, hstart⟩ := of_decide_eq_true hshows
  obtain ⟨v, hv, hinside⟩ := hin
  induction ws with
  | nil => cases hw
  | cons u ws ih =>
    obtain ⟨hu, hws⟩ := List.pairwise_cons.mp hws
    rcases List.mem_cons.mp hw with rfl | hw'
    · rcases List.mem_cons.mp hv with rfl | hv'
      · exact hinside
      · exact absurd (lt_of_lt_of_le hstart (le_trans (hu v hv') hinside.1)) (lt_irrefl _)
    · rcases List.mem_cons.mp hv with rfl | hv'
      · exact absurd (lt_of_lt_of_le hstop (le_trans hinside.2 (hu w hw'))) (lt_irrefl _)
      · exact ih hws hw' hv'

/-- what the first window shows comes first -/
theorem shows_first (hws : Following (w :: ws)) (hin : ∀ x ∈ xs, ∃ v ∈ w :: ws, Inside start stop v x)
    (hsorted : xs.Pairwise (fun a b => start a ≤ start b)) (hpos : ∀ x ∈ xs, start x < stop x) :
    xs.Pairwise (fun a b => shows start stop w b = true → shows start stop w a = true) := by
  refine List.Pairwise.imp_of_mem (fun {a b} ha _ hab hb => ?_) hsorted
  obtain ⟨-, hb⟩ := of_decide_eq_true hb
  obtain ⟨v, hv, hinside⟩ := hin a ha
  rcases List.mem_cons.mp hv with rfl | hv
  · exact shows_of_inside hinside (hpos a ha)
  · have hlater := (List.pairwise_cons.mp hws).1 v hv
    exact absurd (lt_of_lt_of_le hb (le_trans hlater (le_trans hinside.1 hab))) (lt_irrefl _)

/-- **Windows show everything once**, and in its order. -/
theorem flatMap_shows (hws : Following ws) (hin : ∀ x ∈ xs, ∃ v ∈ ws, Inside start stop v x)
    (hsorted : xs.Pairwise (fun a b => start a ≤ start b)) (hpos : ∀ x ∈ xs, start x < stop x) :
    ws.flatMap (fun w => xs.filter (shows start stop w)) = xs := by
  induction ws generalizing xs with
  | nil =>
    cases xs with
    | nil => rfl
    | cons x xs =>
      obtain ⟨v, hv, -⟩ := hin x List.mem_cons_self
      cases hv
  | cons w ws ih =>
    obtain ⟨hnext, hrest⟩ := List.pairwise_cons.mp hws
    have hlater : ∀ v ∈ ws, ∀ x ∈ xs, shows start stop v x = true → shows start stop w x = false := by
      intro v hv x hx hshows
      have hinside := inside_of_shows hws (hin x hx) (List.mem_cons_of_mem _ hv) hshows
      refine decide_eq_false (fun h => ?_)
      exact absurd (lt_of_lt_of_le h.2 (le_trans (hnext v hv) hinside.1)) (lt_irrefl _)
    have hfilter : ∀ v ∈ ws, xs.filter (shows start stop v) =
        (xs.filter (fun x => !shows start stop w x)).filter (shows start stop v) := by
      intro v hv
      rw [List.filter_filter]
      refine List.filter_congr (fun x hx => ?_)
      cases hv' : shows start stop v x with
      | false => rfl
      | true =>
        rw [hlater v hv x hx hv']
        rfl
    have hin' : ∀ x ∈ xs.filter (fun x => !shows start stop w x), ∃ v ∈ ws, Inside start stop v x := by
      intro x hx
      obtain ⟨hmem, hnot⟩ := List.mem_filter.mp hx
      obtain ⟨v, hv, hinside⟩ := hin x hmem
      rcases List.mem_cons.mp hv with rfl | hv'
      · rw [shows_of_inside hinside (hpos x hmem)] at hnot
        cases hnot
      · exact ⟨v, hv', hinside⟩
    have hrest' := ih hrest hin' (hsorted.sublist List.filter_sublist) (fun x hx => hpos x (List.mem_of_mem_filter hx))
    rw [List.flatMap_cons, List.flatMap_congr hfilter, hrest']
    exact filter_append_filter (shows_first hws hin hsorted hpos)

end

end Cuts
