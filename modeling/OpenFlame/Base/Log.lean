import Mathlib.Algebra.Ring.Nat
import Mathlib.Data.List.Basic

/-!
# Logs: events and what came before them

`Log.Holds P log`     every event `e` of the log has `P before e`, where `before` is the log up to it
`Log.Since a b log`   some event that is an `a` has no `b` after it

* `Holds.append`, `Holds.snoc`, `Since.append`   what appending to a log keeps.
-/

set_option linter.all false

universe u

namespace Log
variable {ε : Type u}

def Holds (P : List ε → ε → Prop) (log : List ε) : Prop := ∀ before e after, log = before ++ e :: after → P before e

def Since (a b : ε → Prop) (log : List ε) : Prop :=
  ∃ before e after, log = before ++ e :: after ∧ a e ∧ ∀ x ∈ after, ¬ b x

section
variable {P : List ε → ε → Prop} {a b : ε → Prop} {log new : List ε}

theorem Holds.nil : Holds P [] := by
  intro before e after h
  cases before <;> cases h

/-- an event of an appended log is one of the log, or comes after it -/
theorem split_append {before after : List ε} {e : ε} (h : log ++ new = before ++ e :: after) :
    (∃ rest, log = before ++ e :: rest) ∨ ∃ pre, before = log ++ pre ∧ new = pre ++ e :: after := by
  rcases List.append_eq_append_iff.mp h with ⟨pre, h1, h2⟩ | ⟨rest, h1, h2⟩
  · exact .inr ⟨pre, h1, h2⟩
  · cases rest with
    | nil =>
      rw [List.append_nil] at h1
      exact .inr ⟨[], by rw [h1, List.append_nil], h2.symm⟩
    | cons x rest =>
      obtain ⟨rfl, -⟩ := List.cons.inj h2
      exact .inl ⟨rest, h1⟩

theorem Holds.append (h : Holds P log) (hnew : ∀ pre e post, new = pre ++ e :: post → P (log ++ pre) e) :
    Holds P (log ++ new) := by
  intro before e after he
  rcases split_append he with ⟨rest, h1⟩ | ⟨pre, rfl, h2⟩
  · exact h before e rest h1
  · exact hnew pre e after h2

theorem Holds.snoc {e : ε} (h : Holds P log) (he : P log e) : Holds P (log ++ [e]) := by
  refine h.append (fun pre x post hx => ?_)
  cases pre with
  | nil =>
    obtain ⟨rfl, -⟩ := List.cons.inj hx
    rw [List.append_nil]
    exact he
  | cons y pre =>
    have := congrArg List.length hx
    simp at this

theorem Since.append (h : Since a b log) (hnew : ∀ x ∈ new, ¬ b x) : Since a b (log ++ new) := by
  obtain ⟨before, e, after, rfl, ha, hb⟩ := h
  refine ⟨before, e, after ++ new, by rw [List.append_assoc, List.cons_append], ha, fun x hx => ?_⟩
  rcases List.mem_append.mp hx with hx | hx
  · exact hb x hx
  · exact hnew x hx

theorem Since.last {e : ε} (he : a e) : Since a b (log ++ [e]) :=
  ⟨log, e, [], rfl, he, fun _ h => by cases h⟩

/-- an `a` of the new events with no `b` after it -/
theorem Since.right (h : Since a b new) : Since a b (log ++ new) := by
  obtain ⟨before, e, after, rfl, ha, hb⟩ := h
  exact ⟨log ++ before, e, after, by rw [List.append_assoc], ha, hb⟩

end
end Log
