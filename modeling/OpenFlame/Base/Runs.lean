import Mathlib.Algebra.Ring.Nat
import Mathlib.Data.List.Basic

/-!
# Runs of a labelled transition system

`Run step s ls s'`: from `s` the steps labelled `ls` (first one first) lead to `s'`.
`Reach init step s`: some run from an initial state ends in `s`.

* `Run.induct`, `Reach.induct`   what every step preserves holds along every run;
* `Run.mono`                     a preorder that every step climbs is climbed by every run;
* `Run.unless`                   if every step out of `P` keeps `P` or is a `Q`, then a run from `P`
                                 to a state without `P` keeps `P` up to a step that is a `Q`.
-/

set_option linter.all false

universe u v

namespace TransSys
variable {σ : Type u} {ℓ : Type v}

inductive Run (step : σ → ℓ → σ → Prop) : σ → List ℓ → σ → Prop where
  | nil (s : σ) : Run step s [] s
  | cons {s s₁ s' : σ} {l : ℓ} {ls : List ℓ} :
      step s l s₁ → Run step s₁ ls s' → Run step s (l :: ls) s'

inductive Reach (init : σ → Prop) (step : σ → ℓ → σ → Prop) : σ → Prop where
  | init {s : σ} : init s → Reach init step s
  | step {s s' : σ} {l : ℓ} : Reach init step s → step s l s' → Reach init step s'

section
variable {init : σ → Prop} {step : σ → ℓ → σ → Prop}

theorem Run.single {s s' : σ} {l : ℓ} (h : step s l s') : Run step s [l] s' := .cons h (.nil _)

theorem Run.append {s s₁ s' : σ} {ls ls' : List ℓ} (h : Run step s ls s₁) (h' : Run step s₁ ls' s') :
    Run step s (ls ++ ls') s' := by
  induction h with
  | nil s => exact h'
  | cons hs _ ih => exact .cons hs (ih h')

theorem Run.weaken {step' : σ → ℓ → σ → Prop} (h : ∀ s l s', step s l s' → step' s l s') {s s' : σ}
    {ls : List ℓ} (hr : Run step s ls s') : Run step' s ls s' := by
  induction hr with
  | nil s => exact .nil s
  | cons hs _ ih => exact .cons (h _ _ _ hs) ih

theorem Reach.run {s s' : σ} {ls : List ℓ} (h : Reach init step s) (hr : Run step s ls s') :
    Reach init step s' := by
  induction hr with
  | nil s => exact h
  | cons hs _ ih => exact ih (.step h hs)

theorem Reach.exists_run {s : σ} (h : Reach init step s) : ∃ s₀ ls, init s₀ ∧ Run step s₀ ls s := by
  induction h with
  | init h => exact ⟨_, [], h, .nil _⟩
  | step _ hs ih =>
    obtain ⟨s₀, ls, h0, hr⟩ := ih
    exact ⟨s₀, _, h0, hr.append (.single hs)⟩

/-- **The invariant rule.** -/
theorem Reach.induct {I : σ → Prop} (h0 : ∀ s, init s → I s)
    (hstep : ∀ s l s', Reach init step s → I s → step s l s' → I s') {s : σ}
    (h : Reach init step s) : I s := by
  induction h with
  | init h => exact h0 _ h
  | step hr hs ih => exact hstep _ _ _ hr ih hs

/-- the invariant rule along a run, under an invariant that is already known -/
theorem Run.induct {I J : σ → Prop} (hI : ∀ s l s', I s → step s l s' → I s')
    (hJ : ∀ s l s', I s → J s → step s l s' → J s') {s s' : σ} {ls : List ℓ}
    (h : Run step s ls s') (hi : I s) (hj : J s) : J s' := by
  induction h with
  | nil s => exact hj
  | cons hs _ ih => exact ih (hI _ _ _ hi hs) (hJ _ _ _ hi hj hs)

theorem Run.mono {I : σ → Prop} {r : σ → σ → Prop} (hI : ∀ s l s', I s → step s l s' → I s')
    (hrefl : ∀ s, r s s) (htrans : ∀ a b c, r a b → r b c → r a c)
    (hstep : ∀ s l s', I s → step s l s' → r s s') {s s' : σ} {ls : List ℓ}
    (h : Run step s ls s') (hi : I s) : r s s' := by
  induction h with
  | nil s => exact hrefl s
  | cons hs _ ih => exact htrans _ _ _ (hstep _ _ _ hi hs) (ih (hI _ _ _ hi hs))

/-- **`P` unless `Q`**: a run that loses `P` keeps it up to a step that is a `Q`. -/
theorem Run.unless {I P : σ → Prop} {Q : σ → ℓ → σ → Prop} (hI : ∀ s l s', I s → step s l s' → I s')
    (hPQ : ∀ s l s', I s → P s → step s l s' → P s' ∨ Q s l s') {s s' : σ} {ls : List ℓ}
    (h : Run step s ls s') (hi : I s) (hp : P s) (hnp : ¬ P s') :
    ∃ ls₁ l ls₂ s₁ s₂, ls = ls₁ ++ l :: ls₂ ∧ Run (fun a l b => P a ∧ step a l b) s ls₁ s₁ ∧ P s₁ ∧
      step s₁ l s₂ ∧ Q s₁ l s₂ ∧ Run step s₂ ls₂ s' := by
  classical
  induction h with
  | nil s => exact absurd hp hnp
  | @cons s s₁ s' l ls hs hr ih =>
    by_cases h1 : P s₁
    · obtain ⟨ls₁, l', ls₂, a, b, e, ha, hPa, hab, hQ, hb⟩ := ih (hI _ _ _ hi hs) h1 hnp
      exact ⟨l :: ls₁, l', ls₂, a, b, by rw [e, List.cons_append], .cons ⟨hp, hs⟩ ha, hPa, hab, hQ, hb⟩
    · rcases hPQ _ _ _ hi hp hs with h2 | hq
      · exact absurd h2 h1
      · exact ⟨[], l, ls, s, s₁, rfl, .nil _, hp, hs, hq, hr⟩

end
end TransSys
