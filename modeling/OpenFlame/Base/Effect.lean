/-!
# Computations that change a state and may raise

`Effect σ ε α`   what was changed before an exception stays changed
`raise`, `tryExcept`, `tryFinally`, `mapError`   the exceptions
`Triple P x Q E`   from a state with `P`, `x` returns to `Q` or raises to `E`
`Quiet x`          `x` leaves the state as it is
`RaisesFrom x s p` from `s`, what `x` raises satisfies `p`
`Returns x s`      from `s`, `x` returns

The rules are one for each way of putting computations together: `triple_bind`, `triple_tryExcept`,
`triple_tryFinally`, …, and `Triple.mono` for what follows.
-/

/-- a computation on a state, which it leaves changed when it raises -/
def Effect (σ ε α : Type) := σ → Except ε α × σ

namespace Effect
variable {σ ε α β : Type}

def bind (x : Effect σ ε α) (f : α → Effect σ ε β) : Effect σ ε β := fun s =>
  match x s with
  | (.ok a, s') => f a s'
  | (.error e, s') => (.error e, s')

instance : Monad (Effect σ ε) where
  pure a := fun s => (.ok a, s)
  bind := bind

def raise (e : ε) : Effect σ ε α := fun s => (.error e, s)

/-- a result that does not touch the state -/
def ask (r : Except ε α) : Effect σ ε α := fun s => (r, s)

def modify (f : σ → σ) : Effect σ ε Unit := fun s => (.ok (), f s)

def get : Effect σ ε σ := fun s => (.ok s, s)

def require (c : Prop) [Decidable c] (e : ε) : Effect σ ε Unit := if c then pure () else raise e

/-- `except ..: raise f(e)` -/
def mapError (f : ε → ε) (x : Effect σ ε α) : Effect σ ε α := fun s => ((x s).1.mapError f, (x s).2)

/-- `try: x except e: h(e)` -/
def tryExcept (x : Effect σ ε α) (h : ε → Effect σ ε α) : Effect σ ε α := fun s =>
  match x s with
  | (.ok a, s') => (.ok a, s')
  | (.error e, s') => h e s'

/-- `try: x finally: y`; an exception of `y` takes the place of what `x` returned or raised -/
def tryFinally (x : Effect σ ε α) (y : Effect σ ε Unit) : Effect σ ε α := fun s =>
  match y (x s).2 with
  | (.ok _, s') => ((x s).1, s')
  | (.error e, s') => (.error e, s')

/-- from a state with `P` it returns to `Q` or raises to `E` -/
def Triple (P : σ → Prop) (x : Effect σ ε α) (Q : α → σ → Prop) (E : ε → σ → Prop) : Prop :=
  ∀ s, P s → (∀ a, (x s).1 = .ok a → Q a (x s).2) ∧ ∀ e, (x s).1 = .error e → E e (x s).2

variable {P : σ → Prop} {Q Q' : α → σ → Prop} {R : β → σ → Prop} {E E' : ε → σ → Prop} {x : Effect σ ε α}

theorem Triple.mono {A : σ → Prop} {B : α → σ → Prop} {C : ε → σ → Prop} (h : Triple P x Q E) (hP : ∀ s, A s → P s)
    (hQ : ∀ a s, Q a s → B a s) (hE : ∀ e s, E e s → C e s) : Triple A x B C := by
  intro s hs
  obtain ⟨hok, herror⟩ := h s (hP s hs)
  exact ⟨fun a ha => hQ a _ (hok a ha), fun e he => hE e _ (herror e he)⟩

theorem triple_trivial : Triple P x (fun _ _ => True) (fun _ _ => True) := fun _ _ => ⟨fun _ _ => trivial, fun _ _ => trivial⟩

/-- one state at a time -/
theorem Triple.ofStates (h : ∀ s₀, P s₀ → Triple (fun s => s = s₀) x Q E) : Triple P x Q E :=
  fun s hs => h s hs s rfl

theorem triple_pure {a : α} (h : ∀ s, P s → Q a s) : Triple P (pure a) Q E := by
  intro s hs
  refine ⟨fun b hb => ?_, fun e he => nomatch he⟩
  cases hb
  exact h s hs

theorem triple_raise {e : ε} (h : ∀ s, P s → E e s) : Triple P (raise e) Q E := by
  intro s hs
  refine ⟨(fun a ha => nomatch ha), fun e' he => ?_⟩
  cases he
  exact h s hs

theorem triple_bind {f : α → Effect σ ε β} (hx : Triple P x Q E) (hf : ∀ a, Triple (Q a) (f a) R E) :
    Triple P (x >>= f) R E := by
  intro s hs
  obtain ⟨hok, herror⟩ := hx s hs
  change (∀ b, (bind x f s).1 = .ok b → R b (bind x f s).2) ∧ ∀ e, (bind x f s).1 = .error e → E e (bind x f s).2
  unfold bind
  cases hxs : x s with
  | mk r s' =>
    rw [hxs] at hok herror
    cases r with
    | ok a => exact hf a s' (hok a rfl)
    | error e =>
      refine ⟨(fun b hb => nomatch hb), fun e' he => ?_⟩
      cases he
      exact herror e rfl

/-- an answer from outside leaves the state -/
theorem triple_ask {r : Except ε α} (hok : ∀ a, r = .ok a → ∀ s, P s → Q a s) (herror : ∀ e, r = .error e → ∀ s, P s → E e s) :
    Triple P (ask r) Q E := fun s hs => ⟨fun a ha => hok a ha s hs, fun e he => herror e he s hs⟩

theorem triple_modify {f : σ → σ} {Q : Unit → σ → Prop} (h : ∀ s, P s → Q () (f s)) : Triple P (modify f) Q E :=
  fun s hs => ⟨fun _ _ => h s hs, fun _ he => nomatch he⟩

theorem triple_get {Q : σ → σ → Prop} (h : ∀ s, P s → Q s s) : Triple P get Q E := by
  intro s hs
  refine ⟨fun a ha => ?_, fun e he => nomatch he⟩
  cases ha
  exact h s hs

theorem triple_require {c : Prop} [Decidable c] {e : ε} {Q : Unit → σ → Prop} (hok : c → ∀ s, P s → Q () s)
    (herror : ¬ c → ∀ s, P s → E e s) : Triple P (require c e) Q E := by
  unfold require
  split
  · next hc => exact triple_pure (hok hc)
  · next hc => exact triple_raise (herror hc)

theorem triple_mapError {f : ε → ε} (h : Triple P x Q (fun e => E (f e))) : Triple P (mapError f x) Q E := by
  intro s hs
  obtain ⟨hok, herror⟩ := h s hs
  refine ⟨fun a ha => ?_, fun e he => ?_⟩
  · cases hr : (x s).1 with
    | ok b =>
      have hb : (x s).1.mapError f = .ok a := ha
      rw [hr] at hb
      cases hb
      exact hok _ hr
    | error e =>
      have hb : (x s).1.mapError f = .ok a := ha
      rw [hr] at hb
      cases hb
  · cases hr : (x s).1 with
    | ok b =>
      have hb : (x s).1.mapError f = .error e := he
      rw [hr] at hb
      cases hb
    | error e' =>
      have hb : (x s).1.mapError f = .error e := he
      rw [hr] at hb
      cases hb
      exact herror e' hr

/-- what was raised is handled in the state that it left -/
theorem triple_tryExcept {h : ε → Effect σ ε α} (hx : Triple P x Q E') (hh : ∀ e, Triple (E' e) (h e) Q E) :
    Triple P (tryExcept x h) Q E := by
  intro s hs
  obtain ⟨hok, herror⟩ := hx s hs
  unfold tryExcept
  cases hxs : x s with
  | mk r s' =>
    rw [hxs] at hok herror
    cases r with
    | ok a =>
      refine ⟨fun b hb => ?_, fun e he => nomatch he⟩
      cases hb
      exact hok a rfl
    | error e => exact hh e s' (herror e rfl)

/-- what is done at the end is done after a value and after an exception -/
theorem triple_tryFinally {y : Effect σ ε Unit} (hx : Triple P x Q E) (hq : ∀ a, Triple (Q a) y (fun _ => Q a) E)
    (he : ∀ e, Triple (E e) y (fun _ => E e) E) : Triple P (tryFinally x y) Q E := by
  intro s hs
  obtain ⟨hok, herror⟩ := hx s hs
  unfold tryFinally
  cases hxs : x s with
  | mk r s' =>
    rw [hxs] at hok herror
    dsimp only at hok herror ⊢
    cases r with
    | ok a =>
      have hy := hq a s' (hok a rfl)
      cases hys : y s' with
      | mk u s'' =>
        rw [hys] at hy
        cases u with
        | ok u =>
          refine ⟨fun b hb => ?_, fun e he => nomatch he⟩
          cases hb
          exact hy.1 u rfl
        | error e =>
          refine ⟨(fun b hb => nomatch hb), fun e' he' => ?_⟩
          cases he'
          exact hy.2 e rfl
    | error e =>
      have hy := he e s' (herror e rfl)
      cases hys : y s' with
      | mk u s'' =>
        rw [hys] at hy
        cases u with
        | ok u =>
          refine ⟨(fun b hb => nomatch hb), fun e' he' => ?_⟩
          cases he'
          exact hy.1 u rfl
        | error e₁ =>
          refine ⟨(fun b hb => nomatch hb), fun e' he' => ?_⟩
          cases he'
          exact hy.2 e₁ rfl

theorem Triple.and (h : Triple P x Q E) (h' : Triple P x Q' E') :
    Triple P x (fun a s => Q a s ∧ Q' a s) (fun e s => E e s ∧ E' e s) := by
  intro s hs
  exact ⟨fun a ha => ⟨(h s hs).1 a ha, (h' s hs).1 a ha⟩, fun e he => ⟨(h s hs).2 e he, (h' s hs).2 e he⟩⟩

/-- what does not depend on the state stays -/
theorem Triple.keep {c : Prop} (h : Triple P x Q E) : Triple (fun s => P s ∧ c) x (fun a s => Q a s ∧ c) E :=
  fun s hs => ⟨fun a ha => ⟨(h s hs.1).1 a ha, hs.2⟩, (h s hs.1).2⟩

theorem triple_ite {c : Prop} [Decidable c] {y : Effect σ ε α} (hx : c → Triple P x Q E) (hy : ¬ c → Triple P y Q E) :
    Triple P (if c then x else y) Q E := by
  split
  · next hc => exact hx hc
  · next hc => exact hy hc

/-! ## what leaves the state as it is -/

/-- the state is the same afterwards -/
def Quiet (x : Effect σ ε α) : Prop := ∀ s, (x s).2 = s

theorem Quiet.triple (h : Quiet x) : Triple P x (fun _ => P) (fun _ => P) := by
  intro s hs
  rw [h s]
  exact ⟨fun _ _ => hs, fun _ _ => hs⟩

theorem quiet_pure (a : α) : Quiet (pure a : Effect σ ε α) := fun _ => rfl

theorem quiet_raise (e : ε) : Quiet (raise e : Effect σ ε α) := fun _ => rfl

theorem quiet_ask (r : Except ε α) : Quiet (ask r : Effect σ ε α) := fun _ => rfl

theorem quiet_require (c : Prop) [Decidable c] (e : ε) : Quiet (require c e : Effect σ ε Unit) := by
  unfold require
  split
  · exact quiet_pure ()
  · exact quiet_raise e

theorem quiet_bind {f : α → Effect σ ε β} (hx : Quiet x) (hf : ∀ a, Quiet (f a)) : Quiet (x >>= f) := by
  intro s
  change (bind x f s).2 = s
  unfold bind
  have hs := hx s
  cases hxs : x s with
  | mk r s' =>
    rw [hxs] at hs
    cases hs
    cases r with
    | ok a => exact hf a _
    | error e => rfl

theorem quiet_ite {c : Prop} [Decidable c] {y : Effect σ ε α} (hx : Quiet x) (hy : Quiet y) :
    Quiet (if c then x else y) := by
  split
  · exact hx
  · exact hy

/-! ## what is raised -/

/-- from the state `s` it raises only what satisfies `p` -/
def RaisesFrom (x : Effect σ ε α) (s : σ) (p : ε → Prop) : Prop := ∀ e, (x s).1 = .error e → p e

section
variable {p : ε → Prop} {s : σ}

theorem raisesFrom_pure (a : α) : RaisesFrom (pure a : Effect σ ε α) s p := fun _ he => nomatch he

theorem raisesFrom_raise {e : ε} : RaisesFrom (raise e : Effect σ ε α) s p ↔ p e := by
  constructor
  · exact fun h => h e rfl
  · intro h e' he
    cases he
    exact h

theorem raisesFrom_ask {r : Except ε α} : RaisesFrom (ask r) s p ↔ ∀ e, r = .error e → p e := Iff.rfl

theorem raisesFrom_modify (f : σ → σ) : RaisesFrom (modify f : Effect σ ε Unit) s p := fun _ he => nomatch he

theorem raisesFrom_require {c : Prop} [Decidable c] {e : ε} (h : p e) : RaisesFrom (require c e : Effect σ ε Unit) s p := by
  unfold require
  split
  · exact raisesFrom_pure ()
  · exact raisesFrom_raise.mpr h

theorem raisesFrom_bind {f : α → Effect σ ε β} :
    RaisesFrom (x >>= f) s p ↔ RaisesFrom x s p ∧ ∀ a s', x s = (.ok a, s') → RaisesFrom (f a) s' p := by
  change RaisesFrom (bind x f) s p ↔ _
  unfold RaisesFrom bind
  cases hx : x s with
  | mk r s' =>
    cases r with
    | ok a =>
      refine ⟨fun h => ⟨(fun e he => nomatch he), fun b t ht => ?_⟩, fun h => h.2 a s' rfl⟩
      cases ht
      exact h
    | error e =>
      dsimp only
      constructor
      · intro h
        refine ⟨fun e' he => ?_, (fun b t ht => nomatch ht)⟩
        cases he
        exact h e rfl
      · rintro ⟨h, -⟩ e' he
        cases he
        exact h e rfl

theorem raisesFrom_bind_ask {r : Except ε α} {f : α → Effect σ ε β} :
    RaisesFrom (ask r >>= f) s p ↔ (∀ e, r = .error e → p e) ∧ ∀ a, r = .ok a → RaisesFrom (f a) s p := by
  rw [raisesFrom_bind, raisesFrom_ask]
  refine and_congr_right fun _ => ⟨fun h a ha => h a s (by rw [ha]; rfl), fun h a s' hs => ?_⟩
  obtain ⟨hr, rfl⟩ := Prod.mk.inj hs
  exact h a hr

theorem raisesFrom_bind_require {c : Prop} [Decidable c] {e : ε} {f : Unit → Effect σ ε β} (h : p e) :
    RaisesFrom (require c e >>= f) s p ↔ (c → RaisesFrom (f ()) s p) := by
  rw [raisesFrom_bind]
  unfold require
  by_cases hc : c
  · rw [if_pos hc]
    refine ⟨fun hf _ => hf.2 () s rfl, fun hf => ⟨raisesFrom_pure (), fun a s' hs => ?_⟩⟩
    obtain ⟨-, rfl⟩ := Prod.mk.inj hs
    exact hf hc
  · rw [if_neg hc]
    exact ⟨fun _ hc' => absurd hc' hc, fun _ => ⟨raisesFrom_raise.mpr h, (fun a s' hs => nomatch (Prod.mk.inj hs).1)⟩⟩

theorem raisesFrom_bind_modify {g : σ → σ} {f : Unit → Effect σ ε β} :
    RaisesFrom (modify g >>= f) s p ↔ RaisesFrom (f ()) (g s) p := by
  rw [raisesFrom_bind]
  refine ⟨fun h => h.2 () (g s) rfl, fun h => ⟨raisesFrom_modify g, fun a s' hs => ?_⟩⟩
  obtain ⟨-, rfl⟩ := Prod.mk.inj hs
  exact h

/-- only what the handler raises gets out -/
theorem raisesFrom_tryExcept {h : ε → Effect σ ε α} :
    RaisesFrom (tryExcept x h) s p ↔ ∀ e s', x s = (.error e, s') → RaisesFrom (h e) s' p := by
  unfold RaisesFrom tryExcept
  cases hx : x s with
  | mk r s' =>
    cases r with
    | ok a => exact ⟨(fun _ e t ht => nomatch ht), (fun _ e he => nomatch he)⟩
    | error e =>
      constructor
      · intro hall e' t ht
        cases ht
        exact hall
      · exact fun hall => hall e s' rfl

/-- what is done at the end raises nothing of its own -/
theorem raisesFrom_tryFinally_modify {g : σ → σ} {x : Effect σ ε α} :
    RaisesFrom (tryFinally x (modify g)) s p ↔ RaisesFrom x s p := Iff.rfl

end

/-! ## what returns -/

/-- from the state `s` it returns -/
def Returns (x : Effect σ ε α) (s : σ) : Prop := ∃ a, (x s).1 = .ok a

section
variable {s : σ}

theorem returns_pure (a : α) : Returns (pure a : Effect σ ε α) s := ⟨a, rfl⟩

theorem not_returns_raise (e : ε) : ¬ Returns (raise e : Effect σ ε α) s := fun ⟨_, h⟩ => nomatch h

theorem returns_bind {f : α → Effect σ ε β} : Returns (x >>= f) s ↔ ∃ a s', x s = (.ok a, s') ∧ Returns (f a) s' := by
  change Returns (bind x f) s ↔ _
  unfold Returns bind
  cases hx : x s with
  | mk r s' =>
    cases r with
    | ok a =>
      refine ⟨fun h => ⟨a, s', rfl, h⟩, fun ⟨b, t, ht, h⟩ => ?_⟩
      cases ht
      exact h
    | error e => exact ⟨(fun ⟨_, h⟩ => nomatch h), (fun ⟨_, _, ht, _⟩ => nomatch ht)⟩

theorem returns_bind_ask {r : Except ε α} {f : α → Effect σ ε β} :
    Returns (ask r >>= f) s ↔ ∃ a, r = .ok a ∧ Returns (f a) s := by
  rw [returns_bind]
  constructor
  · rintro ⟨a, s', hs, h⟩
    obtain ⟨hr, rfl⟩ := Prod.mk.inj hs
    exact ⟨a, hr, h⟩
  · rintro ⟨a, rfl, h⟩
    exact ⟨a, s, rfl, h⟩

theorem returns_bind_require {c : Prop} [Decidable c] {e : ε} {f : Unit → Effect σ ε β} :
    Returns (require c e >>= f) s ↔ c ∧ Returns (f ()) s := by
  rw [returns_bind]
  unfold require
  by_cases hc : c
  · rw [if_pos hc]
    constructor
    · rintro ⟨a, s', hs, h⟩
      obtain ⟨-, rfl⟩ := Prod.mk.inj hs
      exact ⟨hc, h⟩
    · exact fun h => ⟨(), s, rfl, h.2⟩
  · rw [if_neg hc]
    exact ⟨(fun ⟨_, _, hs, _⟩ => nomatch (Prod.mk.inj hs).1), fun h => absurd h.1 hc⟩

theorem returns_bind_modify {g : σ → σ} {f : Unit → Effect σ ε β} : Returns (modify g >>= f) s ↔ Returns (f ()) (g s) := by
  rw [returns_bind]
  constructor
  · rintro ⟨a, s', hs, h⟩
    obtain ⟨-, rfl⟩ := Prod.mk.inj hs
    exact h
  · exact fun h => ⟨(), g s, rfl, h⟩

/-- a handler that raises again returns nothing -/
theorem returns_tryExcept {h : ε → Effect σ ε α} (hh : ∀ e s, ¬ Returns (h e) s) : Returns (tryExcept x h) s ↔ Returns x s := by
  unfold Returns tryExcept
  cases hx : x s with
  | mk r s' =>
    cases r with
    | ok a => exact Iff.rfl
    | error e => exact ⟨fun hr => absurd hr (hh e s'), (fun ⟨_, hr⟩ => nomatch hr)⟩

theorem returns_tryFinally_modify {g : σ → σ} : Returns (tryFinally x (modify g)) s ↔ Returns x s := Iff.rfl

end

end Effect
