import OpenFlame.Base.Process

/-!
# A program alone on its store

`Process.Alone m E post p s`   nobody else writes the store `s` while `p` runs, and only the errors of `E` are answered to
                               its questions: `p` ends as `post` says, whatever else it is answered
* `Alone.bind`, `Alone.handle`, `Alone.mono`, `Alone.txn`, `Alone.query`   one rule for each way to put programs together;
* `World.run_alone`            what the steps of one call of a world come to while the others rest.
-/

set_option linter.all false

namespace Process
variable {Op Ask : Type → Type} {ι σ ε α β : Type} (m : Machine Op ι σ ε) (E : ε → Prop)

/-- alone on the store, and with only such errors from outside, the program ends as `post` says -/
def Alone (post : σ → Except ε α → Prop) : Process Op Ask ε α → σ → Prop
  | .done r, s => post s r
  | .txn o k, s => ∀ x, Alone post (k (m.result o x s)) (m.next o x s)
  | .ask _ k, s => ∀ r, (∀ e, r = .error e → E e) → Alone post (k r) s

variable {m E} {post post' : σ → Except ε α → Prop} {s : σ}

theorem Alone.mono {p : Process Op Ask ε α} (h : Alone m E post p s) (hpost : ∀ t r, post t r → post' t r) :
    Alone m E post' p s := by
  induction p generalizing s with
  | done r => exact hpost s r h
  | txn o k ih => exact fun x => ih _ (h x)
  | ask q k ih => exact fun r hr => ih r (h r hr)

/-- two programs, one after the other -/
theorem Alone.bind {p : Process Op Ask ε α} {f : α → Process Op Ask ε β} {post' : σ → Except ε β → Prop}
    (h : Alone m E post p s) (hok : ∀ t a, post t (.ok a) → Alone m E post' (f a) t)
    (herror : ∀ t e, post t (.error e) → post' t (.error e)) : Alone m E post' (p >>= f) s := by
  induction p generalizing s with
  | done r =>
    cases r with
    | ok a => exact hok s a h
    | error e => exact herror s e h
  | txn o k ih => exact fun x => ih _ (h x)
  | ask q k ih => exact fun r hr => ih r (h r hr)

/-- a program whose errors may be handled -/
theorem Alone.handle {p : Process Op Ask ε α} {f : ε → Option (Process Op Ask ε α)} (h : Alone m E post p s)
    (hok : ∀ t a, post t (.ok a) → post' t (.ok a))
    (herror : ∀ t e, post t (.error e) → Alone m E post' ((f e).getD (.done (.error e))) t) :
    Alone m E post' (p.handle f) s := by
  induction p generalizing s with
  | done r =>
    cases r with
    | ok a => exact hok s a h
    | error e => exact herror s e h
  | txn o k ih => exact fun x => ih _ (h x)
  | ask q k ih => exact fun r hr => ih r (h r hr)

theorem Alone.txn {o : Op α} (hok : ∀ x a t, m.exec o x s = .ok (a, t) → post t (.ok a))
    (herror : ∀ x e, m.exec o x s = .error e → post s (.error e)) : Alone m E post (.call o : Process Op Ask ε α) s := by
  intro x
  show post (m.next o x s) (m.result o x s)
  cases h : m.exec o x s with
  | ok r =>
    obtain ⟨a, t⟩ := r
    rw [Machine.next_ok h, Machine.result_ok h]
    exact hok x a t h
  | error e =>
    have hresult : m.result o x s = .error e := by
      unfold Machine.result
      rw [h]
      rfl
    rw [Machine.next_error h, hresult]
    exact herror x e h

theorem Alone.query {q : Ask α} (hok : ∀ a, post s (.ok a)) (herror : ∀ e, E e → post s (.error e)) :
    Alone m E post (.query q : Process Op Ask ε α) s := by
  intro r hr
  cases r with
  | ok a => exact hok a
  | error e => exact herror e (hr e rfl)

/-- the same from two conditions -/
theorem Alone.and {p : Process Op Ask ε α} (h : Alone m E post p s) (h' : Alone m E post' p s) :
    Alone m E (fun t r => post t r ∧ post' t r) p s := by
  induction p generalizing s with
  | done r => exact ⟨h, h'⟩
  | txn o k ih => exact fun x => ih _ (h x) (h' x)
  | ask q k ih => exact fun r hr => ih r (h r hr) (h' r hr)

theorem bind_assoc {γ : Type} (p : Process Op Ask ε α) (f : α → Process Op Ask ε β) (g : β → Process Op Ask ε γ) :
    p >>= f >>= g = p >>= fun a => f a >>= g := by
  induction p with
  | done r =>
    cases r with
    | ok a => rfl
    | error e => rfl
  | txn o k ih =>
    show Process.txn o (fun r => k r >>= f >>= g) = .txn o _
    congr 1
    funext r
    exact ih r
  | ask q k ih =>
    show Process.ask q (fun r => k r >>= f >>= g) = .ask q _
    congr 1
    funext r
    exact ih r

end Process

namespace World
open TransSys Process
variable {Op Ask : Type → Type} {ι σ ε α κ : Type} {m : Machine Op ι σ ε} {start : κ → Process Op Ask ε α}
  {w w' : World Op Ask σ ε α κ} {post : σ → Except ε α → Prop}

/-- a step of the `n`-th call -/
def Label.IsOf (n : Nat) : Label Op κ ι → Prop
  | .call _ => False
  | .txn i _ _ => i = n
  | .answer i => i = n

/-- **While the others rest**, a call goes on as it does alone. -/
theorem run_alone {ls : List (Label Op κ ι)} {n : Nat} {c : κ} {p : Process Op Ask ε α} (h : Run (Step m start) w ls w')
    (hls : ∀ l ∈ ls, l.IsOf n) (hn : w.calls[n]? = some (c, p)) (he : Alone m (fun _ => True) post p w.store) :
    ∃ p', w'.calls[n]? = some (c, p') ∧ Alone m (fun _ => True) post p' w'.store := by
  induction h generalizing p with
  | nil w => exact ⟨p, hn, he⟩
  | @cons w w₁ w' l ls hs hr ih =>
    have hl := hls l List.mem_cons_self
    have hrest : ∀ l ∈ ls, l.IsOf n := fun l' hl' => hls l' (List.mem_cons_of_mem _ hl')
    have hlt : n < w.calls.length := (List.getElem?_eq_some_iff.mp hn).1
    cases hs with
    | call c₀ => exact absurd hl id
    | txn i c₀ o k x hc =>
      have hin : i = n := hl
      rw [hin, hn] at hc
      cases hc
      exact ih hrest (by rw [hin, List.getElem?_set_self hlt]) (he x)
    | answer i c₀ q k r hc =>
      have hin : i = n := hl
      rw [hin, hn] at hc
      cases hc
      exact ih hrest (by rw [hin, List.getElem?_set_self hlt]) (he r (fun _ _ => trivial))

end World
