import OpenFlame.Base.Process

/-!
# What a program asks

`Exchange`   a question with the answer that came back
`Talk`       the questions of a program, in order, whatever is answered; the program may not have ended yet
`Asks`       every question is in order after the ones before it, and so is the end

* `Asks.bind`, `Asks.query`, `Asks.handle`   the rules for each way to build a program;
* `Returns`, `Asks.seq`                      the same for what it returns, its errors being free;
* `Talk.sound`                               what `Asks` says holds of every talk;
* `play`                                     one talk, for given answers.
-/

set_option linter.all false

/-- a question and what came back -/
structure Exchange (Ask : Type → Type) (ε : Type) : Type 1 where
  {β : Type}
  question : Ask β
  answer : Except ε β

namespace Process
variable {Op Ask : Type → Type} {ε α β : Type}

/-- the exchanges of a program, and how it ended if it has -/
inductive Talk : Process Op Ask ε α → List (Exchange Ask ε) → Option (Except ε α) → Prop where
  | stop (p : Process Op Ask ε α) : Talk p [] none
  | done (r : Except ε α) : Talk (.done r) [] (some r)
  | txn {γ : Type} (o : Op γ) (k : Except ε γ → Process Op Ask ε α) (r : Except ε γ) {es v} (h : Talk (k r) es v) :
      Talk (.txn o k) es v
  | ask {γ : Type} (q : Ask γ) (k : Except ε γ → Process Op Ask ε α) (r : Except ε γ) {es v} (h : Talk (k r) es v) :
      Talk (.ask q k) (⟨q, r⟩ :: es) v

variable (guard : List (Exchange Ask ε) → Exchange Ask ε → Prop)

/-- after `es`, each exchange satisfies `guard` and the end satisfies `post` -/
def Asks (post : List (Exchange Ask ε) → Except ε α → Prop) :
    Process Op Ask ε α → List (Exchange Ask ε) → Prop
  | .done r, es => post es r
  | .txn _ k, es => ∀ r, Asks post (k r) es
  | .ask q k, es => ∀ r, guard es ⟨q, r⟩ ∧ Asks post (k r) (es ++ [⟨q, r⟩])

section
variable {guard} {post : List (Exchange Ask ε) → Except ε α → Prop} {es : List (Exchange Ask ε)}

theorem Asks.done {r : Except ε α} (h : post es r) : Asks guard post (.done r : Process Op Ask ε α) es := h

theorem Asks.lift {r : Except ε α} (h : post es r) : Asks guard post (Process.lift r : Process Op Ask ε α) es := h

theorem Asks.query {q : Ask α} (h : ∀ r, guard es ⟨q, r⟩ ∧ post (es ++ [⟨q, r⟩]) r) :
    Asks guard post (Process.query q : Process Op Ask ε α) es := h

theorem Asks.mono {post' : List (Exchange Ask ε) → Except ε α → Prop} {p : Process Op Ask ε α}
    (h : Asks guard post p es) (hpost : ∀ es r, post es r → post' es r) : Asks guard post' p es := by
  induction p generalizing es with
  | done r => exact hpost es r h
  | txn o k ih => exact fun r => ih r (h r)
  | ask q k ih => exact fun r => ⟨(h r).1, ih r (h r).2⟩

theorem Asks.guard_mono {guard' : List (Exchange Ask ε) → Exchange Ask ε → Prop} {p : Process Op Ask ε α}
    (h : Asks guard post p es) (hguard : ∀ es e, guard es e → guard' es e) : Asks guard' post p es := by
  induction p generalizing es with
  | done r => exact h
  | txn o k ih => exact fun r => ih r (h r)
  | ask q k ih => exact fun r => ⟨hguard _ _ (h r).1, ih r (h r).2⟩

/-- the sequence rule -/
theorem Asks.bind {mid : List (Exchange Ask ε) → Except ε α → Prop} {post : List (Exchange Ask ε) → Except ε β → Prop}
    {p : Process Op Ask ε α} {f : α → Process Op Ask ε β} (h : Asks guard mid p es)
    (hok : ∀ es a, mid es (.ok a) → Asks guard post (f a) es)
    (herror : ∀ es e, mid es (.error e) → post es (.error e)) : Asks guard post (p >>= f) es := by
  induction p generalizing es with
  | done r =>
    cases r with
    | ok a => exact hok es a h
    | error e => exact herror es e h
  | txn o k ih => exact fun r => ih r (h r)
  | ask q k ih => exact fun r => ⟨(h r).1, ih r (h r).2⟩

/-- the rule for `try` -/
theorem Asks.handle {mid : List (Exchange Ask ε) → Except ε α → Prop} {p : Process Op Ask ε α}
    {f : ε → Option (Process Op Ask ε α)} (h : Asks guard mid p es) (hok : ∀ es a, mid es (.ok a) → post es (.ok a))
    (herror : ∀ es e, mid es (.error e) → Asks guard post ((f e).getD (.done (.error e))) es) :
    Asks guard post (Process.handle f p) es := by
  induction p generalizing es with
  | done r =>
    cases r with
    | ok a => exact hok es a h
    | error e => exact herror es e h
  | txn o k ih => exact fun r => ih r (h r)
  | ask q k ih => exact fun r => ⟨(h r).1, ih r (h r).2⟩

/-- what a program returns satisfies `P`; it may fail -/
def Returns (P : List (Exchange Ask ε) → α → Prop) (es : List (Exchange Ask ε)) (r : Except ε α) : Prop :=
  ∀ a, r = .ok a → P es a

theorem Asks.seq {P : List (Exchange Ask ε) → α → Prop} {Q : List (Exchange Ask ε) → β → Prop}
    {p : Process Op Ask ε α} {f : α → Process Op Ask ε β} (h : Asks guard (Returns P) p es)
    (hok : ∀ es a, P es a → Asks guard (Returns Q) (f a) es) : Asks guard (Returns Q) (p >>= f) es :=
  h.bind (fun es a ha => hok es a (ha a rfl)) (fun _ _ _ _ hb => (nomatch hb))

/-- a computation that fails ends the program -/
theorem Asks.compute {Q : List (Exchange Ask ε) → β → Prop} {r : Except ε α} {f : α → Process Op Ask ε β}
    (h : ∀ a, r = .ok a → Asks guard (Returns Q) (f a) es) : Asks guard (Returns Q) (Process.lift r >>= f) es := by
  cases r with
  | ok a => exact h a rfl
  | error e => exact fun b hb => (nomatch hb)

theorem Asks.ret {P : List (Exchange Ask ε) → α → Prop} {r : Except ε α} (h : ∀ a, r = .ok a → P es a) :
    Asks guard (Returns P) (Process.lift r : Process Op Ask ε α) es := h

theorem Asks.pure {P : List (Exchange Ask ε) → α → Prop} {a : α} (h : P es a) :
    Asks guard (Returns P) (Pure.pure a : Process Op Ask ε α) es := by
  intro b hb
  cases hb
  exact h

/-- **What a program asks, and how it ends, is in order in every talk.** -/
theorem Talk.sound {p : Process Op Ask ε α} {v : Option (Except ε α)} {es₀ : List (Exchange Ask ε)} (h : Talk p es v)
    (hp : Asks guard post p es₀) :
    (∀ i x, es[i]? = some x → guard (es₀ ++ es.take i) x) ∧ ∀ r, v = some r → post (es₀ ++ es) r := by
  induction h generalizing es₀ with
  | stop p => exact ⟨fun i x hx => (nomatch hx), fun r hr => (nomatch hr)⟩
  | done r =>
    refine ⟨fun i x hx => (nomatch hx), fun r' hr => ?_⟩
    cases hr
    rw [List.append_nil]
    exact hp
  | txn o k r h ih => exact ih (hp r)
  | @ask γ q k r es v h ih =>
    obtain ⟨hguard, hrest⟩ := hp r
    obtain ⟨h1, h2⟩ := ih hrest
    refine ⟨fun i x hx => ?_, fun r' hr => ?_⟩
    · cases i with
      | zero =>
        cases hx
        rw [List.take_zero, List.append_nil]
        exact hguard
      | succ i =>
        have h3 := h1 i x hx
        rw [List.append_assoc] at h3
        exact h3
    · have h3 := h2 r' hr
      rw [List.append_assoc] at h3
      exact h3

end

/-- the talk in which each question has its answer -/
def play (exec : {β : Type} → Op β → Except ε β) (answer : {β : Type} → Ask β → Except ε β) :
    Process Op Ask ε α → List (Exchange Ask ε) × Except ε α
  | .done r => ([], r)
  | .txn o k => play exec answer (k (exec o))
  | .ask q k => (⟨q, answer q⟩ :: (play exec answer (k (answer q))).1, (play exec answer (k (answer q))).2)

theorem play_talk (exec : {β : Type} → Op β → Except ε β) (answer : {β : Type} → Ask β → Except ε β)
    (p : Process Op Ask ε α) : Talk p (play exec answer p).1 (some (play exec answer p).2) := by
  induction p with
  | done r => exact .done r
  | txn o k ih => exact .txn o k _ (ih _)
  | ask q k ih => exact .ask q k _ (ih _)

end Process
