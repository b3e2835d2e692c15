import OpenFlame.Base.Runs

/-!
# Programs that share a store

`Process Op Ask ε α`   a program: transactions `Op` on a shared store, questions `Ask` to the outside, and at the end an
                       `α` or an error; it may go on after a transaction or a question that failed
`Machine`              what the transactions do; one that fails leaves the store as it was
`World`                a store and the programs at work on it, each step one step of one of them

* `World.reach_inv`    what every transaction keeps holds in every state that is reached;
* `World.run_mono`     an order that every transaction climbs is climbed by every run;
* `World.run_ends`     what a program may end with, whatever the others do (`Process.Ends`).
-/

set_option linter.all false

/-- a program of transactions and questions -/
inductive Process (Op Ask : Type → Type) (ε α : Type) : Type 1 where
  | done (r : Except ε α)
  | txn {β : Type} (o : Op β) (k : Except ε β → Process Op Ask ε α)
  | ask {β : Type} (q : Ask β) (k : Except ε β → Process Op Ask ε α)

namespace Process
variable {Op Ask : Type → Type} {ε α β : Type}

def bind (f : α → Process Op Ask ε β) : Process Op Ask ε α → Process Op Ask ε β
  | .done (.ok a) => f a
  | .done (.error e) => .done (.error e)
  | .txn o k => .txn o (fun r => bind f (k r))
  | .ask q k => .ask q (fun r => bind f (k r))

instance : Monad (Process Op Ask ε) where
  pure a := .done (.ok a)
  bind p f := bind f p

/-- `raise` -/
def raise (e : ε) : Process Op Ask ε α := .done (.error e)

/-- a computation without transactions or questions -/
def lift (r : Except ε α) : Process Op Ask ε α := .done r

/-- one transaction -/
def call (o : Op α) : Process Op Ask ε α := .txn o .done

/-- one question -/
def query (q : Ask α) : Process Op Ask ε α := .ask q .done

/-- `try`: the errors that `h` knows are handled by it -/
def handle (h : ε → Option (Process Op Ask ε α)) : Process Op Ask ε α → Process Op Ask ε α
  | .done (.ok a) => .done (.ok a)
  | .done (.error e) => (h e).getD (.done (.error e))
  | .txn o k => .txn o (fun r => handle h (k r))
  | .ask q k => .ask q (fun r => handle h (k r))

@[simp] theorem pure_eq (a : α) : (pure a : Process Op Ask ε α) = .done (.ok a) := rfl

@[simp] theorem bind_ok (a : α) (f : α → Process Op Ask ε β) : (.done (.ok a) >>= f : Process Op Ask ε β) = f a := rfl

@[simp] theorem bind_error (e : ε) (f : α → Process Op Ask ε β) :
    (.done (.error e) >>= f : Process Op Ask ε β) = .done (.error e) := rfl

@[simp] theorem bind_txn {γ : Type} (o : Op γ) (k : Except ε γ → Process Op Ask ε α) (f : α → Process Op Ask ε β) :
    (.txn o k >>= f : Process Op Ask ε β) = .txn o (fun r => k r >>= f) := rfl

@[simp] theorem bind_ask {γ : Type} (q : Ask γ) (k : Except ε γ → Process Op Ask ε α) (f : α → Process Op Ask ε β) :
    (.ask q k >>= f : Process Op Ask ε β) = .ask q (fun r => k r >>= f) := rfl

end Process

/-- what transactions do to a store, at a moment `ι` -/
structure Machine (Op : Type → Type) (ι σ ε : Type) where
  exec : {β : Type} → Op β → ι → σ → Except ε (β × σ)

namespace Machine
variable {Op : Type → Type} {ι σ ε β : Type} (m : Machine Op ι σ ε)

/-- what a transaction returns -/
def result (o : Op β) (x : ι) (s : σ) : Except ε β := (m.exec o x s).map Prod.fst

/-- the store after a transaction -/
def next (o : Op β) (x : ι) (s : σ) : σ :=
  match m.exec o x s with
  | .ok r => r.2
  | .error _ => s

variable {m}

theorem result_ok {o : Op β} {x : ι} {s s' : σ} {b : β} (h : m.exec o x s = .ok (b, s')) : m.result o x s = .ok b := by
  unfold result
  rw [h]
  rfl

theorem next_ok {o : Op β} {x : ι} {s s' : σ} {b : β} (h : m.exec o x s = .ok (b, s')) : m.next o x s = s' := by
  unfold next
  rw [h]

theorem next_error {o : Op β} {x : ι} {s : σ} {e : ε} (h : m.exec o x s = .error e) : m.next o x s = s := by
  unfold next
  rw [h]

theorem exec_of_result {o : Op β} {x : ι} {s : σ} {b : β} (h : m.result o x s = .ok b) :
    m.exec o x s = .ok (b, m.next o x s) := by
  unfold result at h
  cases hx : m.exec o x s with
  | error e =>
    rw [hx] at h
    cases h
  | ok r =>
    obtain ⟨b', s'⟩ := r
    rw [hx] at h
    cases h
    rw [next_ok hx]

/-- a transaction fails, and the store stays, or it returns something and the store is the one that it leaves -/
theorem next_cases (o : Op β) (x : ι) (s : σ) :
    m.next o x s = s ∨ ∃ b, m.exec o x s = .ok (b, m.next o x s) := by
  cases hx : m.exec o x s with
  | error e => exact .inl (next_error hx)
  | ok r =>
    obtain ⟨b, s'⟩ := r
    exact .inr ⟨b, by rw [next_ok hx]⟩

end Machine

/-! ## programs at work -/

section
variable (Op Ask : Type → Type) (σ ε α κ : Type)

/-- a store, and for each call how far its program has come -/
structure World where
  store : σ
  calls : List (κ × Process Op Ask ε α)

/-- what a step does: a call comes in, or the `i`-th one makes a transaction or gets an answer -/
inductive World.Label (ι : Type) where
  | call (c : κ)
  | txn (i : Nat) {β : Type} (o : Op β) (x : ι)
  | answer (i : Nat)

end

namespace World
open TransSys
variable {Op Ask : Type → Type} {ι σ ε α κ : Type} (m : Machine Op ι σ ε) (start : κ → Process Op Ask ε α)

/-- a program that is never scheduled again has died -/
inductive Step : World Op Ask σ ε α κ → Label Op κ ι → World Op Ask σ ε α κ → Prop where
  | call (w : World Op Ask σ ε α κ) (c : κ) : Step w (.call c) ⟨w.store, w.calls ++ [(c, start c)]⟩
  | txn (w : World Op Ask σ ε α κ) (i : Nat) (c : κ) {β : Type} (o : Op β) (k : Except ε β → Process Op Ask ε α) (x : ι)
      (h : w.calls[i]? = some (c, .txn o k)) :
      Step w (.txn i o x) ⟨m.next o x w.store, w.calls.set i (c, k (m.result o x w.store))⟩
  | answer (w : World Op Ask σ ε α κ) (i : Nat) (c : κ) {β : Type} (q : Ask β) (k : Except ε β → Process Op Ask ε α)
      (r : Except ε β) (h : w.calls[i]? = some (c, .ask q k)) :
      Step w (.answer i) ⟨w.store, w.calls.set i (c, k r)⟩

/-- no call has come in -/
def Fresh (I : σ → Prop) (w : World Op Ask σ ε α κ) : Prop := I w.store ∧ w.calls = []

variable {m start} {w w' : World Op Ask σ ε α κ} {l : Label Op κ ι}

/-- the store only changes through transactions -/
theorem Step.store (h : Step m start w l w') :
    w'.store = w.store ∨ ∃ (β : Type) (o : Op β) (x : ι), w'.store = m.next o x w.store := by
  cases h with
  | call c => exact .inl rfl
  | txn i c o k x h => exact .inr ⟨_, o, x, rfl⟩
  | answer i c q k r h => exact .inl rfl

/-- **What every transaction keeps holds whenever it holds at first.** -/
theorem reach_inv {I₀ I : σ → Prop} (h0 : ∀ s, I₀ s → I s)
    (hstep : ∀ {β : Type} (o : Op β) (x : ι) (s : σ), I s → I (m.next o x s))
    (h : Reach (Fresh I₀) (Step m start) w) : I w.store := by
  refine h.induct (fun s hs => h0 _ hs.1) ?_
  intro s l s' _ hi hs
  rcases hs.store with he | ⟨β, o, x, he⟩
  · rw [he]
    exact hi
  · rw [he]
    exact hstep o x _ hi

/-- **What every transaction climbs is climbed by every run.** -/
theorem run_mono {I : σ → Prop} {le : σ → σ → Prop} (hrefl : ∀ s, le s s) (htrans : ∀ a b c, le a b → le b c → le a c)
    (hI : ∀ {β : Type} (o : Op β) (x : ι) (s : σ), I s → I (m.next o x s))
    (hle : ∀ {β : Type} (o : Op β) (x : ι) (s : σ), I s → le s (m.next o x s))
    {ls : List (Label Op κ ι)} (h : Run (Step m start) w ls w') (hw : I w.store) : le w.store w'.store := by
  have hmove : ∀ a l b, I a.store → Step m start a l b → I b.store ∧ le a.store b.store := by
    intro a l b ha hs
    rcases hs.store with he | ⟨β, o, x, he⟩
    · rw [he]
      exact ⟨ha, hrefl _⟩
    · rw [he]
      exact ⟨hI o x _ ha, hle o x _ ha⟩
  exact Run.mono (I := fun a : World Op Ask σ ε α κ => I a.store) (r := fun a b => le a.store b.store)
    (fun a l b ha hs => (hmove a l b ha hs).1) (fun a => hrefl _) (fun a b c => htrans _ _ _)
    (fun a l b ha hs => (hmove a l b ha hs).2) h hw

end World

/-! ## what a program ends with -/

namespace Process
variable {Op Ask : Type → Type} {ι σ ε α : Type} (m : Machine Op ι σ ε) (I : σ → Prop) (le : σ → σ → Prop)
  (post : σ → Except ε α → Prop)

/-- however the store climbs between its steps, the program ends as `post` says -/
def Ends : Process Op Ask ε α → σ → Prop
  | .done r, s => post s r
  | .txn o k, s => ∀ x t, le s t → I t → Ends (k (m.result o x t)) (m.next o x t)
  | .ask _ k, s => ∀ r, Ends (k r) s

variable {m I le post}

/-- a program ends somehow -/
theorem Ends.trivial (h : ∀ s r, post s r) (p : Process Op Ask ε α) (s : σ) : Ends m I le post p s := by
  induction p generalizing s with
  | done r => exact h s r
  | txn o k ih => exact fun x t _ _ => ih _ _
  | ask q k ih => exact fun r => ih r s

theorem Ends.climb (htrans : ∀ a b c, le a b → le b c → le a c) (hpost : ∀ a b r, le a b → post a r → post b r)
    {p : Process Op Ask ε α} {s t : σ} (h : Ends m I le post p s) (hst : le s t) : Ends m I le post p t := by
  induction p with
  | done r => exact hpost _ _ _ hst h
  | txn o k ih =>
    intro x u hu hi
    exact h x u (htrans _ _ _ hst hu) hi
  | ask q k ih =>
    intro r
    exact ih r (h r)

end Process

namespace World
open TransSys Process
variable {Op Ask : Type → Type} {ι σ ε α κ : Type} {m : Machine Op ι σ ε} {start : κ → Process Op Ask ε α}
  {w : World Op Ask σ ε α κ} {I₀ I : σ → Prop} {le : σ → σ → Prop} {post : κ → σ → Except ε α → Prop}

/-- a step leaves a program where it was, or takes it one step further -/
theorem Step.ends {l : Label Op κ ι} {w' : World Op Ask σ ε α κ} {n : Nat} {c : κ} {p : Process Op Ask ε α}
    {post : σ → Except ε α → Prop} (hrefl : ∀ s, le s s) (htrans : ∀ a b c, le a b → le b c → le a c)
    (hle : ∀ {β : Type} (o : Op β) (x : ι) (s : σ), I s → le s (m.next o x s))
    (hpost : ∀ a b r, le a b → post a r → post b r) (h : Step m start w l w') (hi : I w.store)
    (hn : w.calls[n]? = some (c, p)) (he : Ends m I le post p w.store) :
    ∃ p', w'.calls[n]? = some (c, p') ∧ Ends m I le post p' w'.store := by
  have hlt : n < w.calls.length := (List.getElem?_eq_some_iff.mp hn).1
  cases h with
  | call c₀ => exact ⟨p, by rw [List.getElem?_append_left hlt, hn], he⟩
  | txn i c₀ o k x hc =>
    by_cases hin : i = n
    · rw [hin, hn] at hc
      cases hc
      exact ⟨_, by rw [hin, List.getElem?_set_self hlt], he x _ (hrefl _) hi⟩
    · exact ⟨p, by rw [List.getElem?_set_ne hin, hn], he.climb htrans hpost (hle o x _ hi)⟩
  | answer i c₀ q k r hc =>
    by_cases hin : i = n
    · rw [hin, hn] at hc
      cases hc
      exact ⟨_, by rw [hin, List.getElem?_set_self hlt], he r⟩
    · exact ⟨p, by rw [List.getElem?_set_ne hin, hn], he⟩

/-- **A program ends as it would in any company**, from any moment on. -/
theorem run_ends {ls : List (Label Op κ ι)} {w' : World Op Ask σ ε α κ} {n : Nat} {c : κ} {p : Process Op Ask ε α}
    {post : σ → Except ε α → Prop} (hrefl : ∀ s, le s s) (htrans : ∀ a b c, le a b → le b c → le a c)
    (hI : ∀ {β : Type} (o : Op β) (x : ι) (s : σ), I s → I (m.next o x s))
    (hle : ∀ {β : Type} (o : Op β) (x : ι) (s : σ), I s → le s (m.next o x s))
    (hpost : ∀ a b r, le a b → post a r → post b r) (h : Run (Step m start) w ls w') (hi : I w.store)
    (hn : w.calls[n]? = some (c, p)) (he : Ends m I le post p w.store) :
    ∃ p', w'.calls[n]? = some (c, p') ∧ Ends m I le post p' w'.store := by
  induction h generalizing p with
  | nil w => exact ⟨p, hn, he⟩
  | @cons w w₁ w' l ls hs hr ih =>
    obtain ⟨p₁, hn₁, he₁⟩ := hs.ends hrefl htrans hle hpost hi hn he
    have hi₁ : I w₁.store := by
      rcases hs.store with e | ⟨β, o, x, e⟩
      · rw [e]
        exact hi
      · rw [e]
        exact hI o x _ hi
    exact ih hi₁ hn₁ he₁

/-- the same for every call that has come in -/
theorem reach_ends (hrefl : ∀ s, le s s) (htrans : ∀ a b c, le a b → le b c → le a c) (h0 : ∀ s, I₀ s → I s)
    (hI : ∀ {β : Type} (o : Op β) (x : ι) (s : σ), I s → I (m.next o x s))
    (hle : ∀ {β : Type} (o : Op β) (x : ι) (s : σ), I s → le s (m.next o x s))
    (hpost : ∀ c a b r, le a b → post c a r → post c b r)
    (hstart : ∀ c s, I s → Ends m I le (post c) (start c) s) (h : Reach (Fresh I₀) (Step m start) w) :
    ∀ c p, (c, p) ∈ w.calls → Ends m I le (post c) p w.store := by
  induction h with
  | init h =>
    intro c p hp
    rw [h.2] at hp
    cases hp
  | @step s s' l hr hs ih =>
    have hi : I s.store := reach_inv h0 hI hr
    cases hs with
    | call c₀ =>
      intro c p hp
      rcases List.mem_append.mp hp with hp | hp
      · exact ih c p hp
      · cases List.mem_singleton.mp hp
        exact hstart c₀ _ hi
    | txn i c₀ o k x hc =>
      intro c p hp
      have hnext := hle o x _ hi
      rcases List.mem_or_eq_of_mem_set hp with hp | hp
      · exact (ih c p hp).climb htrans (hpost c) hnext
      · cases hp
        exact ih c₀ _ (List.mem_of_getElem? hc) x _ (hrefl _) hi
    | answer i c₀ q k r hc =>
      intro c p hp
      rcases List.mem_or_eq_of_mem_set hp with hp | hp
      · exact ih c p hp
      · cases hp
        exact ih c₀ _ (List.mem_of_getElem? hc) r

end World
