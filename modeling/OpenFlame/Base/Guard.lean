import Mathlib.Algebra.Ring.Nat
import Mathlib.Data.List.Forall2

/-!
# Guards: transactions that either return a value or raise

A transaction is a term of `Except ε α`: `.ok` is the value it commits, `.error` the exception that
rolls it back.  `require c e` raises `e` unless `c` holds; `fetch o e` raises `e` on an empty
`SELECT`; `recast x e` raises `e` for any failure of `x`.

`bind_eq_ok`, `require_eq_ok`, `fetch_eq_ok`: how a transaction that returned is taken apart, one
statement at a time.  `Raises x P`: every error `x` may raise satisfies `P`.
-/

set_option linter.all false

namespace Guard
universe u v
variable {ε : Type u} {α β : Type v}

/-- `if not c: raise e` -/
def require (c : Prop) [Decidable c] (e : ε) : Except ε PUnit.{v+1} :=
  if c then .ok ⟨⟩ else .error e

/-- `fetchone()`, raising `e` when there is no row -/
def fetch (o : Option α) (e : ε) : Except ε α :=
  match o with
  | some a => .ok a
  | none => .error e

/-- `except ..: raise e from None`: any failure of `x` becomes `e` -/
def recast (x : Except ε α) (e : ε) : Except ε α :=
  match x with
  | .ok a => .ok a
  | .error _ => .error e

/-- a value with what was checked of it -/
def ensure {α : Type*} (p : α → Prop) [DecidablePred p] (a : α) (e : ε) : Except ε {a // p a} :=
  if h : p a then .ok ⟨a, h⟩ else .error e

@[simp] theorem bind_eq_ok {x : Except ε α} {f : α → Except ε β} {b : β} :
    (x >>= f) = .ok b ↔ ∃ a, x = .ok a ∧ f a = .ok b := by
  cases x <;> simp [bind, Except.bind]

@[simp] theorem require_eq_ok {c : Prop} [Decidable c] {e : ε} {u : PUnit.{v+1}} :
    require c e = .ok u ↔ c := by
  unfold require
  split <;> simp_all

theorem require_pos {c : Prop} [Decidable c] {e : ε} (h : c) : require c e = .ok PUnit.unit.{v+1} := if_pos h

theorem require_neg {c : Prop} [Decidable c] {e : ε} (h : ¬ c) : (require c e : Except ε PUnit.{v+1}) = .error e :=
  if_neg h

theorem ok_bind {a : α} {f : α → Except ε β} : ((.ok a : Except ε α) >>= f) = f a := rfl

@[simp] theorem fetch_eq_ok {o : Option α} {e : ε} {a : α} : fetch o e = .ok a ↔ o = some a := by
  cases o <;> simp [fetch]

@[simp] theorem recast_eq_ok {x : Except ε α} {e : ε} {a : α} : recast x e = .ok a ↔ x = .ok a := by
  cases x <;> simp [recast]

@[simp] theorem ensure_eq_ok {α : Type*} {p : α → Prop} [DecidablePred p] {a : α} {e : ε} {b : {a // p a}} :
    ensure p a e = .ok b ↔ a = b.1 := by
  unfold ensure
  split
  · exact ⟨fun h => by cases h; rfl, fun h => congrArg Except.ok (Subtype.ext h)⟩
  · next hp => exact ⟨nofun, fun h => absurd (h ▸ b.2) hp⟩

@[simp] theorem pure_eq_ok {a b : α} : (pure a : Except ε α) = .ok b ↔ a = b := by
  simp [pure, Except.pure]

@[simp] theorem throw_ne_ok {e : ε} {a : α} : (throw e : Except ε α) ≠ .ok a := by
  intro h; cases h

theorem mapError_eq_ok {ε ε' α : Type*} {x : Except ε α} {f : ε → ε'} {a : α} : x.mapError f = .ok a ↔ x = .ok a := by
  cases x with
  | error e => exact ⟨nofun, nofun⟩
  | ok b => exact ⟨fun h => congrArg Except.ok (Except.ok.inj h), fun h => congrArg Except.ok (Except.ok.inj h)⟩

/-! ## loops -/

/-- `[f(x) for x in xs]` for a body that may raise -/
def each {α : Type*} (f : α → Except ε β) : List α → Except ε (List β)
  | [] => .ok []
  | x :: xs =>
    match f x with
    | .error e => .error e
    | .ok b =>
      match each f xs with
      | .error e => .error e
      | .ok bs => .ok (b :: bs)

/-- `for x in xs: s = f(s, x)` for a body that may raise -/
def thread {α : Type*} {σ : Type v} (f : σ → α → Except ε σ) : σ → List α → Except ε σ
  | s, [] => .ok s
  | s, x :: xs =>
    match f s x with
    | .error e => .error e
    | .ok s' => thread f s' xs

section
variable {α : Type*} {σ : Type v}

theorem each_nil (f : α → Except ε β) : each f [] = .ok [] := rfl

theorem each_cons_eq_ok {f : α → Except ε β} {x : α} {xs : List α} {bs : List β} :
    each f (x :: xs) = .ok bs ↔ ∃ b rest, f x = .ok b ∧ each f xs = .ok rest ∧ bs = b :: rest := by
  cases hx : f x with
  | error e => simp [each, hx]
  | ok b =>
    cases hxs : each f xs with
    | error e => simp [each, hx, hxs]
    | ok rest => simp [each, hx, hxs, eq_comm]

/-- what every element of a successful comprehension came from -/
theorem each_forall₂ {f : α → Except ε β} :
    ∀ {xs : List α} {bs : List β}, each f xs = .ok bs → List.Forall₂ (fun x b => f x = .ok b) xs bs := by
  intro xs
  induction xs with
  | nil => intro bs h; cases h; exact .nil
  | cons x xs ih =>
    intro bs h
    obtain ⟨b, rest, hx, hxs, rfl⟩ := each_cons_eq_ok.mp h
    exact .cons hx (ih hxs)

/-- what a result of a comprehension came from -/
theorem each_mem {f : α → Except ε β} {xs : List α} {bs : List β} (h : each f xs = .ok bs) :
    ∀ b ∈ bs, ∃ x ∈ xs, f x = .ok b := by
  have hall := each_forall₂ h
  clear h
  induction hall with
  | nil => intro b hb; cases hb
  | cons hx _ ih =>
    intro b hb
    rcases List.mem_cons.mp hb with rfl | hb
    · exact ⟨_, List.mem_cons_self, hx⟩
    · obtain ⟨x, hxs, e⟩ := ih b hb
      exact ⟨x, List.mem_cons_of_mem _ hxs, e⟩

/-- every element of a comprehension that returned has a result -/
theorem each_result {f : α → Except ε β} {xs : List α} {bs : List β} (h : each f xs = .ok bs) :
    ∀ x ∈ xs, ∃ b ∈ bs, f x = .ok b := by
  have hall := each_forall₂ h
  clear h
  induction hall with
  | nil => intro x hx; cases hx
  | cons hb _ ih =>
    intro x hx
    rcases List.mem_cons.mp hx with rfl | hx
    · exact ⟨_, List.mem_cons_self, hb⟩
    · obtain ⟨b, hbs, e⟩ := ih x hx
      exact ⟨b, List.mem_cons_of_mem _ hbs, e⟩

/-- a comprehension whose elements have results returns -/
theorem each_total {f : α → Except ε β} {xs : List α} (h : ∀ x ∈ xs, ∃ b, f x = .ok b) : ∃ bs, each f xs = .ok bs := by
  induction xs with
  | nil => exact ⟨[], rfl⟩
  | cons x xs ih =>
    obtain ⟨b, hb⟩ := h x List.mem_cons_self
    obtain ⟨bs, hbs⟩ := ih (fun y hy => h y (List.mem_cons_of_mem _ hy))
    exact ⟨b :: bs, each_cons_eq_ok.mpr ⟨b, bs, hb, hbs, rfl⟩⟩

theorem each_eq_ok_of_forall₂ {f : α → Except ε β} {xs : List α} {bs : List β}
    (h : List.Forall₂ (fun x b => f x = .ok b) xs bs) : each f xs = .ok bs := by
  induction h with
  | nil => rfl
  | cons hx _ ih => exact each_cons_eq_ok.mpr ⟨_, _, hx, ih, rfl⟩

/-- a comprehension that checks each element and maps it -/
theorem each_require {α : Type*} {P : α → Prop} [DecidablePred P] {e : ε} {g : α → β} {xs : List α} {bs : List β} :
    each (fun x => (require (P x) e : Except ε PUnit.{v+1}) >>= fun _ => pure (g x)) xs = .ok bs ↔
      (∀ x ∈ xs, P x) ∧ bs = xs.map g := by
  induction xs generalizing bs with
  | nil => simp [each, eq_comm]
  | cons x xs ih =>
    rw [each_cons_eq_ok]
    simp only [bind_eq_ok, require_eq_ok, pure_eq_ok, ih]
    constructor
    · rintro ⟨b, rest, ⟨-, hx, rfl⟩, ⟨hxs, rfl⟩, rfl⟩
      exact ⟨List.forall_mem_cons.mpr ⟨hx, hxs⟩, rfl⟩
    · rintro ⟨h, rfl⟩
      exact ⟨g x, xs.map g, ⟨⟨⟩, h x List.mem_cons_self, rfl⟩, ⟨fun y hy => h y (List.mem_cons_of_mem _ hy), rfl⟩, rfl⟩

/-- one iteration that returned -/
theorem thread_cons {f : σ → α → Except ε σ} {s s' : σ} {x : α} {xs : List α} (h : f s x = .ok s') :
    thread f s (x :: xs) = thread f s' xs := by
  simp only [thread, h]

/-- **The loop rule**: what the body preserves, the loop preserves. -/
theorem thread_induct {f : σ → α → Except ε σ} (I : σ → Prop) {xs : List α}
    (hf : ∀ s x s', x ∈ xs → f s x = .ok s' → I s → I s') :
    ∀ {s s' : σ}, thread f s xs = .ok s' → I s → I s' := by
  induction xs with
  | nil => intro s s' h hs; cases h; exact hs
  | cons x xs ih =>
    intro s s' h hs
    cases hx : f s x with
    | error e => simp [thread, hx] at h
    | ok s₁ =>
      simp only [thread, hx] at h
      exact ih (fun s y s' hy => hf s y s' (List.mem_cons_of_mem _ hy)) h
        (hf s x s₁ (List.mem_cons_self ..) hx hs)

/-- one more round of the loop -/
theorem thread_concat {f : σ → α → Except ε σ} {xs : List α} {x : α} {s s' : σ} :
    thread f s (xs ++ [x]) = .ok s' ↔ ∃ s₁, thread f s xs = .ok s₁ ∧ f s₁ x = .ok s' := by
  induction xs generalizing s with
  | nil =>
    show thread f s [x] = .ok s' ↔ _
    cases hx : f s x with
    | error e => simp [thread, hx]
    | ok s₁ => simp [thread, hx]
  | cons y xs ih =>
    rw [List.cons_append]
    cases hy : f s y with
    | error e => simp [thread, hy]
    | ok s₁ =>
      rw [thread_cons hy, thread_cons hy]
      exact ih

/-- what a loop raises, one round of it raises -/
theorem thread_eq_error {f : σ → α → Except ε σ} {xs : List α} {s : σ} {e : ε} :
    thread f s xs = .error e ↔
      ∃ before x after s₁, xs = before ++ x :: after ∧ thread f s before = .ok s₁ ∧ f s₁ x = .error e := by
  induction xs generalizing s with
  | nil =>
    constructor
    · intro h
      cases h
    · intro h
      obtain ⟨before, x, after, _, hxs, -, -⟩ := h
      exact absurd hxs.symm (List.append_ne_nil_of_right_ne_nil _ (List.cons_ne_nil _ _))
  | cons y xs ih =>
    cases hy : f s y with
    | error e' =>
      have hraise : thread f s (y :: xs) = .error e' := by simp only [thread, hy]
      rw [hraise]
      constructor
      · intro h
        cases h
        exact ⟨[], y, xs, s, rfl, rfl, hy⟩
      · intro h
        obtain ⟨before, x, after, s₁, hxs, hbefore, hx⟩ := h
        cases before with
        | nil =>
          cases hxs
          cases hbefore
          rw [← hy, ← hx]
        | cons b before =>
          cases hxs
          simp [thread, hy] at hbefore
    | ok s' =>
      rw [thread_cons hy, ih]
      constructor
      · intro h
        obtain ⟨before, x, after, s₁, hxs, hbefore, hx⟩ := h
        exact ⟨y :: before, x, after, s₁, by rw [hxs, List.cons_append], by rw [thread_cons hy]; exact hbefore, hx⟩
      · intro h
        obtain ⟨before, x, after, s₁, hxs, hbefore, hx⟩ := h
        cases before with
        | nil =>
          cases hxs
          cases hbefore
          rw [hy] at hx
          cases hx
        | cons b before =>
          cases hxs
          rw [thread_cons hy] at hbefore
          exact ⟨before, x, after, s₁, rfl, hbefore, hx⟩

end

/-! ## the errors a transaction may raise -/

/-- every error of `x` satisfies `P` -/
def Raises (x : Except ε α) (P : ε → Prop) : Prop := ∀ e, x = .error e → P e

section
variable {P : ε → Prop}

@[simp] theorem raises_ok {a : α} : Raises (.ok a : Except ε α) P := by
  intro e h
  cases h

@[simp] theorem raises_pure {a : α} : Raises (pure a : Except ε α) P := raises_ok

@[simp] theorem raises_throw {e : ε} : Raises (throw e : Except ε α) P ↔ P e := by
  constructor
  · exact fun h => h e rfl
  · intro h e' he
    cases he
    exact h

@[simp] theorem raises_bind {x : Except ε α} {f : α → Except ε β} :
    Raises (x >>= f) P ↔ Raises x P ∧ ∀ a, x = .ok a → Raises (f a) P := by
  cases x with
  | error e => simp [Raises, bind, Except.bind]
  | ok a => simp [Raises, bind, Except.bind]

theorem raises_require {c : Prop} [Decidable c] {e : ε} (h : P e) : Raises (require c e : Except ε PUnit.{v+1}) P := by
  intro e' he
  unfold require at he
  split at he
  · cases he
  · cases he
    exact h

theorem raises_fetch {o : Option α} {e : ε} (h : P e) : Raises (fetch o e) P := by
  intro e' he
  cases o with
  | none =>
    cases he
    exact h
  | some a => cases he

theorem raises_map {x : Except ε α} {f : α → β} (h : Raises x P) : Raises (x.map f) P := by
  intro e he
  cases x with
  | error e' =>
    cases he
    exact h e rfl
  | ok a => cases he

theorem raises_mapError {ε' : Type*} {x : Except ε' α} {f : ε' → ε} (h : Raises x (fun e => P (f e))) :
    Raises (x.mapError f) P := by
  intro e he
  cases x with
  | error e' =>
    cases he
    exact h e' rfl
  | ok a => cases he

theorem raises_each {α : Type*} {f : α → Except ε β} {xs : List α} (h : ∀ x ∈ xs, Raises (f x) P) :
    Raises (each f xs) P := by
  induction xs with
  | nil => exact raises_ok
  | cons x xs ih =>
    have hxs := ih (fun y hy => h y (List.mem_cons_of_mem _ hy))
    intro e he
    unfold each at he
    split at he
    · next e' hx =>
      cases he
      exact h x List.mem_cons_self e hx
    · split at he
      · next e' hx =>
        cases he
        exact hxs e hx
      · cases he

/-- a loop raises only what its body raises after the elements before it went well -/
theorem raises_thread_iff {α : Type*} {σ : Type v} {f : σ → α → Except ε σ} {xs : List α} {s : σ} :
    Raises (thread f s xs) P ↔ ∀ front x back, xs = front ++ x :: back → ∀ s', thread f s front = .ok s' → Raises (f s' x) P := by
  induction xs generalizing s with
  | nil => exact iff_of_true raises_ok (fun front x back h => absurd h (List.append_ne_nil_of_right_ne_nil _ (List.cons_ne_nil _ _)).symm)
  | cons y ys ih =>
    cases hy : f s y with
    | error e =>
      have hloop : thread f s (y :: ys) = .error e := by
        unfold thread
        rw [hy]
      rw [hloop, ← hy]
      constructor
      · intro h front x back hsplit s' hfront
        cases front with
        | nil =>
          cases hsplit
          cases hfront
          exact h
        | cons z front =>
          cases hsplit
          unfold thread at hfront
          rw [hy] at hfront
          cases hfront
      · intro h
        exact h [] y ys rfl s rfl
    | ok s₁ =>
      have hloop (zs : List α) : thread f s (y :: zs) = thread f s₁ zs := by
        conv_lhs => unfold thread
        rw [hy]
      rw [hloop, ih]
      constructor
      · intro h front x back hsplit s' hfront
        cases front with
        | nil =>
          cases hsplit
          cases hfront
          intro e' he'
          rw [hy] at he'
          cases he'
        | cons z front =>
          cases hsplit
          rw [hloop] at hfront
          exact h front x back rfl s' hfront
      · intro h front x back hsplit s' hfront
        exact h (y :: front) x back (by rw [hsplit, List.cons_append]) s' (by rw [hloop, hfront])

end

end Guard
