import OpenFlame.Workflow.History
import OpenFlame.Workflow.Accepted

/-!
# Calls that race

* `raised`               a transaction that changes something raises the revision of one workflow;
* `one_writer`           of two writers that hold the same revision one changes nothing;
* `create_ends`          a `create` that returns, returns the workflow of its request key, made for the same request;
* `create_conflict`      where the key belongs to another request, it ends in `idempotency_conflict`.
-/

set_option linter.all false

namespace OpenFlame.Workflow
open Guard Text Json Editing TransSys Process
open Upload (Mode Platform)

section
variable {F : Type}

/-- one workflow was changed, and its revision is higher -/
structure Raised (s s' : Store F) (id : Text) : Prop where
  others : ∀ other, other ≠ id → s'.workflows.get other = s.workflows.get other ∧ s'.log other = s.log other
  raised : ∃ new, s'.workflows.get id = some new ∧ ∀ row, s.workflows.get id = some row → row.revision < new.revision

theorem Change.raised {s s' : Store F} (h : Change s s') : s' = s ∨ ∃ id, Raised s s' id := by
  cases h with
  | same => exact .inl rfl
  | create row s' h =>
    refine .inr ⟨row.id, ?_, row, ?_, ?_⟩
    · intro other hother
      constructor
      · rw [Table.get_insert h.rows, if_neg (fun e => hother e.symm)]
      · rw [log_insert h.logged, if_neg (fun e => hother e.symm), List.append_nil]
    · rw [Table.get_insert h.rows, if_pos rfl]
    · intro r hr
      obtain ⟨hr, hid⟩ := Table.get_eq_some.mp hr
      exact absurd hid (h.fresh r hr)
  | write row f s' h =>
    refine .inr ⟨row.id, ?_, f row, ?_, ?_⟩
    · intro other hother
      refine ⟨?_, h.log_of_ne hother⟩
      cases hget : s.workflows.get other with
      | none =>
        rw [Table.get_eq_none] at hget ⊢
        intro r hr
        rcases h.mem.mp hr with rfl | ⟨hr, -⟩
        · rw [h.same.id]
          exact fun e => hother e.symm
        · exact hget r hr
      | some r =>
        obtain ⟨hr, hid⟩ := Table.get_eq_some.mp hget
        exact Table.get_eq_some.mpr ⟨h.mem.mpr (.inr ⟨hr, by rw [hid]; exact hother⟩), hid⟩
    · exact Table.get_eq_some.mpr ⟨h.written, h.same.id⟩
    · intro r hr
      obtain ⟨hr, hid⟩ := Table.get_eq_some.mp hr
      rw [Table.eq_of_key hr h.stored hid, h.revision]
      omega

end

section
variable {F : Type} {fl : Floats F} {py : Python fl} {s s' : Store F} {m : Moment}

/-- the workflow and the revision that a writer holds -/
def StoreOp.holds : {β : Type} → StoreOp py β → Option (Text × Nat)
  | _, .setRefs expected _ => some (expected.id, expected.revision)
  | _, .transition expected _ _ => some (expected.id, expected.revision)
  | _, .requestCancel id expected_revision => some (id, expected_revision)
  | _, _ => none

/-- the stored row has been written since -/
def Outdated (held : Text × Nat) (s : Store F) : Prop := ∃ row ∈ s.workflows, row.id = held.1 ∧ held.2 < row.revision

theorem Outdated.kept {held : Text × Nat} {t : Store F} (h : Outdated held s) (hk : Kept s t) : Outdated held t := by
  obtain ⟨row, hrow, hid, hlt⟩ := h
  obtain ⟨row', hrow', hsame, hle⟩ := hk row hrow
  exact ⟨row', hrow', hsame.id.trans hid, Nat.lt_of_lt_of_le hlt hle⟩

/-- who writes over the stored revision leaves a later one -/
theorem outdated_of_write {s₁ : Store F} {row : WorkflowRow F} {f : WorkflowRow F → WorkflowRow F}
    {hf : ∀ r, (f r).id = r.id} {held : Text × Nat} (hrow : row ∈ s.workflows) (h : s.write row f hf = .ok s₁)
    (hrevision : (f row).revision = row.revision + 1) (hid : row.id = held.1) (hheld : row.revision = held.2) :
    Outdated held s₁ := by
  obtain ⟨hrows, -⟩ := write_eq_ok h
  refine ⟨f row, ?_, (hf row).trans hid, by rw [hrevision, hheld]; omega⟩
  rw [← Table.mem_rows, hrows]
  exact List.mem_map.mpr ⟨row, hrow, Table.upd_pos row.isHeld_self⟩

theorem Outdated.of_event {s₁ s₂ : Store F} {id : Text} {previous : Option WorkflowState} {state : WorkflowState}
    {code : String} {held : Text × Nat} (h : Outdated held s₁) (he : s₁.event id previous state code = .ok s₂) :
    Outdated held s₂ := by
  unfold Outdated
  rw [(event_eq_ok he).1]
  exact h

/-- a writer changes nothing, or finds the revision that it holds and leaves a later one -/
theorem execStore_holds {β : Type} (o : StoreOp py β) {b : β} {held : Text × Nat} (ho : o.holds = some held)
    (h : execStore py o m s = .ok (b, s')) :
    s' = s ∨ (Outdated held s' ∧ ∃ row ∈ s.workflows, row.id = held.1 ∧ row.revision = held.2) := by
  cases o with
  | get id => cases ho
  | findKey key digest => cases ho
  | insert new => cases ho
  | requestCancel id revision =>
    cases ho
    simp only [execStore, execRequestCancel, bind_eq_ok, fetch_eq_ok] at h
    obtain ⟨row, hget, record, -, h⟩ := h
    obtain ⟨hrow, hid⟩ := Table.get_eq_some.mp hget
    split at h
    · cases h
      exact .inl rfl
    · simp only [bind_eq_ok, require_eq_ok] at h
      obtain ⟨_, -, h⟩ := h
      split at h
      · simp only [bind_eq_ok, require_eq_ok, pure_eq_ok] at h
        obtain ⟨_, -, h⟩ := h
        cases h
        exact .inl rfl
      · simp only [bind_eq_ok, require_eq_ok, pure_eq_ok] at h
        obtain ⟨_, hrevision, _, -, s₁, hwrite, s₂, hevent, h⟩ := h
        cases h
        exact .inr ⟨(outdated_of_write hrow hwrite rfl hid hrevision).of_event hevent, row, hrow, hid, hrevision⟩
  | setRefs expected values =>
    cases ho
    simp only [execStore, execSetRefs, bind_eq_ok, require_eq_ok, pure_eq_ok] at h
    obtain ⟨_, -, row, hheld, values', -, _, -, s₁, hwrite, record, -, h⟩ := h
    cases h
    obtain ⟨hrow, hid, hrevision, -⟩ := held_eq_ok hheld
    exact .inr ⟨outdated_of_write hrow hwrite rfl hid hrevision, row, hrow, hid, hrevision⟩
  | transition expected state code =>
    cases ho
    simp only [execStore, execTransition, bind_eq_ok] at h
    obtain ⟨row, hheld, h⟩ := h
    obtain ⟨hrow, hid, hrevision, -⟩ := held_eq_ok hheld
    split at h
    · simp only [bind_eq_ok, pure_eq_ok] at h
      obtain ⟨_, -, h⟩ := h
      cases h
      exact .inl rfl
    · simp only [bind_eq_ok, pure_eq_ok] at h
      obtain ⟨s₁, hwrite, s₂, hevent, record, -, h⟩ := h
      cases h
      exact .inr ⟨(outdated_of_write hrow hwrite rfl hid hrevision).of_event hevent, row, hrow, hid, hrevision⟩

theorem next_holds {β : Type} (o : StoreOp py β) {held : Text × Nat} (ho : o.holds = some held) :
    (storeMachine py).next o m s = s ∨ (Outdated held ((storeMachine py).next o m s) ∧ ¬ Outdated held s) := by
  rcases (storeMachine py).next_cases o m s with h | ⟨b, h⟩
  · exact .inl h
  · rcases execStore_holds o ho h with h | ⟨hout, row, hrow, hid, hrevision⟩
    · exact .inl h
    · refine .inr ⟨hout, ?_⟩
      rintro ⟨row', hrow', hid', hlt⟩
      rw [Table.eq_of_key hrow' hrow (hid'.trans hid.symm), hrevision] at hlt
      exact Nat.lt_irrefl _ hlt

/-! ## the whole store -/

theorem next_kept {β : Type} (o : StoreOp py β) (m : Moment) (s : Store F) : Kept s ((storeMachine py).next o m s) :=
  .change (next_change o m s)

theorem next_logged {β : Type} (o : StoreOp py β) (m : Moment) (s : Store F) (h : Logged s) :
    Logged ((storeMachine py).next o m s) :=
  h.change (next_change o m s)

theorem reach_logged {w : ServiceWorld py} (h : ServiceReach py w) : Logged w.store :=
  World.reach_inv (I := Logged) (fun s hs => by rw [hs]; exact .empty) (fun o x s hs => next_logged o x s hs) h

theorem run_kept {w w' : ServiceWorld py} {ls : List (World.Label (StoreOp py) (ServiceCall (F := F)) Moment)}
    (h : Run (ServiceStep py) w ls w') : Kept w.store w'.store :=
  World.run_mono (I := fun _ => True) Kept.refl (fun _ _ _ => Kept.trans) (fun _ _ _ _ => trivial)
    (fun o x s _ => next_kept o x s) h trivial

/-- **Of two writers that hold the same revision one changes nothing.** -/
theorem one_writer {w w₁ w₂ w₃ : ServiceWorld py} {β γ : Type} {o : StoreOp py β} {o' : StoreOp py γ} {i j : Nat}
    {m m' : Moment} {ls : List (World.Label (StoreOp py) (ServiceCall (F := F)) Moment)} {held : Text × Nat}
    (h₁ : ServiceStep py w (.txn i o m) w₁) (hr : Run (ServiceStep py) w₁ ls w₂)
    (h₂ : ServiceStep py w₂ (.txn j o' m') w₃) (ho : o.holds = some held) (ho' : o'.holds = some held) :
    w₁.store = w.store ∨ w₃.store = w₂.store := by
  have e₁ : w₁.store = (storeMachine py).next o m w.store := by
    cases h₁
    rfl
  have e₂ : w₃.store = (storeMachine py).next o' m' w₂.store := by
    cases h₂
    rfl
  rcases next_holds (m := m) (s := w.store) o ho with h | ⟨hout, -⟩
  · exact .inl (by rw [e₁, h])
  · rw [← e₁] at hout
    rcases next_holds (m := m') (s := w₂.store) o' ho' with h | ⟨-, hnot⟩
    · exact .inr (by rw [e₂, h])
    · exact absurd (hout.kept (run_kept hr)) hnot

end

/-! ## `create` -/

section
variable {F : Type} {fl : Floats F} {py : Python fl} {s : Store F} {m : Moment}

/-- the workflow of a key and a request is there -/
def Made (key digest id : Text) (s : Store F) : Prop :=
  ∃ row ∈ s.workflows, row.id = id ∧ row.request_key = key ∧ row.request_digest = digest

theorem Made.kept {key digest id : Text} {t : Store F} (h : Made key digest id s) (hk : Kept s t) : Made key digest id t := by
  obtain ⟨row, hrow, hid, hkey, hdigest⟩ := h
  obtain ⟨row', hrow', hsame, -⟩ := hk row hrow
  exact ⟨row', hrow', hsame.id.trans hid, hsame.request_key.trans hkey, hsame.request_digest.trans hdigest⟩

theorem keyed_some {key digest : Text} {r : Record py} (h : s.keyed py key digest = .ok (some r)) :
    Made key digest r.id s := by
  unfold Store.keyed at h
  cases hf : s.workflows.find (fun r => r.request_key == key) with
  | none =>
    rw [hf] at h
    cases h
  | some prior =>
    rw [hf] at h
    simp only [bind_eq_ok, require_eq_ok, pure_eq_ok] at h
    obtain ⟨_, hdigest, record, hpublic, h⟩ := h
    cases h
    obtain ⟨hprior, hkey⟩ := Table.find_some hf
    have hrow := public_row hpublic
    exact ⟨prior, hprior, by rw [← hrow], beq_iff_eq.mp hkey, hdigest⟩

/-- a key that belongs to another request -/
theorem keyed_conflict {key digest digest' id : Text} (hs : Logged s) (h : Made key digest' id s) (hd : digest' ≠ digest) :
    s.keyed py key digest = .error (.workflow "idempotency_conflict") := by
  obtain ⟨row, hrow, -, hkey, hdigest⟩ := h
  unfold Store.keyed
  cases hf : s.workflows.find (fun r => r.request_key == key) with
  | none => exact absurd hkey (beq_eq_false_iff_ne.mp (Table.find_none.mp hf row hrow))
  | some prior =>
    obtain ⟨hprior, hk⟩ := Table.find_some hf
    have he : prior = row := hs.keys prior hprior row hrow ((beq_iff_eq.mp hk).trans hkey.symm)
    show (require (prior.request_digest = digest) _ >>= _) = _
    rw [he, require_neg (by rw [hdigest]; exact hd)]
    rfl

theorem execInsert_made {new : NewWorkflow F} {r : Record py} {s' : Store F}
    (h : execInsert py new m s = .ok (r, s')) : Made new.request_key new.request_digest r.id s' := by
  simp only [execInsert, bind_eq_ok] at h
  obtain ⟨prior, hprior, h⟩ := h
  cases prior with
  | some prior =>
    cases h
    exact keyed_some hprior
  | none =>
    simp only [bind_eq_ok, fetch_eq_ok, pure_eq_ok] at h
    obtain ⟨workflows, hinsert, s₁, hevent, record, hbyId, h⟩ := h
    cases h
    obtain ⟨hworkflows, -⟩ := event_eq_ok hevent
    obtain ⟨-, hid⟩ := byId_eq_ok hbyId
    refine ⟨new.row m.uuid, ?_, hid.symm, rfl, rfl⟩
    rw [hworkflows]
    exact (Table.mem_insert hinsert).mpr (.inr rfl)

theorem newWorkflow_key {key : Text} {i : Intent F} {bindings : List (List (Text × Value F))} {new : NewWorkflow F}
    (h : newWorkflow py key i bindings = .ok new) : new.request_key = key ∧ new.request_digest = i.digest := by
  simp only [newWorkflow, bind_eq_ok, pure_eq_ok] at h
  obtain ⟨_, -, _, -, rfl⟩ := h
  exact ⟨rfl, rfl⟩

/-- what a call of `create` may return -/
def CreatePost (py : Python fl) : ServiceCall (F := F) → Store F → Except Fault (Record py) → Prop
  | .create c, s, r => ∀ record, r = .ok record →
      ∃ i, c.intent py = .ok i ∧ Made c.idempotency_key i.digest record.id s
  | _, _, _ => True

theorem CreatePost.kept (c : ServiceCall (F := F)) (s t : Store F) (r : Except Fault (Record py)) (hk : Kept s t)
    (h : CreatePost py c s r) : CreatePost py c t r := by
  cases c with
  | create c =>
    intro record hr
    obtain ⟨i, hi, hmade⟩ := h record hr
    exact ⟨i, hi, hmade.kept hk⟩
  | _ => exact trivial

/-- **A `create` that returns, returns the workflow of its key and its request.** -/
theorem create_ends (c : CreateRequest F) (s : Store F) :
    Ends (storeMachine py) Logged Kept (CreatePost py (.create c)) (create py c) s := by
  unfold create
  cases hi : c.intent py with
  | error e =>
    intro record h
    cases h
  | ok i =>
    intro x t _ _
    cases hkeyed : t.keyed py c.idempotency_key i.digest with
    | error e =>
      have hresult : (storeMachine py).result (.findKey c.idempotency_key i.digest) x t = .error e := by
        show ((do return (← t.keyed py c.idempotency_key i.digest, t)) : Except Fault _).map Prod.fst = _
        rw [hkeyed]
        rfl
      rw [hresult]
      intro record h
      cases h
    | ok prior =>
      have hexec : (storeMachine py).exec (.findKey c.idempotency_key i.digest) x t = .ok (prior, t) := by
        show ((do return (← t.keyed py c.idempotency_key i.digest, t)) : Except Fault _) = _
        rw [hkeyed]
        rfl
      rw [Machine.result_ok hexec, Machine.next_ok hexec]
      cases prior with
      | some prior =>
        intro record h
        cases h
        exact ⟨i, hi, keyed_some hkeyed⟩
      | none =>
        intro r
        cases r with
        | error e =>
          intro record h
          cases h
        | ok bindings =>
          show Ends _ _ _ _ (Process.lift (newWorkflow py c.idempotency_key i bindings) >>= _) t
          cases hnew : newWorkflow py c.idempotency_key i bindings with
          | error e =>
            intro record h
            cases h
          | ok new =>
            intro y u _ _ record h
            have hexec := Machine.exec_of_result h
            obtain ⟨hkey, hdigest⟩ := newWorkflow_key hnew
            have hmade := execInsert_made hexec
            rw [hkey, hdigest] at hmade
            exact ⟨i, hi, hmade⟩

/-- **Where the key belongs to another request, `create` ends in a conflict.** -/
theorem create_conflict (c : CreateRequest F) {i : Intent F} (hi : c.intent py = .ok i) {digest id : Text}
    (hd : digest ≠ i.digest) {s : Store F} (h : Made c.idempotency_key digest id s) :
    Ends (storeMachine py) Logged Kept (fun _ r => r = .error (.workflow "idempotency_conflict")) (create py c) s := by
  unfold create
  rw [hi]
  intro x t hst ht
  have hkeyed : t.keyed py c.idempotency_key i.digest = .error (.workflow "idempotency_conflict") :=
    keyed_conflict ht (h.kept hst) hd
  have hresult : (storeMachine py).result (.findKey c.idempotency_key i.digest) x t =
      .error (.workflow "idempotency_conflict") := by
    show ((do return (← t.keyed py c.idempotency_key i.digest, t)) : Except Fault _).map Prod.fst = _
    rw [hkeyed]
    rfl
  rw [hresult]
  rfl

theorem call_ends (c : ServiceCall (F := F)) (s : Store F) :
    Ends (storeMachine py) Logged Kept (CreatePost py c) (c.run py) s := by
  cases c with
  | create c => exact create_ends c s
  | _ => exact .trivial (fun _ _ => trivial) _ _

theorem reach_create {w : ServiceWorld py} (h : ServiceReach py w) {c : CreateRequest F} {record : Record py}
    (hc : (.create c, .done (.ok record)) ∈ w.calls) :
    ∃ i, c.intent py = .ok i ∧ Made c.idempotency_key i.digest record.id w.store :=
  World.reach_ends (I := Logged) Kept.refl (fun _ _ _ => Kept.trans)
    (fun s hs => by rw [hs]; exact .empty) (fun o x s hs => next_logged o x s hs) (fun o x s _ => next_kept o x s)
    (fun c a b r => CreatePost.kept c a b r) (fun c s _ => call_ends c s) h _ _ hc record rfl

end
end OpenFlame.Workflow
