import OpenFlame.Base.Append
import OpenFlame.Workflow.Service

/-!
# What a transaction changes

`Change s s'`           the three things a transaction of the workflow store can do: nothing, a new workflow, or one row
                        written over the revision that its writer holds
* `execStore_change`    every transaction is one of them;
* `Change.kept`         rows keep their identity, and their revisions never fall (`Kept`).
-/

set_option linter.all false

namespace OpenFlame.Workflow
open Guard Text Json Editing
open Upload (Mode Platform)

section
variable {F : Type}

/-- the columns that no transaction writes -/
structure SameWorkflow (row new : WorkflowRow F) : Prop where
  id : new.id = row.id
  request_key : new.request_key = row.request_key
  request_digest : new.request_digest = row.request_digest
  source_url : new.source_url = row.source_url
  name : new.name = row.name
  profile_json : new.profile_json = row.profile_json
  profile_sha256 : new.profile_sha256 = row.profile_sha256

/-- the event of a row that was written, if there is one -/
def eventFor (s : Store F) (previous : Option WorkflowState) (new : WorkflowRow F) : WorkflowEvent where
  workflow_id := new.id
  sequence := nextSequence s new.id
  from_state := previous
  to_state := new.state
  code := new.code

/-- a row is written over the revision that is held -/
structure Rewrite (s : Store F) (row : WorkflowRow F) (f : WorkflowRow F → WorkflowRow F) (s' : Store F) : Prop where
  stored : row ∈ s.workflows
  rows : s'.workflows.rows = s.workflows.rows.map (Table.upd row.isHeld f)
  same : SameWorkflow row (f row)
  revision : (f row).revision = row.revision + 1
  /-- only a change of state or code is an event -/
  logged : (s'.events = s.events ∧ (f row).state = row.state ∧ (f row).code = row.code ∧
      (f row).finished_at = row.finished_at) ∨
    (s.events.insert (eventFor s (some row.state) (f row)) = some s'.events ∧
      (f row).finished_at.isSome = (f row).state.isFinished)

/-- a workflow is created -/
structure Creation (s : Store F) (row : WorkflowRow F) (s' : Store F) : Prop where
  rows : s.workflows.insert row = some s'.workflows
  key : ∀ r ∈ s.workflows, r.request_key ≠ row.request_key
  state : row.state = .created
  finished_at : row.finished_at = none
  revision : row.revision = 1
  logged : s.events.insert (eventFor s none row) = some s'.events

/-- what a transaction does -/
inductive Change (s : Store F) : Store F → Prop where
  | same : Change s s
  | create (row : WorkflowRow F) (s' : Store F) (h : Creation s row s') : Change s s'
  | write (row : WorkflowRow F) (f : WorkflowRow F → WorkflowRow F) (s' : Store F) (h : Rewrite s row f s') : Change s s'

theorem SameWorkflow.refl (row : WorkflowRow F) : SameWorkflow row row := ⟨rfl, rfl, rfl, rfl, rfl, rfl, rfl⟩

theorem SameWorkflow.trans {a b c : WorkflowRow F} (h : SameWorkflow a b) (h' : SameWorkflow b c) : SameWorkflow a c :=
  ⟨h'.id.trans h.id, h'.request_key.trans h.request_key, h'.request_digest.trans h.request_digest,
    h'.source_url.trans h.source_url, h'.name.trans h.name, h'.profile_json.trans h.profile_json,
    h'.profile_sha256.trans h.profile_sha256⟩

theorem WorkflowRow.isHeld_iff {held row : WorkflowRow F} : held.isHeld row = true ↔
    row.id = held.id ∧ row.revision = held.revision ∧ row.state = held.state ∧ row.code = held.code := by
  simp only [WorkflowRow.isHeld, Bool.and_eq_true, beq_iff_eq]

theorem WorkflowRow.isHeld_self (row : WorkflowRow F) : row.isHeld row = true :=
  WorkflowRow.isHeld_iff.mpr ⟨rfl, rfl, rfl, rfl⟩

/-- the held row of a store is the one that is held -/
theorem eq_of_isHeld {s : Store F} {row r : WorkflowRow F} (hrow : row ∈ s.workflows) (hr : r ∈ s.workflows)
    (h : row.isHeld r = true) : r = row :=
  Table.eq_of_key hr hrow (WorkflowRow.isHeld_iff.mp h).1

theorem write_eq_ok {s s' : Store F} {row : WorkflowRow F} {f : WorkflowRow F → WorkflowRow F} {hf : ∀ r, (f r).id = r.id}
    (h : s.write row f hf = .ok s') :
    s'.workflows.rows = s.workflows.rows.map (Table.upd row.isHeld f) ∧ s'.events = s.events := by
  simp only [Store.write, bind_eq_ok, require_eq_ok, pure_eq_ok] at h
  obtain ⟨_, -, rfl⟩ := h
  exact ⟨rfl, rfl⟩

theorem event_eq_ok {s s' : Store F} {id : Text} {previous : Option WorkflowState} {state : WorkflowState} {code : String}
    (h : s.event id previous state code = .ok s') :
    s'.workflows = s.workflows ∧ s.events.insert
      { workflow_id := id, sequence := nextSequence s id, from_state := previous, to_state := state, code } =
        some s'.events := by
  simp only [Store.event, bind_eq_ok, fetch_eq_ok, pure_eq_ok] at h
  obtain ⟨events, hevents, rfl⟩ := h
  exact ⟨rfl, hevents⟩

/-- a row and its event -/
theorem Rewrite.of_move {s s₁ s' : Store F} {row : WorkflowRow F} {state : WorkflowState} {code : String}
    {finished_at : Option Text} (hrow : row ∈ s.workflows)
    (h₁ : s.write row (WorkflowRow.move state code finished_at) = .ok s₁)
    (h₂ : s₁.event row.id (some row.state) state code = .ok s') (hfin : finished_at.isSome = state.isFinished) :
    Rewrite s row (WorkflowRow.move state code finished_at) s' := by
  obtain ⟨hrows, hevents⟩ := write_eq_ok h₁
  obtain ⟨hworkflows, hlog⟩ := event_eq_ok h₂
  have hseq : nextSequence s₁ row.id = nextSequence s row.id := by
    unfold nextSequence
    rw [hevents]
  rw [hevents, hseq] at hlog
  refine ⟨hrow, ?_, ⟨rfl, rfl, rfl, rfl, rfl, rfl, rfl⟩, rfl, .inr ⟨hlog, hfin⟩⟩
  rw [hworkflows]
  exact hrows

end

/-! ## each transaction -/

section
variable {F : Type} {fl : Floats F} {py : Python fl} {s s' : Store F} {m : Moment} {r : Record py}

theorem held_eq_ok {expected row : WorkflowRow F} (h : s.held expected = .ok row) :
    row ∈ s.workflows ∧ row.id = expected.id ∧ row.revision = expected.revision ∧ row.state = expected.state ∧
      row.code = expected.code := by
  simp only [Store.held, bind_eq_ok, fetch_eq_ok, require_eq_ok, pure_eq_ok] at h
  obtain ⟨row', hget, _, hheld, rfl⟩ := h
  exact ⟨(Table.get_eq_some.mp hget).1, WorkflowRow.isHeld_iff.mp hheld⟩

theorem keyed_none {key digest : Text} (h : s.keyed py key digest = .ok none) :
    ∀ row ∈ s.workflows, row.request_key ≠ key := by
  unfold Store.keyed at h
  cases hf : s.workflows.find (fun r => r.request_key == key) with
  | some prior =>
    rw [hf] at h
    simp only [bind_eq_ok, require_eq_ok, pure_eq_ok] at h
    obtain ⟨_, -, _, -, h⟩ := h
    cases h
  | none =>
    intro row hrow
    exact beq_eq_false_iff_ne.mp (Table.find_none.mp hf row hrow)

theorem public_row {row : WorkflowRow F} (h : row.public py = .ok r) : r.toWorkflowRow = row := by
  simp only [WorkflowRow.public, bind_eq_ok, pure_eq_ok] at h
  obtain ⟨_, -, _, -, _, -, _, -, _, -, _, -, _, -, rfl⟩ := h
  rfl

theorem byId_eq_ok {id : Text} (h : s.byId py id = .ok r) : r.toWorkflowRow ∈ s.workflows ∧ r.id = id := by
  simp only [Store.byId, bind_eq_ok, fetch_eq_ok] at h
  obtain ⟨row, hget, hrow⟩ := h
  have he := public_row hrow
  obtain ⟨hmem, hid⟩ := Table.get_eq_some.mp hget
  rw [← he] at hmem hid
  exact ⟨hmem, hid⟩

theorem execInsert_change {new : NewWorkflow F} (h : execInsert py new m s = .ok (r, s')) : Change s s' := by
  simp only [execInsert, bind_eq_ok] at h
  obtain ⟨prior, hprior, h⟩ := h
  cases prior with
  | some prior =>
    cases h
    exact .same
  | none =>
    simp only [bind_eq_ok, fetch_eq_ok, pure_eq_ok] at h
    obtain ⟨workflows, hinsert, s₁, hevent, record, -, h⟩ := h
    cases h
    obtain ⟨hworkflows, hlog⟩ := event_eq_ok hevent
    refine .create (new.row m.uuid) _ ⟨?_, keyed_none hprior, rfl, rfl, rfl, ?_⟩
    · rw [hworkflows]
      exact hinsert
    · exact hlog

theorem execRequestCancel_change {id : Text} {revision : Nat} {o : Option (Record py)}
    (h : execRequestCancel py id revision m s = .ok (o, s')) : Change s s' := by
  simp only [execRequestCancel, bind_eq_ok, fetch_eq_ok] at h
  obtain ⟨row, hget, record, -, h⟩ := h
  obtain ⟨hrow, hid⟩ := Table.get_eq_some.mp hget
  split at h
  · cases h
    exact .same
  · simp only [bind_eq_ok, require_eq_ok] at h
    obtain ⟨_, -, h⟩ := h
    split at h
    · simp only [bind_eq_ok, require_eq_ok, pure_eq_ok] at h
      obtain ⟨_, -, h⟩ := h
      cases h
      exact .same
    · simp only [bind_eq_ok, require_eq_ok, pure_eq_ok] at h
      obtain ⟨_, -, _, hcancel, s₁, hwrite, s₂, hevent, h⟩ := h
      cases h
      rw [← hid] at hevent
      refine .write row _ _ (.of_move hrow hwrite hevent ?_)
      -- of the states that can be canceled only attention is finished
      unfold WorkflowState.isCancellable at hcancel
      cases hs : row.state <;> rw [hs] at hcancel <;> first | rfl | cases hcancel

theorem execSetRefs_change {expected : Record py} {values : Refs F} (h : execSetRefs py expected values s = .ok (r, s')) :
    Change s s' := by
  simp only [execSetRefs, bind_eq_ok, require_eq_ok, pure_eq_ok] at h
  obtain ⟨_, -, row, hheld, values', -, _, -, s₁, hwrite, record, -, h⟩ := h
  cases h
  obtain ⟨hrows, hevents⟩ := write_eq_ok hwrite
  exact .write row _ _ ⟨(held_eq_ok hheld).1, hrows, ⟨rfl, rfl, rfl, rfl, rfl, rfl, rfl⟩, rfl, .inl ⟨hevents, rfl, rfl, rfl⟩⟩

theorem execTransition_change {expected : Record py} {state : WorkflowState} {code : String}
    (h : execTransition py expected state code m s = .ok (r, s')) : Change s s' := by
  simp only [execTransition, bind_eq_ok] at h
  obtain ⟨row, hheld, h⟩ := h
  split at h
  · simp only [bind_eq_ok, pure_eq_ok] at h
    obtain ⟨_, -, h⟩ := h
    cases h
    exact .same
  · simp only [bind_eq_ok, pure_eq_ok] at h
    obtain ⟨s₁, hwrite, s₂, hevent, record, -, h⟩ := h
    cases h
    refine .write row _ _ (.of_move (held_eq_ok hheld).1 hwrite hevent ?_)
    by_cases hf : state.isFinished = true
    · rw [if_pos hf, hf]
      rfl
    · rw [if_neg hf, Bool.eq_false_iff.mpr hf]
      rfl

/-- **A transaction does nothing, creates a workflow or writes one.** -/
theorem execStore_change {β : Type} (o : StoreOp py β) {b : β} (h : execStore py o m s = .ok (b, s')) : Change s s' := by
  cases o with
  | get id =>
    simp only [execStore, bind_eq_ok, pure_eq_ok] at h
    obtain ⟨_, -, h⟩ := h
    cases h
    exact .same
  | findKey key digest =>
    simp only [execStore, bind_eq_ok, pure_eq_ok] at h
    obtain ⟨_, -, h⟩ := h
    cases h
    exact .same
  | insert new => exact execInsert_change h
  | requestCancel id revision => exact execRequestCancel_change h
  | setRefs expected values => exact execSetRefs_change h
  | transition expected state code => exact execTransition_change h

theorem next_change {β : Type} (o : StoreOp py β) (m : Moment) (s : Store F) : Change s ((storeMachine py).next o m s) := by
  rcases (storeMachine py).next_cases o m s with h | ⟨b, h⟩
  · rw [h]
    exact .same
  · exact execStore_change o h

end
end OpenFlame.Workflow
