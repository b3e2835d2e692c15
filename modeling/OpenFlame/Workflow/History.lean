import Mathlib.Algebra.Ring.Nat
import Mathlib.Data.List.Chain
import OpenFlame.Workflow.Changes

/-!
# The history of a workflow

`LinearLog row es`     the events `es` are the history of `row`: numbered from one, each from the state of the one before
`Kept s t`             the rows of `s` are still there in `t`, with revisions that are not smaller

* `Logged.change`      every transaction keeps the histories;
* `Kept.change`        every transaction keeps the rows;
* `Change.revision`    a transaction that changes something raises the revision of one workflow.
-/

set_option linter.all false

namespace OpenFlame.Workflow
open Guard Text Json Editing
open Upload (Mode Platform)

section
variable {F : Type}

/-- the events of a workflow, in their order -/
def Store.log (s : Store F) (id : Text) : List WorkflowEvent := s.events.filter (fun e => e.workflow_id == id)

structure LinearLog (row : WorkflowRow F) (es : List WorkflowEvent) : Prop where
  numbered : es.map (·.sequence) = List.range' 1 es.length
  first : ∀ e ∈ es.head?, e.from_state = none
  linked : es.IsChain (fun a b => b.from_state = some a.to_state)
  last : ∃ e, es.getLast? = some e ∧ e.to_state = row.state ∧ e.code = row.code

/-- what holds of every store -/
structure Logged (s : Store F) : Prop where
  logs : ∀ row ∈ s.workflows, LinearLog row (s.log row.id)
  finished : ∀ row ∈ s.workflows, row.finished_at.isSome = row.state.isFinished
  keys : ∀ row ∈ s.workflows, ∀ row' ∈ s.workflows, row.request_key = row'.request_key → row = row'
  owned : ∀ e ∈ s.events, ∃ row ∈ s.workflows, row.id = e.workflow_id

/-- the rows are still there -/
def Kept (s t : Store F) : Prop :=
  ∀ row ∈ s.workflows, ∃ row' ∈ t.workflows, SameWorkflow row row' ∧ row.revision ≤ row'.revision

theorem Kept.refl (s : Store F) : Kept s s := fun row hrow => ⟨row, hrow, .refl row, Nat.le_refl _⟩

theorem Kept.trans {s t u : Store F} (h : Kept s t) (h' : Kept t u) : Kept s u := by
  intro row hrow
  obtain ⟨row', hrow', hsame, hle⟩ := h row hrow
  obtain ⟨row'', hrow'', hsame', hle'⟩ := h' row' hrow'
  exact ⟨row'', hrow'', hsame.trans hsame', Nat.le_trans hle hle'⟩

/-! ## logs -/

theorem mem_log {s : Store F} {id : Text} {e : WorkflowEvent} : e ∈ s.log id ↔ e ∈ s.events ∧ e.workflow_id = id := by
  unfold Store.log
  rw [Table.mem_filter, beq_iff_eq]

/-- an event is added to the log of its workflow, and to no other -/
theorem log_insert {s s' : Store F} {e : WorkflowEvent} (h : s.events.insert e = some s'.events) (id : Text) :
    s'.log id = s.log id ++ if e.workflow_id = id then [e] else [] := by
  unfold Store.log Table.filter
  rw [Table.insert_rows h, List.filter_append, List.filter_cons, List.filter_nil]
  simp only [beq_iff_eq]

theorem foldr_max_range (n : Nat) : (List.range' 1 n).foldr max 0 = n := by
  induction n with
  | zero => rfl
  | succ n ih =>
    have hfold : ∀ (l : List Nat) (a b : Nat), l.foldr max (max a b) = max (l.foldr max a) b := by
      intro l a b
      induction l with
      | nil => rfl
      | cons x l ih => rw [List.foldr_cons, ih, List.foldr_cons, Nat.max_assoc]
    rw [List.range'_1_concat, List.foldr_append, List.foldr_cons, List.foldr_nil, Nat.max_comm, hfold, ih]
    omega

/-- the next number of a history -/
theorem LinearLog.next {s : Store F} {row : WorkflowRow F} (h : LinearLog row (s.log row.id)) :
    nextSequence s row.id = (s.log row.id).length + 1 := by
  unfold nextSequence
  have hmap := h.numbered
  unfold Store.log at hmap ⊢
  rw [hmap, foldr_max_range]

/-- a history goes on from where it is -/
theorem LinearLog.append {row new : WorkflowRow F} {es : List WorkflowEvent} {e : WorkflowEvent} (h : LinearLog row es)
    (hsequence : e.sequence = es.length + 1) (hfrom : e.from_state = some row.state) (hto : e.to_state = new.state)
    (hcode : e.code = new.code) : LinearLog new (es ++ [e]) := by
  obtain ⟨l, hl, hstate, -⟩ := h.last
  refine ⟨?_, ?_, ?_, e, List.getLast?_concat, hto, hcode⟩
  · rw [List.map_append, h.numbered, List.length_append, List.map_singleton, List.length_singleton,
      List.range'_1_concat, hsequence, Nat.add_comm 1]
  · intro x hx
    refine h.first x ?_
    cases es with
    | nil => cases hl
    | cons y ys => exact hx
  · rw [List.isChain_append]
    refine ⟨h.linked, .singleton e, ?_⟩
    intro x hx y hy
    cases hy
    rw [hl] at hx
    cases hx
    rw [hfrom, hstate]

/-- a history depends on the state and the code of its row -/
theorem LinearLog.of_same {row new : WorkflowRow F} {es : List WorkflowEvent} (h : LinearLog row es)
    (hstate : new.state = row.state) (hcode : new.code = row.code) : LinearLog new es := by
  refine ⟨h.numbered, h.first, h.linked, ?_⟩
  rw [hstate, hcode]
  exact h.last

theorem LinearLog.single {row : WorkflowRow F} {e : WorkflowEvent} (hsequence : e.sequence = 1)
    (hfrom : e.from_state = none) (hto : e.to_state = row.state) (hcode : e.code = row.code) : LinearLog row [e] := by
  refine ⟨?_, ?_, .singleton e, e, rfl, hto, hcode⟩
  · rw [List.map_singleton, hsequence]
    rfl
  · intro x hx
    cases hx
    exact hfrom

/-! ## a row is written -/

section
variable {s s' : Store F} {row : WorkflowRow F} {f : WorkflowRow F → WorkflowRow F}

theorem Rewrite.mem (h : Rewrite s row f s') {r : WorkflowRow F} :
    r ∈ s'.workflows ↔ r = f row ∨ (r ∈ s.workflows ∧ r.id ≠ row.id) := by
  rw [← Table.mem_rows, h.rows, List.mem_map]
  constructor
  · rintro ⟨x, hx, rfl⟩
    cases hheld : row.isHeld x with
    | true =>
      rw [Table.upd_pos hheld, eq_of_isHeld h.stored hx hheld]
      exact .inl rfl
    | false =>
      rw [Table.upd_neg hheld]
      refine .inr ⟨hx, fun hid => ?_⟩
      rw [Table.eq_of_key hx h.stored hid, WorkflowRow.isHeld_self] at hheld
      cases hheld
  · rintro (rfl | ⟨hr, hid⟩)
    · exact ⟨row, h.stored, Table.upd_pos row.isHeld_self⟩
    · refine ⟨r, hr, Table.upd_neg ?_⟩
      cases hheld : row.isHeld r with
      | false => rfl
      | true => exact absurd (WorkflowRow.isHeld_iff.mp hheld).1 hid

theorem Rewrite.written (h : Rewrite s row f s') : f row ∈ s'.workflows := h.mem.mpr (.inl rfl)

/-- the log of another workflow stays -/
theorem Rewrite.log_of_ne (h : Rewrite s row f s') {id : Text} (hid : id ≠ row.id) : s'.log id = s.log id := by
  rcases h.logged with ⟨hevents, -⟩ | ⟨hinsert, -⟩
  · unfold Store.log
    rw [hevents]
  · rw [log_insert hinsert, if_neg, List.append_nil]
    show (f row).id ≠ id
    rw [h.same.id]
    exact fun e => hid e.symm

theorem Logged.write (hs : Logged s) (h : Rewrite s row f s') : Logged s' := by
  have hid : (f row).id = row.id := h.same.id
  refine ⟨?_, ?_, ?_, ?_⟩
  · intro r hr
    rcases h.mem.mp hr with rfl | ⟨hr, hne⟩
    · have hlog := hs.logs row h.stored
      rcases h.logged with ⟨hevents, hstate, hcode, -⟩ | ⟨hinsert, -⟩
      · have he : s'.log (f row).id = s.log row.id := by
          unfold Store.log
          rw [hevents, hid]
        rw [he]
        exact hlog.of_same hstate hcode
      · have hself : (eventFor s (some row.state) (f row)).workflow_id = (f row).id := rfl
        rw [log_insert hinsert, if_pos hself, hid]
        refine hlog.append ?_ rfl rfl rfl
        show nextSequence s (f row).id = _
        rw [hid, hlog.next]
    · rw [h.log_of_ne hne]
      exact hs.logs r hr
  · intro r hr
    rcases h.mem.mp hr with rfl | ⟨hr, -⟩
    · rcases h.logged with ⟨-, hstate, -, hfinished⟩ | ⟨-, hfinished⟩
      · rw [hfinished, hstate]
        exact hs.finished row h.stored
      · exact hfinished
    · exact hs.finished r hr
  · intro a ha b hb hkey
    have hrow : ∀ r ∈ s.workflows, r.id ≠ row.id → r.request_key ≠ (f row).request_key := by
      intro r hr hne he
      rw [h.same.request_key] at he
      exact hne (congrArg WorkflowRow.id (hs.keys r hr row h.stored he))
    rcases h.mem.mp ha with rfl | ⟨ha, hna⟩ <;> rcases h.mem.mp hb with rfl | ⟨hb, hnb⟩
    · rfl
    · exact absurd hkey.symm (hrow b hb hnb)
    · exact absurd hkey (hrow a ha hna)
    · exact hs.keys a ha b hb hkey
  · have howned : ∀ e : WorkflowEvent, (∃ r ∈ s.workflows, r.id = e.workflow_id) → ∃ r ∈ s'.workflows, r.id = e.workflow_id := by
      rintro e ⟨r, hr, he⟩
      by_cases hne : r.id = row.id
      · exact ⟨f row, h.written, by rw [hid, ← hne, he]⟩
      · exact ⟨r, h.mem.mpr (.inr ⟨hr, hne⟩), he⟩
    intro e he
    rcases h.logged with ⟨hevents, -⟩ | ⟨hinsert, -⟩
    · rw [hevents] at he
      exact howned e (hs.owned e he)
    · rcases (Table.mem_insert hinsert).mp he with he | rfl
      · exact howned e (hs.owned e he)
      · exact ⟨f row, h.written, rfl⟩

theorem Kept.write (h : Rewrite s row f s') : Kept s s' := by
  intro r hr
  by_cases hid : r.id = row.id
  · rw [Table.eq_of_key hr h.stored hid]
    exact ⟨f row, h.written, h.same, by rw [h.revision]; omega⟩
  · exact ⟨r, h.mem.mpr (.inr ⟨hr, hid⟩), .refl r, Nat.le_refl _⟩

end

/-! ## a workflow is created -/

section
variable {s s' : Store F} {row : WorkflowRow F}

theorem Creation.fresh (h : Creation s row s') : ∀ r ∈ s.workflows, r.id ≠ row.id := Table.insert_fresh h.rows

theorem Logged.create (hs : Logged s) (h : Creation s row s') : Logged s' := by
  have hmem : ∀ {r : WorkflowRow F}, r ∈ s'.workflows ↔ r ∈ s.workflows ∨ r = row := Table.mem_insert h.rows
  -- the identifier is new, so that the log is still empty
  have hempty : s.log row.id = [] := by
    rw [List.eq_nil_iff_forall_not_mem]
    intro e he
    obtain ⟨he, hid⟩ := mem_log.mp he
    obtain ⟨r, hr, hrid⟩ := hs.owned e he
    exact h.fresh r hr (hrid.trans hid)
  refine ⟨?_, ?_, ?_, ?_⟩
  · intro r hr
    rcases hmem.mp hr with hr | rfl
    · rw [log_insert h.logged, if_neg (fun he => h.fresh r hr he.symm), List.append_nil]
      exact hs.logs r hr
    · have hself : (eventFor s none r).workflow_id = r.id := rfl
      rw [log_insert h.logged, if_pos hself, hempty]
      refine .single ?_ rfl rfl rfl
      show nextSequence s r.id = 1
      unfold nextSequence
      unfold Store.log at hempty
      rw [hempty]
      rfl
  · intro r hr
    rcases hmem.mp hr with hr | rfl
    · exact hs.finished r hr
    · rw [h.finished_at, h.state]
      rfl
  · intro a ha b hb hkey
    rcases hmem.mp ha with ha | rfl <;> rcases hmem.mp hb with hb | rfl
    · exact hs.keys a ha b hb hkey
    · exact absurd hkey (h.key a ha)
    · exact absurd hkey.symm (h.key b hb)
    · rfl
  · intro e he
    rcases (Table.mem_insert h.logged).mp he with he | rfl
    · obtain ⟨r, hr, hrid⟩ := hs.owned e he
      exact ⟨r, hmem.mpr (.inl hr), hrid⟩
    · exact ⟨row, hmem.mpr (.inr rfl), rfl⟩

theorem Kept.create (h : Creation s row s') : Kept s s' := by
  intro r hr
  exact ⟨r, (Table.mem_insert h.rows).mpr (.inl hr), .refl r, Nat.le_refl _⟩

end

/-! ## any transaction -/

theorem Logged.empty : Logged (Store.empty F) :=
  ⟨fun _ h => (nomatch h), fun _ h => (nomatch h), fun _ h => (nomatch h), fun _ h => (nomatch h)⟩

theorem Logged.change {s s' : Store F} (hs : Logged s) (h : Change s s') : Logged s' := by
  cases h with
  | same => exact hs
  | create row s' h => exact hs.create h
  | write row f s' h => exact hs.write h

theorem Kept.change {s s' : Store F} (h : Change s s') : Kept s s' := by
  cases h with
  | same => exact .refl s
  | create row s' h => exact .create h
  | write row f s' h => exact .write h

end
end OpenFlame.Workflow
