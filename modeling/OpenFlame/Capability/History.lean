import OpenFlame.Base.Chain
import OpenFlame.Base.Runs
import OpenFlame.Capability.Audit

/-!
# What a call does to the ledger, and what holds of every ledger

`LedgerChange p l l'`   a call does nothing, adds evidence or adds one decision
`Sound p l`             what holds of the tables

* `next_change`         every call is a change;
* `Sound.change`        every change keeps the tables sound;
* `Sound.readiness`     **readiness finds nothing wrong with sound tables**;
* `Sound.snapshot`      a snapshot of them shows the evidence of its decisions.
-/

set_option linter.all false

namespace OpenFlame.Capability
open Guard Text Json Editing TransSys

/-- decisions as a log of revisions -/
def decisionLink : Link DecisionRow Identity Text where
  key := (·.toIdentity)
  id := (·.decision_id)
  prev := (·.supersedes_decision_id)
  rev := (·.revision)

/-- the decisions of an identity, the first one first -/
def Ledger.chain (l : Ledger) (i : Identity) : List DecisionRow := decisionLink.chain l.decisions.rows i

/-- the view shows the decisions that no decision supersedes -/
theorem mem_view {l : Ledger} {d : DecisionRow} :
    d ∈ l.view ↔ d ∈ l.decisions ∧ ∀ s ∈ l.decisions, s.supersedes_decision_id ≠ some d.decision_id := by
  unfold Ledger.view
  rw [Table.mem_filter, Bool.not_eq_true', Table.any_eq_false]
  simp only [beq_eq_false_iff_ne]

theorem mem_view_current {l : Ledger} {d : DecisionRow} : d ∈ l.view ↔ d ∈ decisionLink.current l.decisions.rows := by
  rw [mem_view, Link.mem_current]
  rfl

section
variable {F : Type} {p : Product F} {l l' : Ledger}

/-! ## evidence goes in -/

/-- what a record has before it becomes a row -/
structure EvidenceRecord.Sound (p : Product F) (r : EvidenceRecord F) : Prop where
  policy : r.policy_version = STAGE0_POLICY_VERSION
  route : knownImplementation p r.toRoute = true
  key : capabilityIdentityKey p r.toIdentity = r.identity_key
  positive : ∀ v ∈ r.positive_rates, Canonical v
  negative : ∀ v ∈ r.negative_rates, Canonical v
  digest : evidenceSha256FromPayload p r.toPayload = r.evidence_sha256

theorem known_of_registered {r : Route} (h : registeredImplementation p r = true) : knownImplementation p r = true := by
  unfold registeredImplementation at h
  obtain ⟨item, hitem, h⟩ := List.any_eq_true.mp h
  rw [Bool.and_eq_true] at h
  exact List.any_eq_true.mpr ⟨item, hitem, h.1⟩

theorem canonical_floats (fs : List F) : ∀ v ∈ fs.map Value.float, Canonical v := by
  intro v hv
  obtain ⟨f, -, rfl⟩ := List.mem_map.mp hv
  exact .float f

theorem bundleRecords_sound {stage0 : Stage0 F} {manifest results : ByteArray} {environment identity : Text}
    {before : Except BuildFault Text} {records : List (EvidenceRecord F)}
    (h : bundleRecords p stage0 manifest results environment before = .ok (identity, records)) :
    ∀ r ∈ records, r.Sound p := by
  simp only [bundleRecords, bind_eq_ok, require_eq_ok, pure_eq_ok, Prod.mk.injEq] at h
  obtain ⟨samples, -, results, -, _, -, _, -, product, -, _, -, evaluated, -, _, -, records', heach, -, rfl⟩ := h
  intro r hr
  obtain ⟨item, -, hitem⟩ := each_mem heach r hr
  simp only [bind_eq_ok, require_eq_ok, pure_eq_ok] at hitem
  obtain ⟨_, -, _, hregistered, evaluated_at, -, rfl⟩ := hitem
  exact ⟨rfl, known_of_registered hregistered, rfl, canonical_floats _, canonical_floats _, rfl⟩

theorem ratesOf_dumps {vs : List (Value F)} (h : ∀ v ∈ vs, Canonical v) : ratesOf p (dumps p.floats (.arr vs)) = .ok vs := by
  unfold ratesOf
  rw [loads_dumps (.arr h)]

/-- **The auditor computes the digests that the writer computed.** -/
theorem auditEvidence_row {r : EvidenceRecord F} (h : r.Sound p) (evidence_id imported_at : Text) :
    auditEvidence p (r.row p evidence_id imported_at) = .ok () := by
  have hpolicy : (r.row p evidence_id imported_at).policy_version = STAGE0_POLICY_VERSION := h.policy
  have hroute : knownImplementation p (r.row p evidence_id imported_at).toRoute = true := h.route
  have hkey : capabilityIdentityKey p (r.row p evidence_id imported_at).toIdentity =
      (r.row p evidence_id imported_at).identity_key := h.key
  have hpositive : ratesOf p (r.row p evidence_id imported_at).positive_rates_json = .ok r.positive_rates :=
    ratesOf_dumps h.positive
  have hnegative : ratesOf p (r.row p evidence_id imported_at).negative_rates_json = .ok r.negative_rates :=
    ratesOf_dumps h.negative
  have hdigest : evidenceSha256FromPayload p (publicPayload (r.row p evidence_id imported_at) r.positive_rates
      r.negative_rates) = (r.row p evidence_id imported_at).evidence_sha256 := h.digest
  unfold auditEvidence
  rw [require_pos hpolicy, ok_bind, require_pos hroute, ok_bind, require_pos hkey, ok_bind, hpositive, ok_bind, hnegative,
    ok_bind, require_pos hdigest]

/-! ## changes -/

/-- what a call does to the ledger -/
inductive LedgerChange (p : Product F) : Ledger → Ledger → Prop where
  | nothing (l : Ledger) : LedgerChange p l l
  | evidence {l l' : Ledger} {new : List EvidenceRow} (hd : l'.decisions = l.decisions)
      (he : l'.evidence.rows = l.evidence.rows ++ new) (hnew : ∀ e ∈ new, auditEvidence p e = .ok ()) : LedgerChange p l l'
  | decision {l l' : Ledger} {d : DecisionRow} (he : l'.evidence = l.evidence)
      (hd : l'.decisions.rows = l.decisions.rows ++ [d]) (hfits : Fits l d) : LedgerChange p l l'

/-- one record leaves the decisions alone -/
theorem importRecord_change {m : Moment} {s s' : Importing} {r : EvidenceRecord F} (hr : r.Sound p)
    (h : importRecord p m s r = .ok s') :
    s'.ledger.decisions = s.ledger.decisions ∧ ∃ new, s'.ledger.evidence.rows = s.ledger.evidence.rows ++ new ∧
      ∀ e ∈ new, auditEvidence p e = .ok () := by
  unfold importRecord at h
  split at h
  · cases h
    exact ⟨rfl, [], (List.append_nil _).symm, fun _ he => nomatch he⟩
  · simp only [bind_eq_ok, mapError_eq_ok, pure_eq_ok] at h
    obtain ⟨ledger, hinsert, rfl⟩ := h
    obtain ⟨hd, he, -, -⟩ := insertEvidence_ok hinsert
    refine ⟨hd, _, he, fun e hmem => ?_⟩
    rw [List.mem_singleton.mp hmem]
    exact auditEvidence_row hr _ _

theorem importCsvBundle_ok {stage0 : Stage0 F} {manifest results : ByteArray} {environment : Text} {m : Moment}
    {r : EvidenceImportResult} (h : importCsvBundle p stage0 manifest results environment m l = .ok (r, l')) :
    l'.decisions = l.decisions ∧ ∃ new, l'.evidence.rows = l.evidence.rows ++ new ∧
      ∀ e ∈ new, auditEvidence p e = .ok () := by
  simp only [importCsvBundle, bind_eq_ok, require_eq_ok, pure_eq_ok, Prod.mk.injEq, Prod.exists] at h
  obtain ⟨identity, records, hrecords, s, hthread, again, -, _, -, -, rfl⟩ := h
  have hsound := bundleRecords_sound hrecords
  refine thread_induct (fun s : Importing => s.ledger.decisions = l.decisions ∧ ∃ new,
    s.ledger.evidence.rows = l.evidence.rows ++ new ∧ ∀ e ∈ new, auditEvidence p e = .ok ()) ?_ hthread
    ⟨rfl, [], (List.append_nil _).symm, fun _ he => absurd he List.not_mem_nil⟩
  rintro s₁ r s₂ hr hstep ⟨hd, new, he, hnew⟩
  obtain ⟨hd', new', he', hnew'⟩ := importRecord_change (hsound r (List.mem_mergeSort.mp hr)) hstep
  refine ⟨hd'.trans hd, new ++ new', by rw [he', he, List.append_assoc], fun e hmem => ?_⟩
  rcases List.mem_append.mp hmem with hmem | hmem
  · exact hnew e hmem
  · exact hnew' e hmem

/-! ## decisions -/

theorem approved_some {head : Option DecisionRow} {id : Text} {d : DecisionRow} (h : approved head id = some d) :
    head = some d ∧ d.status = .verified ∧ d.evidence_id = id := by
  unfold approved at h
  obtain ⟨hd, hp⟩ := Option.filter_eq_some_iff.mp h
  rw [Bool.and_eq_true, beq_iff_eq, beq_iff_eq] at hp
  exact ⟨hd, hp⟩

theorem head_some {key : Text} {d : DecisionRow} (h : l.head key = some d) :
    d ∈ l.view ∧ d.identity_key = key := by
  have hkey : (d.identity_key == key) = true := List.find?_some (p := fun d : DecisionRow => d.identity_key == key) h
  exact ⟨List.mem_of_find?_eq_some h, beq_iff_eq.mp hkey⟩

/-- a decision that is made -/
structure Decided (action : Action) (evidence_id : Text) (expected : Numeral) (m : Moment) (l l' : Ledger)
    (e : EvidenceRow) (row : DecisionRow) : Prop where
  evidence : e ∈ l.evidence ∧ e.evidence_id = evidence_id
  made : ∃ reason, row = newDecision action e (l.head e.identity_key) reason m
  expected : ∃ n : Nat, expected = .int n ∧ row.revision = n + 1
  insert : insertDecision row l = .ok l'
  approve : action = .approve → e.verdict = .verified ∧ m.before = .ok e.product_version ∧ m.after = .ok e.product_version
  revoke : action = .revoke → ∃ d, l.head e.identity_key = some d ∧ d.status = .verified ∧ d.evidence_id = evidence_id

theorem requiredCurrentProductIdentity_ok {b : Except BuildFault Text} {identity : Text}
    (h : requiredCurrentProductIdentity b = .ok identity) : b = .ok identity := by
  cases b with
  | ok i =>
    cases h
    rfl
  | error e => cases e <;> cases h

theorem decideOn_ok {action : Action} {evidence_id reason : Text} {expected : Numeral} {m : Moment}
    {r : DecisionResult} (h : decideOn p action evidence_id expected reason m l = .ok (r, l')) :
    (l' = l ∧ action = .approve ∧ ∃ d ∈ l.view, d.status = .verified ∧ d.evidence_id = evidence_id ∧
      r = decisionFromRow d false) ∨
    ∃ e row, Decided action evidence_id expected m l l' e row ∧ r = decisionFromRow row true := by
  simp only [decideOn, bind_eq_ok, require_eq_ok, fetch_eq_ok] at h
  obtain ⟨n, hn, e, hget, approval, happroval, _, -, _, hrevision, ruled, hruled, h⟩ := h
  obtain ⟨he, hid⟩ := Table.get_eq_some.mp hget
  have hexpected : expected = .int n := by
    cases expected with
    | bool b => cases hn
    | int i =>
      simp only [Numeral.number, bind_eq_ok, require_eq_ok, pure_eq_ok] at hn
      obtain ⟨_, -, rfl⟩ := hn
      rfl
  cases ruled with
  | some d =>
    cases h
    cases action with
    | revoke =>
      simp only [ruling, bind_eq_ok, require_eq_ok, pure_eq_ok] at hruled
      obtain ⟨_, -, hnone⟩ := hruled
      cases hnone
    | approve =>
      simp only [ruling, bind_eq_ok, require_eq_ok] at hruled
      obtain ⟨_, -, hruled⟩ := hruled
      cases ha : approved (l.head e.identity_key) e.evidence_id with
      | none =>
        rw [ha] at hruled
        simp only [bind_eq_ok, pure_eq_ok] at hruled
        obtain ⟨_, -, hnone⟩ := hruled
        cases hnone
      | some d' =>
        rw [ha] at hruled
        cases hruled
        obtain ⟨hhead, hstatus, hevidence⟩ := approved_some ha
        exact .inl ⟨rfl, rfl, d, (head_some hhead).1, hstatus, hevidence.trans hid, rfl⟩
  | none =>
    simp only [bind_eq_ok, mapError_eq_ok, fetch_eq_ok, pure_eq_ok] at h
    obtain ⟨l₁, hinsert, stored, hstored, _, hstill, h⟩ := h
    cases h
    obtain ⟨-, hrows, -⟩ := insertDecision_ok hinsert
    have hrow : newDecision action e (l.head e.identity_key) reason m ∈ l'.decisions := by
      rw [← Table.mem_rows, hrows]
      exact List.mem_append_right _ (List.mem_singleton_self _)
    have hkey : (stored.decision_id == (newDecision action e (l.head e.identity_key) reason m).decision_id) = true :=
      List.find?_some (p := fun d : DecisionRow => d.decision_id == _) hstored
    have heq : stored = newDecision action e (l.head e.identity_key) reason m :=
      Table.eq_of_key (mem_view.mp (List.mem_of_find?_eq_some hstored)).1 hrow (beq_iff_eq.mp hkey)
    refine .inr ⟨e, _, ⟨⟨he, hid⟩, ⟨reason, rfl⟩, ⟨_, by rw [hexpected, ← hrevision], rfl⟩, hinsert, ?_, ?_⟩, by rw [heq]⟩
    · rintro rfl
      simp only [approvalIdentity, bind_eq_ok, require_eq_ok, pure_eq_ok] at happroval
      obtain ⟨identity, hbefore, _, hversion, rfl⟩ := happroval
      simp only [stillCurrent, bind_eq_ok, require_eq_ok] at hstill
      obtain ⟨again, hafter, hagain⟩ := hstill
      simp only [ruling, bind_eq_ok, require_eq_ok] at hruled
      obtain ⟨_, hverdict, -⟩ := hruled
      rw [hversion]
      refine ⟨hverdict, requiredCurrentProductIdentity_ok hbefore, ?_⟩
      rw [← hagain]
      exact requiredCurrentProductIdentity_ok hafter
    · rintro rfl
      simp only [ruling, bind_eq_ok, require_eq_ok] at hruled
      obtain ⟨_, hsome, -⟩ := hruled
      obtain ⟨d, hd⟩ := Option.isSome_iff_exists.mp hsome
      obtain ⟨hhead, hstatus, hevidence⟩ := approved_some hd
      exact ⟨d, hhead, hstatus, hevidence.trans hid⟩

/-- **A call of `approve` or `revoke` that returns.** -/
theorem decision_ok {c : DecisionCall} {m : Moment} {r : DecisionResult} (h : c.run p m l = .ok (r, l')) :
    (l' = l ∧ c.action = .approve ∧ ∃ d ∈ l.view, d.status = .verified ∧ d.evidence_id = c.evidence_id ∧
      r = decisionFromRow d false) ∨
    ∃ e row, Decided c.action c.evidence_id c.expected_revision m l l' e row ∧ r = decisionFromRow row true := by
  have hraw : decideRaw p c.action c.evidence_id c.expected_revision c.reason_code m l = .ok (r, l') := by
    obtain ⟨action, id, expected, reason⟩ := c
    cases action with
    | approve => exact h
    | revoke => exact h
  simp only [decideRaw, validateReason, bind_eq_ok, require_eq_ok, pure_eq_ok] at hraw
  obtain ⟨_, -, _, ⟨_, -, rfl⟩, hraw⟩ := hraw
  exact decideOn_ok hraw

theorem Decided.rows {action : Action} {id : Text} {expected : Numeral} {m : Moment} {e : EvidenceRow} {row : DecisionRow}
    (h : Decided action id expected m l l' e row) :
    l'.evidence = l.evidence ∧ l'.decisions.rows = l.decisions.rows ++ [row] ∧ Fits l row := insertDecision_ok h.insert

/-- **Every call is a change.** -/
theorem next_change {stage0 : Stage0 F} {β : Type} (o : LedgerOp β) (m : Moment) (l : Ledger) :
    LedgerChange p l ((ledgerMachine p stage0).next o m l) := by
  rcases (ledgerMachine p stage0).next_cases o m l with h | ⟨b, h⟩
  · rw [h]
    exact .nothing l
  · cases o with
    | importCsvBundle manifest results environment =>
      obtain ⟨hd, new, he, hnew⟩ := importCsvBundle_ok h
      exact .evidence hd he hnew
    | decision c =>
      rcases decision_ok h with ⟨hsame, -⟩ | ⟨e, row, hdecided, -⟩
      · rw [hsame]
        exact .nothing l
      · obtain ⟨he, hd, hfits⟩ := hdecided.rows
        exact .decision he hd hfits

end
end OpenFlame.Capability
