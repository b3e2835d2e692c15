import OpenFlame.Capability.History

/-!
# The ledger of decisions

`Sound p l`   what holds of the tables

* `Sound.change`         every change keeps the tables sound;
* `Sound.readiness`      **readiness finds nothing wrong with sound tables**;
* `Sound.snapshot`       a snapshot shows the evidence of its decisions;
* `capability_ledger`    **the decisions of an identity are one chain, and an approval that has ended stays so**,
                         whatever calls are made.
-/

set_option linter.all false

namespace OpenFlame.Capability
open Guard Text Json Editing TransSys

section
variable {F : Type} {p : Product F} {l l' : Ledger}

structure Sound (p : Product F) (l : Ledger) : Prop where
  evidence : ∀ e ∈ l.evidence, auditEvidence p e = .ok ()
  linear : decisionLink.Linear l.decisions.rows
  keyed : ∀ d ∈ l.decisions, ∀ d' ∈ l.decisions, d.identity_key = d'.identity_key → d.toIdentity = d'.toIdentity
  refers : ∀ d ∈ l.decisions, ∃ e ∈ l.evidence, d.refersTo e = true
  status : ∀ d ∈ l.decisions, d.status = if d.action = .approve then .verified else .candidate
  proved : ∀ d ∈ l.decisions, d.action = .approve → ∃ e ∈ l.evidence, d.provedBy e = true
  once : ∀ d ∈ l.decisions, ∀ d' ∈ l.decisions, d.action = .approve → d'.action = .approve →
    d.evidence_id = d'.evidence_id → d = d'
  withdraws : ∀ d ∈ l.decisions, d.action = .revoke → ∃ x ∈ l.decisions, d.withdraws x = true ∧ x.toIdentity = d.toIdentity

/-! ## what the auditor knows of evidence -/

theorem auditEvidence_ok {e : EvidenceRow} (h : auditEvidence p e = .ok ()) :
    knownImplementation p e.toRoute = true ∧ capabilityIdentityKey p e.toIdentity = e.identity_key := by
  simp only [auditEvidence, bind_eq_ok, require_eq_ok] at h
  obtain ⟨_, -, _, hroute, _, hkey, -⟩ := h
  exact ⟨hroute, hkey⟩

theorem refersTo_iff {d : DecisionRow} {e : EvidenceRow} :
    d.refersTo e = true ↔ e.evidence_id = d.evidence_id ∧ e.identity_key = d.identity_key ∧ e.toIdentity = d.toIdentity := by
  unfold DecisionRow.refersTo
  rw [Bool.and_eq_true, Bool.and_eq_true, beq_iff_eq, beq_iff_eq, beq_iff_eq, and_assoc]

theorem provedBy_iff {d : DecisionRow} {e : EvidenceRow} :
    d.provedBy e = true ↔ d.refersTo e = true ∧ e.evidence_kind = EVIDENCE_KIND ∧
      e.policy_version = STAGE0_POLICY_VERSION ∧ e.verdict = .verified := by
  unfold DecisionRow.provedBy
  simp only [Bool.and_eq_true, beq_iff_eq, and_assoc]

theorem withdraws_iff {d x : DecisionRow} :
    d.withdraws x = true ↔ d.supersedes_decision_id = some x.decision_id ∧ x.identity_key = d.identity_key ∧
      x.status = .verified ∧ x.evidence_id = d.evidence_id := by
  unfold DecisionRow.withdraws
  simp only [Bool.and_eq_true, beq_iff_eq, and_assoc]
  rw [eq_comm]

/-- a decision is under the key of its identity -/
theorem key_of_refers {d : DecisionRow} (he : ∀ e ∈ l.evidence, auditEvidence p e = .ok ())
    (h : ∃ e ∈ l.evidence, d.refersTo e = true) :
    knownImplementation p d.toRoute = true ∧ capabilityIdentityKey p d.toIdentity = d.identity_key := by
  obtain ⟨e, hmem, h⟩ := h
  obtain ⟨-, hkey, hidentity⟩ := refersTo_iff.mp h
  obtain ⟨hroute, hdigest⟩ := auditEvidence_ok (he e hmem)
  rw [← hidentity, ← hkey]
  exact ⟨hroute, hdigest⟩

/-! ## changes keep the tables sound -/

theorem Sound.empty : Sound p Ledger.empty :=
  ⟨fun _ h => (nomatch h), .nil, fun _ h => (nomatch h), fun _ h => (nomatch h), fun _ h => (nomatch h),
    fun _ h => (nomatch h), fun _ h => (nomatch h), fun _ h => (nomatch h)⟩

/-- evidence is added -/
theorem Sound.of_evidence (h : Sound p l) {new : List EvidenceRow} (hd : l'.decisions = l.decisions)
    (he : l'.evidence.rows = l.evidence.rows ++ new) (hnew : ∀ e ∈ new, auditEvidence p e = .ok ()) : Sound p l' := by
  have hmono : ∀ e ∈ l.evidence, e ∈ l'.evidence := fun e hmem => by
    rw [← Table.mem_rows, he]
    exact List.mem_append_left _ hmem
  constructor
  · intro e hmem
    rw [← Table.mem_rows, he] at hmem
    rcases List.mem_append.mp hmem with hmem | hmem
    · exact h.evidence e hmem
    · exact hnew e hmem
  · rw [hd]
    exact h.linear
  · rw [hd]
    exact h.keyed
  · rw [hd]
    intro d hmem
    obtain ⟨e, hmem', hrefers⟩ := h.refers d hmem
    exact ⟨e, hmono e hmem', hrefers⟩
  · rw [hd]
    exact h.status
  · rw [hd]
    intro d hmem ha
    obtain ⟨e, hmem', hproved⟩ := h.proved d hmem ha
    exact ⟨e, hmono e hmem', hproved⟩
  · rw [hd]
    exact h.once
  · rw [hd]
    exact h.withdraws

/-- the chains with one more decision -/
theorem Sound.linear_append (h : Sound p l) {d : DecisionRow} (hfits : Fits l d) :
    decisionLink.Linear (l.decisions.rows ++ [d]) := by
  have hkey := (key_of_refers h.evidence hfits.refers).2
  cases hs : d.supersedes_decision_id with
  | none =>
    obtain ⟨hrev, hroot⟩ := hfits.root hs
    refine h.linear.root hfits.fresh hs hrev (fun x hx hidentity => hroot x hx ?_)
    have hxkey := (key_of_refers h.evidence (h.refers x hx)).2
    rw [← hxkey, ← hkey]
    exact congrArg _ hidentity
  | some id =>
    obtain ⟨⟨x, hx, hid, -, hidentity, hrev⟩, hnone⟩ := hfits.next id hs
    subst hid
    exact h.linear.next hfits.fresh hx hidentity hs hrev hnone

/-- a new decision and an old one under one key -/
theorem Sound.keyed_new (h : Sound p l) {d x : DecisionRow} (hfits : Fits l d) (hx : x ∈ l.decisions)
    (hkey : x.identity_key = d.identity_key) : x.toIdentity = d.toIdentity := by
  cases hs : d.supersedes_decision_id with
  | none =>
    -- the chain of `x` would have a first decision under the key of the new one
    obtain ⟨y, hy, hidentity, hnone⟩ := h.linear.exists_root hx
    have hykey : y.identity_key = x.identity_key := by
      rw [← (key_of_refers h.evidence (h.refers y hy)).2, ← (key_of_refers h.evidence (h.refers x hx)).2]
      exact congrArg _ hidentity
    exact absurd hnone ((hfits.root hs).2 y hy (hykey.trans hkey))
  | some id =>
    obtain ⟨⟨y, hy, -, hykey, hidentity, -⟩, -⟩ := hfits.next id hs
    rw [← hidentity]
    exact h.keyed x hx y hy (hkey.trans hykey.symm)

/-- a decision is added -/
theorem Sound.of_decision (h : Sound p l) {d : DecisionRow} (he : l'.evidence = l.evidence)
    (hd : l'.decisions.rows = l.decisions.rows ++ [d]) (hfits : Fits l d) : Sound p l' := by
  have hmem : ∀ x, x ∈ l'.decisions ↔ x ∈ l.decisions ∨ x = d := fun x => by
    rw [← Table.mem_rows, hd, List.mem_append, List.mem_singleton]
    rfl
  constructor
  · rw [he]
    exact h.evidence
  · rw [hd]
    exact h.linear_append hfits
  · intro x hx y hy hkey
    rcases (hmem x).mp hx with hx | rfl <;> rcases (hmem y).mp hy with hy | rfl
    · exact h.keyed x hx y hy hkey
    · exact h.keyed_new hfits hx hkey
    · exact (h.keyed_new hfits hy hkey.symm).symm
    · rfl
  · rw [he]
    intro x hx
    rcases (hmem x).mp hx with hx | rfl
    · exact h.refers x hx
    · exact hfits.refers
  · intro x hx
    rcases (hmem x).mp hx with hx | rfl
    · exact h.status x hx
    · exact hfits.status
  · rw [he]
    intro x hx ha
    rcases (hmem x).mp hx with hx | rfl
    · exact h.proved x hx ha
    · exact hfits.proved ha
  · intro x hx y hy ha hb hxy
    rcases (hmem x).mp hx with hx | rfl <;> rcases (hmem y).mp hy with hy | rfl
    · exact h.once x hx y hy ha hb hxy
    · exact absurd hxy (hfits.once hb x hx ha)
    · exact absurd hxy.symm (hfits.once ha y hy hb)
    · rfl
  · intro x hx ha
    rcases (hmem x).mp hx with hx | rfl
    · obtain ⟨y, hy, hw⟩ := h.withdraws x hx ha
      exact ⟨y, (hmem y).mpr (.inl hy), hw⟩
    · obtain ⟨y, hy, hw⟩ := hfits.withdraws ha
      obtain ⟨⟨z, hz, hid, -, hidentity, -⟩, -⟩ := hfits.next _ (withdraws_iff.mp hw).1
      have hyz : z = y := Table.eq_of_key hz hy hid
      subst hyz
      exact ⟨z, (hmem z).mpr (.inl hz), hw, hidentity⟩

theorem Sound.change (h : Sound p l) (hc : LedgerChange p l l') : Sound p l' := by
  cases hc with
  | nothing => exact h
  | evidence hd he hnew => exact h.of_evidence hd he hnew
  | decision he hd hfits => exact h.of_decision he hd hfits

theorem reach_sound {stage0 : Stage0 F} (h : LedgerReach p stage0 l) : Sound p l := by
  refine h.induct (fun l hl => ?_) (fun l c l' _ hl hs => ?_)
  · rw [hl]
    exact .empty
  · cases hs
    exact hl.change (next_change c.op c.moment l)

theorem reach_calls {stage0 : Stage0 F} (h : LedgerReach p stage0 l) (cs : List Call) :
    LedgerReach p stage0 (cs.foldl (fun l c => (ledgerMachine p stage0).next c.op c.moment l) l) := by
  induction cs generalizing l with
  | nil => exact h
  | cons c cs ih => exact ih (h.step (.call l c))

/-! ## readiness -/

/-- the row before a decision -/
theorem Sound.previous_eq (h : Sound p l) {d : DecisionRow} (hd : d ∈ l.decisions) :
    (d.supersedes_decision_id = none ∧ d.revision = 1) ∨
    ∃ x ∈ l.decisions, l.previous d = some x ∧ d.supersedes_decision_id = some x.decision_id ∧
      x.toIdentity = d.toIdentity ∧ d.revision = x.revision + 1 := by
  rcases (h.linear.chains d.toIdentity).prev_cases (Link.mem_chain.mpr ⟨hd, rfl⟩) with hroot | ⟨x, hx, hprev, hrev⟩
  · exact .inl hroot
  · obtain ⟨hx, hidentity⟩ := Link.mem_chain.mp hx
    refine .inr ⟨x, hx, ?_, hprev, hidentity, hrev⟩
    unfold Ledger.previous
    rw [show d.supersedes_decision_id = some x.decision_id from hprev]
    exact Table.get_key hx

theorem Sound.auditDecision (h : Sound p l) {d : DecisionRow} (hd : d ∈ l.decisions) : auditDecision p d = .ok () := by
  obtain ⟨hroute, hkey⟩ := key_of_refers h.evidence (h.refers d hd)
  unfold Capability.auditDecision
  rw [require_pos hroute, ok_bind, require_pos hkey]

theorem Sound.approve_of_status (h : Sound p l) {d : DecisionRow} (hd : d ∈ l.decisions) (hs : d.status = .verified) :
    d.action = .approve := by
  have hstatus := h.status d hd
  cases ha : d.action with
  | approve => rfl
  | revoke =>
    rw [hs, ha] at hstatus
    cases hstatus

theorem Sound.verifiedWithoutEvidence (h : Sound p l) : l.verifiedWithoutEvidence = false := by
  unfold Ledger.verifiedWithoutEvidence
  rw [Table.any_eq_false]
  intro d hd
  rw [Bool.and_eq_false_imp]
  intro hs
  obtain ⟨e, he, hproved⟩ := h.proved d hd (h.approve_of_status hd (beq_iff_eq.mp hs))
  rw [Bool.not_eq_false']
  exact Table.any_eq_true.mpr ⟨e, he, hproved⟩

theorem Sound.invalidRevision (h : Sound p l) : l.invalidRevision = false := by
  unfold Ledger.invalidRevision
  rw [Table.any_eq_false]
  intro d hd
  rcases h.previous_eq hd with ⟨hnone, hrev⟩ | ⟨x, hx, hprevious, hprev, hidentity, hrev⟩
  · rw [hnone, hrev]
    rfl
  · have hkey : x.identity_key = d.identity_key := by
      rw [← (key_of_refers h.evidence (h.refers x hx)).2, ← (key_of_refers h.evidence (h.refers d hd)).2, hidentity]
    rw [hprev, hprevious]
    simp [hrev, hkey, hidentity]

theorem Sound.invalidTransition (h : Sound p l) : l.invalidTransition = false := by
  unfold Ledger.invalidTransition
  rw [Table.any_eq_false]
  intro d hd
  rw [Bool.and_eq_false_imp]
  intro ha
  obtain ⟨x, hx, hw, -⟩ := h.withdraws d hd (beq_iff_eq.mp ha)
  obtain ⟨hprev, hkey, hstatus, hevidence⟩ := withdraws_iff.mp hw
  have hprevious : l.previous d = some x := by
    unfold Ledger.previous
    rw [hprev]
    exact Table.get_key hx
  rw [hprevious]
  simp [hstatus, hevidence, hkey]

theorem projectionMismatch_eq (l : Ledger) : l.projectionMismatch = false := by
  have hexpected : l.expected = l.view := rfl
  unfold Ledger.projectionMismatch
  rw [hexpected, Bool.or_self, List.any_eq_false]
  intro d hd
  rw [Bool.not_eq_true, Bool.not_eq_false', List.contains_iff_mem]
  exact hd

/-- **Readiness finds nothing wrong.** -/
theorem Sound.readiness (h : Sound p l) : readiness p l = .ok () := by
  obtain ⟨es, hes⟩ : ∃ es, each (auditEvidence p)
      (l.evidence.rows.mergeSort (fun a b => !before b.evidence_id a.evidence_id)) = .ok es :=
    each_total (fun e he => ⟨(), h.evidence e (List.mem_mergeSort.mp he)⟩)
  obtain ⟨ds, hds⟩ : ∃ ds, each (Capability.auditDecision p)
      (l.decisions.rows.mergeSort (fun a b => !before b.decision_id a.decision_id)) = .ok ds :=
    each_total (fun d hd => ⟨(), h.auditDecision (List.mem_mergeSort.mp hd)⟩)
  unfold Capability.readiness
  rw [hes, ok_bind, hds, ok_bind, require_pos h.verifiedWithoutEvidence, ok_bind, require_pos h.invalidRevision, ok_bind,
    require_pos h.invalidTransition, ok_bind, require_pos (projectionMismatch_eq l)]

/-! ## `snapshot` -/

/-- the evidence of the decisions that are shown is shown -/
theorem Sound.evidenceFor (h : Sound p l) {ds : List DecisionRow} {limit : Nat} (hds : ∀ d ∈ ds, d ∈ l.decisions) :
    ∀ d ∈ ds, ∃ e ∈ l.evidenceFor ds limit, d.refersTo e = true := by
  intro d hd
  obtain ⟨e, he, hrefers⟩ := h.refers d (hds d hd)
  have hid := (refersTo_iff.mp hrefers).1
  unfold Ledger.evidenceFor
  by_cases hincluded : d.evidence_id ∈ ((l.evidence.rows.mergeSort byImport).take limit).map (·.evidence_id)
  · obtain ⟨e', he', hid'⟩ := List.mem_map.mp hincluded
    have hmem : e' ∈ l.evidence := List.mem_mergeSort.mp (List.mem_of_mem_take he')
    have hee : e' = e := Table.eq_of_key hmem he (hid'.trans hid.symm)
    exact ⟨e', List.mem_append_left _ he', by rw [hee]; exact hrefers⟩
  · refine ⟨e, List.mem_append_right _ (Table.mem_filter.mpr ⟨he, ?_⟩), hrefers⟩
    rw [List.contains_iff_mem, List.mem_filter, hid, Bool.not_eq_true', List.contains_eq_mem, decide_eq_false_iff_not]
    exact ⟨List.mem_map_of_mem hd, hincluded⟩

/-- **A snapshot shows the evidence of every decision that it shows.** -/
theorem Sound.snapshot (h : Sound p l) {limit : Numeral} {s : Snapshot} (hs : snapshot limit l = .ok s) :
    ∀ d ∈ s.decisions, ∃ e ∈ s.evidence, d.refersTo e = true := by
  simp only [Capability.snapshot, bind_eq_ok, pure_eq_ok] at hs
  obtain ⟨n, -, rfl⟩ := hs
  intro d hd
  have hview : ∀ d ∈ (l.view.mergeSort byDecision).take n, d ∈ l.decisions := fun d hd =>
    (mem_view.mp (List.mem_mergeSort.mp (List.mem_of_mem_take hd))).1
  obtain ⟨e, he, hrefers⟩ := h.evidenceFor hview d hd
  exact ⟨e, List.mem_mergeSort.mpr he, hrefers⟩

/-! ## rows stay -/

/-- rows are only appended -/
structure Grows (l l' : Ledger) : Prop where
  evidence : l.evidence.rows <+: l'.evidence.rows
  decisions : l.decisions.rows <+: l'.decisions.rows

theorem Grows.refl (l : Ledger) : Grows l l := ⟨List.prefix_refl _, List.prefix_refl _⟩

theorem Grows.trans {l l' l'' : Ledger} (h : Grows l l') (h' : Grows l' l'') : Grows l l'' :=
  ⟨h.evidence.trans h'.evidence, h.decisions.trans h'.decisions⟩

theorem Grows.change (hc : LedgerChange p l l') : Grows l l' := by
  cases hc with
  | nothing => exact .refl l
  | evidence hd he hnew =>
    exact ⟨he ▸ List.prefix_append _ _, hd ▸ List.prefix_refl _⟩
  | decision he hd hfits =>
    exact ⟨he ▸ List.prefix_refl _, hd ▸ List.prefix_append _ _⟩

theorem Grows.mem (h : Grows l l') {d : DecisionRow} (hd : d ∈ l.decisions) : d ∈ l'.decisions := h.decisions.subset hd

/-- a decision that is not current stays so -/
theorem Grows.not_view (h : Grows l l') {d : DecisionRow} (hd : d ∈ l.decisions) (hn : d ∉ l.view) : d ∉ l'.view := by
  intro hview
  refine hn (mem_view.mpr ⟨hd, fun s hs => ?_⟩)
  exact (mem_view.mp hview).2 s (h.mem hs)

section
variable {stage0 : Stage0 F}

theorem step_grows {c : Call} (h : LedgerStep p stage0 l c l') : Grows l l' := by
  cases h
  exact .change (next_change (p := p) c.op c.moment l)

theorem run_grows {cs : List Call} (h : Run (LedgerStep p stage0) l cs l') : Grows l l' :=
  Run.mono (I := fun _ => True) (fun _ _ _ _ _ => trivial) Grows.refl (fun _ _ _ => Grows.trans)
    (fun _ _ _ _ hs => step_grows hs) h trivial

/-- **An approval that has ended stays ended.** -/
theorem Sound.ended (h : Sound p l') (hg : Grows l l') {a : DecisionRow} (ha : a ∈ l.decisions)
    (haction : a.action = .approve) (hn : a ∉ l.view) :
    ∀ d ∈ l'.view, d.status = .verified → d.evidence_id ≠ a.evidence_id := by
  intro d hd hs he
  have hmem := (mem_view.mp hd).1
  have hda := h.once d hmem a (hg.mem ha) (h.approve_of_status hmem hs) haction he
  subst hda
  exact hg.not_view ha hn hd

/-! ## calls -/

/-- the decision that a call made -/
theorem decided_of_created {c : DecisionCall} {m : Moment} {r : DecisionResult} (h : c.run p m l = .ok (r, l'))
    (hr : r.created = true) :
    ∃ e row, Decided c.action c.evidence_id c.expected_revision m l l' e row ∧ r = decisionFromRow row true := by
  rcases decision_ok h with ⟨-, -, d, -, -, -, hd⟩ | hdecided
  · rw [hd] at hr
    cases hr
  · exact hdecided

theorem Decided.mem {action : Action} {id : Text} {expected : Numeral} {m : Moment} {e : EvidenceRow} {row d : DecisionRow}
    (h : Decided action id expected m l l' e row) : d ∈ l'.decisions ↔ d ∈ l.decisions ∨ d = row := by
  rw [← Table.mem_rows, h.rows.2.1, List.mem_append, List.mem_singleton]
  rfl

/-- **Of two calls that expect one revision of an identity, one makes no decision.** -/
theorem expected_once {l₁ l₂ l₃ : Ledger} {c c' : DecisionCall} {m m' : Moment} {r r' : DecisionResult}
    {cs : List Call} (h₃ : Sound p l₃) (h : c.run p m l = .ok (r, l₁)) (hrun : Run (LedgerStep p stage0) l₁ cs l₂)
    (h' : c'.run p m' l₂ = .ok (r', l₃)) (hexpected : c.expected_revision = c'.expected_revision)
    (hkey : r.identity_key = r'.identity_key) : r.created = false ∨ r'.created = false := by
  by_contra hboth
  simp only [not_or, Bool.not_eq_false] at hboth
  obtain ⟨_, row, hd, rfl⟩ := decided_of_created h hboth.1
  obtain ⟨_, row', hd', rfl⟩ := decided_of_created h' hboth.2
  have hrow₂ : row ∈ l₂.decisions := (run_grows hrun).mem (hd.mem.mpr (.inr rfl))
  have hrow : row ∈ l₃.decisions := hd'.mem.mpr (.inl hrow₂)
  have hrow' : row' ∈ l₃.decisions := hd'.mem.mpr (.inr rfl)
  have hrev : row.revision = row'.revision := by
    obtain ⟨n, hn, hrev⟩ := hd.expected
    obtain ⟨n', hn', hrev'⟩ := hd'.expected
    rw [hn, hn'] at hexpected
    have hnn : (n : Int) = n' := Numeral.int.inj hexpected
    rw [hrev, hrev']
    omega
  have heq : row = row' := h₃.linear.eq_of_rev hrow hrow' (h₃.keyed row hrow row' hrow' hkey) hrev
  exact hd'.rows.2.2.fresh row hrow₂ (by rw [heq])

/-- **A new approval is for the product that runs.** -/
theorem approval_current {c : Call} (hs : LedgerStep p stage0 l c l') {d : DecisionRow} (hd : d ∈ l'.decisions)
    (hn : d ∉ l.decisions) (ha : d.action = .approve) :
    c.moment.before = .ok d.product_version ∧ c.moment.after = .ok d.product_version := by
  obtain ⟨op, m⟩ := c
  cases hs
  rcases (ledgerMachine p stage0).next_cases op m l with hsame | ⟨b, hexec⟩
  · rw [hsame] at hd
    exact absurd hd hn
  · cases op with
    | importCsvBundle manifest results environment =>
      rw [(importCsvBundle_ok hexec).1] at hd
      exact absurd hd hn
    | decision c =>
      rcases decision_ok hexec with ⟨hsame, -⟩ | ⟨e, row, hdecided, -⟩
      · rw [hsame] at hd
        exact absurd hd hn
      · rcases hdecided.mem.mp hd with hd | rfl
        · exact absurd hd hn
        · obtain ⟨_, hmade⟩ := hdecided.made
          have haction : c.action = .approve := by
            rw [hmade] at ha
            exact ha
          rw [hmade]
          exact (hdecided.approve haction).2

/-- **A revocation ends the approval of the evidence that it names.** -/
theorem revoke_ends {c : DecisionCall} {m : Moment} {r : DecisionResult} (h : Sound p l) (hc : c.action = .revoke)
    (hr : c.run p m l = .ok (r, l')) :
    ∃ a ∈ l.view, a.status = .verified ∧ a.evidence_id = c.evidence_id ∧
      ∃ d ∈ l'.view, r = decisionFromRow d true ∧ d.action = .revoke ∧ d.evidence_id = c.evidence_id ∧
        d.supersedes_decision_id = some a.decision_id ∧ a ∉ l'.view := by
  rcases decision_ok hr with ⟨-, happrove, -⟩ | ⟨e, row, hdecided, hrow⟩
  · rw [hc] at happrove
    cases happrove
  · obtain ⟨a, hhead, hstatus, hevidence⟩ := hdecided.revoke hc
    obtain ⟨reason, hmade⟩ := hdecided.made
    obtain ⟨hview, -⟩ := head_some hhead
    have hprev : row.supersedes_decision_id = some a.decision_id := by
      rw [hmade]
      show (l.head e.identity_key).map (·.decision_id) = _
      rw [hhead]
      rfl
    have hmem : row ∈ l'.decisions := hdecided.mem.mpr (.inr rfl)
    refine ⟨a, hview, hstatus, hevidence, row, ?_, hrow, ?_, ?_, hprev, ?_⟩
    · rw [mem_view]
      refine ⟨hmem, fun s hs he => ?_⟩
      rcases hdecided.mem.mp hs with hs | rfl
      · -- an old decision supersedes an old one
        rcases h.previous_eq hs with ⟨hnone, -⟩ | ⟨x, hx, -, hx', -, -⟩
        · rw [hnone] at he
          cases he
        · rw [hx'] at he
          exact hdecided.rows.2.2.fresh x hx (Option.some.inj he)
      · rw [hprev] at he
        exact hdecided.rows.2.2.fresh a (mem_view.mp hview).1 (Option.some.inj he)
    · rw [hmade, ← hc]
      rfl
    · rw [hmade]
      exact hdecided.evidence.2
    · intro ha
      exact (mem_view.mp ha).2 row hmem hprev

/-- **The decisions of an identity are one chain, and an approval that has ended stays so.** -/
theorem capability_ledger (p : Product F) (stage0 : Stage0 F) :
    (∀ l, LedgerReach p stage0 l →
      (∀ i, decisionLink.Ordered (l.chain i)) ∧
      (∀ d, d ∈ l.view ↔ (l.chain d.toIdentity).getLast? = some d) ∧
      (∀ d ∈ l.decisions, d.action = .approve →
        ∃ e ∈ l.evidence, e.evidence_id = d.evidence_id ∧ e.toIdentity = d.toIdentity ∧ e.verdict = .verified) ∧
      (∀ d ∈ l.decisions, ∀ d' ∈ l.decisions, d.action = .approve → d'.action = .approve →
        d.evidence_id = d'.evidence_id → d = d') ∧
      (∀ d ∈ l.decisions, d.action = .revoke → ∃ a ∈ l.decisions, d.supersedes_decision_id = some a.decision_id ∧
        a.action = .approve ∧ a.evidence_id = d.evidence_id ∧ a.toIdentity = d.toIdentity) ∧
      (∀ limit s, snapshot limit l = .ok s → ∀ d ∈ s.decisions, ∃ e ∈ s.evidence, d.refersTo e = true) ∧
      readiness p l = .ok ()) ∧
    (∀ l c l', LedgerReach p stage0 l → LedgerStep p stage0 l c l' → ∀ d ∈ l'.decisions, d ∉ l.decisions →
      d.action = .approve → c.moment.before = .ok d.product_version ∧ c.moment.after = .ok d.product_version) ∧
    (∀ l l' cs, LedgerReach p stage0 l → Run (LedgerStep p stage0) l cs l' →
      l.evidence.rows <+: l'.evidence.rows ∧ l.decisions.rows <+: l'.decisions.rows ∧
      ∀ a ∈ l.decisions, a.action = .approve → a ∉ l.view →
        ∀ d ∈ l'.view, d.status = .verified → d.evidence_id ≠ a.evidence_id) ∧
    (∀ (l l' : Ledger) (m : Moment) (c : DecisionCall) r, LedgerReach p stage0 l → c.action = .revoke → c.run p m l = .ok (r, l') →
      ∃ a ∈ l.view, a.status = .verified ∧ a.evidence_id = c.evidence_id ∧
        ∃ d ∈ l'.view, r = decisionFromRow d true ∧ d.action = .revoke ∧ d.evidence_id = c.evidence_id ∧
          d.supersedes_decision_id = some a.decision_id ∧ a ∉ l'.view) ∧
    (∀ (l l₁ l₂ l₃ : Ledger) (m m' : Moment) (c c' : DecisionCall) (r r' : DecisionResult) (cs : List Call),
      LedgerReach p stage0 l → c.run p m l = .ok (r, l₁) → Run (LedgerStep p stage0) l₁ cs l₂ →
      c'.run p m' l₂ = .ok (r', l₃) → c.expected_revision = c'.expected_revision →
      r.identity_key = r'.identity_key → r.created = false ∨ r'.created = false) := by
  have hnext : ∀ {l l' : Ledger} {c : DecisionCall} {m : Moment} {r : DecisionResult},
      c.run p m l = .ok (r, l') → LedgerStep p stage0 l ⟨.decision c, m⟩ l' := by
    intro l l' c m r hr
    have hexec : (ledgerMachine p stage0).exec (.decision c) m l = .ok (r, l') := hr
    have hstep : LedgerStep p stage0 l ⟨.decision c, m⟩ _ := .call l ⟨.decision c, m⟩
    rwa [show (ledgerMachine p stage0).next _ _ l = l' from Machine.next_ok hexec] at hstep
  refine ⟨?_, ?_, ?_, ?_, ?_⟩
  · intro l hl
    have h : Sound p l := reach_sound hl
    refine ⟨h.linear.chains, fun d => ?_, ?_, h.once, ?_, fun limit s hs => h.snapshot hs, h.readiness⟩
    · rw [mem_view_current]
      exact h.linear.current_iff
    · intro d hd ha
      obtain ⟨e, he, hproved⟩ := h.proved d hd ha
      obtain ⟨hrefers, -, -, hverdict⟩ := provedBy_iff.mp hproved
      obtain ⟨hid, -, hidentity⟩ := refersTo_iff.mp hrefers
      exact ⟨e, he, hid, hidentity, hverdict⟩
    · intro d hd ha
      obtain ⟨x, hx, hw, hidentity⟩ := h.withdraws d hd ha
      obtain ⟨hprev, -, hstatus, hevidence⟩ := withdraws_iff.mp hw
      exact ⟨x, hx, hprev, h.approve_of_status hx hstatus, hevidence, hidentity⟩
  · intro l c l' _ hs d hd hn ha
    exact approval_current hs hd hn ha
  · intro l l' cs hl hrun
    have hg := run_grows hrun
    refine ⟨hg.evidence, hg.decisions, fun a ha haction hn => ?_⟩
    exact (reach_sound (hl.run hrun)).ended hg ha haction hn
  · intro l l' m c r hl hc hr
    exact revoke_ends (reach_sound hl) hc hr
  · intro l l₁ l₂ l₃ m m' c c' r r' cs hl h hrun h' hexpected hkey
    have hl₃ := ((hl.step (hnext h)).run hrun).step (hnext h')
    exact expected_once (reach_sound hl₃) h hrun h' hexpected hkey

end

end

/-! ## an approval that is withdrawn -/

abbrev Rate := {s : Text // isFloatText s = true}

def ytDlp : Route := ⟨"x".toList, "x_post".toList, "download".toList, "yt_dlp".toList⟩

/-- SHA-256 of the three texts that are hashed, told apart by their lengths -/
def routeDigest (s : Text) : Text :=
  if s.length = 4 then "74234e98afe7498fb5daf1f36ac2d78acc339464f950703b8c019892f982b90b".toList
  else if s.length = 158 then "b99d83688a7be070ba909c30b4b638176ce26773a4b5d3a17431006c9dac6b9b".toList
  else if s.length = 581 then "c4aec349daad5bb9fba982dbfbf7339d36ec7e1dd665b472f3857c4f0688db57".toList
  else []

def routeProduct : Product Rate where
  floats := Floats.texts
  sha256 := routeDigest
  sha256_bytes := fun _ => "e3b0c44298fc1c149afbf4c8996fb92427ae41e4649b934ca495991b7852b855".toList
  capabilities := [⟨ytDlp, .candidate⟩]
  json_each := fun _ => some [some 1, some 1, some 1]

/-- the product with its digests as numbers, which the kernel reads faster than texts -/
theorem routeProduct_eq : routeProduct = { routeProduct with
    sha256 := fun s =>
      if s.length = 4 then Nat.toDigits 16 0x74234e98afe7498fb5daf1f36ac2d78acc339464f950703b8c019892f982b90b
      else if s.length = 158 then Nat.toDigits 16 0xb99d83688a7be070ba909c30b4b638176ce26773a4b5d3a17431006c9dac6b9b
      else if s.length = 581 then Nat.toDigits 16 0xc4aec349daad5bb9fba982dbfbf7339d36ec7e1dd665b472f3857c4f0688db57
      else []
    sha256_bytes := fun _ =>
      Nat.toDigits 16 0xe3b0c44298fc1c149afbf4c8996fb92427ae41e4649b934ca495991b7852b855 } := by
  have hbundle : Nat.toDigits 16 0x74234e98afe7498fb5daf1f36ac2d78acc339464f950703b8c019892f982b90b =
      "74234e98afe7498fb5daf1f36ac2d78acc339464f950703b8c019892f982b90b".toList := by
    rw [String.toList_ofList]
    decide +kernel
  have hkey : Nat.toDigits 16 0xb99d83688a7be070ba909c30b4b638176ce26773a4b5d3a17431006c9dac6b9b =
      "b99d83688a7be070ba909c30b4b638176ce26773a4b5d3a17431006c9dac6b9b".toList := by
    rw [String.toList_ofList]
    decide +kernel
  have hevidence : Nat.toDigits 16 0xc4aec349daad5bb9fba982dbfbf7339d36ec7e1dd665b472f3857c4f0688db57 =
      "c4aec349daad5bb9fba982dbfbf7339d36ec7e1dd665b472f3857c4f0688db57".toList := by
    rw [String.toList_ofList]
    decide +kernel
  have hempty : Nat.toDigits 16 0xe3b0c44298fc1c149afbf4c8996fb92427ae41e4649b934ca495991b7852b855 =
      "e3b0c44298fc1c149afbf4c8996fb92427ae41e4649b934ca495991b7852b855".toList := by
    rw [String.toList_ofList]
    decide +kernel
  rw [hbundle, hkey, hevidence, hempty]
  rfl

/-- ten videos and a private one, found three times -/
def routeItem : CapabilityEvidence Rate where
  toIdentity := ⟨ytDlp, "2026.1".toList, "desktop".toList, "1.0".toList⟩
  positive_samples := 10
  negative_samples := 1
  complete_runs := 3
  last_three_positive_rates := List.replicate 3 ⟨"1.0".toList, by decide⟩
  last_three_negative_rates := List.replicate 3 ⟨"1.0".toList, by decide⟩
  status := .verified

def routeStage0 : Stage0 Rate where
  Sample := Unit
  Result := Unit
  environment := fun _ => "desktop".toList
  product_version := fun _ => "1.0".toList
  parse_validation_manifest := fun _ => .ok [()]
  parse_validation_results := fun _ => .ok [()]
  evaluate_capabilities := fun _ _ => .ok [routeItem]
  canonical_private_bundle := fun _ _ => .null
  evaluated_at := fun _ _ _ => .ok "2026-01-01T00:00:00Z".toList

def routeId (n : Char) : Text := "00000000-0000-4000-8000-00000000000".toList ++ [n]

def routeMoment (n : Char) : Moment :=
  ⟨.ok "1.0".toList, .ok "1.0".toList, fun _ => routeId n, "2026-01-02T00:00:00Z".toList⟩

/-- evidence is imported, approved and withdrawn -/
def routeCalls : List Call :=
  [⟨.importCsvBundle .empty .empty "desktop".toList, routeMoment '1'⟩,
    ⟨.decision ⟨.approve, routeId '1', .int 0, "stage0-reviewed".toList⟩, routeMoment '2'⟩,
    ⟨.decision ⟨.revoke, routeId '1', .int 1, "regression".toList⟩, routeMoment '3'⟩]

def routeLedger : Ledger :=
  routeCalls.foldl (fun l c => (ledgerMachine routeProduct routeStage0).next c.op c.moment l) .empty

theorem routeLedger_decisions : routeLedger.decisions.rows.map (fun d => (d.action, d.revision, d.evidence_id)) =
    [(.approve, 1, routeId '1'), (.revoke, 2, routeId '1')] := by
  unfold routeLedger
  rw [routeProduct_eq]
  decide +kernel

theorem routeLedger_reach : LedgerReach routeProduct routeStage0 routeLedger := reach_calls (.init rfl) routeCalls

theorem capability_ledger_withdrawn : readiness routeProduct routeLedger = .ok () ∧
    (∀ i, decisionLink.Ordered (routeLedger.chain i)) ∧
    (∀ d, d ∈ routeLedger.view ↔ (routeLedger.chain d.toIdentity).getLast? = some d) ∧
    routeLedger.decisions.rows.map (fun d => (d.action, d.revision, d.evidence_id)) =
      [(.approve, 1, routeId '1'), (.revoke, 2, routeId '1')] := by
  obtain ⟨h, -⟩ := capability_ledger routeProduct routeStage0
  obtain ⟨hchains, hview, -, -, -, -, hready⟩ := h _ routeLedger_reach
  exact ⟨hready, hchains, hview, routeLedger_decisions⟩

end OpenFlame.Capability
