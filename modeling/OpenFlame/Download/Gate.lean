import OpenFlame.Download.Cancel

/-!
# The claim gate

One row decides which run may claim.  `prepare` closes it for everyone and names a run and a worker,
`activate` opens it for exactly that pair, `stop` closes it for its own run.

`World.gate_step`   who writes the gate, and what
`ClosedUntil`       a run gets no lease before it is prepared and activated anew

`gateLinearizes_reachable`: **after a stop, or the preparation of another run, a run is out.**
-/

set_option linter.all false

namespace OpenFlame.Download
open Guard TransSys

def ClaimGate.prepared (run_id worker_id : String) : ClaimGate := ⟨some run_id, some worker_id, false, none, none⟩

/-- the gate lets claims of a run through -/
def ClaimGate.OpenFor (gate : ClaimGate) (run_id : String) : Prop :=
  gate.run_id = some run_id ∧ gate.accepting_claims = true

theorem gate_chain {may : Id → Id → Prop} {s s' : Snap} (hc : Chain may s s') : s'.db.gate = s.db.gate := by
  induction hc with
  | refl => rfl
  | tail _ hm ih =>
    rw [← ih]
    cases hm <;> rfl

theorem gate_regenerated {may : Id → Id → Prop} {k : Id} {db db' : DB} (h : Regenerated may k db db') :
    db'.gate = db.gate := by
  obtain ⟨s, hr, hc⟩ := h
  have hs : s.db.gate = db.gate := by
    cases hr
    rfl
  exact (gate_chain hc).trans hs

section
variable {codec : GraphCodec} {w w' : World} {l : Label}

/-- **Who writes the gate.** -/
theorem World.gate_step (hok : w.db.OK) (hs : w.Step codec l w') :
    w'.db.gate = w.db.gate ∨
    (∃ r wk, l = .prepareClaimGate r wk ∧ w'.db.gate = .prepared r wk) ∨
    (∃ r wk now, l = .activateClaimGate r wk now ∧ w.db.gate = .prepared r wk ∧
      w'.db.gate = ⟨some r, some wk, true, some (utcText now), none⟩) ∨
    ∃ r now, l = .stopClaimGate r now ∧ w.db.gate.run_id = some r ∧ w'.db.gate.accepting_claims = false ∧
      w'.db.gate.stop_requested_at ≠ none := by
  cases l with
  | prepareClaimGate r wk =>
    obtain ⟨-, h⟩ := hs
    simp only [World.apply, bind_eq_ok, pure_eq_ok] at h
    obtain ⟨db, hdb, rfl⟩ := h
    exact .inr (.inl ⟨r, wk, rfl, by rw [prepareClaimGate_spec hdb]; rfl⟩)
  | activateClaimGate r wk now =>
    obtain ⟨-, h⟩ := hs
    simp only [World.apply, bind_eq_ok, pure_eq_ok] at h
    obtain ⟨db, hdb, rfl⟩ := h
    obtain ⟨hprepared, hgate⟩ := activateClaimGate_spec hdb
    exact .inr (.inr (.inl ⟨r, wk, now, rfl, hprepared, by rw [hgate]⟩))
  | stopClaimGate r now =>
    obtain ⟨-, h⟩ := hs
    simp only [World.apply, bind_eq_ok, pure_eq_ok] at h
    obtain ⟨⟨db, stopped⟩, hdb, rfl⟩ := h
    rcases stopClaimGate_spec hdb with ⟨-, hrun, hgate⟩ | ⟨-, -, rfl⟩
    · refine .inr (.inr (.inr ⟨r, now, rfl, hrun, ?_, ?_⟩))
      · show db.gate.accepting_claims = false
        rw [hgate]
      · show db.gate.stop_requested_at ≠ none
        rw [hgate]
        exact Option.some_ne_none _
    · exact .inl rfl
  | createBatch | claimNext | heartbeat | transition | recordProbe | commitDiscovery | stageFile
    | recordAssetCommitIntent | finish | finishAborted | prepareAssetIntentRecovery | removePendingAsset
    | releaseAssetIntentRecoveryClaims | completeAssetIntentRecoveryClaim | requestCancel
    | requestCancelInput | requestRetry | requestRediscover | resetPlatformCircuit | register | assign
    | clearAssignment | disable | pauseQueue | resumeQueue =>
    -- none of these is a write of the gate
    rcases World.apply_tx hok hs with hc | ⟨k, -, hr⟩ | ⟨hl, -⟩
    · exact .inl (gate_chain hc)
    · exact .inl (gate_regenerated hr)
    · exact absurd hl (fun hl => hl)

/-- a gate opens for a run only by the activation of what was prepared -/
theorem World.gate_opens (hok : w.db.OK) (hs : w.Step codec l w') {r : String} (hclosed : ¬ w.db.gate.OpenFor r) :
    ¬ w'.db.gate.OpenFor r ∨ ∃ wk now, l = .activateClaimGate r wk now ∧ w.db.gate = .prepared r wk := by
  rcases World.gate_step hok hs with hsame | ⟨r', wk, rfl, hgate⟩ | ⟨r', wk, now, rfl, hprepared, hgate⟩ |
    ⟨r', now, rfl, -, hgate, -⟩
  · rw [hsame]
    exact .inl hclosed
  · rw [hgate]
    exact .inl (fun h => Bool.false_ne_true h.2)
  · by_cases hr : r' = r
    · subst hr
      exact .inr ⟨wk, now, rfl, hprepared⟩
    · rw [hgate]
      exact .inl (fun h => hr (Option.some.inj h.1))
  · refine .inl (fun h => ?_)
    rw [h.2] at hgate
    cases hgate

/-- only a preparation makes a gate prepared -/
theorem World.gate_prepared (hok : w.db.OK) (hs : w.Step codec l w') {r wk : String}
    (hnot : w.db.gate ≠ .prepared r wk) : w'.db.gate ≠ .prepared r wk ∨ l = .prepareClaimGate r wk := by
  rcases World.gate_step hok hs with hsame | ⟨r', wk', rfl, hgate⟩ | ⟨r', wk', now, rfl, -, hgate⟩ |
    ⟨r', now, rfl, -, -, hstop⟩
  · rw [hsame]
    exact .inl hnot
  · by_cases he : w'.db.gate = .prepared r wk
    · rw [hgate, ClaimGate.prepared, ClaimGate.prepared, ClaimGate.mk.injEq] at he
      right
      rw [Option.some.inj he.1, Option.some.inj he.2.1]
    · exact .inl he
  · rw [hgate]
    exact .inl nofun
  · refine .inl (fun h => ?_)
    rw [h] at hstop
    exact hstop rfl

/-! ## runs -/

/-- run `r` gets no lease before some worker's gate is prepared and then activated for it -/
def ClosedUntil (codec : GraphCodec) (w : World) (r : String) : Prop :=
  ∀ ls w', Run (World.Step codec) w ls w' → ∀ req db lease, req.claim_gate_run_id = some r →
    claimNext w'.db req = .ok (db, some lease) → ∃ wk now ls₁ ls₂ ls₃,
      ls = ls₁ ++ .prepareClaimGate r wk :: (ls₂ ++ .activateClaimGate r wk now :: ls₃)

/-- the pair `(r, wk)` cannot be activated before it is prepared -/
def FencedUntil (codec : GraphCodec) (w : World) (r wk : String) : Prop :=
  ∀ ls w', Run (World.Step codec) w ls w' → ∀ now db, activateClaimGate w'.db r wk now = .ok db →
    .prepareClaimGate r wk ∈ ls

/-- a run up to a prepared gate contains its preparation -/
theorem prepared_split (h : w.Reachable codec) {r wk : String} {ls : List Label}
    (hrun : Run (World.Step codec) w ls w') (hnot : w.db.gate ≠ .prepared r wk)
    (hend : w'.db.gate = .prepared r wk) : ∃ ls₁ ls₂, ls = ls₁ ++ .prepareClaimGate r wk :: ls₂ := by
  obtain ⟨ls₁, l, ls₂, -, -, hls, -, -, -, rfl, -⟩ :=
    Run.unless (I := World.Reachable codec) (P := fun w => w.db.gate ≠ .prepared r wk)
      (Q := fun _ l _ => l = .prepareClaimGate r wk) (fun _ _ _ hr hs => .step hr hs)
      (fun _ _ _ hr hp hs => World.gate_prepared (World.ok_reach hr) hs hp) hrun h hnot (not_not_intro hend)
  exact ⟨ls₁, ls₂, hls⟩

/-- a lease for a run needs the gate to be open for it -/
theorem claimNext_open {db db' : DB} {req : ClaimRequest} {r : String} {lease : JobLease}
    (hr : req.claim_gate_run_id = some r) (h : claimNext db req = .ok (db', some lease)) :
    db.gate.OpenFor r := by
  simp only [claimNext, bind_eq_ok, require_eq_ok] at h
  obtain ⟨-, -, -, -, -, -, -, -, h⟩ := h
  split at h
  · cases h
  · next hopen =>
    simp only [ClaimRequest.refused, hr, Bool.or_eq_true, not_or] at hopen
    obtain ⟨⟨-, hgate⟩, -⟩ := hopen
    have hgate : db.gate.opens r req.worker_id = true := by simpa using hgate
    simp only [ClaimGate.opens, Bool.and_eq_true, beq_iff_eq] at hgate
    exact ⟨hgate.1.1.1.1, hgate.1.1.2⟩

theorem closedUntil_of_closed (h : w.Reachable codec) {r : String} (hclosed : ¬ w.db.gate.OpenFor r)
    (hfresh : ∀ wk, w.db.gate ≠ .prepared r wk) : ClosedUntil codec w r := by
  intro ls w' hrun req db lease hr hclaim
  obtain ⟨ls₁, l, ls₃, w₁, w₂, rfl, hrun₁, -, hstep, ⟨wk, now, rfl, hprepared⟩, -⟩ :=
    Run.unless (I := World.Reachable codec) (P := fun w => ¬ w.db.gate.OpenFor r)
      (Q := fun v l _ => ∃ wk now, l = .activateClaimGate r wk now ∧ v.db.gate = .prepared r wk)
      (fun _ _ _ hr hs => .step hr hs) (fun _ _ _ hr hp hs => World.gate_opens (World.ok_reach hr) hs hp)
      hrun h hclosed (not_not_intro (claimNext_open hr hclaim))
  obtain ⟨ls₀, ls₂, rfl⟩ := prepared_split h (hrun₁.weaken (fun _ _ _ hs => hs.2)) (hfresh wk) hprepared
  exact ⟨wk, now, ls₀, ls₂, ls₃, by rw [List.append_assoc, List.cons_append]⟩

theorem fencedUntil_of_other (h : w.Reachable codec) {r wk : String} (hother : w.db.gate ≠ .prepared r wk) :
    FencedUntil codec w r wk := by
  intro ls w' hrun now db hactivate
  obtain ⟨ls₁, ls₂, rfl⟩ := prepared_split h hrun hother (activateClaimGate_spec hactivate).1
  exact List.mem_append_right _ List.mem_cons_self

structure GateLinearizes (codec : GraphCodec) (w : World) : Prop where
  /-- a stop that returned `True` -/
  stop : ∀ r now db, stopClaimGate w.db r now = .ok (db, true) →
    ClosedUntil codec { w with db } r ∧ ∀ wk, FencedUntil codec { w with db } r wk
  /-- the preparation of another run, or of another worker -/
  prepare : ∀ r' wk' db, prepareClaimGate w.db r' wk' = .ok db →
    (∀ r, r ≠ r' → ClosedUntil codec { w with db } r) ∧
    ∀ r wk, (r, wk) ≠ (r', wk') → FencedUntil codec { w with db } r wk
  /-- a stop by a run that is no longer the current one -/
  stale : ∀ r now db stopped, stopClaimGate w.db r now = .ok (db, stopped) → w.db.gate.run_id ≠ some r →
    stopped = false ∧ db = w.db

/-- **The claim gate linearizes shutdown.** -/
theorem gateLinearizes_reachable (h : w.Reachable codec) : GateLinearizes codec w where
  stop := by
    intro r now db hstop
    have hreach : World.Reachable codec { w with db } := by
      refine .step (l := .stopClaimGate r now) h ⟨trivial, ?_⟩
      simp only [World.apply, hstop]
      rfl
    rcases stopClaimGate_spec hstop with ⟨-, -, rfl⟩ | ⟨hfalse, -⟩
    · refine ⟨closedUntil_of_closed hreach (fun hopen => Bool.false_ne_true hopen.2) (fun wk => ?_),
        fun wk => fencedUntil_of_other hreach ?_⟩ <;> simp [ClaimGate.prepared]
    · cases hfalse
  prepare := by
    intro r' wk' db hprepare
    have hreach : World.Reachable codec { w with db } := by
      refine .step (l := .prepareClaimGate r' wk') h ⟨trivial, ?_⟩
      simp only [World.apply, hprepare]
      rfl
    obtain rfl := prepareClaimGate_spec hprepare
    constructor
    · intro r hne
      refine closedUntil_of_closed hreach (fun hopen => Bool.false_ne_true hopen.2) (fun wk he => ?_)
      rw [ClaimGate.prepared, ClaimGate.mk.injEq] at he
      exact hne (Option.some.inj he.1).symm
    · intro r wk hne
      refine fencedUntil_of_other hreach (fun he => hne ?_)
      rw [ClaimGate.prepared, ClaimGate.mk.injEq] at he
      rw [Option.some.inj he.1, Option.some.inj he.2.1]
  stale := by
    intro r now db stopped hstop hne
    rcases stopClaimGate_spec hstop with ⟨-, hrun, -⟩ | ⟨hfalse, -, hsame⟩
    · exact absurd hrun hne
    · exact ⟨hfalse, hsame⟩

/-- a gate that a supervisor opened -/
theorem gateLinearizes_open : ∃ w : World,
    w.db.gate.OpenFor "0123456789abcdef0123456789abcdef" ∧ GateLinearizes plainCodec w := by
  have hrun : (World.initial.run plainCodec [.prepareClaimGate "0123456789abcdef0123456789abcdef" "worker",
      .activateClaimGate "0123456789abcdef0123456789abcdef" "worker" 0]).map (fun w => w.db.gate) =
        some ⟨some "0123456789abcdef0123456789abcdef", some "worker", true, some 0, none⟩ := by decide +kernel
  obtain ⟨w, hw, hs⟩ := Option.map_eq_some_iff.mp hrun
  exact ⟨w, by rw [hs]; exact ⟨rfl, rfl⟩, gateLinearizes_reachable (World.reachable_run plainCodec hw)⟩

end

end OpenFlame.Download
