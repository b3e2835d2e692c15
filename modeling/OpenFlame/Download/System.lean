import OpenFlame.Base.Runs
import OpenFlame.Download.Recovery
import OpenFlame.Download.Discovery
import OpenFlame.Download.Batch

/-!
# The download store and its clients

`World`   the store, and what lives outside it: the files that attempts staged, the recovery claims
          that were handed out, the calls of the cleanup callback so far, and the attempts whose worker
          died while it finished
`Label`   one transaction of one client, or one call of a callback outside any transaction
`World.apply`, `World.allows`: what it does, and what its caller or `uuid4` promises

A transaction that raises leaves the store as it is, so only those that return are steps.  A crash is
a client that takes no further step; a crash inside a `finish..` transaction, after some of its
cleanup calls, is the step `finishAborted`.

`World.run` computes a run.
`World.apply_tx`: **every step is a chain of moves, or starts a new generation and then is one, or
writes the claim gate.**
`World.OK` holds in every reachable world.
-/

set_option linter.all false

namespace OpenFlame.Download
open Guard TransSys

/-! ## finishing an attempt -/

/-- the ways a worker ends its attempt -/
inductive FinishOp where
  | finalize (assets : List StagedAsset) (publish_staged : StagedAsset → Txn CommittedAsset) (now : Clock)
  | successWithAsset (asset : CommittedAsset) (now : Clock) (remove_pending_asset : Bool)
  | success (now : Clock) (remove_pending_asset : Bool)
  | failure (error_code : ErrorCode) (diagnostic : String) (now : Clock) (retry_at : Option Clock)
      (exit_code : Option Int) (remove_pending_asset : Bool)
  | canceled (now : Clock) (remove_pending_asset : Bool)

def FinishOp.run (db : DB) (lease : JobLease) : FinishOp → Txn Finish
  | .finalize assets publish_staged now => finalizeAssetCommitIntents db lease assets publish_staged now
  | .successWithAsset asset now remove => finishSuccessWithAsset db lease asset now remove
  | .success now remove => finishSuccess db lease now remove
  | .failure error_code diagnostic now retry_at exit_code remove =>
    finishFailure db lease error_code diagnostic now retry_at exit_code remove
  | .canceled now remove => finishCanceled db lease now remove

/-- the assets it registers when it succeeds -/
def FinishOp.assets : FinishOp → List Id
  | .finalize assets _ _ => assets.map StagedAsset.asset_id
  | .successWithAsset asset _ _ => [asset.asset_id]
  | .success _ _ | .failure _ _ _ _ _ _ | .canceled _ _ => []

theorem FinishOp.run_spec (may : Id → Id → Prop) {db : DB} {lease : JobLease} {op : FinishOp} {r : Finish}
    (hinv : db.LeaseOK) (hmay : ∀ a ∈ op.assets, may a lease.attempt_id) (h : op.run db lease = .ok r) :
    Finished may db lease r := by
  cases op with
  | finalize assets publish now =>
    exact (finalizeAssetCommitIntents_spec hinv (fun a ha => hmay _ (List.mem_map_of_mem ha)) h).1
  | successWithAsset asset now remove =>
    exact finishSuccessWithAsset_spec hinv (hmay _ (List.mem_singleton_self _)) h
  | success now remove => exact finishSuccess_spec hinv h
  | failure e d now retry_at x remove => exact finishFailure_spec hinv h
  | canceled now remove => exact (finishCanceled_spec hinv h).1

/-! ## worlds -/

structure World where
  db : DB
  staged : List (Id × Id)
  claims : List RecoveryClaim
  removed : List (Id × Id)
  aborted : List Id

def World.initial : World := ⟨.initial, [], [], [], []⟩

/-- attempt `attempt_id` staged asset `asset_id`, and its worker is still there to publish it -/
def World.may (w : World) (asset_id attempt_id : Id) : Prop :=
  (asset_id, attempt_id) ∈ w.staged ∧ attempt_id ∉ w.aborted

inductive Label where
  | createBatch (req : BatchRequest)
  | claimNext (req : ClaimRequest)
  | heartbeat (lease : JobLease) (now : Clock) (lease_seconds : Int)
  | transition (lease : JobLease) (status : JobStatus) (progress : ℚ) (now : Clock) (lease_seconds : Int)
  | recordProbe (lease : JobLease) (expected_item_count : Nat) (snapshot_hash : String) (now : Clock)
  | commitDiscovery (lease : JobLease) (req : DiscoveryRequest)
  | stageFile (asset_id attempt_id : Id)
  | recordAssetCommitIntent (lease : JobLease) (asset : StagedAsset) (now : Clock)
  | finish (lease : JobLease) (op : FinishOp)
  | finishAborted (lease : JobLease) (op : FinishOp) (calls : Nat)
  | prepareAssetIntentRecovery (req : PrepareRequest)
  | removePendingAsset (claim : RecoveryClaim)
  | releaseAssetIntentRecoveryClaims (claims : List RecoveryClaim)
  | completeAssetIntentRecoveryClaim (claim : RecoveryClaim)
  | requestCancel (job_id : Id) (now : Clock)
  | requestCancelInput (input_record_id : Id) (now : Clock)
  | requestRetry (req : RetryRequest)
  | requestRediscover (input_record_id : Id) (now : Clock)
  | resetPlatformCircuit (platform : Platform) (now : Clock)
  | register (req : RegisterRequest)
  | assign (profile_id : Id) (job_ids : List Id) (batch_id : Option Id) (now : Clock)
  | clearAssignment (job_ids : List Id) (now : Clock)
  | disable (profile_id : Id) (now : Clock)
  | prepareClaimGate (run_id worker_id : String)
  | activateClaimGate (run_id worker_id : String) (now : Clock)
  | stopClaimGate (run_id : String) (now : Clock)
  | pauseQueue (reason : ErrorCode) (now : Clock)
  | resumeQueue (now : Clock)

/-- what the caller or `uuid4` promises.  Asset ids and lease tokens are fresh; only an attempt that
staged an asset announces or publishes it, and not after it died while finishing; the callbacks of a
recovery are called for the claims it was handed. -/
def World.allows (w : World) : Label → Prop
  | .claimNext req => ∀ a ∈ w.db.attempts, a.lease_token ≠ req.lease_token
  | .stageFile asset_id _ => ∀ x ∈ w.staged, x.1 ≠ asset_id
  | .recordAssetCommitIntent _ asset _ => w.may asset.asset_id asset.attempt_id
  | .finish lease op => ∀ a ∈ op.assets, w.may a lease.attempt_id
  | .removePendingAsset claim | .completeAssetIntentRecoveryClaim claim => claim ∈ w.claims
  | .releaseAssetIntentRecoveryClaims claims => ∀ claim ∈ claims, claim ∈ w.claims
  | _ => True

instance (w : World) (asset_id attempt_id : Id) : Decidable (w.may asset_id attempt_id) :=
  inferInstanceAs (Decidable (_ ∧ _))

instance (w : World) : DecidablePred w.allows
  | .claimNext req => inferInstanceAs (Decidable (∀ a ∈ w.db.attempts.rows, a.lease_token ≠ req.lease_token))
  | .stageFile asset_id _ => inferInstanceAs (Decidable (∀ x ∈ w.staged, x.1 ≠ asset_id))
  | .recordAssetCommitIntent _ asset _ => inferInstanceAs (Decidable (w.may asset.asset_id asset.attempt_id))
  | .finish lease op => inferInstanceAs (Decidable (∀ a ∈ op.assets, w.may a lease.attempt_id))
  | .removePendingAsset claim | .completeAssetIntentRecoveryClaim claim =>
    inferInstanceAs (Decidable (claim ∈ w.claims))
  | .releaseAssetIntentRecoveryClaims claims =>
    inferInstanceAs (Decidable (∀ claim ∈ claims, claim ∈ w.claims))
  | .createBatch .. | .heartbeat .. | .transition .. | .recordProbe .. | .commitDiscovery ..
  | .finishAborted .. | .prepareAssetIntentRecovery .. | .requestCancel .. | .requestCancelInput ..
  | .requestRetry .. | .requestRediscover .. | .resetPlatformCircuit .. | .register .. | .assign ..
  | .clearAssignment .. | .disable .. | .prepareClaimGate .. | .activateClaimGate .. | .stopClaimGate ..
  | .pauseQueue .. | .resumeQueue .. => .isTrue trivial

section
variable (codec : GraphCodec)

/-- the step of a label -/
def World.apply (w : World) : Label → Txn World
  | .createBatch req => do return { w with db := ← createBatch w.db req }
  | .claimNext req => do return { w with db := (← Download.claimNext w.db req).1 }
  | .heartbeat lease now secs => do return { w with db := (← Download.heartbeat w.db lease now secs).1 }
  | .transition lease status progress now secs => do
    return { w with db := ← Download.transition w.db lease status progress now secs }
  | .recordProbe lease count hash now => do
    return { w with db := ← Download.recordProbe w.db lease count hash now }
  | .commitDiscovery lease req => do
    return { w with db := (← Download.commitDiscovery codec w.db lease req).1 }
  | .stageFile asset_id attempt_id => return { w with staged := (asset_id, attempt_id) :: w.staged }
  | .recordAssetCommitIntent lease asset now => do
    return { w with db := ← Download.recordAssetCommitIntent w.db lease asset now }
  | .finish lease op => do
    let r ← op.run w.db lease
    return { w with db := r.db, removed := w.removed ++ r.removed }
  | .finishAborted lease op calls => do
    let r ← op.run w.db lease
    return { w with
      removed := w.removed ++ r.removed.take calls
      aborted := lease.attempt_id :: w.aborted }
  | .prepareAssetIntentRecovery req => do
    let st ← Download.prepareAssetIntentRecovery w.db req
    return { w with db := st.db, claims := w.claims ++ st.claims }
  | .removePendingAsset claim =>
    return { w with removed := w.removed ++ [(claim.asset_id, claim.attempt_id)] }
  | .releaseAssetIntentRecoveryClaims claims =>
    return { w with db := Download.releaseAssetIntentRecoveryClaims w.db claims }
  | .completeAssetIntentRecoveryClaim claim => do
    return { w with db := ← Download.completeAssetIntentRecoveryClaim w.db claim }
  | .requestCancel job_id now => do return { w with db := (← Download.requestCancel w.db job_id now).1 }
  | .requestCancelInput input_record_id now => do
    return { w with db := (← Download.requestCancelInput w.db input_record_id now).1 }
  | .requestRetry req => do return { w with db := (← Download.requestRetry w.db req).1 }
  | .requestRediscover input_record_id now => do
    return { w with db := (← Download.requestRediscover w.db input_record_id now).1 }
  | .resetPlatformCircuit platform now => do
    return { w with db := (← Download.resetPlatformCircuit w.db platform now).1 }
  | .register req => do return { w with db := ← Download.register w.db req }
  | .assign profile_id job_ids batch_id now => do
    return { w with db := (← Download.assign w.db profile_id job_ids batch_id now).1 }
  | .clearAssignment job_ids now => do
    return { w with db := (← Download.clearAssignment w.db job_ids now).1 }
  | .disable profile_id now => do return { w with db := (← Download.disable w.db profile_id now).1 }
  | .prepareClaimGate run_id worker_id => do
    return { w with db := ← Download.prepareClaimGate w.db run_id worker_id }
  | .activateClaimGate run_id worker_id now => do
    return { w with db := ← Download.activateClaimGate w.db run_id worker_id now }
  | .stopClaimGate run_id now => do return { w with db := (← Download.stopClaimGate w.db run_id now).1 }
  | .pauseQueue reason now => return { w with db := Download.pauseQueue w.db reason now }
  | .resumeQueue now => return { w with db := Download.resumeQueue w.db now }

def World.Step (w : World) (l : Label) (w' : World) : Prop := w.allows l ∧ w.apply codec l = .ok w'

abbrev World.Reachable (w : World) : Prop := Reach (· = World.initial) (World.Step codec) w

/-- a run, computed -/
def World.run (w : World) : List Label → Option World
  | [] => some w
  | l :: ls =>
    if w.allows l then
      match w.apply codec l with
      | .ok w' => w'.run ls
      | .error _ => none
    else none

theorem World.run_eq_some {w w' : World} {ls : List Label} (h : w.run codec ls = some w') :
    Run (World.Step codec) w ls w' := by
  induction ls generalizing w with
  | nil =>
    cases h
    exact .nil _
  | cons l ls ih =>
    unfold World.run at h
    split at h
    · next hallow =>
      split at h
      · next w₁ happly => exact .cons ⟨hallow, happly⟩ (ih h)
      · cases h
    · cases h

/-- the world a run from the empty store ends in -/
theorem World.reachable_run {w : World} {ls : List Label} (h : World.initial.run codec ls = some w) :
    w.Reachable codec := by
  have hinit : World.initial.Reachable codec := .init rfl
  exact hinit.run (World.run_eq_some codec h)

/-! ## what a step does to the store -/

/-- the label asks for a new generation of input `k` -/
def Label.restarts (db : DB) (k : Id) : Label → Prop
  | .requestRetry req => ∃ j ∈ db.jobs, j.id = req.job_id ∧ j.status = .failed ∧ j.input_record_id = k
  | .requestRediscover input_record_id _ => input_record_id = k
  | _ => False

/-- the label writes the claim gate -/
def Label.setsGate : Label → Prop
  | .prepareClaimGate .. | .activateClaimGate .. | .stopClaimGate .. => True
  | _ => False

/-- a transaction: a chain of moves, perhaps after the start of a new generation, or a write of the
claim gate -/
def Tx (may : Id → Id → Prop) (l : Label) (db db' : DB) : Prop :=
  Chain may db.settled db'.settled ∨ (∃ k, l.restarts db k ∧ Regenerated may k db db') ∨
    l.setsGate ∧ ∃ gate, db' = { db with gate }

/-- the three invariants of the store -/
structure DB.OK (db : DB) : Prop where
  lease : db.LeaseOK
  circuit : db.CircuitOK
  aggregate : AggInv db.settled

theorem DB.OK.initial : DB.initial.OK := ⟨LeaseInv.empty, CircuitInv.empty, AggInv.initial⟩

theorem DB.OK.tx {may : Id → Id → Prop} {l : Label} {db db' : DB} (h : db.OK) (ht : Tx may l db db') :
    db'.OK := by
  rcases ht with hc | ⟨k, -, s, hr, hc⟩ | ⟨-, gate, rfl⟩
  · exact ⟨LeaseInv.chain h.lease hc, CircuitInv.chain h.circuit hc, h.aggregate.chain hc⟩
  · exact ⟨LeaseInv.chain (LeaseInv.regen h.lease hr) hc, CircuitInv.chain (CircuitInv.regen h.circuit hr) hc,
      (h.aggregate.regen hr).chain hc⟩
  · exact ⟨h.lease, h.circuit, h.aggregate.linked, h.aggregate.owned, h.aggregate.contained, h.aggregate.inputs,
      h.aggregate.batches⟩

variable {codec} {w w' : World} {l : Label}

/-- **What a step does to the store.** -/
theorem World.apply_tx (hok : w.db.OK) (h : w.Step codec l w') : Tx w.may l w.db w'.db := by
  obtain ⟨hallow, h⟩ := h
  cases l with
  | createBatch req =>
    simp only [World.apply, bind_eq_ok, pure_eq_ok] at h
    obtain ⟨db, hdb, rfl⟩ := h
    exact .inl (createBatch_chain w.may hok.aggregate hdb)
  | claimNext req =>
    simp only [World.apply, bind_eq_ok, pure_eq_ok] at h
    obtain ⟨⟨db, lease⟩, hdb, rfl⟩ := h
    exact .inl (claimNext_spec w.may hok.lease hallow hdb).chain
  | heartbeat lease now secs =>
    simp only [World.apply, bind_eq_ok, pure_eq_ok] at h
    obtain ⟨⟨db, c⟩, hdb, rfl⟩ := h
    exact .inl (heartbeat_chain hdb)
  | transition lease status progress now secs =>
    simp only [World.apply, bind_eq_ok, pure_eq_ok] at h
    obtain ⟨db, hdb, rfl⟩ := h
    exact .inl (transition_chain hdb)
  | recordProbe lease count hash now =>
    simp only [World.apply, bind_eq_ok, pure_eq_ok] at h
    obtain ⟨db, hdb, rfl⟩ := h
    exact .inl (recordProbe_chain hdb)
  | commitDiscovery lease req =>
    simp only [World.apply, bind_eq_ok, pure_eq_ok] at h
    obtain ⟨⟨db, st⟩, hdb, rfl⟩ := h
    exact .inl (commitDiscovery_chain w.may hok.lease hdb)
  | stageFile asset_id attempt_id =>
    cases h
    exact .inl .refl
  | recordAssetCommitIntent lease asset now =>
    simp only [World.apply, bind_eq_ok, pure_eq_ok] at h
    obtain ⟨db, hdb, rfl⟩ := h
    exact .inl (recordAssetCommitIntent_chain hallow hdb)
  | finish lease op =>
    simp only [World.apply, bind_eq_ok, pure_eq_ok] at h
    obtain ⟨r, hr, rfl⟩ := h
    exact .inl (FinishOp.run_spec w.may hok.lease hallow hr).ended.chain
  | finishAborted lease op calls =>
    simp only [World.apply, bind_eq_ok, pure_eq_ok] at h
    obtain ⟨r, -, rfl⟩ := h
    exact .inl .refl
  | prepareAssetIntentRecovery req =>
    simp only [World.apply, bind_eq_ok, pure_eq_ok] at h
    obtain ⟨st, hst, rfl⟩ := h
    exact .inl (prepareAssetIntentRecovery_spec w.may hok.lease hok.circuit hst).chain
  | removePendingAsset claim =>
    cases h
    exact .inl .refl
  | releaseAssetIntentRecoveryClaims claims =>
    cases h
    exact .inl (releaseAssetIntentRecoveryClaims_chain w.may claims w.db)
  | completeAssetIntentRecoveryClaim claim =>
    simp only [World.apply, bind_eq_ok, pure_eq_ok] at h
    obtain ⟨db, hdb, rfl⟩ := h
    exact .inl (completeAssetIntentRecoveryClaim_chain w.may hdb)
  | requestCancel job_id now =>
    simp only [World.apply, bind_eq_ok, pure_eq_ok] at h
    obtain ⟨⟨db, st⟩, hdb, rfl⟩ := h
    exact .inl (requestCancel_chain w.may hdb)
  | requestCancelInput input_record_id now =>
    simp only [World.apply, bind_eq_ok, pure_eq_ok] at h
    obtain ⟨⟨db, st⟩, hdb, rfl⟩ := h
    exact .inl (requestCancelInput_chain w.may hdb)
  | requestRetry req =>
    simp only [World.apply, bind_eq_ok, pure_eq_ok] at h
    obtain ⟨⟨db, r⟩, hdb, rfl⟩ := h
    rcases requestRetry_spec w.may hdb with rfl | ⟨j, hj, hid, hfailed, hregen⟩
    · exact .inl .refl
    · exact .inr (.inl ⟨j.input_record_id, ⟨j, hj, hid, hfailed, rfl⟩, hregen⟩)
  | requestRediscover input_record_id now =>
    simp only [World.apply, bind_eq_ok, pure_eq_ok] at h
    obtain ⟨⟨db, g⟩, hdb, rfl⟩ := h
    exact .inr (.inl ⟨input_record_id, rfl, requestRediscover_spec w.may hdb⟩)
  | resetPlatformCircuit platform now =>
    simp only [World.apply, bind_eq_ok, pure_eq_ok] at h
    obtain ⟨⟨db, c⟩, hdb, rfl⟩ := h
    exact .inl (resetPlatformCircuit_chain w.may hdb)
  | register req =>
    simp only [World.apply, bind_eq_ok, pure_eq_ok] at h
    obtain ⟨db, hdb, rfl⟩ := h
    exact .inl (register_chain w.may hdb)
  | assign profile_id job_ids batch_id now =>
    simp only [World.apply, bind_eq_ok, pure_eq_ok] at h
    obtain ⟨⟨db, ids⟩, hdb, rfl⟩ := h
    exact .inl (assign_chain w.may hdb)
  | clearAssignment job_ids now =>
    simp only [World.apply, bind_eq_ok, pure_eq_ok] at h
    obtain ⟨⟨db, ids⟩, hdb, rfl⟩ := h
    exact .inl (clearAssignment_chain w.may hdb)
  | disable profile_id now =>
    simp only [World.apply, bind_eq_ok, pure_eq_ok] at h
    obtain ⟨⟨db, n⟩, hdb, rfl⟩ := h
    exact .inl (disable_chain w.may hdb)
  | prepareClaimGate run_id worker_id =>
    simp only [World.apply, bind_eq_ok, pure_eq_ok] at h
    obtain ⟨db, hdb, rfl⟩ := h
    exact .inr (.inr ⟨trivial, _, prepareClaimGate_spec hdb⟩)
  | activateClaimGate run_id worker_id now =>
    simp only [World.apply, bind_eq_ok, pure_eq_ok] at h
    obtain ⟨db, hdb, rfl⟩ := h
    exact .inr (.inr ⟨trivial, _, (activateClaimGate_spec hdb).2⟩)
  | stopClaimGate run_id now =>
    simp only [World.apply, bind_eq_ok, pure_eq_ok] at h
    obtain ⟨⟨db, b⟩, hdb, rfl⟩ := h
    rcases stopClaimGate_spec hdb with ⟨-, -, hgate⟩ | ⟨-, -, rfl⟩
    · exact .inr (.inr ⟨trivial, _, hgate⟩)
    · exact .inl .refl
  | pauseQueue reason now =>
    cases h
    exact .inl (pauseQueue_chain w.may reason)
  | resumeQueue now =>
    cases h
    exact .inl (resumeQueue_chain w.may)

theorem World.ok_step (hok : w.db.OK) (h : w.Step codec l w') : w'.db.OK := hok.tx (World.apply_tx hok h)

theorem World.ok_reach (h : w.Reachable codec) : w.db.OK :=
  h.induct (fun _ hw => hw ▸ DB.OK.initial) (fun _ _ _ _ hok hs => World.ok_step hok hs)

end

end OpenFlame.Download
