import OpenFlame.Download.System

/-!
# What holds in every reachable world

`Job.LeaseIntact db j`       the lease of job `j`, its running attempt and its attempt counters
`CircuitOwnership db`        who may be active next to which circuit
`AggregateConsistent db`     the stored statuses and counters are the recomputed ones

`leaseIntact_reachable`, `circuitOwnership_reachable`, `aggregateConsistent_reachable`: **they hold in
every reachable world.**
-/

set_option linter.all false

namespace OpenFlame.Download
open Guard TransSys

/-! ## statements -/

def DB.runningCount (db : DB) (j : Job) : Nat :=
  db.attempts.count (fun a => a.job_id == j.id && a.status == .running)

structure Job.LeaseIntact (db : DB) (j : Job) : Prop where
  token : j.status.isActive = true ↔ j.lease_token ≠ none
  running : j.status.isActive = true ↔ db.runningCount j = 1
  carries : ∀ a ∈ db.attempts, a.job_id = j.id → a.status = .running →
    j.lease_token = some a.lease_token ∧ a.run_generation = j.run_generation
  idle : j.status.isActive = false → db.runningCount j = 0
  attempt_count : j.attempt_count = db.attempts.count (fun a => a.job_id == j.id)
  generation_attempt_count : j.generation_attempt_count =
    db.attempts.count (fun a => a.job_id == j.id && a.run_generation == j.run_generation)
  bounded : j.generation_attempt_count ≤ MAX_ATTEMPTS
  claimable : j.status = .queued → j.generation_attempt_count < MAX_ATTEMPTS

structure CircuitOwnership (db : DB) : Prop where
  few : db.jobs.count (fun j => j.status.isActive) ≤ MAX_ACTIVE_JOBS
  one_per_platform : ∀ p, ∀ j ∈ db.jobs, ∀ r ∈ db.jobs, j.status.isActive = true →
    r.status.isActive = true → db.platformOf j = some p → db.platformOf r = some p → j = r
  admitted : ∀ p, ∀ j ∈ db.jobs, j.status.isActive = true → db.platformOf j = some p →
    ∀ c, db.circuits.get p = some c → c.state = .closed ∨
      c.state = .halfOpen ∧ c.probe_job_id = some j.id ∧ c.probe_lease_token = j.lease_token
  probe : ∀ c ∈ db.circuits, c.state = .halfOpen → ∃ j ∈ db.jobs, j.status.isActive = true ∧
    db.platformOf j = some c.platform ∧ c.probe_job_id = some j.id ∧ c.probe_lease_token = j.lease_token
  manual : ∀ c ∈ db.circuits, c.requires_manual_reset = true → c.state = .opened
  cooldown : ∀ c ∈ db.circuits, c.state = .opened → c.requires_manual_reset = false →
    c.cooldown_until ≠ none
  /-- an open circuit can be left: a reset closes it, or the claim query admits it from some time on -/
  leaves : ∀ c ∈ db.circuits, c.state = .opened →
    (∀ now, ∃ db' row, resetPlatformCircuit db c.platform now = .ok (db', some row) ∧
      row.state = .closed ∧ db'.circuits.get c.platform = some row) ∨
    ∃ t, ∀ now_text, t ≤ now_text → c.admits now_text = true

structure AggregateConsistent (db : DB) : Prop where
  inputs : ∀ i ∈ db.inputs, (∃ j ∈ db.jobs, j.input_record_id = i.id) → i.status ≠ .duplicate →
    aggregateInputStatus (db.scopedJobs i) = some i.status
  batches : ∀ b ∈ db.batches, db.BatchOK b

/-! ## proofs -/

section
variable {db : DB}

theorem LeaseInv.runningCount_active (h : db.LeaseOK) {j : Job} (hj : j ∈ db.jobs)
    (hactive : j.status.isActive = true) : db.runningCount j = 1 := by
  obtain ⟨t, ht⟩ := Option.isSome_iff_exists.mp ((h.leased j hj).mp hactive)
  obtain ⟨a, ha, hjob, hrun, -, -⟩ := h.running j hj t ht
  refine (Table.count_eq_one (fun b hb c hc hpb hpc => ?_)).mpr ⟨a, ha, by simp [hjob, hrun]⟩
  simp only [Bool.and_eq_true, beq_iff_eq] at hpb hpc
  -- both carry the token of the job
  have htb := h.running_job hb hpb.2 hj hpb.1.symm
  have htc := h.running_job hc hpc.2 hj hpc.1.symm
  rw [h.tokens b hb c hc (Option.some.inj (htb.symm.trans htc))]

theorem LeaseInv.runningCount_idle (h : db.LeaseOK) {j : Job} (hj : j ∈ db.jobs)
    (hidle : j.status.isActive = false) : db.runningCount j = 0 := by
  refine Table.count_eq_zero.mpr (fun a ha => ?_)
  rw [Bool.eq_false_iff]
  intro hp
  simp only [Bool.and_eq_true, beq_iff_eq] at hp
  have hsome := (h.leased j hj).mpr (by rw [h.running_job ha hp.2 hj hp.1.symm]; rfl)
  rw [hidle] at hsome
  cases hsome

theorem LeaseInv.intact (h : db.LeaseOK) {j : Job} (hj : j ∈ db.jobs) : j.LeaseIntact db where
  token := by rw [h.leased j hj, Option.isSome_iff_ne_none]
  running := by
    constructor
    · exact h.runningCount_active hj
    · intro hone
      by_contra hidle
      rw [h.runningCount_idle hj (by simpa using hidle)] at hone
      cases hone
  carries := by
    intro a ha hjob hrun
    have ht := h.running_job ha hrun hj hjob.symm
    exact ⟨ht, (h.of_token hj ht ha rfl).2.2⟩
  idle := h.runningCount_idle hj
  attempt_count := h.total j hj
  generation_attempt_count := h.current j hj
  bounded := h.bounded j hj
  claimable := h.queued j hj

/-- a circuit that waits for a human is closed by the reset -/
theorem resetPlatformCircuit_closes {c : Circuit} (hc : c ∈ db.circuits) (hmanual : c.requires_manual_reset = true)
    (now : Clock) : ∃ db' row, resetPlatformCircuit db c.platform now = .ok (db', some row) ∧
      row.state = .closed ∧ db'.circuits.get c.platform = some row := by
  have hget : db.circuits.get c.platform = some c := Table.get_key hc
  refine ⟨_, .closedAt c.platform (utcText now), by simp [resetPlatformCircuit, hget, hmanual, require]; rfl,
    rfl, ?_⟩
  refine Table.get_eq_some.mpr ⟨?_, rfl⟩
  simp only [Table.mem_update]
  refine ⟨c, hc, ?_⟩
  rw [Table.upd_pos (by simp [hmanual])]
  exact Circuit.setAll_eq rfl

theorem CircuitInv.ownership (h : db.CircuitOK) : CircuitOwnership db where
  few := h.few
  one_per_platform := fun p j hj r hr haj har hpj hpr => h.alone j hj r hr haj har (hpj.trans hpr.symm)
  admitted := by
    intro p j hj hactive hp c hget
    obtain ⟨hc, hcp⟩ := Table.get_eq_some.mp hget
    rcases h.admitted j hj hactive c hc (by rw [hcp]; exact hp.symm) with hclosed | ⟨t, ht, hheld⟩
    · exact .inl hclosed
    · obtain ⟨hhalf, hpj, hpt⟩ := Circuit.heldBy_iff.mp hheld
      exact .inr ⟨hhalf, hpj, hpt.trans ht.symm⟩
  probe := by
    intro c hc hhalf
    obtain ⟨j, hj, hactive, hp, t, ht, hheld⟩ := h.probed c hc hhalf
    obtain ⟨-, hpj, hpt⟩ := Circuit.heldBy_iff.mp hheld
    exact ⟨j, hj, hactive, hp, hpj, hpt.trans ht.symm⟩
  manual := h.manual
  cooldown := fun c hc hopen hauto => Option.isSome_iff_ne_none.mp (h.cooldown c hc hopen hauto)
  leaves := by
    intro c hc hopen
    cases hmanual : c.requires_manual_reset with
    | true => exact .inl (resetPlatformCircuit_closes hc hmanual)
    | false =>
      obtain ⟨t, ht⟩ := Option.isSome_iff_exists.mp (h.cooldown c hc hopen hmanual)
      exact .inr ⟨t, fun now hnow => by simp [Circuit.admits, hopen, hmanual, ht, hnow]⟩

theorem AggInv.consistent (h : AggInv db.settled) : AggregateConsistent db where
  inputs := fun i hi hown _ => h.inputs i hi (Set.notMem_empty _) hown
  batches := fun b hb => h.batches b hb (Set.notMem_empty _)

end

/-! ## sample clients -/

/-- a codec that is as injective as the real one -/
def plainCodec : GraphCodec where
  source_id := fun parent key => parent ++ "#" ++ key
  quote := id
  snapshot_hash := fun members => ",".intercalate (members.map MemberPayload.child_source_id)
  is_control := fun c => decide (c.toNat < 32)

/-- one video, queued as job 1 of input 1 of batch 1 -/
def oneVideo : BatchRequest where
  inputs := [{
    ordinal := 1
    status := .queued
    error_code := none
    error_message := none
    duplicate_of_ordinal := none
    normalized := some ⟨"https://www.youtube.com/watch?v=a", .youtube, .youtubeVideo, some "a"⟩ }]
  route_policy_version := "v1"
  enable_x_graph_v2 := false
  credential_mode := .anonymous
  credential_defaults := none
  valid_before := true
  valid_after := true
  now := 0
  later := 0
  batch_id := 1
  input_id := id
  source_item_id := id
  job_id := id

/-- a worker claims whatever is next -/
def anyClaim (now : Clock) (attempt_id lease_token : Id) : ClaimRequest where
  worker_id := "worker"
  adapter := "yt-dlp"
  adapter_version := "1"
  now := now
  lease_seconds := 60
  supports_exact_selector := true
  skip_unsupported_graph_jobs := false
  supported_routes := none
  claim_gate_run_id := none
  perform_recovery := true
  excluded_job_ids := []
  attempt_id := attempt_id
  lease_token := lease_token

/-- the lease such a claim of job 1 returns, as far as the worker's calls read it -/
def videoLease (attempt_id lease_token : Id) : JobLease where
  job_id := 1
  attempt_id := attempt_id
  attempt_no := 1
  lease_token := lease_token
  worker_id := "worker"
  lease_expires_at := 60000
  source_item_id := 1
  canonical_url := "https://www.youtube.com/watch?v=a"
  platform := .youtube
  source_type := .youtubeVideo
  adapter := "yt-dlp"
  adapter_version := "1"
  job_kind := .download
  run_generation := 1
  selector_key := none
  expected_media_key := none
  expected_media_kind := none
  credential_ref := none

/-! ## in every reachable world -/

section
variable {codec : GraphCodec} {w : World}

/-- **Worker lease integrity.** -/
theorem leaseIntact_reachable (h : w.Reachable codec) : ∀ j ∈ w.db.jobs, j.LeaseIntact w.db :=
  fun _ hj => (World.ok_reach h).lease.intact hj

/-- a job that was just claimed -/
theorem leaseIntact_claimed : ∃ w : World, w.db.jobs.rows.map Job.status = [.probing] ∧
    ∀ j ∈ w.db.jobs, j.LeaseIntact w.db := by
  have hrun : (World.initial.run plainCodec [.createBatch oneVideo, .claimNext (anyClaim 0 11 21)]).map
      (fun w => w.db.jobs.rows.map Job.status) = some [.probing] := by decide +kernel
  obtain ⟨w, hw, hs⟩ := Option.map_eq_some_iff.mp hrun
  exact ⟨w, hs, leaseIntact_reachable (World.reachable_run plainCodec hw)⟩

/-- **Platform circuit ownership.** -/
theorem circuitOwnership_reachable (h : w.Reachable codec) : CircuitOwnership w.db :=
  (World.ok_reach h).circuit.ownership

/-- a rate limit opened the circuit, and its cooldown is over: the next claim is the probe -/
theorem circuitOwnership_probed : ∃ w : World,
    w.db.circuits.rows.map (fun c => (c.state, c.probe_job_id)) = [(.halfOpen, some 1)] ∧
      CircuitOwnership w.db := by
  have hrun : (World.initial.run plainCodec [.createBatch oneVideo, .claimNext (anyClaim 0 11 21),
      .finish (videoLease 11 21) (.failure .rateLimited "rate limited" 0 (some 0) none false),
      .claimNext (anyClaim (seconds 61) 12 22)]).map
      (fun w => w.db.circuits.rows.map (fun c => (c.state, c.probe_job_id))) =
        some [(.halfOpen, some 1)] := by decide +kernel
  obtain ⟨w, hw, hs⟩ := Option.map_eq_some_iff.mp hrun
  exact ⟨w, hs, circuitOwnership_reachable (World.reachable_run plainCodec hw)⟩

/-- **Aggregate consistency.** -/
theorem aggregateConsistent_reachable (h : w.Reachable codec) : AggregateConsistent w.db :=
  (World.ok_reach h).aggregate.consistent

/-- a batch whose only job was canceled -/
theorem aggregateConsistent_canceled : ∃ w : World,
    w.db.batches.rows.map (fun b => (b.status, b.canceled_count)) = [(.canceled, 1)] ∧
      AggregateConsistent w.db := by
  have hrun : (World.initial.run plainCodec [.createBatch oneVideo, .requestCancel 1 0]).map
      (fun w => w.db.batches.rows.map (fun b => (b.status, b.canceled_count))) =
        some [(.canceled, 1)] := by decide +kernel
  obtain ⟨w, hw, hs⟩ := Option.map_eq_some_iff.mp hrun
  exact ⟨w, hs, aggregateConsistent_reachable (World.reachable_run plainCodec hw)⟩

end

end OpenFlame.Download
