import OpenFlame.Download.Store

/-!
# Platform circuits

`resetPlatformCircuit`         a human closes a circuit that asked for it
`recordPlatformSuccessLocked`  a success closes the circuit of its platform
`recordPlatformFailureLocked`  rate limits and broken extractors open it, other failures hand a probe
                               slot back
`releaseHalfOpenLocked`        a probe that ended without a verdict: open again, cooled down at once

`Circuit.Parked` says what a circuit looks like that no probe holds.  `DB.Released db db' p k t` is
what all four writes have in common: at most the circuits of platform `p`, or the one held by the
probe `(k, t)`, change, and they end parked.
-/

set_option linter.all false

namespace OpenFlame.Download
open Guard

def Circuit.closedAt (p : Platform) (now_text : Time) : Circuit where
  platform := p
  state := .closed
  consecutive_failures := 0
  last_error_code := none
  opened_at := none
  cooldown_until := none
  requires_manual_reset := false
  probe_job_id := none
  probe_lease_token := none
  updated_at := now_text

/-- every column but the key, as `excluded` has it -/
def Circuit.setAll (c r : Circuit) : Circuit := { c with platform := r.platform }

@[simp] theorem Circuit.setAll_platform (c r : Circuit) : (c.setAll r).platform = r.platform := rfl

theorem Circuit.setAll_eq {c r : Circuit} (h : r.platform = c.platform) : c.setAll r = c := by
  rw [Circuit.setAll, h]

/-- `reset_platform_circuit` -/
def resetPlatformCircuit (db : DB) (platform : Platform) (now : Clock) : Txn (DB × Option Circuit) := do
  let now_text := utcText now
  match db.circuits.get platform with
  | none => return (db, none)
  | some current =>
    require (current.requires_manual_reset = true)
      (.circuitResetConflict "platform circuit does not require manual reset")
    let row : Circuit := .closedAt platform now_text
    return ({ db with
      circuits := db.circuits.update
        (fun c => c.platform == platform && c.requires_manual_reset) row.setAll row.setAll_platform },
      some row)

/-- `_record_platform_success_locked` -/
def recordPlatformSuccessLocked (db : DB) (lease : JobLease) (now_text : Time) : Txn DB := do
  let job ← fetch (db.jobs.get lease.job_id) (.lostLease lease.job_id)
  let platform ← fetch (db.platformOf job) (.lostLease lease.job_id)
  let row : Circuit := .closedAt platform now_text
  return { db with circuits := db.circuits.upsert row row.setAll row.setAll_platform }

/-- the probe slot of a half-open circuit is held by lease `(job_id, lease_token)` -/
def Circuit.heldBy (job_id lease_token : Id) (c : Circuit) : Bool :=
  c.state == .halfOpen && c.probe_job_id == some job_id && c.probe_lease_token == some lease_token

def Circuit.reopened (now_text : Time) (c : Circuit) : Circuit :=
  { c with
    state := .opened
    opened_at := c.opened_at.getD now_text
    cooldown_until := some now_text
    requires_manual_reset := false
    probe_job_id := none
    probe_lease_token := none
    updated_at := now_text }

@[simp] theorem Circuit.reopened_platform (now_text : Time) (c : Circuit) :
    (c.reopened now_text).platform = c.platform := rfl

/-- `_release_half_open_locked` -/
def releaseHalfOpenLocked (db : DB) (job_id lease_token : Id) (now_text : Time) : DB :=
  { db with
    circuits := db.circuits.update (Circuit.heldBy job_id lease_token) (Circuit.reopened now_text)
      (Circuit.reopened_platform now_text) }

/-- the error codes that count against a platform -/
def ErrorCode.tracked (e : ErrorCode) : Bool :=
  (PLATFORM_FAILURE_THRESHOLDS e).isSome || e == .rateLimited

/-- what a tracked failure does to its circuit: `should_open`, `manual_reset`, `cooldown_until` -/
def failureVerdict (error_code : ErrorCode) (failures : Nat) (half_open_probe : Bool) (now : Clock)
    (retry_at : Option Clock) : Bool × Bool × Option Time :=
  match error_code with
  | .rateLimited =>
    let manual := decide (failures ≥ RATE_LIMIT_MANUAL_RESET_THRESHOLD)
    (true, manual,
      if manual then none else some (utcText (max (now + seconds 60) (retry_at.getD now))))
  | .extractorBroken =>
    let should_open := half_open_probe ||
      decide (failures ≥ (PLATFORM_FAILURE_THRESHOLDS error_code).getD 0)
    (should_open, should_open, none)
  | _ => (half_open_probe, false, none)

/-- the row a tracked failure writes -/
def Circuit.afterFailure (platform : Platform) (error_code : ErrorCode) (failures : Nat)
    (verdict : Bool × Bool × Option Time) (now_text : Time) : Circuit where
  platform := platform
  state := if verdict.1 then .opened else .closed
  consecutive_failures := failures
  last_error_code := some error_code
  opened_at := if verdict.1 then some now_text else none
  cooldown_until := verdict.2.2
  requires_manual_reset := verdict.2.1
  probe_job_id := none
  probe_lease_token := none
  updated_at := now_text

/-- `previous_count` -/
def Circuit.previousCount (c : Option Circuit) (error_code : ErrorCode) : Nat :=
  match c with
  | some c => if c.last_error_code = some error_code then c.consecutive_failures else 0
  | none => 0

/-- `_record_platform_failure_locked` -/
def recordPlatformFailureLocked (db : DB) (lease : JobLease) (error_code : ErrorCode) (now : Clock)
    (retry_at : Option Clock) : Txn DB := do
  let now_text := utcText now
  let job ← fetch (db.jobs.get lease.job_id) (.lostLease lease.job_id)
  let platform ← fetch (db.platformOf job) (.lostLease lease.job_id)
  let circuit := db.circuits.get platform
  let half_open_probe := circuit.any (Circuit.heldBy lease.job_id lease.lease_token)
  if error_code.tracked then
    let failures := Circuit.previousCount circuit error_code + 1
    let row : Circuit := .afterFailure platform error_code failures
      (failureVerdict error_code failures half_open_probe now retry_at) now_text
    return { db with circuits := db.circuits.upsert row row.setAll row.setAll_platform }
  else if half_open_probe then
    return releaseHalfOpenLocked db lease.job_id lease.lease_token now_text
  else
    return db

/-! ## what they write -/

/-- a circuit without a probe that some event can leave: closed, or open until a cooldown passes or
a human resets it -/
def Circuit.Parked (c : Circuit) : Prop :=
  c.state ≠ .halfOpen ∧ (c.requires_manual_reset = true → c.state = .opened) ∧
    (c.state = .opened → c.requires_manual_reset = false → c.cooldown_until.isSome)

theorem Circuit.closedAt_parked (p : Platform) (now : Time) : (Circuit.closedAt p now).Parked := by
  simp [Parked, closedAt]

theorem Circuit.reopened_parked (now : Time) (c : Circuit) : (c.reopened now).Parked := by
  simp [Parked, reopened]

theorem Circuit.afterFailure_parked {e : ErrorCode} (he : e.tracked = true) (p : Platform) (n : Nat)
    (half : Bool) (now : Clock) (retry_at : Option Clock) (t : Time) :
    (Circuit.afterFailure p e n (failureVerdict e n half now retry_at) t).Parked := by
  have htracked : e = .rateLimited ∨ e = .extractorBroken := by
    cases e <;> simp_all [ErrorCode.tracked, PLATFORM_FAILURE_THRESHOLDS]
  rcases htracked with rfl | rfl
  · by_cases hn : n ≥ RATE_LIMIT_MANUAL_RESET_THRESHOLD <;>
      simp [Parked, afterFailure, failureVerdict, hn]
  · rcases Bool.eq_false_or_eq_true
      (half || decide (n ≥ (PLATFORM_FAILURE_THRESHOLDS .extractorBroken).getD 0)) with h | h <;>
      simp only [Parked, afterFailure, failureVerdict, h] <;> simp

/-- `circuits'` is `circuits` after the lease `(k, t)` on a job of platform `p` has ended -/
structure Released (circuits circuits' : Table Circuit Circuit.platform) (p : Option Platform)
    (k t : Id) : Prop where
  row : ∀ c' ∈ circuits', (c' ∈ circuits ∧ (some c'.platform ≠ p ∨ c'.heldBy k t = false)) ∨
    c'.Parked ∧ (some c'.platform = p ∨ ∃ c ∈ circuits, c.platform = c'.platform ∧ c.heldBy k t = true)

theorem releaseHalfOpen_released (db : DB) (p : Option Platform) (k t : Id) (now : Time) :
    Released db.circuits (releaseHalfOpenLocked db k t now).circuits p k t := by
  constructor
  intro c' hc'
  simp only [releaseHalfOpenLocked, Table.mem_update] at hc'
  obtain ⟨c, hc, rfl⟩ := hc'
  cases h : c.heldBy k t with
  | true =>
    rw [Table.upd_pos h]
    exact .inr ⟨c.reopened_parked now, .inr ⟨c, hc, rfl, h⟩⟩
  | false =>
    rw [Table.upd_neg h]
    exact .inl ⟨hc, .inr h⟩

theorem released_upsert (circuits : Table Circuit Circuit.platform) {row : Circuit} (k t : Id)
    (h : row.Parked) :
    Released circuits (circuits.upsert row row.setAll row.setAll_platform) (some row.platform) k t := by
  have hset : ∀ s : Circuit, s.platform = row.platform → row.setAll s = row :=
    fun s hs => Circuit.setAll_eq hs
  constructor
  intro c' hc'
  rcases (Table.mem_upsert hset).mp hc' with rfl | ⟨hc, hk⟩
  · exact .inr ⟨h, .inl rfl⟩
  · exact .inl ⟨hc, .inl (fun e => hk (Option.some.inj e))⟩

section
variable {db db' : DB} {lease : JobLease}

theorem recordPlatformSuccess_spec {now : Time}
    (h : recordPlatformSuccessLocked db lease now = .ok db') :
    ∃ j ∈ db.jobs, j.id = lease.job_id ∧ ∃ circuits', db' = { db with circuits := circuits' } ∧
      Released db.circuits circuits' (db.platformOf j) lease.job_id lease.lease_token := by
  simp only [recordPlatformSuccessLocked, bind_eq_ok, fetch_eq_ok, pure_eq_ok] at h
  obtain ⟨j, hj, p, hp, rfl⟩ := h
  obtain ⟨hj, hk⟩ := Table.get_eq_some.mp hj
  refine ⟨j, hj, hk, _, rfl, ?_⟩
  rw [hp]
  exact released_upsert db.circuits _ _ (Circuit.closedAt_parked p now)

theorem recordPlatformFailure_spec {e : ErrorCode} {now : Clock} {retry_at : Option Clock}
    (h : recordPlatformFailureLocked db lease e now retry_at = .ok db') :
    ∃ j ∈ db.jobs, j.id = lease.job_id ∧ ∃ circuits', db' = { db with circuits := circuits' } ∧
      Released db.circuits circuits' (db.platformOf j) lease.job_id lease.lease_token := by
  simp only [recordPlatformFailureLocked, bind_eq_ok, fetch_eq_ok] at h
  obtain ⟨j, hj, p, hp, h⟩ := h
  obtain ⟨hj, hk⟩ := Table.get_eq_some.mp hj
  refine ⟨j, hj, hk, ?_⟩
  rw [hp]
  split at h
  · next htr =>
    cases h
    exact ⟨_, rfl, released_upsert db.circuits _ _ (Circuit.afterFailure_parked htr ..)⟩
  · split at h
    · cases h
      exact ⟨_, rfl, releaseHalfOpen_released db _ _ _ _⟩
    · next hprobe =>
      -- no probe of this lease on the platform's own circuit: nothing is written
      cases h
      refine ⟨db.circuits, rfl, ⟨fun c hc => .inl ⟨hc, ?_⟩⟩⟩
      by_cases hcp : some c.platform = some p
      · right
        have hget : db.circuits.get p = some c := Table.get_eq_some.mpr ⟨hc, Option.some.inj hcp⟩
        simpa [hget] using hprobe
      · exact .inl hcp

end

end OpenFlame.Download
