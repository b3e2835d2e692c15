import OpenFlame.Download.Claim
import OpenFlame.Download.CircuitInv

/-!
# Recovering asset intents

`prepareAssetIntentRecovery`   one transaction: every stale intent is claimed under a recovery token,
                               its attempt is fenced, its job leaves the active statuses
`releaseAssetIntentRecoveryClaims`, `completeAssetIntentRecoveryClaim`
                               the short transactions after the cleanup, which runs between them

`recoveryRows` is read once; the loop over it writes the tables the rows were joined from, so a row
may be out of date when its turn comes.

`Fenced` says what one row does, `Prepares` what the loop does.
-/

set_option linter.all false

namespace OpenFlame.Download
open Guard

/-- `recovery_token IS NULL OR recovery_expires_at IS NULL OR recovery_expires_at <= ?` -/
def Intent.available (now_text : Time) (i : Intent) : Bool :=
  i.recovery_token.isNone ||
    (match i.recovery_expires_at with
     | none => true
     | some e => decide (e ≤ now_text))

/-- an intent joined with its job and its attempt -/
structure RecoveryRow where
  intent : Intent
  job : Job
  attempt : Attempt
  registered : Bool

/-- the lease of the intent is alive: its worker may still publish -/
def RecoveryRow.exactActive (now_text : Time) (r : RecoveryRow) : Bool :=
  r.job.status == .verifying && r.job.lease_token == some r.intent.lease_token &&
    (match r.job.lease_expires_at with
     | some e => decide (now_text < e)
     | none => false) &&
    r.job.cancel_requested_at.isNone && r.attempt.status == .running &&
    r.attempt.lease_token == r.intent.lease_token

/-- `ORDER BY CASE WHEN .. THEN 1 ELSE 0 END, i.created_at, i.asset_id` -/
def RecoveryRow.before (now_text : Time) (r s : RecoveryRow) : Bool :=
  let live := fun r : RecoveryRow => !r.registered && r.exactActive now_text
  if live r == live s then r.intent.createdBefore s.intent else live s

/-- the `SELECT` of `_prepare_asset_intent_recovery_locked` -/
def DB.recoveryRows (db : DB) (now_text : Time) (limit : Nat) : List RecoveryRow :=
  (((db.intents.filter (Intent.available now_text)).filterMap (fun i =>
    match db.jobs.get i.job_id, db.attempts.get i.attempt_id with
    | some j, some a => some ⟨i, j, a, (db.media.get i.asset_id).isSome⟩
    | _, _ => none)).mergeSort (RecoveryRow.before now_text)).take limit

/-- `_AssetIntentRecoveryClaim` -/
structure RecoveryClaim where
  asset_id : Id
  job_id : Id
  attempt_id : Id
  lease_token : Id
  recovery_token : Id
  deriving DecidableEq, Repr

/-- `asset_id = ? AND job_id = ? AND attempt_id = ? AND lease_token = ?` -/
def Intent.identifies (row i : Intent) : Bool :=
  i.asset_id == row.asset_id && i.job_id == row.job_id && i.attempt_id == row.attempt_id &&
    i.lease_token == row.lease_token

/-- `job_matches_intent` -/
def RecoveryRow.matchesIntent (row : RecoveryRow) : Bool :=
  row.job.status.isActive && row.job.lease_token == some row.intent.lease_token

/-- `cancel_requested` -/
def RecoveryRow.cancelRequested (row : RecoveryRow) : Bool :=
  row.matchesIntent && row.job.cancel_requested_at.isSome

/-- `exhausted` -/
def RecoveryRow.exhausted (row : RecoveryRow) : Bool :=
  decide (MAX_ATTEMPTS ≤ row.job.generation_attempt_count)

def RecoveryRow.nextStatus (row : RecoveryRow) : JobStatus :=
  if row.cancelRequested then .canceled else if row.exhausted then .failed else .queued

/-- `id = ? AND lease_token = ? AND status IN ('probing', ..)` -/
def RecoveryRow.holds (row : RecoveryRow) (j : Job) : Bool :=
  j.id == row.intent.job_id && j.lease_token == some row.intent.lease_token && j.status.isActive

/-- what happens to the attempt and the job of a claimed intent -/
def fenceRow (now_text : Time) (db : DB) (row : RecoveryRow) : Txn DB := do
  let db := { db with
    attempts := db.attempts.update (Attempt.runningFor row.intent.job_id (some row.intent.lease_token))
      (Attempt.stopped (if row.cancelRequested then .canceled else .abandoned) now_text
        (if row.cancelRequested then none else some .workerLost)
        (if row.cancelRequested then none else some "worker asset commit was abandoned"))
      (Attempt.stopped_id _ _ _ _) }
  if row.matchesIntent then
    let db := releaseHalfOpenLocked db row.intent.job_id row.intent.lease_token now_text
    let updated := db.jobs.count row.holds
    let db := { db with
      jobs := db.jobs.update row.holds (fun j =>
        { j with
          status := row.nextStatus
          progress := 0
          final_error_code :=
            if row.cancelRequested then none else if row.exhausted then some .workerLost else none
          lease_owner := none
          lease_token := none
          heartbeat_at := none
          lease_expires_at := none
          cancel_requested_at := if row.cancelRequested then j.cancel_requested_at else none
          available_at := some now_text
          updated_at := now_text }) }
    if updated = 1 ∧ (row.cancelRequested || row.exhausted) = true then
      if row.cancelRequested then
        markInputAndRefreshBatch db row.intent.job_id .canceled none none now_text
      else
        markInputAndRefreshBatch db row.intent.job_id .failed (some .workerLost)
          (some "worker asset commit was abandoned") now_text
    else
      return db
  else
    return db

/-- the accumulators of the loop -/
structure Prepared where
  db : DB
  recovered : Nat
  blocked : Bool
  claims : List RecoveryClaim

structure PrepareRequest where
  now_text : Time
  recovery_expires_text : Time
  limit : Nat
  claim_cleanup : Bool
  /-- the `uuid4` drawn for the intent of an asset -/
  recovery_token : Id → Id

/-- one iteration of `_prepare_asset_intent_recovery_locked` -/
def prepareRow (req : PrepareRequest) (st : Prepared) (row : RecoveryRow) : Txn Prepared := do
  let db := st.db
  let open_intent := fun i => row.intent.identifies i && i.available req.now_text
  if row.registered then
    return { st with
      db := { db with intents := db.intents.delete open_intent }
      recovered := st.recovered + db.intents.count open_intent }
  else if row.exactActive req.now_text then
    return st
  else if !req.claim_cleanup then
    return { st with blocked := true }
  else
    let recovery_token := req.recovery_token row.intent.asset_id
    if db.intents.count open_intent ≠ 1 then
      return st
    else
      let db := { db with
        intents := db.intents.update open_intent (fun i =>
          { i with
            recovery_token := some recovery_token
            recovery_expires_at := some req.recovery_expires_text }) }
      let db ← fenceRow req.now_text db row
      return { st with
        db := db
        claims := st.claims ++ [⟨row.intent.asset_id, row.intent.job_id, row.intent.attempt_id,
          row.intent.lease_token, recovery_token⟩] }

/-- `_prepare_asset_intent_recovery_locked` -/
def prepareAssetIntentRecovery (db : DB) (req : PrepareRequest) : Txn Prepared :=
  thread (prepareRow req) ⟨db, 0, false, []⟩ (db.recoveryRows req.now_text req.limit)

/-- `.. AND recovery_token = ?` -/
def RecoveryClaim.owns (claim : RecoveryClaim) (i : Intent) : Bool :=
  i.asset_id == claim.asset_id && i.job_id == claim.job_id && i.attempt_id == claim.attempt_id &&
    i.lease_token == claim.lease_token && i.recovery_token == some claim.recovery_token

/-- `_release_asset_intent_recovery_claims` -/
def releaseAssetIntentRecoveryClaims (db : DB) (claims : List RecoveryClaim) : DB :=
  claims.foldl (fun db claim =>
    { db with
      intents := db.intents.update claim.owns (fun i =>
        { i with
          recovery_token := none
          recovery_expires_at := none }) }) db

/-- `_complete_asset_intent_recovery_claim` -/
def completeAssetIntentRecoveryClaim (db : DB) (claim : RecoveryClaim) : Txn DB := do
  require (db.intents.count claim.owns = 1) (.runtimeError "asset intent recovery lease was lost")
  return { db with intents := db.intents.delete claim.owns }

/-! ## what they do -/

/-- attempts only stop -/
structure Attempt.Stops (a a' : Attempt) : Prop extends Attempt.Same a a' where
  running : a'.status = .running → a.status = .running

theorem Attempt.Stops.refl (a : Attempt) : Attempt.Stops a a := ⟨.refl a, fun hr => hr⟩

theorem Attempt.Stops.trans {a b c : Attempt} (h : Attempt.Stops a b) (h' : Attempt.Stops b c) :
    Attempt.Stops a c where
  id := h'.id.trans h.id
  job := h'.job.trans h.job
  token := h'.token.trans h.token
  generation := h'.generation.trans h.generation
  running := fun hr => h.running (h'.running hr)

theorem Attempt.Closed.stops {t : Id} {a a' : Attempt} (h : Attempt.Closed t a a') : Attempt.Stops a a' := by
  obtain ⟨hs, ⟨rfl, -⟩ | ⟨-, hne⟩⟩ := h
  · exact .refl _
  · exact ⟨hs, fun hr => absurd hr hne⟩

/-- fencing a row: jobs are untouched or lose their lease, attempts only stop, the one of the row does -/
structure Fenced (may : Id → Id → Prop) (db db' : DB) (row : RecoveryRow) : Prop where
  chain : Chain may db.settled db'.settled
  jobs : ∀ j ∈ db'.jobs, j ∈ db.jobs ∨ j.lease_token = none
  attempts : db.attempts.Evolves Attempt.Stops db'.attempts
  stopped : ∀ a ∈ db'.attempts, a.job_id = row.intent.job_id → a.lease_token = row.intent.lease_token →
    a.status ≠ .running
  media : db'.media = db.media
  intents : db'.intents = db.intents

section
variable (may : Id → Id → Prop) {db db' : DB} {now : Time} {row : RecoveryRow}

theorem RecoveryRow.holds_iff {j : Job} : row.holds j = true ↔
    j.id = row.intent.job_id ∧ j.lease_token = some row.intent.lease_token ∧ j.status.isActive = true := by
  simp [holds, and_assoc]

theorem Recovered.fenced {t : Id} {j : Job} (h : Recovered may db db' j t)
    (ht : row.intent.lease_token = t) : Fenced may db db' row where
  chain := h.chain
  jobs := by
    intro r' hr'
    obtain ⟨st, hjobs⟩ := h.jobs
    obtain ⟨r, hr, ⟨-, he⟩ | ⟨-, rfl⟩⟩ := hjobs.old hr'
    · exact .inr he.token
    · exact .inl hr
  attempts := h.attempts.mono (fun _ _ hc => hc.stops)
  stopped := fun a ha _ hat => Closed.not_running h.attempts a ha (hat.trans ht)
  media := h.media
  intents := h.intents

/-- the row was current when its turn came: its job leaves the active statuses -/
theorem fenceRow_current (hinv : db.LeaseOK) (hjob : row.job.id = row.intent.job_id)
    (hmem : row.job ∈ db.jobs) (ht : row.job.lease_token = some row.intent.lease_token)
    (h : fenceRow now db row = .ok db') : Fenced may db db' row := by
  have hactive : row.job.status.isActive = true := (hinv.leased _ hmem).mpr (by rw [ht]; rfl)
  have hmatch : row.matchesIntent = true := by simp [RecoveryRow.matchesIntent, hactive, ht]
  have hholds : row.holds row.job = true := RecoveryRow.holds_iff.mpr ⟨hjob, ht, hactive⟩
  have hone : ∀ s ∈ db.jobs, row.holds s = true ↔ s.id = row.job.id := by
    intro s hs
    constructor
    · exact fun hp => (RecoveryRow.holds_iff.mp hp).1.trans hjob.symm
    · intro hid
      rw [Table.eq_of_key hs hmem hid]
      exact hholds
  have hcount : db.jobs.count row.holds = 1 :=
    (Table.count_eq_one (fun r hr s hs hpr hps =>
      ((hone r hr).mp hpr).trans ((hone s hs).mp hps).symm)).mpr ⟨row.job, hmem, hholds⟩
  have hrel := releaseHalfOpen_released db (db.platformOf row.job) row.job.id row.intent.lease_token now
  refine Recovered.fenced may (t := row.intent.lease_token) (j := row.job) ?_ rfl
  simp only [fenceRow, releaseHalfOpenLocked, hmatch, hcount, ← hjob, if_true, true_and] at h
  cases hcancel : row.cancelRequested with
  | true =>
    simp only [hcancel, Bool.true_or, if_true] at h
    refine recovered_of_writes may .canceled rfl hmem hactive ht (.inl rfl) ?_ ?_ hrel h
    · refine only_update hmem hone rfl ⟨⟨rfl, rfl, rfl, rfl, rfl, rfl, rfl⟩, ⟨rfl, rfl⟩, ?_, rfl⟩
      simp [RecoveryRow.nextStatus, hcancel]
    · exact closed_of_job hinv hmem ht rfl (Attempt.stopped_same .canceled _ _ (by decide))
  | false =>
    have hkept : row.job.cancel_requested_at = none := by
      simpa [RecoveryRow.cancelRequested, hmatch] using hcancel
    cases hexhausted : row.exhausted with
    | true =>
      simp only [hcancel, hexhausted, Bool.or_true, if_true, Bool.false_eq_true, if_false] at h
      refine recovered_of_writes may .failed rfl hmem hactive ht (.inr hkept) ?_ ?_ hrel h
      · refine only_update hmem hone rfl ⟨⟨rfl, rfl, rfl, rfl, rfl, rfl, rfl⟩, ⟨rfl, rfl⟩, ?_, rfl⟩
        simp [RecoveryRow.nextStatus, hcancel, hexhausted]
      · exact closed_of_job hinv hmem ht rfl (Attempt.stopped_same .abandoned _ _ (by decide))
    | false =>
      have hfew : row.job.generation_attempt_count < MAX_ATTEMPTS := by
        simpa [RecoveryRow.exhausted] using hexhausted
      simp only [hcancel, hexhausted, Bool.or_self, Bool.false_eq_true, if_false, pure_eq_ok] at h
      refine recovered_requeued may hmem hactive ht hfew hkept ?_ ?_ hrel h
      · refine only_update hmem hone rfl ⟨⟨rfl, rfl, rfl, rfl, rfl, rfl, rfl⟩, ⟨rfl, rfl⟩, ?_, rfl⟩
        simp [RecoveryRow.nextStatus, hcancel, hexhausted]
      · exact closed_of_job hinv hmem ht rfl (Attempt.stopped_same .abandoned _ _ (by decide))

/-- the row was out of date when its turn came: nothing is left to do -/
theorem fenceRow_stale (hinv : db.LeaseOK) (hcirc : db.CircuitOK)
    (hgone : ∀ j ∈ db.jobs, j.id = row.intent.job_id → j.lease_token ≠ some row.intent.lease_token)
    (h : fenceRow now db row = .ok db') : db' = db := by
  have hattempts : ∀ a ∈ db.attempts,
      a.runningFor row.intent.job_id (some row.intent.lease_token) = false := by
    intro a ha
    rw [Bool.eq_false_iff]
    intro hp
    obtain ⟨hjob, hat, hrun⟩ := Attempt.runningFor_iff.mp hp
    obtain ⟨j, hj, hid, ht⟩ := hinv.owned a ha hrun
    exact hgone j hj (hid.trans hjob) (ht.trans (congrArg some hat))
  have hcircuits : ∀ c ∈ db.circuits, c.heldBy row.intent.job_id row.intent.lease_token = false := by
    intro c hc
    rw [Bool.eq_false_iff]
    intro hp
    obtain ⟨hhalf, hpj, hpt⟩ := Circuit.heldBy_iff.mp hp
    obtain ⟨j, hj, -, -, t, ht, hheld⟩ := hcirc.probed c hc hhalf
    obtain ⟨-, hpj', hpt'⟩ := Circuit.heldBy_iff.mp hheld
    refine hgone j hj (Option.some.inj (hpj'.symm.trans hpj)) ?_
    rw [ht, ← hpt', hpt]
  have hjobs : ∀ j ∈ db.jobs, row.holds j = false := by
    intro j hj
    rw [Bool.eq_false_iff]
    intro hp
    obtain ⟨hid, ht, -⟩ := RecoveryRow.holds_iff.mp hp
    exact hgone j hj hid ht
  have hcount : db.jobs.count row.holds = 0 := Table.count_eq_zero.mpr hjobs
  simp only [fenceRow, releaseHalfOpenLocked, Table.update_eq_self hattempts,
    Table.update_eq_self hcircuits, Table.update_eq_self hjobs, hcount, Nat.zero_ne_one, false_and,
    if_false] at h
  split at h <;> exact (pure_eq_ok.mp h).symm

/-- what the loop has done so far, `db` being the store it started in -/
structure Prepares (may : Id → Id → Prop) (db : DB) (st : Prepared) : Prop where
  chain : Chain may db.settled st.db.settled
  jobs : ∀ j ∈ st.db.jobs, j ∈ db.jobs ∨ j.lease_token = none
  attempts : db.attempts.Evolves Attempt.Stops st.db.attempts
  media : st.db.media = db.media
  claims : ∀ c ∈ st.claims, ∃ i ∈ db.intents, i.asset_id = c.asset_id ∧ i.attempt_id = c.attempt_id ∧
    (∀ m ∈ db.media, m.id ≠ c.asset_id) ∧ ∀ a ∈ st.db.attempts, a.job_id = i.job_id →
      a.lease_token = i.lease_token → a.status ≠ .running

theorem Prepares.start (db : DB) : Prepares may db ⟨db, 0, false, []⟩ where
  chain := .refl
  jobs := fun _ hj => .inl hj
  attempts := Table.Evolves.refl (fun a _ => .refl a)
  media := rfl
  claims := fun _ hc => absurd hc List.not_mem_nil

theorem mem_recoveryRows {limit : Nat} (h : row ∈ db.recoveryRows now limit) :
    row.intent ∈ db.intents ∧ row.job ∈ db.jobs ∧ row.job.id = row.intent.job_id ∧
      row.registered = (db.media.get row.intent.asset_id).isSome := by
  obtain ⟨i, hi, hrow⟩ := List.mem_filterMap.mp (List.mem_mergeSort.mp (List.mem_of_mem_take h))
  split at hrow
  · next j a hj ha =>
    cases hrow
    obtain ⟨hjmem, hid⟩ := Table.get_eq_some.mp hj
    exact ⟨(Table.mem_filter.mp hi).1, hjmem, hid, rfl⟩
  · cases hrow

/-- a running attempt that an earlier row stopped stays stopped -/
theorem stopped_stays {as as' : Table Attempt Attempt.id} (h : as.Evolves Attempt.Stops as') {k t : Id}
    (hs : ∀ a ∈ as, a.job_id = k → a.lease_token = t → a.status ≠ .running) :
    ∀ a ∈ as', a.job_id = k → a.lease_token = t → a.status ≠ .running := by
  intro a' ha' hk ht hrun
  obtain ⟨a, ha, hstop⟩ := h.old ha'
  exact hs a ha (hstop.job.symm.trans hk) (hstop.token.symm.trans ht) (hstop.running hrun)

/-- fencing a row of the snapshot, up to date or not -/
theorem fenceRow_spec (hinv : db.LeaseOK) (hcirc : db.CircuitOK)
    (hrow : ∀ j ∈ db.jobs, j.id = row.intent.job_id → j.lease_token = some row.intent.lease_token →
      j = row.job) (h : fenceRow now db row = .ok db') : Fenced may db db' row := by
  by_cases hcur : ∃ j ∈ db.jobs, j.id = row.intent.job_id ∧ j.lease_token = some row.intent.lease_token
  · obtain ⟨j, hj, hid, ht⟩ := hcur
    obtain rfl := hrow j hj hid ht
    exact fenceRow_current may hinv hid hj ht h
  · have hgone : ∀ j ∈ db.jobs, j.id = row.intent.job_id →
        j.lease_token ≠ some row.intent.lease_token := fun j hj hid ht => hcur ⟨j, hj, hid, ht⟩
    obtain rfl := fenceRow_stale hinv hcirc hgone h
    refine ⟨.refl, fun j hj => .inl hj, Table.Evolves.refl (fun a _ => .refl a), ?_, rfl, rfl⟩
    intro a ha hjob hat hrun
    obtain ⟨j, hj, hid, ht⟩ := hinv.owned a ha hrun
    exact hgone j hj (hid.trans hjob) (ht.trans (congrArg some hat))

/-- an intent is claimed and its row fenced -/
theorem Prepares.fence {st : Prepared} (hst : Prepares may db st) (hinv : db.LeaseOK)
    (hcirc : db.CircuitOK) {limit : Nat} (hmem : row ∈ db.recoveryRows now limit)
    (hunreg : row.registered = false) {intents}
    (hintents : ∀ i' ∈ intents, ∃ i ∈ st.db.intents, Intent.Same i i') {db₁ : DB}
    (h : fenceRow now { st.db with intents } row = .ok db₁) (recovery_token : Id) :
    Prepares may db { st with
      db := db₁
      claims := st.claims ++ [⟨row.intent.asset_id, row.intent.job_id, row.intent.attempt_id,
        row.intent.lease_token, recovery_token⟩] } := by
  obtain ⟨hintent, hjob, hid, hreg⟩ := mem_recoveryRows hmem
  have hchain : Chain may db.settled { st.db with intents }.settled :=
    hst.chain.tail (Move.intents hintents)
  have hfence := fenceRow_spec may (LeaseInv.chain hinv hchain) (CircuitInv.chain hcirc hchain)
    (fun j hj hjid ht => by
      rcases hst.jobs j hj with hold | hnone
      · exact Table.eq_of_key hold hjob (hjid.trans hid.symm)
      · rw [hnone] at ht
        cases ht) h
  have hunmedia : ∀ m ∈ db.media, m.id ≠ row.intent.asset_id := by
    rw [hunreg] at hreg
    exact Table.get_eq_none.mp (Option.not_isSome_iff_eq_none.mp (by simp [← hreg]))
  constructor
  case chain => exact hchain.trans hfence.chain
  case jobs => exact fun j hj => (hfence.jobs j hj).elim (fun hj => hst.jobs j hj) .inr
  case attempts => exact hst.attempts.trans hfence.attempts (fun _ _ _ h h' => h.trans h')
  case media => exact hfence.media.trans hst.media
  case claims =>
    intro c hc
    rcases List.mem_append.mp hc with hc | hc
    · obtain ⟨i, hi, ha, hat, hm, hs⟩ := hst.claims c hc
      exact ⟨i, hi, ha, hat, hm, stopped_stays hfence.attempts hs⟩
    · rw [List.mem_singleton] at hc
      subst hc
      exact ⟨row.intent, hintent, rfl, rfl, hunmedia, hfence.stopped⟩

theorem prepareRow_spec {req : PrepareRequest} {st st' : Prepared} (hinv : db.LeaseOK)
    (hcirc : db.CircuitOK) (hmem : row ∈ db.recoveryRows req.now_text req.limit)
    (h : prepareRow req st row = .ok st') (hst : Prepares may db st) : Prepares may db st' := by
  simp only [prepareRow] at h
  split at h
  · -- already registered: the intent is only forgotten
    cases h
    exact ⟨hst.chain.tail (Move.intents (fun i hi => ⟨i, (Table.mem_delete.mp hi).1, rfl, rfl, rfl, rfl⟩)),
      hst.jobs, hst.attempts, hst.media, hst.claims⟩
  · next hunreg =>
    split at h
    · cases h
      exact hst
    · split at h
      · cases h
        exact ⟨hst.chain, hst.jobs, hst.attempts, hst.media, hst.claims⟩
      · split at h
        · cases h
          exact hst
        · obtain ⟨db₁, hfence, h⟩ := bind_eq_ok.mp h
          cases h
          refine hst.fence may hinv hcirc hmem (by simpa using hunreg) (fun i' hi' => ?_) hfence _
          obtain ⟨i, hi, rfl⟩ := Table.mem_update.mp hi'
          refine ⟨i, hi, ?_⟩
          unfold Table.upd
          split <;> exact ⟨rfl, rfl, rfl, rfl⟩

/-- **Recovery.**  The first transaction of a recovery is a chain of moves, and every claim it hands
out is for an asset that is not registered and whose attempt no longer runs. -/
theorem prepareAssetIntentRecovery_spec {req : PrepareRequest} {st : Prepared} (hinv : db.LeaseOK)
    (hcirc : db.CircuitOK) (h : prepareAssetIntentRecovery db req = .ok st) : Prepares may db st :=
  thread_induct (Prepares may db) (fun _ _ _ hmem hrow hst => prepareRow_spec may hinv hcirc hmem hrow hst)
    h (.start may db)

theorem releaseAssetIntentRecoveryClaims_chain (claims : List RecoveryClaim) : ∀ db : DB,
    Chain may db.settled (releaseAssetIntentRecoveryClaims db claims).settled := by
  induction claims with
  | nil => exact fun db => .refl
  | cons claim claims ih =>
    intro db
    refine .head (Move.intents (fun i' hi' => ?_)) (ih _)
    obtain ⟨i, hi, rfl⟩ := Table.mem_update.mp hi'
    refine ⟨i, hi, ?_⟩
    unfold Table.upd
    split <;> exact ⟨rfl, rfl, rfl, rfl⟩

theorem completeAssetIntentRecoveryClaim_chain {claim : RecoveryClaim}
    (h : completeAssetIntentRecoveryClaim db claim = .ok db') : Chain may db.settled db'.settled := by
  simp only [completeAssetIntentRecoveryClaim, bind_eq_ok, require_eq_ok, pure_eq_ok] at h
  obtain ⟨-, -, rfl⟩ := h
  exact .single (Move.intents (fun i hi => ⟨i, (Table.mem_delete.mp hi).1, rfl, rfl, rfl, rfl⟩))

end

end OpenFlame.Download
