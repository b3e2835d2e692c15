import Mathlib.Algebra.Ring.Nat
import Mathlib.Data.List.Sort
import OpenFlame.Download.Lease

/-!
# Intents, publication and the ways an attempt finishes

`recordAssetCommitIntent`      a staged asset is announced before it can be published
`finalizeAssetCommitIntents`   every announced asset is published and registered, the job is ready
`finishSuccess`, `finishSuccessWithAsset`, `finishFailure`, `finishCanceled`

A `Finish` is what the last five return: the store, the status and the assets that the cleanup
callback removed inside the transaction.  Verification data, artifacts and captions of a committed
asset are columns nothing else reads and are left out.

`finishCanceledLocked_spec`, `settleReady_spec`: an ended lease.
`Finished`: **what every one of them does to the store.**
-/

set_option linter.all false

namespace OpenFlame.Download
open Guard

/-- `assets.StagedAsset` -/
structure StagedAsset where
  asset_id : Id
  attempt_id : Id
  deriving DecidableEq, Repr

/-- `assets.CommittedAsset` -/
structure CommittedAsset where
  asset_id : Id
  attempt_id : Id
  media_key : String
  media_kind : String
  role : String
  ordinal : Nat
  deriving DecidableEq, Repr

structure Finish where
  db : DB
  status : JobStatus
  removed : List (Id × Id)

/-! ## intents -/

/-- `SELECT .. FROM download_jobs AS j JOIN job_attempts AS a ON a.id = ? AND a.job_id = j.id WHERE ..` -/
def DB.verifyingJob (db : DB) (lease : JobLease) (now_text : Time) : Option Job :=
  db.jobs.find (fun j => lease.holds now_text j && j.status == .verifying &&
    db.attempts.any (fun a => lease.attempts a && a.job_id == j.id))

/-- `WHERE job_id = ? AND attempt_id = ? AND lease_token = ?` -/
def JobLease.announced (lease : JobLease) (i : Intent) : Bool :=
  i.job_id == lease.job_id && i.attempt_id == lease.attempt_id && i.lease_token == lease.lease_token

/-- `record_asset_commit_intent` -/
def recordAssetCommitIntent (db : DB) (lease : JobLease) (asset : StagedAsset) (now : Clock) :
    Txn DB := do
  require (asset.attempt_id = lease.attempt_id) (.lostLease lease.job_id)
  let now_text := utcText now
  let _ ← fetch (db.verifyingJob lease now_text) (.lostLease lease.job_id)
  match db.intents.get asset.asset_id with
  | some existing =>
    require (lease.announced existing = true) (.lostLease lease.job_id)
    return db
  | none =>
    let intents ← fetch (db.intents.insert
      { asset_id := asset.asset_id
        job_id := lease.job_id
        attempt_id := lease.attempt_id
        lease_token := lease.lease_token
        created_at := now_text
        recovery_token := none
        recovery_expires_at := none }) .integrityError
    return { db with intents }

/-- `ORDER BY created_at, asset_id` -/
def Intent.createdBefore (a b : Intent) : Bool :=
  decide (a.created_at < b.created_at) || (a.created_at == b.created_at && decide (a.asset_id ≤ b.asset_id))

/-- `_remove_and_delete_intents_locked`, with the calls of `remove_pending_asset` in their order -/
def removeAndDeleteIntentsLocked (db : DB) (lease : JobLease) : DB × List (Id × Id) :=
  ({ db with intents := db.intents.delete lease.announced },
    ((db.intents.filter lease.announced).mergeSort Intent.createdBefore).map
      (fun i => (i.asset_id, lease.attempt_id)))

/-! ## registering -/

/-- `_insert_asset_records_locked` -/
def insertAssetRecordsLocked (lease : JobLease) (source_item_id : Id) (db : DB) (asset : CommittedAsset) :
    Txn DB := do
  require (db.media.any (fun m => m.source_item_id == source_item_id && m.media_key == asset.media_key)
    = false) .integrityError
  let media ← fetch (db.media.insert
    { id := asset.asset_id
      source_item_id := source_item_id
      media_key := asset.media_key
      media_kind := asset.media_kind }) .integrityError
  let jobAssets ← fetch (db.jobAssets.insert
    { job_id := lease.job_id
      asset_id := asset.asset_id
      role := asset.role
      ordinal := asset.ordinal }) .integrityError
  return { db with media, jobAssets }

/-- what `_finish_ready_locked`, `finish_success` and `finish_success_with_asset` do after the circuit
and the assets are written: the job, its attempt and its input -/
def settleReady (db : DB) (lease : JobLease) (now_text : Time) : Txn DB := do
  require (db.jobs.count (lease.holdsVerified now_text) = 1) (.lostLease lease.job_id)
  let db := { db with
    jobs := db.jobs.update (lease.holdsVerified now_text) (fun j =>
      { j with
        status := .ready
        progress := 1
        final_error_code := none
        lease_owner := none
        lease_token := none
        heartbeat_at := none
        lease_expires_at := none
        cancel_requested_at := none
        updated_at := now_text }) }
  let db ← finishAttempt db lease .succeeded now_text none none (some 0)
  markInputAndRefreshBatch db lease.job_id .ready none none now_text

/-- `_finish_ready_locked` -/
def finishReadyLocked (db : DB) (lease : JobLease) (now_text : Time) : Txn DB := do
  let db ← recordPlatformSuccessLocked db lease now_text
  settleReady db lease now_text

/-- the canceled branch of the `finish..` transactions; `remove` says whether a cleanup callback came -/
def finishCanceledAndRemove (db : DB) (lease : JobLease) (now_text : Time) (remove : Bool) :
    Txn Finish := do
  let db ← finishCanceledLocked db lease now_text
  if remove then
    let (db, removed) := removeAndDeleteIntentsLocked db lease
    return ⟨db, .canceled, removed⟩
  else
    return ⟨db, .canceled, []⟩

/-- `finalize_asset_commit_intents` -/
def finalizeAssetCommitIntents (db : DB) (lease : JobLease) (assets : List StagedAsset)
    (publish_staged : StagedAsset → Txn CommittedAsset) (now : Clock) : Txn Finish := do
  require (assets ≠ []) (.valueError "at least one staged asset is required")
  let asset_ids := assets.map StagedAsset.asset_id
  require asset_ids.Nodup (.valueError "duplicate staged asset id")
  require (∀ asset ∈ assets, asset.attempt_id = lease.attempt_id) (.lostLease lease.job_id)
  let now_text := utcText now
  let current ← fetch (db.verifyingJob lease now_text) (.lostLease lease.job_id)
  let intent_ids := (db.intents.filter lease.announced).map Intent.asset_id
  require ((∀ a ∈ intent_ids, a ∈ asset_ids) ∧ ∀ a ∈ asset_ids, a ∈ intent_ids)
    (.lostLease lease.job_id)
  if current.cancel_requested_at.isSome then
    finishCanceledAndRemove db lease now_text true
  else
    let committed_assets ← each (fun staged => do
      let committed ← publish_staged staged
      require (committed.asset_id = staged.asset_id ∧ committed.attempt_id = lease.attempt_id)
        (.runtimeError "publisher returned a different asset")
      return committed) assets
    let db ← thread (insertAssetRecordsLocked lease current.source_item_id) db committed_assets
    let db ← finishReadyLocked db lease now_text
    require (db.intents.count lease.announced = asset_ids.length) (.lostLease lease.job_id)
    return ⟨{ db with intents := db.intents.delete lease.announced }, .ready, []⟩

/-- `SELECT .. WHERE id = ? AND lease_token = ? AND status = 'verifying' AND lease_expires_at > ?` -/
def DB.verifyingLease (db : DB) (lease : JobLease) (now_text : Time) : Option Job :=
  db.jobs.find (fun j => lease.holds now_text j && j.status == .verifying)

/-- `finish_success_with_asset` -/
def finishSuccessWithAsset (db : DB) (lease : JobLease) (asset : CommittedAsset) (now : Clock)
    (remove_pending_asset : Bool) : Txn Finish := do
  let now_text := utcText now
  let current ← fetch (db.verifyingLease lease now_text) (.lostLease lease.job_id)
  if current.cancel_requested_at.isSome then
    finishCanceledAndRemove db lease now_text remove_pending_asset
  else
    let db ← recordPlatformSuccessLocked db lease now_text
    let db ← insertAssetRecordsLocked lease current.source_item_id db asset
    let db ← settleReady db lease now_text
    return ⟨db, .ready, []⟩

/-- `finish_success` -/
def finishSuccess (db : DB) (lease : JobLease) (now : Clock) (remove_pending_asset : Bool) :
    Txn Finish := do
  let now_text := utcText now
  let current ← fetch (db.verifyingLease lease now_text) (.lostLease lease.job_id)
  if current.cancel_requested_at.isSome then
    finishCanceledAndRemove db lease now_text remove_pending_asset
  else
    let db ← recordPlatformSuccessLocked db lease now_text
    let db ← settleReady db lease now_text
    return ⟨db, .ready, []⟩

/-- `finish_failure`; `diagnostic` is already sanitized -/
def finishFailure (db : DB) (lease : JobLease) (error_code : ErrorCode) (diagnostic : String)
    (now : Clock) (retry_at : Option Clock) (exit_code : Option Int) (remove_pending_asset : Bool) :
    Txn Finish := do
  let now_text := utcText now
  let current ← fetch (db.jobs.find (lease.holdsActive now_text)) (.lostLease lease.job_id)
  if current.cancel_requested_at.isSome then
    finishCanceledAndRemove db lease now_text remove_pending_asset
  else
    let should_retry := retry_at.isSome && decide (current.generation_attempt_count < MAX_ATTEMPTS)
    let next_status : JobStatus := if should_retry then .queued else .failed
    let available_at := if should_retry then (retry_at.map utcText).getD now_text else now_text
    let db ← recordPlatformFailureLocked db lease error_code now retry_at
    let db := { db with
      jobs := db.jobs.update (lease.holds now_text) (fun j =>
        { j with
          status := next_status
          progress := 0
          final_error_code := if should_retry then none else some error_code
          lease_owner := none
          lease_token := none
          heartbeat_at := none
          lease_expires_at := none
          cancel_requested_at := none
          available_at := some available_at
          updated_at := now_text }) }
    let db ← finishAttempt db lease .failed now_text (some error_code) (some diagnostic) exit_code
    if should_retry then
      return ⟨db, next_status, []⟩
    else
      let db ← markInputAndRefreshBatch db lease.job_id .failed (some error_code) (some diagnostic) now_text
      return ⟨db, next_status, []⟩

/-- `finish_canceled` -/
def finishCanceled (db : DB) (lease : JobLease) (now : Clock) (remove_pending_asset : Bool) :
    Txn Finish :=
  finishCanceledAndRemove db lease (utcText now) remove_pending_asset

/-! ## what they do -/

section
variable {may : Id → Id → Prop} {db db' : DB} {lease : JobLease} {r : Finish}

theorem JobLease.announced_iff {i : Intent} : lease.announced i = true ↔
    i.job_id = lease.job_id ∧ i.attempt_id = lease.attempt_id ∧ i.lease_token = lease.lease_token := by
  simp [announced, and_assoc]

/-- `db'` is `db` with the assets `ids` registered for the job of `lease`, and nothing else -/
def Registered (lease : JobLease) (db db' : DB) (ids : List Id) : Prop :=
  ∃ media jobAssets new links, db' = { db with media, jobAssets } ∧
    media.rows = db.media.rows ++ new ∧ new.map MediaAsset.id = ids ∧
    jobAssets.rows = db.jobAssets.rows ++ links ∧
    links.map (fun l => (l.job_id, l.asset_id)) = ids.map (fun a => (lease.job_id, a))

theorem insertAssetRecords_spec {s : Id} {asset : CommittedAsset}
    (h : insertAssetRecordsLocked lease s db asset = .ok db') :
    Registered lease db db' [asset.asset_id] := by
  simp only [insertAssetRecordsLocked, bind_eq_ok, require_eq_ok, fetch_eq_ok, pure_eq_ok] at h
  obtain ⟨-, -, media, hmedia, jobAssets, hlink, rfl⟩ := h
  exact ⟨media, jobAssets, _, _, rfl, Table.insert_rows hmedia, rfl, Table.insert_rows hlink, rfl⟩

/-- the loop over the committed assets -/
theorem insertAssets_spec {s : Id} {assets : List CommittedAsset} :
    ∀ {db db' : DB}, thread (insertAssetRecordsLocked lease s) db assets = .ok db' →
      Registered lease db db' (assets.map CommittedAsset.asset_id) := by
  induction assets with
  | nil =>
    intro db db' h
    cases h
    exact ⟨_, _, [], [], rfl, by simp, rfl, by simp, rfl⟩
  | cons c cs ih =>
    intro db db' h
    cases hx : insertAssetRecordsLocked lease s db c with
    | error e => simp [thread, hx] at h
    | ok db₁ =>
      simp only [thread, hx] at h
      obtain ⟨m₁, l₁, n₁, k₁, rfl, hm₁, hn₁, hl₁, hk₁⟩ := insertAssetRecords_spec hx
      obtain ⟨m₂, l₂, n₂, k₂, rfl, hm₂, hn₂, hl₂, hk₂⟩ := ih h
      refine ⟨m₂, l₂, n₁ ++ n₂, k₁ ++ k₂, rfl, ?_, ?_, ?_, ?_⟩
      · rw [hm₂, hm₁, List.append_assoc]
      · rw [List.map_append, hn₁, hn₂]
        rfl
      · rw [hl₂, hl₁, List.append_assoc]
      · rw [List.map_append, hk₁, hk₂]
        rfl

theorem JobLease.holdsVerified_iff {now : Time} {j : Job} : lease.holdsVerified now j = true ↔
    lease.holds now j = true ∧ j.status = .verifying ∧ j.cancel_requested_at = none := by
  simp [holdsVerified, and_assoc]

/-- the common tail of the three successes ends the lease with `ready` -/
theorem settleReady_spec (may : Id → Id → Prop) {circuits media jobAssets} {now : Time} (hinv : db.LeaseOK)
    (h : settleReady { db with circuits, media, jobAssets } lease now = .ok db')
    (hcircuits : ∀ j ∈ db.jobs, j.id = lease.job_id →
      Released db.circuits circuits (db.platformOf j) lease.job_id lease.lease_token)
    (hmedia : ∀ m ∈ media, m ∈ db.media ∨ may m.id lease.attempt_id) :
    LeaseEnded may db db' lease.job_id lease.lease_token .ready ∧
      (db'.media = media ∧ db'.jobAssets = jobAssets ∧ db'.intents = db.intents) ∧
      ∃ a ∈ db.attempts, a.id = lease.attempt_id ∧ a.lease_token = lease.lease_token ∧
        a.status = .running := by
  simp only [settleReady, bind_eq_ok, require_eq_ok] at h
  obtain ⟨-, hcount, db₁, hfin, hmark⟩ := h
  obtain ⟨j, hj, hid, ht, hp, hone⟩ := held_row db hcount
    (fun j hj => (JobLease.holdsVerified_iff.mp hj).1)
  obtain ⟨-, hverifying, hcancel⟩ := JobLease.holdsVerified_iff.mp hp
  obtain ⟨attempts, rfl, hattempts, hrunning⟩ := finishAttempt_spec hfin (by decide) hinv.tokens
  have hreleased := hcircuits j hj hid
  rw [← hid] at hmark hreleased ⊢
  have hactive : j.status.isActive = true := by rw [hverifying]; rfl
  have hframe := hmark
  obtain ⟨-, -, -, -, -, -, -, inputs, batches, hdb⟩ := markInput_chain may hframe
  refine ⟨(leaseEnded_of_writes rfl hj hactive ht (.inr hcancel) ?_ hattempts hreleased ?_ hmark).1,
    by rw [hdb]; exact ⟨rfl, rfl, rfl⟩, hrunning⟩
  · exact only_update hj hone rfl ⟨⟨rfl, rfl, rfl, rfl, rfl, rfl, rfl⟩, ⟨rfl, rfl⟩, rfl, rfl⟩
  · obtain ⟨a, ha, haid, hat, -⟩ := hrunning
    exact fun m hm => (hmedia m hm).imp_right (fun hm => ⟨rfl, a, ha, by rw [haid]; exact hm, hat⟩)

/-- **What every `finish..` transaction does.** -/
structure Finished (may : Id → Id → Prop) (db : DB) (lease : JobLease) (r : Finish) : Prop where
  ended : LeaseEnded may db r.db lease.job_id lease.lease_token r.status
  attempt : ∃ a ∈ db.attempts, a.id = lease.attempt_id ∧ a.lease_token = lease.lease_token ∧
    a.status = .running
  removed : ∀ x ∈ r.removed, r.db.media = db.media ∧ x.2 = lease.attempt_id ∧
    ∃ i ∈ db.intents, i.asset_id = x.1 ∧ lease.announced i = true

theorem finishCanceledAndRemove_spec (may : Id → Id → Prop) {now : Time} {remove : Bool} (hinv : db.LeaseOK)
    (h : finishCanceledAndRemove db lease now remove = .ok r) :
    Finished may db lease r ∧ r.status = .canceled := by
  simp only [finishCanceledAndRemove, bind_eq_ok] at h
  obtain ⟨db₁, hcan, h⟩ := h
  obtain ⟨hended, hmedia, hattempt⟩ := finishCanceledLocked_spec may hcan hinv
  cases remove with
  | false =>
    cases h
    exact ⟨⟨hended, hattempt, fun x hx => absurd hx List.not_mem_nil⟩, rfl⟩
  | true =>
    cases h
    refine ⟨⟨hended.forget (fun i hi => (Table.mem_delete.mp hi).1), hattempt, fun x hx => ?_⟩, rfl⟩
    obtain ⟨i, hi, rfl⟩ := List.mem_map.mp hx
    obtain ⟨hi, hann⟩ := Table.mem_filter.mp (List.mem_mergeSort.mp hi)
    exact ⟨hmedia, rfl, i, hended.intents i hi, rfl, hann⟩

theorem finishCanceled_spec {now : Clock} {remove : Bool} (hinv : db.LeaseOK)
    (h : finishCanceled db lease now remove = .ok r) :
    Finished may db lease r ∧ r.status = .canceled :=
  finishCanceledAndRemove_spec may hinv h

/-- the circuit a success closes is the one of the job that was leased -/
theorem recordSuccess_released {db₁ : DB} {now : Time}
    (h : recordPlatformSuccessLocked db lease now = .ok db₁) :
    ∃ circuits, db₁ = { db with circuits } ∧ ∀ j ∈ db.jobs, j.id = lease.job_id →
      Released db.circuits circuits (db.platformOf j) lease.job_id lease.lease_token := by
  obtain ⟨j, hj, hid, circuits, rfl, hrel⟩ := recordPlatformSuccess_spec h
  refine ⟨circuits, rfl, fun r hr hrid => ?_⟩
  rw [Table.eq_of_key hr hj (hrid.trans hid.symm)]
  exact hrel

theorem finishSuccess_spec {now : Clock} {remove : Bool} (hinv : db.LeaseOK)
    (h : finishSuccess db lease now remove = .ok r) : Finished may db lease r := by
  simp only [finishSuccess, bind_eq_ok, fetch_eq_ok] at h
  obtain ⟨current, -, h⟩ := h
  split at h
  · exact (finishCanceledAndRemove_spec may hinv h).1
  · simp only [bind_eq_ok, pure_eq_ok] at h
    obtain ⟨db₁, hsucc, db₂, hready, rfl⟩ := h
    obtain ⟨circuits, rfl, hrel⟩ := recordSuccess_released hsucc
    obtain ⟨hended, -, hattempt⟩ := settleReady_spec may hinv hready hrel (fun m hm => .inl hm)
    exact ⟨hended, hattempt, fun x hx => absurd hx List.not_mem_nil⟩

theorem finishSuccessWithAsset_spec {asset : CommittedAsset} {now : Clock} {remove : Bool}
    (hinv : db.LeaseOK) (hmay : may asset.asset_id lease.attempt_id)
    (h : finishSuccessWithAsset db lease asset now remove = .ok r) : Finished may db lease r := by
  simp only [finishSuccessWithAsset, bind_eq_ok, fetch_eq_ok] at h
  obtain ⟨current, -, h⟩ := h
  split at h
  · exact (finishCanceledAndRemove_spec may hinv h).1
  · simp only [bind_eq_ok, pure_eq_ok] at h
    obtain ⟨db₁, hsucc, db₂, hreg, db₃, hready, rfl⟩ := h
    obtain ⟨circuits, rfl, hrel⟩ := recordSuccess_released hsucc
    obtain ⟨media, jobAssets, new, links, rfl, hmedia, hnew, -, -⟩ := insertAssetRecords_spec hreg
    obtain ⟨hended, -, hattempt⟩ := settleReady_spec may hinv hready hrel (fun m hm => by
      rw [← Table.mem_rows, hmedia, List.mem_append] at hm
      rcases hm with hm | hm
      · exact .inl hm
      · have hid : m.id ∈ new.map MediaAsset.id := List.mem_map_of_mem hm
        rw [hnew, List.mem_singleton] at hid
        rw [hid]
        exact .inr hmay)
    exact ⟨hended, hattempt, fun x hx => absurd hx List.not_mem_nil⟩

/-- a lease that ends with another try: no input is marked -/
theorem leaseEnded_requeued {j : Job} {t : Id} (hj : j ∈ db.jobs) (hactive : j.status.isActive = true)
    (ht : j.lease_token = some t) (hcount : j.generation_attempt_count < MAX_ATTEMPTS)
    (hcancel : j.cancel_requested_at = none) {jobs attempts circuits}
    (hjobs : db.jobs.Evolves (Only (Job.Ended .queued) j) jobs)
    (hattempts : db.attempts.Evolves (Attempt.Closed t) attempts)
    (hcircuits : Released db.circuits circuits (db.platformOf j) j.id t) :
    LeaseEnded may db { db with jobs, attempts, circuits } j.id t .queued where
  chain := .single (Move.endLease j t .queued hj hactive ht (.inl ⟨rfl, hcount, rfl⟩) (.inr hcancel)
    hjobs hattempts hcircuits (fun m hm => .inl hm))
  job := ⟨j, hj, rfl, hactive, ht, .inr hcancel⟩
  job' := by
    obtain ⟨j', hj', ⟨-, he⟩ | ⟨hne, -⟩⟩ := hjobs.new hj
    · exact ⟨j', hj', he.id, he.status⟩
    · exact absurd rfl hne
  closed := Closed.not_running hattempts
  intents := fun _ hi => hi

theorem finishFailure_spec {e : ErrorCode} {d : String} {now : Clock} {retry_at : Option Clock}
    {x : Option Int} {remove : Bool} (hinv : db.LeaseOK)
    (h : finishFailure db lease e d now retry_at x remove = .ok r) : Finished may db lease r := by
  simp only [finishFailure, bind_eq_ok, fetch_eq_ok] at h
  obtain ⟨current, hcur, h⟩ := h
  obtain ⟨hcurmem, hcur⟩ := Table.find_some hcur
  obtain ⟨hholds, hactive⟩ := JobLease.holdsActive_iff.mp hcur
  obtain ⟨hid, ht, -⟩ := JobLease.holds_iff.mp hholds
  split at h
  · exact (finishCanceledAndRemove_spec may hinv h).1
  · next hcancel =>
    have hcancel : current.cancel_requested_at = none := by simpa using hcancel
    have hone : ∀ s ∈ db.jobs, lease.holds (utcText now) s = true ↔ s.id = current.id := by
      intro s hs
      constructor
      · exact fun hp => (JobLease.holds_iff.mp hp).1.trans hid.symm
      · intro hsid
        rw [Table.eq_of_key hs hcurmem hsid]
        exact hholds
    simp only [bind_eq_ok] at h
    obtain ⟨db₁, hfail, db₂, hfin, h⟩ := h
    obtain ⟨j, hj, hjid, circuits, rfl, hrel⟩ := recordPlatformFailure_spec hfail
    rw [Table.eq_of_key hj hcurmem (hjid.trans hid.symm)] at hrel
    obtain ⟨attempts, rfl, hattempts, hrunning⟩ := finishAttempt_spec hfin (by decide) hinv.tokens
    rw [← hid] at hrel
    split at h
    · next hretry =>
      obtain ⟨-, hcount⟩ := (Bool.and_eq_true ..).mp hretry
      cases h
      refine ⟨?_, hrunning, fun x hx => absurd hx List.not_mem_nil⟩
      rw [← hid]
      refine leaseEnded_requeued hcurmem hactive ht (by simpa using hcount) hcancel ?_ hattempts hrel
      exact only_update hcurmem hone rfl ⟨⟨rfl, rfl, rfl, rfl, rfl, rfl, rfl⟩, ⟨rfl, rfl⟩, rfl, rfl⟩
    · next hretry =>
      simp only [bind_eq_ok, pure_eq_ok] at h
      obtain ⟨db₃, hmark, rfl⟩ := h
      refine ⟨?_, hrunning, fun x hx => absurd hx List.not_mem_nil⟩
      rw [← hid] at hmark ⊢
      refine (leaseEnded_of_writes rfl hcurmem hactive ht (.inr hcancel) ?_ hattempts hrel
        (fun m hm => .inl hm) hmark).1
      exact only_update hcurmem hone rfl ⟨⟨rfl, rfl, rfl, rfl, rfl, rfl, rfl⟩, ⟨rfl, rfl⟩, rfl, rfl⟩

/-- what a publication leaves behind: the announced assets, registered for the job, and no intent -/
structure Published (db : DB) (lease : JobLease) (ids : List Id) (r : Finish) : Prop where
  registered : ∃ new links, r.db.media.rows = db.media.rows ++ new ∧ new.map MediaAsset.id = ids ∧
    r.db.jobAssets.rows = db.jobAssets.rows ++ links ∧
    links.map (fun l => (l.job_id, l.asset_id)) = ids.map (fun a => (lease.job_id, a))
  announced : ∀ a, a ∈ ids ↔ ∃ i ∈ db.intents, i.asset_id = a ∧ lease.announced i = true
  forgotten : ∀ i, i ∈ r.db.intents ↔ i ∈ db.intents ∧ lease.announced i = false

theorem finalizeAssetCommitIntents_spec {assets : List StagedAsset}
    {publish : StagedAsset → Txn CommittedAsset} {now : Clock} (hinv : db.LeaseOK)
    (hmay : ∀ a ∈ assets, may a.asset_id lease.attempt_id)
    (h : finalizeAssetCommitIntents db lease assets publish now = .ok r) :
    Finished may db lease r ∧ (r.status = .canceled ∨
      r.status = .ready ∧ Published db lease (assets.map StagedAsset.asset_id) r) := by
  simp only [finalizeAssetCommitIntents, bind_eq_ok, require_eq_ok, fetch_eq_ok] at h
  obtain ⟨-, -, -, -, -, -, current, -, -, ⟨hids, hids'⟩, h⟩ := h
  split at h
  · exact ⟨(finishCanceledAndRemove_spec may hinv h).1, .inl (finishCanceledAndRemove_spec may hinv h).2⟩
  · simp only [bind_eq_ok, require_eq_ok, pure_eq_ok] at h
    obtain ⟨committed, hcommit, db₁, hreg, db₂, hready, -, -, rfl⟩ := h
    have hcommitted : committed.map CommittedAsset.asset_id = assets.map StagedAsset.asset_id := by
      have hpub := each_forall₂ hcommit
      clear hreg hcommit hids hids' hmay
      induction hpub with
      | nil => rfl
      | cons hc _ ih =>
        simp only [bind_eq_ok, require_eq_ok, pure_eq_ok] at hc
        obtain ⟨c, -, -, ⟨hid, -⟩, rfl⟩ := hc
        rw [List.map_cons, List.map_cons, hid, ih]
    obtain ⟨media, jobAssets, new, links, rfl, hmedia, hnew, hlink, hlinks⟩ := insertAssets_spec hreg
    rw [hcommitted] at hnew hlinks
    simp only [finishReadyLocked, bind_eq_ok] at hready
    obtain ⟨db₃, hsucc, hready⟩ := hready
    obtain ⟨circuits, rfl, hrel⟩ := recordSuccess_released hsucc
    obtain ⟨hended, ⟨hm, hl, hi⟩, hattempt⟩ := settleReady_spec may hinv hready hrel (fun m hm => by
      rw [← Table.mem_rows, hmedia, List.mem_append] at hm
      rcases hm with hm | hm
      · exact .inl hm
      · have hid : m.id ∈ new.map MediaAsset.id := List.mem_map_of_mem hm
        rw [hnew] at hid
        obtain ⟨a, ha, hid⟩ := List.mem_map.mp hid
        rw [← hid]
        exact .inr (hmay a ha))
    refine ⟨⟨hended.forget (fun i hi => (Table.mem_delete.mp hi).1), hattempt,
      fun x hx => absurd hx List.not_mem_nil⟩, .inr ⟨rfl, ⟨⟨new, links, ?_, hnew, ?_, hlinks⟩, ?_, ?_⟩⟩⟩
    · show db₂.media.rows = _
      rw [hm, hmedia]
    · show db₂.jobAssets.rows = _
      rw [hl, hlink]
    · intro a
      constructor
      · intro ha
        obtain ⟨i, hi, rfl⟩ := List.mem_map.mp (hids' a ha)
        obtain ⟨hi, hann⟩ := Table.mem_filter.mp hi
        exact ⟨i, hi, rfl, hann⟩
      · rintro ⟨i, hi, rfl, hann⟩
        exact hids i.asset_id (List.mem_map_of_mem (Table.mem_filter.mpr ⟨hi, hann⟩))
    · intro i
      show i ∈ db₂.intents.delete _ ↔ _
      rw [Table.mem_delete, hi]

theorem recordAssetCommitIntent_chain {asset : StagedAsset} {now : Clock}
    (hmay : may asset.asset_id asset.attempt_id)
    (h : recordAssetCommitIntent db lease asset now = .ok db') : Chain may db.settled db'.settled := by
  simp only [recordAssetCommitIntent, bind_eq_ok, require_eq_ok, fetch_eq_ok] at h
  obtain ⟨-, hat, j, hj, h⟩ := h
  split at h
  · simp only [bind_eq_ok, require_eq_ok, pure_eq_ok] at h
    obtain ⟨-, -, rfl⟩ := h
    exact .refl
  · simp only [bind_eq_ok, fetch_eq_ok, pure_eq_ok] at h
    obtain ⟨intents, hins, rfl⟩ := h
    obtain ⟨hjmem, hj⟩ := Table.find_some hj
    simp only [Bool.and_eq_true, Table.any_eq_true, beq_iff_eq] at hj
    obtain ⟨⟨hholds, -⟩, a, ha, hatt, hjob⟩ := hj
    obtain ⟨hid, ht, -⟩ := JobLease.holds_iff.mp hholds
    obtain ⟨haid, hatoken, hrun⟩ := JobLease.attempts_iff.mp hatt
    refine .single (Move.record _ j a hins hjmem hid ht ha haid hrun hjob hatoken ?_)
    rw [hat] at hmay
    exact hmay

end

end OpenFlame.Download
