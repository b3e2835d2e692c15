import OpenFlame.Download.Store

/-!
# The aggregate status of an input and of its batch

`DB.scopedJobs db i`: the jobs an input `i` is judged by: those linked to its active discovery and
generation, else its discover job of the active generation, else all of its jobs.
`aggregateInputStatus`, `aggregateBatchStatus`: the two precedence tables.
`markInputAndRefreshBatch`: recompute the input of a job, then its batch (`refreshBatchLocked`).

`markInput_spec`, `refreshBatch_spec`: everything the two of them write.
`DB.InputOK`, `DB.BatchOK`: the stored status is the recomputed one.
-/

set_option linter.all false

namespace OpenFlame.Download
open Guard

/-- `ORDER BY created_at, id` -/
def Job.createdBefore (r s : Job) : Bool :=
  decide (r.created_at < s.created_at) || (r.created_at == s.created_at && decide (r.id < s.id))

/-- the row of `input_relation_jobs` links `j` to the active discovery and generation of `i` -/
def RelationJob.activeFor (i : InputRecord) (d : Id) (j : Job) (l : RelationJob) : Bool :=
  l.job_id == j.id && l.input_record_id == i.id && l.discovery_id == d &&
    l.run_generation == i.active_run_generation

/-- `scoped_jobs`, read for its statuses only (the `ORDER BY` of a whole list is left out) -/
def DB.scopedJobs (db : DB) (i : InputRecord) : List Job :=
  match i.active_discovery_id with
  | some d => db.jobs.filter (fun j => db.links.any (RelationJob.activeFor i d j))
  | none =>
    match Table.leastBy Job.createdBefore (db.jobs.filter (fun j =>
      j.input_record_id == i.id && j.job_kind == .discover &&
        j.run_generation == i.active_run_generation)) with
    | some d => [d]
    | none => db.jobs.filter (fun j => j.input_record_id == i.id)

def statusCount (jobs : List Job) (p : JobStatus → Bool) : Nat := jobs.countP (fun j => p j.status)

/-- `active_or_queued` counts these -/
def JobStatus.isLive (s : JobStatus) : Bool := s == .queued || s.isActive

/-- `aggregate_input_status`; `none` where the source raises -/
def aggregateInputStatus (jobs : List Job) : Option InputStatus :=
  let ready := statusCount jobs (· == .ready)
  let failed := statusCount jobs (· == .failed)
  let canceled := statusCount jobs (· == .canceled)
  if jobs = [] then none
  else if statusCount jobs JobStatus.isLive ≠ 0 then some .queued
  else if ready ≠ 0 ∧ (failed ≠ 0 ∨ canceled ≠ 0) then some .partialSuccess
  else if ready = jobs.length then some .ready
  else if failed ≠ 0 then some .failed
  else if canceled = jobs.length then some .canceled
  else none

/-- one live job is enough -/
theorem aggregateInputStatus_live {jobs : List Job} {j : Job} (hj : j ∈ jobs)
    (hlive : j.status.isLive = true) : aggregateInputStatus jobs = some .queued := by
  have hne : jobs ≠ [] := List.ne_nil_of_mem hj
  have hcount : statusCount jobs JobStatus.isLive ≠ 0 := by
    rw [statusCount, Ne, List.countP_eq_zero]
    exact fun h => h j hj hlive
  simp only [aggregateInputStatus, hne, hcount, if_false, ne_eq, not_false_eq_true, if_true]

/-- the latest attempt of a job that ended with an error code -/
def DB.latestError (db : DB) (job_id : Id) : Option Attempt :=
  Table.leastBy (fun a b => decide (b.attempt_no < a.attempt_no))
    (db.attempts.filter (fun a => a.job_id == job_id && a.error_code.isSome))

/-- the most recently updated failed job of the scope -/
def latestFailure (jobs : List Job) : Option Job :=
  Table.leastBy
    (fun r s => decide (s.updated_at < r.updated_at) ||
      (r.updated_at == s.updated_at && decide (r.id < s.id)))
    (jobs.filter (fun j => j.status == .failed && j.final_error_code.isSome))

/-- `aggregate_error_code`, `aggregate_error_message` -/
def DB.aggregateError (db : DB) (jobs : List Job) (status : InputStatus)
    (error_code : Option ErrorCode) (error_message : Option String) :
    Option ErrorCode × Option String :=
  if status = .failed ∨ status = .partialSuccess then
    match latestFailure jobs with
    | some failure =>
      (failure.final_error_code,
        match (db.latestError failure.id).bind Attempt.diagnostic with
        | some d => some d
        | none => error_message)
    | none => (error_code, error_message)
  else (none, none)

/-! ## batches -/

def DB.inputCount (db : DB) (batch_id : Id) (s : InputStatus) : Nat :=
  db.inputs.count (fun i => i.batch_id == batch_id && i.status == s)

/-- `batch_status` in `_refresh_batch_locked`; `count` gives the number of inputs of a status -/
def aggregateBatchStatus (count : InputStatus → Nat) (total : Nat) : BatchStatus :=
  if count .queued ≠ 0 then .queued
  else if count .partialSuccess ≠ 0 then .partialSuccess
  else if count .ready ≠ 0 ∧ (count .failed ≠ 0 ∨ count .canceled ≠ 0) then .partialSuccess
  else if count .ready ≠ 0 ∧ count .ready + count .duplicate = total then .ready
  else if count .failed ≠ 0 then .failed
  else if count .canceled ≠ 0 then .canceled
  else if count .duplicate = total then .duplicate
  else .failed

/-- `total = sum(counts.values())` -/
def DB.inputTotal (db : DB) (batch_id : Id) : Nat :=
  db.inputs.count (fun i => i.batch_id == batch_id)

/-- the row `_refresh_batch_locked` leaves for batch `b` -/
def DB.refreshedBatch (db : DB) (now_text : Time) (b : Batch) : Batch :=
  { b with
    status := aggregateBatchStatus (db.inputCount b.id) (db.inputTotal b.id)
    queued_count := db.inputCount b.id .queued
    ready_count := db.inputCount b.id .ready
    failed_count := db.inputCount b.id .failed
    duplicate_count := db.inputCount b.id .duplicate
    canceled_count := db.inputCount b.id .canceled
    partial_success_count := db.inputCount b.id .partialSuccess
    updated_at := now_text }

@[simp] theorem DB.refreshedBatch_id (db : DB) (now_text : Time) (b : Batch) :
    (db.refreshedBatch now_text b).id = b.id := rfl

/-- `_refresh_batch_locked` -/
def refreshBatchLocked (db : DB) (input_record_id : Id) (now_text : Time) : Txn DB := do
  let input_row ← fetch (db.inputs.get input_record_id)
    (.runtimeError "input disappeared during batch refresh")
  return { db with
    batches := db.batches.update (fun b => b.id == input_row.batch_id)
      (db.refreshedBatch now_text) (db.refreshedBatch_id now_text) }

/-! ## inputs -/

def InputRecord.setStatus (s : InputStatus) (e : Option ErrorCode × Option String)
    (i : InputRecord) : InputRecord :=
  { i with status := s, error_code := e.1, error_message := e.2 }

section
variable (s : InputStatus) (e : Option ErrorCode × Option String) (i : InputRecord)

@[simp] theorem InputRecord.setStatus_id : (i.setStatus s e).id = i.id := rfl
@[simp] theorem InputRecord.setStatus_status : (i.setStatus s e).status = s := rfl
@[simp] theorem InputRecord.setStatus_batch_id : (i.setStatus s e).batch_id = i.batch_id := rfl
@[simp] theorem InputRecord.setStatus_discovery :
    (i.setStatus s e).active_discovery_id = i.active_discovery_id := rfl
@[simp] theorem InputRecord.setStatus_generation :
    (i.setStatus s e).active_run_generation = i.active_run_generation := rfl
@[simp] theorem InputRecord.setStatus_cancel :
    (i.setStatus s e).cancel_requested_at = i.cancel_requested_at := rfl

end

/-- `_mark_input_and_refresh_batch` -/
def markInputAndRefreshBatch (db : DB) (job_id : Id) (input_status : InputStatus)
    (error_code : Option ErrorCode) (error_message : Option String) (now_text : Time) : Txn DB := do
  let job ← fetch (db.jobs.get job_id) (.runtimeError "job disappeared during aggregate update")
  require (input_status = .ready ∨ input_status = .failed ∨ input_status = .canceled)
    (.valueError "unsupported terminal input status")
  let input_row ← fetch (db.inputs.get job.input_record_id)
    (.runtimeError "input disappeared during aggregate update")
  let status ← fetch (aggregateInputStatus (db.scopedJobs input_row))
    (.runtimeError "input has no aggregatable jobs")
  let error := db.aggregateError (db.scopedJobs input_row) status error_code error_message
  refreshBatchLocked
    { db with
      inputs := db.inputs.update (fun i => i.id == job.input_record_id) (.setStatus status error)
        (InputRecord.setStatus_id status error) }
    job.input_record_id now_text

/-! ## what they write -/

/-- the batch row of input `i` is recomputed from the input rows of `db` -/
def DB.withBatchOf (db : DB) (i : InputRecord) (now_text : Time) : DB :=
  { db with
    batches := db.batches.update (fun b => b.id == i.batch_id) (db.refreshedBatch now_text)
      (db.refreshedBatch_id now_text) }

theorem refreshBatch_spec {db db' : DB} {k : Id} {now : Time}
    (h : refreshBatchLocked db k now = .ok db') :
    ∃ i ∈ db.inputs, i.id = k ∧ db' = db.withBatchOf i now := by
  simp only [refreshBatchLocked, bind_eq_ok, fetch_eq_ok, pure_eq_ok] at h
  obtain ⟨i, hi, rfl⟩ := h
  obtain ⟨hi, hk⟩ := Table.get_eq_some.mp hi
  exact ⟨i, hi, hk, rfl⟩

/-- the status of input `i` is the aggregate of its scoped jobs, as far as it owns a job -/
def DB.InputOK (db : DB) (i : InputRecord) : Prop :=
  (∃ j ∈ db.jobs, j.input_record_id = i.id) →
    aggregateInputStatus (db.scopedJobs i) = some i.status

/-- the counters and the status of batch `b` are those of its input rows -/
def DB.BatchOK (db : DB) (b : Batch) : Prop :=
  b.status = aggregateBatchStatus (db.inputCount b.id) (db.inputTotal b.id) ∧
    b.queued_count = db.inputCount b.id .queued ∧ b.ready_count = db.inputCount b.id .ready ∧
    b.failed_count = db.inputCount b.id .failed ∧ b.duplicate_count = db.inputCount b.id .duplicate ∧
    b.canceled_count = db.inputCount b.id .canceled ∧
    b.partial_success_count = db.inputCount b.id .partialSuccess

theorem DB.refreshedBatch_ok (db : DB) (now_text : Time) (b : Batch) :
    db.BatchOK (db.refreshedBatch now_text b) := ⟨rfl, rfl, rfl, rfl, rfl, rfl, rfl⟩

/-- input `i` gets its aggregate status, then its batch is recomputed -/
def DB.withAggregate (db : DB) (i : InputRecord) (s : InputStatus)
    (e : Option ErrorCode × Option String) (now_text : Time) : DB :=
  { db with
    inputs := db.inputs.update (fun r => r.id == i.id) (.setStatus s e)
      (InputRecord.setStatus_id s e) }.withBatchOf i now_text

theorem markInput_spec {db db' : DB} {k : Id} {s₀ : InputStatus} {e₀ : Option ErrorCode}
    {m₀ : Option String} {now : Time}
    (h : markInputAndRefreshBatch db k s₀ e₀ m₀ now = .ok db') :
    ∃ j ∈ db.jobs, j.id = k ∧ ∃ i ∈ db.inputs, i.id = j.input_record_id ∧
      ∃ s e, aggregateInputStatus (db.scopedJobs i) = some s ∧ db' = db.withAggregate i s e now := by
  simp only [markInputAndRefreshBatch, bind_eq_ok, fetch_eq_ok, require_eq_ok] at h
  obtain ⟨j, hj, _, -, i, hi, s, hs, h⟩ := h
  obtain ⟨hj, hk⟩ := Table.get_eq_some.mp hj
  obtain ⟨hi, hik⟩ := Table.get_eq_some.mp hi
  obtain ⟨i', hi', hik', rfl⟩ := refreshBatch_spec h
  simp only [Table.mem_update] at hi'
  obtain ⟨i₀, hi₀, rfl⟩ := hi'
  have hid : i₀.id = i.id := by
    rw [hik, ← hik']
    exact (Table.upd_col InputRecord.id (InputRecord.setStatus_id _ _) i₀).symm
  have hb : (Table.upd (fun r => r.id == j.input_record_id) (InputRecord.setStatus s
      (db.aggregateError (db.scopedJobs i) s e₀ m₀)) i₀).batch_id = i.batch_id := by
    rw [Table.upd_col InputRecord.batch_id (InputRecord.setStatus_batch_id _ _), Table.eq_of_key hi₀ hi hid]
  refine ⟨j, hj, hk, i, hi, hik, s, db.aggregateError (db.scopedJobs i) s e₀ m₀, hs, ?_⟩
  simp only [DB.withAggregate, DB.withBatchOf, hb, hik]

end OpenFlame.Download
