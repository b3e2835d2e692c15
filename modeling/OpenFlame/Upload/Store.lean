import OpenFlame.Base.Table
import OpenFlame.Upload.Metadata

/-!
# The upload store: rows, tables and the job a client sees

Rows carry the columns of schema 4 that a modelled operation reads or writes, under the source's
names.  `job_ids` is the decoded JSON list, `tags` and `platform_options` the decoded columns.

* `getJob`      `_get_job`: a job row joined with its account and its source;
* `Job.payload` what a retry successor shares with its parent.
-/

set_option linter.all false

namespace OpenFlame.Upload
open Guard

/-- a SHA-256 digest: 64 hexadecimal digits -/
abbrev Digest := Nat

abbrev Time := Int

structure Account where
  id : Ident
  platform : Platform
  name : Text
  auth_state : AuthState
  code : Code
  lifecycle_state : LifecycleState
  deriving DecidableEq, Repr

structure Source where
  id : Ident
  sha256 : Digest
  media_state : MediaState
  deriving DecidableEq, Repr

structure Asset where
  id : Ident
  sha256 : Digest
  width : Nat
  height : Nat
  media_state : MediaState
  deriving DecidableEq, Repr

structure Operation where
  id : Ident
  account_id : Ident
  action : Action
  state : OperationState
  code : Code
  deriving DecidableEq, Repr

/-- the columns of a job that say what is uploaded where -/
structure Content where
  account_id : Ident
  title : Text
  description : Text
  tags : List Text
  category_id : Option Int
  mode : Mode
  copyright : Int
  source_credit : Text
  cover_landscape_asset_id : Option Ident
  cover_portrait_asset_id : Option Ident
  publish_at_unix : Option Int
  publish_timezone_offset_minutes : Option Int
  platform_options : Options
  deriving DecidableEq, Repr

/-- what `_normalize_target` returns -/
structure Target extends Content where
  platform : Platform
  deriving DecidableEq, Repr

structure JobRow where
  id : Ident
  source_id : Ident
  content : Content
  state : JobState
  code : Code
  retry_of : Option Ident
  deriving DecidableEq, Repr

inductive DigestVersion where
  | v1 | v2
  deriving DecidableEq, Repr

structure Request where
  id : String
  digest : Digest
  job_ids : List Ident
  digest_version : DigestVersion
  deriving DecidableEq, Repr

structure Attempt where
  id : Ident
  job_id : Ident
  root_job_id : Ident
  request_id : String
  request_digest : Digest
  request_digest_version : DigestVersion
  job_digest : Digest
  account_id : Ident
  platform : Platform
  session_revision : Ident
  source_id : Ident
  source_sha256 : Digest
  cover_landscape_asset_id : Option Ident
  cover_landscape_sha256 : Option Digest
  cover_portrait_asset_id : Option Ident
  cover_portrait_sha256 : Option Digest
  runtime : RuntimeIdentity
  state : AttemptState
  result_status : Option ResultStatus
  result_code : Option Code
  evidence_kind : Option EvidenceKind
  reconciliation : Option Reconciliation
  operator_platform_check : Bool
  dispatch_started_at : Option Time
  responded_at : Option Time
  reconciled_at : Option Time
  revision : Nat
  deriving DecidableEq, Repr

structure DB where
  accounts : Table Account Account.id
  sources : Table Source Source.id
  assets : Table Asset Asset.id
  operations : Table Operation Operation.id
  jobs : Table JobRow JobRow.id
  requests : Table Request Request.id
  attempts : Table Attempt Attempt.job_id

def DB.initial : DB := ⟨∅, ∅, ∅, ∅, ∅, ∅, ∅⟩

/-- an identifier that `uuid4` may draw: no row of any table carries it -/
def DB.Fresh (db : DB) (id : Ident) : Prop :=
  (∀ a ∈ db.accounts.rows, a.id ≠ id) ∧ (∀ s ∈ db.sources.rows, s.id ≠ id) ∧
    (∀ a ∈ db.assets.rows, a.id ≠ id) ∧ (∀ o ∈ db.operations.rows, o.id ≠ id) ∧
    (∀ j ∈ db.jobs.rows, j.id ≠ id) ∧ ∀ a ∈ db.attempts.rows, a.id ≠ id

instance (db : DB) : DecidablePred db.Fresh := fun _ => inferInstanceAs (Decidable (_ ∧ _))

/-! ## jobs as clients see them -/

/-- what `_job_public` returns -/
structure Job where
  id : Ident
  source_id : Ident
  target : Target
  state : JobState
  code : Code
  retry_of : Option Ident
  deriving DecidableEq, Repr

abbrev Job.account_id (j : Job) : Ident := j.target.account_id

abbrev Job.platform (j : Job) : Platform := j.target.platform

abbrev Job.mode (j : Job) : Mode := j.target.mode

/-- the join of `_job_query` -/
def JobRow.view (r : JobRow) (platform : Platform) : Job where
  id := r.id
  source_id := r.source_id
  target := { r.content with platform }
  state := r.state
  code := r.code
  retry_of := r.retry_of

def getJob (db : DB) (job_id : Ident) : Except Code Job := do
  let row ← fetch (db.jobs.get job_id) "job_not_found"
  let account ← fetch (db.accounts.get row.content.account_id) "job_not_found"
  let _ ← fetch (db.sources.get row.source_id) "job_not_found"
  return row.view account.platform

theorem getJob_eq_ok {db : DB} {job_id : Ident} {j : Job} :
    getJob db job_id = .ok j ↔ ∃ r ∈ db.jobs, ∃ a ∈ db.accounts, ∃ s ∈ db.sources,
      r.id = job_id ∧ a.id = r.content.account_id ∧ s.id = r.source_id ∧ j = r.view a.platform := by
  simp only [getJob, bind_eq_ok, fetch_eq_ok, pure_eq_ok, Table.get_eq_some]
  constructor
  · rintro ⟨r, ⟨hr, rfl⟩, a, ⟨ha, hra⟩, s, ⟨hs, hrs⟩, rfl⟩
    exact ⟨r, hr, a, ha, s, hs, rfl, hra, hrs, rfl⟩
  · rintro ⟨r, hr, a, ha, s, hs, rfl, hra, hrs, rfl⟩
    exact ⟨r, ⟨hr, rfl⟩, a, ⟨ha, hra⟩, s, ⟨hs, hrs⟩, rfl⟩

/-- `getJob` fails in one way -/
theorem getJob_error {db : DB} {job_id : Ident} {e : Code} (h : getJob db job_id = .error e) :
    e = "job_not_found" := by
  unfold getJob at h
  cases hj : db.jobs.get job_id with
  | none => simp only [hj, fetch] at h; cases h; rfl
  | some r =>
    cases ha : db.accounts.get r.content.account_id with
    | none => simp only [hj, fetch, bind, Except.bind, ha] at h; cases h; rfl
    | some a =>
      cases hs : db.sources.get r.source_id with
      | none => simp only [hj, fetch, bind, Except.bind, ha, hs] at h; cases h; rfl
      | some s => simp only [hj, fetch, bind, Except.bind, ha, hs] at h; cases h

end OpenFlame.Upload
