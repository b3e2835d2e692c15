import Mathlib.Algebra.Ring.Nat
import Mathlib.Data.Rat.Defs
import OpenFlame.Base.Guard
import OpenFlame.Base.Table

/-!
# The download store: enumerations, rows and tables

Rows carry the columns of the schema that a modelled operation reads or writes, under the source's
names.  Identifiers and lease tokens are `uuid4` texts, used through equality and text order only,
so they are numbers here.  A `Clock` is a `datetime` in microseconds; a `Time` is what `utcText`
stores: text with fixed-width fields and milliseconds, whose text order is the numeric order.

A missing or malformed row is an exception of the transaction that meets it (`WErr`); an exception
rolls the transaction back, so operations are functions `DB → Except WErr (DB × _)`.
-/

set_option linter.all false

namespace OpenFlame.Download

abbrev Id := Nat
abbrev Clock := Int
abbrev Time := Int

/-- `utc_text`: milliseconds, truncated -/
def utcText (now : Clock) : Time := now / 1000

/-- `timedelta(seconds=s)` -/
def seconds (s : Int) : Clock := s * 1000000

/-! ## domain.py -/

inductive Platform where
  | x | youtube | bilibili | douyin | tiktok | instagram
  deriving DecidableEq, Repr

inductive SourceType where
  | xPost | xAttachment | youtubeVideo | youtubeShort | bilibiliVideo | douyinVideo | tiktokVideo
  | instagramReel | shortLink
  deriving DecidableEq, Repr

inductive BatchStatus where
  | queued | failed | duplicate | ready | partialSuccess | canceled
  deriving DecidableEq, Repr

inductive InputStatus where
  | queued | failed | duplicate | ready | partialSuccess | canceled
  deriving DecidableEq, Repr

inductive JobStatus where
  | queued | probing | downloading | postprocessing | verifying | ready | failed | canceled
  deriving DecidableEq, Repr

inductive JobKind where
  | download | discover
  deriving DecidableEq, Repr

inductive AttemptStatus where
  | running | succeeded | failed | canceled | abandoned
  deriving DecidableEq, Repr

inductive CircuitState where
  | closed | opened | halfOpen
  deriving DecidableEq, Repr

inductive ErrorCode where
  | invalidUrl | unsupportedPlatform | unsupportedLinkType | shortLinkResolutionRequired
  | adapterUnsupported | extractorBroken | networkError | rateLimited | validationFailed
  | storageError | authenticationRequired | privateContent | contentUnavailable | geoRestricted
  | drmProtected | egressPolicyBlocked | workerLost | workerTimeout | workerInternal
  deriving DecidableEq, Repr

/-- the text of a status in messages -/
def JobStatus.value : JobStatus → String
  | .queued => "queued"
  | .probing => "probing"
  | .downloading => "downloading"
  | .postprocessing => "postprocessing"
  | .verifying => "verifying"
  | .ready => "ready"
  | .failed => "failed"
  | .canceled => "canceled"

/-- `ACTIVE_STATUSES` -/
def JobStatus.isActive : JobStatus → Bool
  | .probing | .downloading | .postprocessing | .verifying => true
  | _ => false

/-- `TERMINAL_STATUSES` -/
def JobStatus.isTerminal : JobStatus → Bool
  | .ready | .failed | .canceled => true
  | _ => false

def MAX_ATTEMPTS : Nat := 4
def MAX_ACTIVE_JOBS : Nat := 2
def ASSET_INTENT_RECOVERY_LEASE_SECONDS : Int := 300
def RATE_LIMIT_MANUAL_RESET_THRESHOLD : Nat := 3

/-- `PLATFORM_FAILURE_THRESHOLDS` -/
def PLATFORM_FAILURE_THRESHOLDS : ErrorCode → Option Nat
  | .extractorBroken => some 2
  | _ => none

/-! ## rows -/

structure Batch where
  id : Id
  status : BatchStatus
  total_count : Nat
  queued_count : Nat
  ready_count : Nat
  failed_count : Nat
  duplicate_count : Nat
  canceled_count : Nat
  partial_success_count : Nat
  updated_at : Time
  deriving DecidableEq, Repr

structure InputRecord where
  id : Id
  batch_id : Id
  canonical_url : Option String
  platform : Option Platform
  source_type : Option SourceType
  source_id : Option String
  ordinal : Nat
  expected_item_count : Option Nat
  status : InputStatus
  error_code : Option ErrorCode
  error_message : Option String
  duplicate_of_input_record_id : Option Id
  active_discovery_id : Option Id
  active_run_generation : Nat
  cancel_requested_at : Option Time
  created_at : Time
  deriving DecidableEq, Repr

structure SourceItem where
  id : Id
  platform : Platform
  source_type : SourceType
  source_id : Option String
  canonical_url : String
  deriving DecidableEq, Repr

structure Job where
  id : Id
  batch_id : Id
  input_record_id : Id
  source_item_id : Id
  job_kind : JobKind
  status : JobStatus
  progress : ℚ
  final_error_code : Option ErrorCode
  route_policy_version : String
  credential_profile_id : Option Id
  lease_owner : Option String
  lease_token : Option Id
  heartbeat_at : Option Time
  lease_expires_at : Option Time
  available_at : Option Time
  cancel_requested_at : Option Time
  attempt_count : Nat
  run_generation : Nat
  generation_attempt_count : Nat
  reused_from_job_id : Option Id
  created_at : Time
  updated_at : Time
  deriving DecidableEq, Repr

structure Attempt where
  id : Id
  job_id : Id
  attempt_no : Nat
  adapter : String
  adapter_version : String
  status : AttemptStatus
  finished_at : Option Time
  error_code : Option ErrorCode
  diagnostic : Option String
  exit_code : Option Int
  discovered_item_count : Option Nat
  discovery_snapshot_hash : Option String
  lease_token : Id
  run_generation : Nat
  generation_attempt_no : Nat
  deriving DecidableEq, Repr

/-- `download_job_targets` -/
structure JobTarget where
  job_id : Id
  fetch_source_item_id : Id
  selector_key : String
  expected_media_key : String
  expected_media_kind : String
  deriving DecidableEq, Repr

/-- one entry of `source_discoveries.members_json` -/
structure MemberPayload where
  child_source_id : String
  media_kind : String
  selector_key : String
  deriving DecidableEq, Repr

structure Discovery where
  id : Id
  parent_source_item_id : Id
  snapshot_hash : String
  members : List MemberPayload
  member_count : Nat
  discovered_by_attempt_id : Id
  deriving DecidableEq, Repr

structure Relation where
  id : Id
  discovery_id : Id
  parent_source_item_id : Id
  child_source_item_id : Id
  ordinal : Nat
  media_kind : String
  deriving DecidableEq, Repr

/-- `input_relation_jobs` -/
structure RelationJob where
  input_record_id : Id
  discovery_id : Id
  run_generation : Nat
  relation_id : Id
  job_id : Id
  deriving DecidableEq, Repr

def RelationJob.key (l : RelationJob) : Id × Nat × Id :=
  (l.input_record_id, l.run_generation, l.relation_id)

structure MediaAsset where
  id : Id
  source_item_id : Id
  media_key : String
  media_kind : String
  deriving DecidableEq, Repr

structure JobAsset where
  job_id : Id
  asset_id : Id
  role : String
  ordinal : Nat
  deriving DecidableEq, Repr

def JobAsset.key (l : JobAsset) : Id × Id × String := (l.job_id, l.asset_id, l.role)

structure Intent where
  asset_id : Id
  job_id : Id
  attempt_id : Id
  lease_token : Id
  created_at : Time
  recovery_token : Option Id
  recovery_expires_at : Option Time
  deriving DecidableEq, Repr

structure Circuit where
  platform : Platform
  state : CircuitState
  consecutive_failures : Nat
  last_error_code : Option ErrorCode
  opened_at : Option Time
  cooldown_until : Option Time
  requires_manual_reset : Bool
  probe_job_id : Option Id
  probe_lease_token : Option Id
  updated_at : Time
  deriving DecidableEq, Repr

structure CredentialProfile where
  id : Id
  platform : Platform
  name : String
  secret_ref : String
  expires_at : Option Time
  disabled_at : Option Time
  deriving DecidableEq, Repr

structure ClaimGate where
  run_id : Option String
  worker_id : Option String
  accepting_claims : Bool
  activated_at : Option Time
  stop_requested_at : Option Time
  deriving DecidableEq, Repr

structure QueueControl where
  paused : Bool
  reason : Option ErrorCode
  paused_at : Option Time
  resumed_at : Option Time
  deriving DecidableEq, Repr

structure DB where
  batches : Table Batch Batch.id
  inputs : Table InputRecord InputRecord.id
  sources : Table SourceItem SourceItem.id
  jobs : Table Job Job.id
  attempts : Table Attempt Attempt.id
  targets : Table JobTarget JobTarget.job_id
  discoveries : Table Discovery Discovery.id
  relations : Table Relation Relation.id
  links : Table RelationJob RelationJob.key
  media : Table MediaAsset MediaAsset.id
  jobAssets : Table JobAsset JobAsset.key
  intents : Table Intent Intent.asset_id
  circuits : Table Circuit Circuit.platform
  credentials : Table CredentialProfile CredentialProfile.id
  gate : ClaimGate
  queue : QueueControl

/-- the store right after its migrations -/
def DB.initial : DB where
  batches := ∅
  inputs := ∅
  sources := ∅
  jobs := ∅
  attempts := ∅
  targets := ∅
  discoveries := ∅
  relations := ∅
  links := ∅
  media := ∅
  jobAssets := ∅
  intents := ∅
  circuits := ∅
  credentials := ∅
  gate := ⟨none, none, false, none, none⟩
  queue := ⟨false, none, none, none⟩

/-! ## exceptions -/

inductive WErr where
  | lostLease (job_id : Id)
  | invalidTransition (message : String)
  | rediscoverConflict (message : String)
  | retryConflict (message : String)
  | circuitResetConflict (message : String)
  | graphValidation (message : String)
  | credentialDefaults
  | credentialProfile (message : String)
  | runtimeError (message : String)
  | valueError (message : String)
  | integrityError
  deriving DecidableEq, Repr

abbrev Txn := Except WErr

/-- `worker_repository.JobLease`: what a claim hands to its worker -/
structure JobLease where
  job_id : Id
  attempt_id : Id
  attempt_no : Nat
  lease_token : Id
  worker_id : String
  lease_expires_at : Time
  source_item_id : Id
  canonical_url : String
  platform : Platform
  source_type : SourceType
  adapter : String
  adapter_version : String
  job_kind : JobKind
  run_generation : Nat
  selector_key : Option String
  expected_media_key : Option String
  expected_media_kind : Option String
  credential_ref : Option String
  deriving DecidableEq, Repr

/-- the platform of a job: `JOIN source_items AS s ON s.id = j.source_item_id` -/
def platformIn (sources : Table SourceItem SourceItem.id) (j : Job) : Option Platform :=
  (sources.get j.source_item_id).map SourceItem.platform

abbrev DB.platformOf (db : DB) (j : Job) : Option Platform := platformIn db.sources j

/-- `download_jobs` rows that hold a lease token `token` for job `job_id`, still unexpired at `now` -/
def Job.leased (job_id token : Id) (now : Time) (j : Job) : Bool :=
  j.id == job_id && j.lease_token == some token &&
    (match j.lease_expires_at with
     | some e => decide (now < e)
     | none => false)

end OpenFlame.Download
