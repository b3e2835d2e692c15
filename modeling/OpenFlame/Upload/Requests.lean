import OpenFlame.Upload.Target

/-!
# Upload requests: creation, the request ledger, and cancellation of a stable key

* `createJobs`                           the fan-out of one idempotent request into draft jobs;
* `requestJobsFromRow`                   `_request_jobs_from_row_in`: the roots a ledger row owns;
* `workflowRequestIdentity`              the identity of a request mapping, from the mapping alone;
* `claimOrReadWorkflowCancellation`, `claimWorkflowRequestForCancellation`   tombstones.
-/

set_option linter.all false

namespace OpenFlame.Upload
open Guard

/-- the arguments of `create_jobs` that say what is uploaded, and the request mapping of a workflow -/
structure UploadIntent where
  source_id : Ident
  account_ids : List Ident
  title : Raw
  description : Raw
  tags : Raw
  category_id : Raw
  mode : Raw
  copyright : Raw
  source_credit : Raw
  target_overrides : List TargetOverride

/-- an `isinstance` check that a parser makes -/
def parses {α : Type} (x : Except Code α) : Bool :=
  match x with
  | .ok _ => true
  | .error _ => false

/-- mode, category and copyright are of the right type and in range -/
def UploadIntent.scalarsValid (intent : UploadIntent) : Bool :=
  parses (parseMode intent.mode) && parses (parseCategory intent.category_id) &&
    parses (parseCopyright intent.copyright)

/-- the loop that builds `override_map` -/
def overrideMap (account_ids : List Ident) (invalid : Code) :
    List (Ident × TargetOverride) → List TargetOverride → Except Code (List (Ident × TargetOverride))
  | seen, [] => return seen
  | seen, o :: os => do
    require (o.extra_keys = [] ∧ o.isBare = false) invalid
    let account_id ← identifier (o.account_id.getD .none)
    require (account_id ∈ account_ids ∧ ∀ e ∈ seen, e.1 ≠ account_id) invalid
    overrideMap account_ids invalid (seen ++ [(account_id, o)]) os

/-- `override_map.get(account_id, {})` -/
def overrideFor (overrides : List (Ident × TargetOverride)) (account_id : Ident) : TargetOverride :=
  ((overrides.find? (fun e => e.1 == account_id)).map Prod.snd).getD {}

/-- the mapping `base` of a request -/
def UploadIntent.base (intent : UploadIntent) (title description : Text) (tags : List Text) (credit : Text) :
    RawTarget where
  title := .str title
  description := .str description
  tags := .list (tags.map Raw.str)
  category_id := intent.category_id
  mode := intent.mode
  copyright := intent.copyright
  source_credit := .str credit
  cover_landscape_asset_id := .none
  cover_portrait_asset_id := .none
  publish_at_unix := .none
  publish_timezone_offset_minutes := .none
  platform_options := .dict []

/-- the flags of a replay and of the workflow identity -/
def unverified : Checks := ⟨false, false, false⟩

section
variable (host : Host)

/-- the targets of the accounts of a request, in order -/
def normalizeTargets (env : Env) (db : DB) (accounts : List Account) (base : RawTarget)
    (overrides : List (Ident × TargetOverride)) (checks : Checks) : Except Code (List Target) :=
  each (fun account => normalizeTarget host.unicode env db account base (overrideFor overrides account.id) checks)
    accounts

/-! ## digests of stored jobs -/

/-- `_workflow_request_digest_from_jobs` -/
def workflowRequestDigestFromJobs (jobs : List Job) : Except Code Digest :=
  match jobs with
  | [] => throw "upload_request_invalid"
  | first :: _ => do
    require (jobs.map Job.account_id).Nodup "upload_request_invalid"
    require (∀ j ∈ jobs, j.source_id = first.source_id) "upload_request_invalid"
    return requestDigest host first.source_id (jobs.map Job.entry)

/-- the columns that a request of digest version 1 shares between its jobs -/
structure LegacyShared where
  source_id : Ident
  title : Text
  description : Text
  tags : List Text
  category_id : Option Int
  mode : Mode
  copyright : Int
  source_credit : Text
  deriving DecidableEq

def Job.legacyShared (j : Job) : LegacyShared :=
  ⟨j.source_id, j.target.title, j.target.description, j.target.tags, j.target.category_id, j.target.mode,
    j.target.copyright, j.target.source_credit⟩

/-- `_legacy_request_digests_from_jobs` -/
def legacyRequestDigestsFromJobs (jobs : List Job) : Except Code (List Digest) :=
  match jobs with
  | [] => throw "upload_request_invalid"
  | first :: _ => do
    require (∀ j ∈ jobs, j.legacyShared = first.legacyShared) "upload_request_invalid"
    require (∀ j ∈ jobs, j.target.cover_landscape_asset_id = none ∧ j.target.cover_portrait_asset_id = none ∧
      j.target.publish_at_unix = none ∧ j.target.publish_timezone_offset_minutes = none ∧
      j.target.platform_options = legacyMigratedPlatformOptions host.unicode j.platform j.target.title)
      "upload_request_invalid"
    require (jobs.map Job.account_id).Nodup "upload_request_invalid"
    let account_ids := (jobs.map Job.account_id).mergeSort (fun a b => a ≤ b)
    let t := first.target
    let digest (copyright : Option Int) : Digest := host.sha256 (.legacy first.source_id account_ids t.title
      t.description t.tags t.category_id t.mode copyright t.source_credit)
    return digest (some t.copyright) ::
      (if (∀ j ∈ jobs, j.platform ≠ .bilibili) ∧ t.copyright = 1 then [digest none] else [])

/-! ## the request ledger -/

/-- the fields `_request_jobs_from_row_in` compares between a job and an expected target: all of them -/
def Job.isTarget (j : Job) (source_id : Ident) (target : Target) : Bool :=
  j.source_id == source_id && j.target == target

def requestJobsFromRow (db : DB) (row : Request) (expected : Option (Ident × List Target)) :
    Except Code (List Job) := do
  require (isRequestId row.id = true ∧ 1 ≤ row.job_ids.length ∧ row.job_ids.length ≤ 20 ∧ row.job_ids.Nodup)
    "upload_request_invalid"
  let jobs ← recast (each (getJob db) row.job_ids) "upload_request_invalid"
  require (∀ j ∈ jobs, j.retry_of = none) "upload_request_invalid"
  match row.digest_version with
  | .v1 =>
    let digests ← legacyRequestDigestsFromJobs host jobs
    require (row.digest ∈ digests) "upload_request_mismatch"
  | .v2 =>
    let digest ← workflowRequestDigestFromJobs host jobs
    require (row.digest = digest) "upload_request_mismatch"
  match expected with
  | none => return jobs
  | some (source_id, targets) =>
    require (List.Forall₂ (fun j t => Job.isTarget j source_id t = true) jobs targets) "upload_request_mismatch"
    return jobs

/-- `_workflow_request_targets_in` -/
def workflowRequestTargets (env : Env) (db : DB) (intent : UploadIntent) : Except Code (List Target) := do
  require (1 ≤ intent.account_ids.length ∧ intent.account_ids.length ≤ 20 ∧ intent.account_ids.Nodup)
    "upload_request_invalid"
  let title ← normalizeUploadText intent.title 100 true
  let description ← normalizeUploadText intent.description 2000 false
  let tags ← normalizeUploadTags intent.tags
  let credit ← normalizeUploadText intent.source_credit 200 false
  require (intent.scalarsValid = true) "upload_request_invalid"
  require (intent.target_overrides.length ≤ intent.account_ids.length) "upload_request_invalid"
  let overrides ← overrideMap intent.account_ids "upload_request_invalid" [] intent.target_overrides
  let accounts ← each (fun id => fetch (db.accounts.get id) "upload_request_invalid") intent.account_ids
  normalizeTargets host env db accounts (intent.base title description tags credit) overrides unverified

/-- `_workflow_request_identity_in`, with every failure the one its callers report -/
def workflowRequestIdentity (env : Env) (db : DB) (intent : UploadIntent) :
    Except Code (List Target × Digest) := do
  let targets ← recast (workflowRequestTargets host env db intent) "upload_request_invalid"
  return (targets, requestDigest host intent.source_id (targets.map Target.entry))

/-! ## creation -/

/-- `_normalize_v2_replay_tags`: the tags of a request from before schema 3, as its migration stored them -/
def migrateTag (tag : Text) : Text :=
  let rec dropHashes : Text → Nat → Text
    | t, 0 => t
    | t, n + 1 =>
      match t with
      | c :: cs => if c == '#' || c == '＃' then dropHashes (cs.dropWhile Text.isSpace) n else t
      | [] => []
  let replaced := (dropHashes tag tag.length).map
    (fun c => if c == '#' || c == '＃' then '井' else if c == '，' then '、' else c)
  if replaced.isEmpty then "井".toList else replaced

def normalizeV2ReplayTags (tags : Raw) : Except Code (List Text) :=
  match tags with
  | .list xs => do
    require (xs.length ≤ 10) "invalid_tags"
    let legacy ← each (fun tag => normalizeUploadText tag 20 true) xs
    require (legacy.Nodup ∧ ∀ tag ∈ legacy, tag.all (fun c => !(c == ',' || c == '\n' || c == '\r' || c == '\t')) = true)
      "invalid_tags"
    return (legacy.map migrateTag).foldl (fun acc tag => if tag ∈ acc then acc else acc ++ [tag]) []
  | _ => throw "invalid_tags"

/-- the digest a request of version 1 has -/
def legacyRequestDigest (accounts : List Account) (intent : UploadIntent) (title description : Text)
    (tags : List Text) (credit : Text) : Except Code Digest := do
  let category ← parseCategory intent.category_id
  let mode ← parseMode intent.mode
  let copyright ← parseCopyright intent.copyright
  let credit := if copyright = some 1 ∧ ∃ a ∈ accounts, a.platform = .bilibili then [] else credit
  return host.sha256 (.legacy intent.source_id (intent.account_ids.mergeSort (fun a b => a ≤ b)) title description
    tags category mode copyright credit)

/-- the draft of one target -/
def rootRow (source_id : Ident) (item : Target × Ident) : JobRow where
  id := item.2
  source_id := source_id
  content := item.1.toContent
  state := .draft
  code := ""
  retry_of := none

/-- `INSERT INTO jobs` of one target -/
def insertRoot (source_id : Ident) (db : DB) (item : Target × Ident) : Except Code DB := do
  let jobs ← fetch (db.jobs.insert (rootRow source_id item)) "IntegrityError"
  return { db with jobs }

/-- the replay of a request that a ledger row answers -/
def replayRequest (env : Env) (db : DB) (prior : Request) (accounts : List Account) (intent : UploadIntent)
    (title description : Text) (tags : Except Code (List Text)) (credit : Text)
    (overrides : List (Ident × TargetOverride)) : Except Code (List Job) := do
  match prior.digest_version with
  | .v1 =>
    let replay_tags ← match tags with
      | .ok tags => pure tags
      | .error _ => normalizeV2ReplayTags intent.tags
    let digest ← legacyRequestDigest host accounts intent title description replay_tags credit
    require (intent.target_overrides = [] ∧ prior.digest = digest) "idempotency_conflict"
  | .v2 =>
    let tags ← tags
    let targets ← normalizeTargets host env db accounts (intent.base title description tags credit) overrides
      unverified
    require (prior.digest = requestDigest host intent.source_id (targets.map Target.entry)) "idempotency_conflict"
  each (getJob db) prior.job_ids

/-- the target of one account of a new request -/
def createTarget (env : Env) (db : DB) (base : RawTarget) (overrides : List (Ident × TargetOverride))
    (account : Account) : Except Code Target := do
  require (account.lifecycle_state = .active) "account_disconnected"
  normalizeTarget host.unicode env db account base (overrideFor overrides account.id) {}

/-- the insertion of a request that is new; `new_id i` is the identifier drawn for target `i` -/
def createRequest (env : Env) (db : DB) (accounts : List Account) (intent : UploadIntent)
    (title description : Text) (tags : List Text) (credit : Text) (overrides : List (Ident × TargetOverride))
    (idempotency_key : String) (new_id : Nat → Ident) : Except Code (DB × List Job) := do
  let source ← fetch (db.sources.get intent.source_id) "source_not_found"
  verifiedSourceMediaPath env source
  let targets ← each (createTarget host env db (intent.base title description tags credit) overrides) accounts
  let job_ids := (List.range targets.length).map new_id
  let db' ← thread (insertRoot intent.source_id) db (targets.zip job_ids)
  let row : Request :=
    { id := idempotency_key, digest := requestDigest host intent.source_id (targets.map Target.entry), job_ids,
      digest_version := .v2 }
  let requests ← fetch (db'.requests.insert row) "IntegrityError"
  let db' : DB := { db' with requests }
  return (db', ← each (getJob db') job_ids)

def createJobs (env : Env) (db : DB) (intent : UploadIntent) (idempotency_key : String)
    (expected_account_bindings : Option (List AccountBinding)) (new_id : Nat → Ident) :
    Except Code (DB × List Job) := do
  require (1 ≤ intent.account_ids.length ∧ intent.account_ids.length ≤ 20 ∧ intent.account_ids.Nodup)
    "invalid_accounts"
  let title ← normalizeUploadText intent.title 100 true
  let description ← normalizeUploadText intent.description 2000 false
  let credit ← normalizeUploadText intent.source_credit 200 false
  let tags := normalizeUploadTags intent.tags
  require (intent.scalarsValid = true) "invalid_metadata"
  require (isRequestId idempotency_key = true) "invalid_idempotency_key"
  require (intent.target_overrides.length ≤ intent.account_ids.length) "invalid_target_overrides"
  let overrides ← overrideMap intent.account_ids "invalid_target_override" [] intent.target_overrides
  let prior := db.requests.get idempotency_key
  require (∀ row ∈ prior, row.job_ids ≠ []) "idempotency_conflict"
  let accounts ← each (fun id => fetch (db.accounts.get id) "account_not_found") intent.account_ids
  validateWorkflowAccountBindings db accounts expected_account_bindings intent.account_ids true
  match prior with
  | some row =>
    return (db, ← replayRequest host env db row accounts intent title description tags credit overrides)
  | none => do
    let tags ← tags
    createRequest host env db accounts intent title description tags credit overrides idempotency_key new_id

/-! ## cancellation of a stable key -/

def insertTombstone (db : DB) (idempotency_key : String) (digest : Digest) : Except Code DB := do
  let requests ← fetch
    (db.requests.insert { id := idempotency_key, digest, job_ids := [], digest_version := .v2 }) "IntegrityError"
  return { db with requests }

/-- `None` when the key was free and is now a tombstone, else the roots it owns -/
def claimOrReadWorkflowCancellation (db : DB) (idempotency_key : String) :
    Except Code (DB × Option (List Job)) := do
  require (isRequestId idempotency_key = true) "invalid_idempotency_key"
  let tombstone_digest := host.sha256 (.cancellation idempotency_key)
  match db.requests.get idempotency_key with
  | none => return (← insertTombstone db idempotency_key tombstone_digest, none)
  | some row =>
    require (row.digest_version = .v2) "upload_request_invalid"
    if row.job_ids = [] then
      require (row.digest = tombstone_digest) "upload_request_invalid"
      return (db, some [])
    else return (db, some (← requestJobsFromRow host db row none))

def claimWorkflowRequestForCancellation (env : Env) (db : DB) (idempotency_key : String)
    (expected_request : UploadIntent) : Except Code (DB × Option (List Job)) := do
  require (isRequestId idempotency_key = true) "invalid_idempotency_key"
  let identity ← workflowRequestIdentity host env db expected_request
  match db.requests.get idempotency_key with
  | none => return (← insertTombstone db idempotency_key identity.2, none)
  | some row =>
    require (row.digest_version = .v2 ∧ row.digest = identity.2) "upload_request_mismatch"
    if row.job_ids = [] then return (db, none)
    else return (db, some (← requestJobsFromRow host db row (some (expected_request.source_id, identity.1))))

end

end OpenFlame.Upload
