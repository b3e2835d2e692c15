import Mathlib.Algebra.Ring.Nat
import Mathlib.Data.List.Sort
import OpenFlame.Upload.Store

/-!
# Upload identities: payload keys, digests, session bindings and job batches

A digest is `host.sha256` of a `Preimage`: the canonical JSON text that the source builds.  Objects
are association lists in the order the source writes them; `sortKeys` is `sort_keys=True`.

* `UPLOAD_RETRY_PAYLOAD_KEYS`, `uploadRetryPayloadMatches`   what a retry keeps;
* `uploadJobDefinitionDigest`, `requestDigest`               the digests of a job and of a request;
* `workflowAccountBinding`                                   the login generation of an account.

`uploadRetryPayloadMatches_iff`: two jobs match iff their payloads are equal.
-/

set_option linter.all false

namespace OpenFlame.Upload
open Guard

/-! ## the payload, key by key -/

inductive PayloadKey where
  | accountId | sourceId | platform | title | description | tags | categoryId | mode | copyright | sourceCredit
  | coverLandscapeAssetId | coverPortraitAssetId | publishAtUnix | publishTimezoneOffsetMinutes | platformOptions
  deriving DecidableEq, Repr

/-- the text of the key -/
def PayloadKey.text : PayloadKey → String
  | .accountId => "account_id"
  | .sourceId => "source_id"
  | .platform => "platform"
  | .title => "title"
  | .description => "description"
  | .tags => "tags"
  | .categoryId => "category_id"
  | .mode => "mode"
  | .copyright => "copyright"
  | .sourceCredit => "source_credit"
  | .coverLandscapeAssetId => "cover_landscape_asset_id"
  | .coverPortraitAssetId => "cover_portrait_asset_id"
  | .publishAtUnix => "publish_at_unix"
  | .publishTimezoneOffsetMinutes => "publish_timezone_offset_minutes"
  | .platformOptions => "platform_options"

def UPLOAD_RETRY_PAYLOAD_KEYS : List PayloadKey :=
  [.accountId, .sourceId, .platform, .title, .description, .tags, .categoryId, .mode, .copyright, .sourceCredit,
    .coverLandscapeAssetId, .coverPortraitAssetId, .publishAtUnix, .publishTimezoneOffsetMinutes,
    .platformOptions]

/-- a value under a payload key -/
inductive Cell where
  | null
  | ident (id : Ident)
  | text (s : Text)
  | texts (ss : List Text)
  | int (n : Int)
  | platform (p : Platform)
  | mode (m : Mode)
  | options (o : Options)
  deriving DecidableEq, Repr

def Cell.ofIdent : Option Ident → Cell
  | none => null
  | some id => ident id

def Cell.ofInt : Option Int → Cell
  | none => null
  | some n => int n

theorem Cell.ofIdent_injective : Function.Injective Cell.ofIdent := by
  intro a b h
  cases a <;> cases b <;> cases h <;> rfl

theorem Cell.ofInt_injective : Function.Injective Cell.ofInt := by
  intro a b h
  cases a <;> cases b <;> cases h <;> rfl

/-- `job[key]` -/
def Job.field (j : Job) : PayloadKey → Cell
  | .accountId => .ident j.target.account_id
  | .sourceId => .ident j.source_id
  | .platform => .platform j.target.platform
  | .title => .text j.target.title
  | .description => .text j.target.description
  | .tags => .texts j.target.tags
  | .categoryId => .ofInt j.target.category_id
  | .mode => .mode j.target.mode
  | .copyright => .int j.target.copyright
  | .sourceCredit => .text j.target.source_credit
  | .coverLandscapeAssetId => .ofIdent j.target.cover_landscape_asset_id
  | .coverPortraitAssetId => .ofIdent j.target.cover_portrait_asset_id
  | .publishAtUnix => .ofInt j.target.publish_at_unix
  | .publishTimezoneOffsetMinutes => .ofInt j.target.publish_timezone_offset_minutes
  | .platformOptions => .options j.target.platform_options

def uploadRetryPayloadMatches (parent successor : Job) : Bool :=
  UPLOAD_RETRY_PAYLOAD_KEYS.all (fun key => successor.field key == parent.field key)

/-- the upload a job stands for -/
def Job.payload (j : Job) : Ident × Target := (j.source_id, j.target)

theorem uploadRetryPayloadMatches_iff {parent successor : Job} :
    uploadRetryPayloadMatches parent successor = true ↔ successor.payload = parent.payload := by
  constructor
  · intro h
    have hkey : ∀ key ∈ UPLOAD_RETRY_PAYLOAD_KEYS, successor.field key = parent.field key :=
      fun key hk => by simpa using List.all_eq_true.mp h key hk
    simp only [UPLOAD_RETRY_PAYLOAD_KEYS, List.mem_cons, List.not_mem_nil, or_false, forall_eq_or_imp, forall_eq,
      Job.field, Cell.ident.injEq, Cell.platform.injEq, Cell.text.injEq, Cell.texts.injEq, Cell.int.injEq,
      Cell.mode.injEq, Cell.options.injEq, Cell.ofIdent_injective.eq_iff, Cell.ofInt_injective.eq_iff] at hkey
    obtain ⟨pid, psrc, ⟨⟨_, _, _, _, _, _, _, _, _, _, _, _, _⟩, _⟩, _, _, _⟩ := parent
    obtain ⟨sid, ssrc, ⟨⟨_, _, _, _, _, _, _, _, _, _, _, _, _⟩, _⟩, _, _, _⟩ := successor
    simp only at hkey
    obtain ⟨rfl, rfl, rfl, rfl, rfl, rfl, rfl, rfl, rfl, rfl, rfl, rfl, rfl, rfl, rfl⟩ := hkey
    rfl
  · intro h
    obtain ⟨hsrc, ht⟩ := Prod.mk.inj h
    rw [uploadRetryPayloadMatches, List.all_eq_true]
    intro key _
    rw [beq_iff_eq]
    cases key <;> simp only [Job.field, hsrc, ht]

/-! ## digests -/

abbrev JsonObject := List (PayloadKey × Cell)

/-- `sort_keys=True` -/
def sortKeys (o : JsonObject) : JsonObject := o.mergeSort (fun a b => a.1.text ≤ b.1.text)

/-- the texts that are hashed -/
inductive Preimage where
  | request (source_id : Ident) (targets : List JsonObject)
  | job (fields : JsonObject)
  | legacy (source_id : Ident) (account_ids : List Ident) (title description : Text) (tags : List Text)
      (category_id : Option Int) (mode : Mode) (copyright : Option Int) (source_credit : Text)
  | cancellation (idempotency_key : String)
  deriving DecidableEq, Repr

/-- the platform the service runs on: the character database and SHA-256 -/
structure Host where
  unicode : Unicode
  sha256 : Preimage → Digest

/-- a target as the mapping that is hashed, under its account -/
def Target.entry (t : Target) : Ident × JsonObject :=
  (t.account_id,
    [(.accountId, .ident t.account_id), (.platform, .platform t.platform), (.title, .text t.title),
      (.description, .text t.description), (.tags, .texts t.tags), (.categoryId, .ofInt t.category_id),
      (.mode, .mode t.mode), (.copyright, .int t.copyright), (.sourceCredit, .text t.source_credit),
      (.coverLandscapeAssetId, .ofIdent t.cover_landscape_asset_id),
      (.coverPortraitAssetId, .ofIdent t.cover_portrait_asset_id), (.publishAtUnix, .ofInt t.publish_at_unix),
      (.publishTimezoneOffsetMinutes, .ofInt t.publish_timezone_offset_minutes),
      (.platformOptions, .options t.platform_options)])

/-- a stored job as the mapping that is hashed: its payload without the source -/
def Job.entry (j : Job) : Ident × JsonObject :=
  (j.account_id,
    (UPLOAD_RETRY_PAYLOAD_KEYS.filter (fun key => key != .sourceId)).map (fun key => (key, j.field key)))

/-- the two mappings agree -/
theorem Job.entry_eq (j : Job) : j.entry = j.target.entry := rfl

/-- `{"source_id": .., "targets": sorted(.., key=account_id)}` -/
def requestPreimage (source_id : Ident) (entries : List (Ident × JsonObject)) : Preimage :=
  .request source_id ((entries.mergeSort (fun a b => a.1 ≤ b.1)).map (fun e => sortKeys e.2))

section
variable (host : Host)

def requestDigest (source_id : Ident) (entries : List (Ident × JsonObject)) : Digest :=
  host.sha256 (requestPreimage source_id entries)

def uploadJobDefinitionDigest (j : Job) : Digest :=
  host.sha256 (.job (sortKeys (UPLOAD_RETRY_PAYLOAD_KEYS.map (fun key => (key, j.field key)))))

/-- the digest depends on the payload alone -/
theorem uploadJobDefinitionDigest_congr {j j' : Job} (h : j.payload = j'.payload) :
    uploadJobDefinitionDigest host j = uploadJobDefinitionDigest host j' := by
  have hfield : j.field = j'.field := by
    obtain ⟨hsrc, ht⟩ := Prod.mk.inj h
    funext key
    cases key <;> simp only [Job.field, hsrc, ht]
  unfold uploadJobDefinitionDigest
  rw [hfield]

end

/-! ## session bindings -/

structure AccountBinding where
  account_id : Ident
  platform : Platform
  session_revision : Ident
  deriving DecidableEq, Repr

def normalizeAccountBindings (bindings : List AccountBinding) : Except Code (List AccountBinding) := do
  require (bindings.map AccountBinding.account_id).Nodup "invalid_account_bindings"
  return bindings

/-- the last login operation of an account, in `rowid` order -/
def latestLogin (db : DB) (account_id : Ident) : Option Operation :=
  (db.operations.filter (fun o => o.account_id == account_id && o.action == .login)).getLast?

def workflowAccountBinding (db : DB) (account : Account) : AccountBinding where
  account_id := account.id
  platform := account.platform
  session_revision := ((latestLogin db account.id).map Operation.id).getD account.id

/-- one account of `_validate_workflow_account_bindings` -/
def checkAccountBinding (db : DB) (accounts : List Account) (bindings : List AccountBinding)
    (verify_current_session : Bool) (account_id : Ident) : Except Code PUnit := do
  let account ← fetch (accounts.find? (fun a => a.id == account_id)) "invalid_account_bindings"
  let expected ← fetch (bindings.find? (fun b => b.account_id == account_id)) "account_session_changed"
  let current := workflowAccountBinding db account
  require (if verify_current_session then expected = current else expected.platform = current.platform)
    "account_session_changed"

/-- `accounts` are the rows of `accounts_by_id` -/
def validateWorkflowAccountBindings (db : DB) (accounts : List Account) (expected : Option (List AccountBinding))
    (verify_account_ids : List Ident) (verify_current_session : Bool) : Except Code PUnit := do
  match expected with
  | none => return
  | some bindings =>
    require (bindings.length = accounts.length) "invalid_account_bindings"
    let normalized ← normalizeAccountBindings bindings
    require (∀ b ∈ normalized, ∃ a ∈ accounts, a.id = b.account_id) "invalid_account_bindings"
    let _ ← each (checkAccountBinding db accounts normalized verify_current_session) verify_account_ids

/-! ## job batches -/

/-- a mapping with the keys `UPLOAD_TARGET_KEYS` -/
structure UploadSlot where
  job_id : Ident
  source_id : Ident
  account_id : Ident
  platform : Platform
  deriving DecidableEq, Repr

def normalizeUploadTargets (job_ids : List Ident) (expected_targets : List UploadSlot) (maximum_jobs : Nat) :
    Except Code (List UploadSlot) := do
  require (1 ≤ job_ids.length ∧ job_ids.length ≤ maximum_jobs ∧ expected_targets.length = job_ids.length)
    "invalid_job_batch"
  require (expected_targets.map UploadSlot.job_id = job_ids) "invalid_job_batch"
  return expected_targets

def normalizeUploadJobBatch (job_ids : List Ident) (expected_targets : Option (List UploadSlot))
    (maximum_jobs : Nat) : Except Code (List Ident × Option (List UploadSlot)) := do
  require (1 ≤ job_ids.length ∧ job_ids.length ≤ maximum_jobs) "invalid_job_batch"
  require job_ids.Nodup "invalid_job_batch"
  match expected_targets with
  | none => return (job_ids, none)
  | some targets => do return (job_ids, some (← normalizeUploadTargets job_ids targets maximum_jobs))

/-- the slot names the source, account and platform of the job -/
def UploadSlot.matchesJob (slot : UploadSlot) (j : Job) : Bool :=
  j.source_id == slot.source_id && j.account_id == slot.account_id && j.platform == slot.platform

def bindCurrentUploadTarget (j : Job) (slot : UploadSlot) : Except Code UploadSlot := do
  require (slot.matchesJob j = true) "invalid_job_batch"
  return { slot with job_id := j.id }

end OpenFlame.Upload
