import OpenFlame.Backup.Restore

/-!
# Loading a backup of the uploads

`validateManifestEntryPath`   `_validate_manifest_entry_path`
`validateMetadata`            `_validate_metadata`
`loadUploadBackup`            `_load_and_verify_backup` of `uploads/backup.py`

`UploadLoads`                 what has to be true of a backup for nothing uncaught to be raised

* `loadUploadBackup_raises`   **only what is caught is raised, iff `UploadLoads`.**
-/

set_option linter.all false

namespace OpenFlame.Backup
open Guard Points

def UPLOAD_BACKUP_METADATA_NAME : String := "backup-metadata.json"
def UPLOAD_DATABASE_PAYLOAD_PATH : String := "payload/uploads.sqlite3"
def UPLOAD_MEDIA_PAYLOAD_PREFIX : String := "payload/media"
def UPLOAD_ASSET_PAYLOAD_PREFIX : String := "payload/assets"
def UPLOAD_SCHEMA_VERSION : Int := 4
def CONSISTENCY : String := "exclusive_upload_activity_and_worker_plus_stable_sqlite_snapshot"
def EXCLUDED_PATHS : List String := [".open-flame-setup.lock", ".worker.lock", "incoming", "private", "runtime"]
def ACCOUNT_FIELDS : List String :=
  ["id", "platform", "name", "auth_state", "code", "created_at", "lifecycle_state", "disconnected_at"]
def PRESERVED_TABLES : List String :=
  ["accounts", "sources", "upload_assets", "jobs", "operations", "requests", "upload_attempts"]
def FORMAT2_PRESERVED_TABLES : List String := ["accounts", "sources", "upload_assets", "jobs", "operations", "requests"]
def LEGACY_PRESERVED_TABLES : List String := ["accounts", "sources", "jobs", "operations", "requests"]

def FORMAT12_RESTORE_POLICY : List (String × String) :=
  [("ready_or_checking_account", "unchecked_account_missing"),
    ("queued_job", "draft_restart_confirmation_required"),
    ("running_job", "unknown_interrupted_result_unknown"),
    ("queued_or_running_operation", "failed_operation_interrupted")]

def RESTORE_POLICY : List (String × String) :=
  [("ready_or_checking_account", "unchecked_account_missing"),
    ("queued_job", "draft_restart_confirmation_required"),
    ("running_job", "unknown_attempt_receipt_missing"),
    ("queued_or_running_operation", "failed_operation_interrupted"),
    ("reserved_upload_attempt", "responded_failed_dispatch_not_started"),
    ("dispatch_may_have_started_upload_attempt", "unknown_interrupted_result_unknown")]

def MANIFEST_KEYS : List String := ["algorithm", "entries", "format_version", "metadata_path"]

def LEGACY_METADATA_KEYS : List String :=
  ["account_fields", "application_version", "consistency", "created_at", "database_payload_path", "excluded_paths",
    "format_version", "media_payload_prefix", "media_scope", "payload_file_count", "payload_total_bytes", "preserved_tables",
    "restore_policy", "schema_version", "secret_material_included"]

def METADATA_KEYS : List String := LEGACY_METADATA_KEYS ++ ["asset_payload_prefix", "asset_scope"]

def SUFFIXES : List String := [".mp4", ".mov", ".m4v", ".webm", ".mkv", ".avi"]
def COVER_SUFFIXES : List String := [".jpg", ".jpeg", ".png", ".webp"]

/-! ## paths -/

/-- `PurePosixPath(name).suffix` of one component -/
def suffixOf (name : Text) : Text :=
  let back := (name.reverse.takeWhile (· ≠ .scalar '.')).reverse
  if .scalar '.' ∈ name ∧ back ≠ [] ∧ back.length + 1 < name.length then .scalar '.' :: back else []

/-- `[0-9a-f]{32}` -/
def isId (s : Text) : Bool := s.length == 32 && s.all (fun p => p.scalar?.any isHexDigit)

/-- an id and one of these suffixes -/
def isIdFile (suffixes : List String) (name : Text) : Bool :=
  (suffixes.map text).contains (suffixOf name) && isId (name.take (name.length - (suffixOf name).length))

/-- `_validate_manifest_entry_path` -/
def validateManifestEntryPath (format_version : Int) (relative : Text) : Except String Unit :=
  if relative = text UPLOAD_BACKUP_METADATA_NAME ∨ relative = text UPLOAD_DATABASE_PAYLOAD_PATH then .ok ()
  else match relativeTo (pathParts (text UPLOAD_MEDIA_PAYLOAD_PREFIX)) (pathParts relative) with
  | none => match relativeTo (pathParts (text UPLOAD_ASSET_PAYLOAD_PREFIX)) (pathParts relative) with
    | none => .error "upload backup payload path is unexpected"
    | some asset_relative =>
      if (format_version = 2 ∨ format_version = 3) ∧ asset_relative.length = 1 ∧
          asset_relative.all (isIdFile COVER_SUFFIXES) = true then .ok ()
      else .error "upload backup asset path is invalid"
  | some media_relative =>
    if media_relative.length = 1 ∧ media_relative.all (isIdFile SUFFIXES) = true then .ok ()
    else .error "upload backup media path is invalid"

section
variable {F : Type} (py : Python F)

/-! ## the metadata -/

/-- `value == [..]` of texts -/
def isTexts (v : Value F) (texts : List String) : Bool := match v with
  | .arr vs => vs.length == texts.length && (vs.zip texts).all (fun p => isText p.1 p.2)
  | _ => false

/-- `value == {..}` of texts -/
def isTextDict (v : Value F) (members : List (String × String)) : Bool := match v with
  | .obj ms => decide (HasKeys ms (members.map Prod.fst) (members.map Prod.fst)) &&
      members.all (fun m => isText (get ms m.1) m.2)
  | _ => false

/-- by the format: the schema, the tables and the policy that it declares -/
def expectedSchema (format_version : Int) : Int :=
  if format_version = 1 then 2 else if format_version = 2 then 3 else UPLOAD_SCHEMA_VERSION

def expectedTables (format_version : Int) : List String :=
  if format_version = 1 then LEGACY_PRESERVED_TABLES else if format_version = 2 then FORMAT2_PRESERVED_TABLES
  else PRESERVED_TABLES

def expectedRestorePolicy (format_version : Int) : List (String × String) :=
  if format_version = 3 then RESTORE_POLICY else FORMAT12_RESTORE_POLICY

/-- the first condition of `_validate_metadata` -/
def isMetadata (metadata : List (Text × Value F)) (entries : List Entry) (format_version : Int) : Bool :=
  let has_assets := 2 ≤ format_version
  let keys := if has_assets then METADATA_KEYS else LEGACY_METADATA_KEYS
  decide (HasKeys metadata keys keys) &&
  int? (get metadata "format_version") == some format_version &&
  int? (get metadata "schema_version") == some (expectedSchema format_version) &&
  isText (get metadata "database_payload_path") UPLOAD_DATABASE_PAYLOAD_PATH &&
  isText (get metadata "media_payload_prefix") UPLOAD_MEDIA_PAYLOAD_PREFIX &&
  (!decide has_assets || isText (get metadata "asset_payload_prefix") UPLOAD_ASSET_PAYLOAD_PREFIX) &&
  int? (get metadata "payload_file_count") == some (Int.ofNat (payloadEntries entries).length) &&
  int? (get metadata "payload_total_bytes") == some (totalBytes entries) &&
  isText (get metadata "consistency") CONSISTENCY &&
  isTexts (get metadata "excluded_paths") EXCLUDED_PATHS &&
  isText (get metadata "media_scope") "registered_present_media_only" &&
  (!decide has_assets || isText (get metadata "asset_scope") "registered_present_cover_assets_only") &&
  bool? (get metadata "secret_material_included") == some false &&
  isTexts (get metadata "account_fields") ACCOUNT_FIELDS &&
  isTexts (get metadata "preserved_tables") (expectedTables format_version) &&
  isTextDict (get metadata "restore_policy") (expectedRestorePolicy format_version) &&
  (text? (get metadata "application_version")).any (fun s => !s.isEmpty) &&
  (text? (get metadata "created_at")).any py.isAware

/-- `is_relative_to` -/
def isRelativeTo (path : Text) (front : String) : Bool := (relativeTo (pathParts (text front)) (pathParts path)).isSome

/-- `_validate_metadata` -/
def validateMetadata (metadata : List (Text × Value F)) (entries : List Entry) (format_version : Int) : Except Raised Unit := do
  require (isMetadata py metadata entries format_version = true) (.restore "upload backup metadata is invalid")
  let paths := (payloadEntries entries).map (·.path)
  require (text UPLOAD_DATABASE_PAYLOAD_PATH ∈ paths) (.restore "upload database payload is missing")
  require (∀ path ∈ paths, path = text UPLOAD_DATABASE_PAYLOAD_PATH ∨ isRelativeTo path UPLOAD_MEDIA_PAYLOAD_PREFIX = true ∨
    (2 ≤ format_version ∧ isRelativeTo path UPLOAD_ASSET_PAYLOAD_PREFIX = true))
    (.restore "upload backup payload path is unexpected")

/-! ## loading -/

/-- the hash record, and the manifest that has this hash -/
def readUploadHash (source : Source) : Except Raised (List Char) := do
  let raw ← control source.hash_record
  let hash_text ← (decodeAscii raw).mapError (fun _ => .restore "upload manifest hash record is invalid")
  require (isHashRecord hash_text = true) (.restore "upload manifest hash record is invalid")
  let digest ← control source.manifest_sha256
  require (digest = Text.strip hash_text) (.restore "upload manifest hash mismatch")
  return Text.strip hash_text

/-- the version of a manifest that has its keys -/
def headerVersion (manifest : List (Text × Value F)) : Option Int := do
  let format_version ← int? (get manifest "format_version")
  if HasKeys manifest MANIFEST_KEYS MANIFEST_KEYS ∧ format_version ∈ [1, 2, 3] ∧
      isText (get manifest "algorithm") "sha256" = true ∧
      isText (get manifest "metadata_path") UPLOAD_BACKUP_METADATA_NAME = true then
    some format_version
  else none

/-- the manifest up to its entries, and its version -/
def readUploadHeader (source : Source) : Except Raised (Int × List (Value F)) := do
  let manifest ← readJsonMapping py source.manifest
  let format_version ← fetch (headerVersion manifest) (.restore "upload manifest header is invalid")
  let raw_entries ← fetch (array? (get manifest "entries")) (.restore "upload manifest entry count is invalid")
  require (1 ≤ raw_entries.length ∧ raw_entries.length ≤ MAX_BACKUP_ENTRIES)
    (.restore "upload manifest entry count is invalid")
  return (format_version, raw_entries)

/-- the loop over the entries -/
def readUploadEntries (source : Source) (format_version : Int) (raws : List (Value F)) : Except Raised Seen :=
  thread (readEntry py source (validateManifestEntryPath format_version) "upload manifest entry is invalid"
    "upload manifest paths collide") ([], []) raws

/-- the entries are in the order of their casefolded paths -/
def IsCanonical (entries : List Entry) : Prop :=
  entries.Pairwise (fun a b => before (py.casefold b.path) (py.casefold a.path) = false)

instance (entries : List Entry) : Decidable (IsCanonical py entries) := inferInstanceAs (Decidable (List.Pairwise _ _))

/-- `_load_and_verify_backup`; `streams` is `_assert_no_windows_named_streams` -/
def loadUploadBackup (streams : Except Raised Unit) (source : Source) : Except Raised (Loaded F) := do
  streams
  let hash ← readUploadHash source
  let header ← readUploadHeader py source
  let seen ← readUploadEntries py source header.1 header.2
  require (IsCanonical py seen.2) (.restore "upload manifest entries are not canonical")
  let files ← source.scan
  require (files.map py.casefold).Nodup (.restore "upload backup paths collide")
  require (SameFiles py seen files) (.restore "upload backup contains untracked or missing files")
  require (text UPLOAD_BACKUP_METADATA_NAME ∈ seen.2.map (·.path))
    (.restore "upload backup metadata is not covered by its manifest")
  let metadata ← readJsonMapping py source.metadata
  validateMetadata py metadata seen.2 header.1
  return (hash, seen.2, metadata)

/-! ## what is caught -/

/-- the `except` clauses: what a caught exception becomes -/
def uploadCaught : Raised → Option Raised
  | .restore message => some (.restore message)
  | .schema => some (.restore "upload backup database schema is invalid")
  | .os => some (.restore "upload restore operation failed")
  | .sqlite => some (.restore "upload restore operation failed")
  | .value => some (.restore "upload restore operation failed")
  | .type => some (.restore "upload restore operation failed")
  | _ => none

/-- an exception that an `except` clause catches -/
def UploadCaught (e : Raised) : Prop := (uploadCaught e).isSome = true

/-- a control file that is JSON, when it is, is not nested too deep -/
def Shallow (raw : Except String ByteArray) : Prop :=
  ∀ bytes, raw = .ok bytes → ∀ text, bytes.utf8Decode? = some text → loads py.toFloats py.limits text.toList ≠ .error .recursion

/-- an entry's path is not a dot -/
def Undotted (raw : Value F) : Prop := ∀ ms, entryMembers raw = some ms → text? (get ms "path") ≠ some (text ".")

/-- **What a backup must be** for what is raised of it to be caught: its directory is looked through and scanned without
an uncaught exception, the manifest and the metadata are not nested too deep, and no path is a dot.  Each of these only
when it is looked at. -/
structure UploadLoads (streams : Except Raised Unit) (source : Source) : Prop where
  walked : Raises streams UploadCaught
  manifest : streams = .ok () → ∀ hash, readUploadHash source = .ok hash → Shallow py source.manifest
  undotted : streams = .ok () → ∀ hash, readUploadHash source = .ok hash → ∀ header, readUploadHeader py source = .ok header →
    ∀ front raw back, header.2 = front ++ raw :: back → ∀ seen, readUploadEntries py source header.1 front = .ok seen →
      Undotted raw
  scanned : streams = .ok () → ∀ hash, readUploadHash source = .ok hash → ∀ header, readUploadHeader py source = .ok header →
    ∀ seen, readUploadEntries py source header.1 header.2 = .ok seen → IsCanonical py seen.2 → Raises source.scan UploadCaught
  metadata : streams = .ok () → ∀ hash, readUploadHash source = .ok hash → ∀ header, readUploadHeader py source = .ok header →
    ∀ seen, readUploadEntries py source header.1 header.2 = .ok seen → IsCanonical py seen.2 → ∀ files,
      source.scan = .ok files → (files.map py.casefold).Nodup → SameFiles py seen files →
        text UPLOAD_BACKUP_METADATA_NAME ∈ seen.2.map (·.path) → Shallow py source.metadata

variable {py}

theorem covers_uploadCaught : Covers UploadCaught := fun _ => rfl

theorem not_uploadCaught_index : ¬ UploadCaught .index := Bool.false_ne_true

theorem not_uploadCaught_recursion : ¬ UploadCaught .recursion := Bool.false_ne_true

theorem uploadCaught_declared {e e' : Raised} (h : uploadCaught e = some e') : e'.Declared := by
  cases e with
  | restore message => exact Option.some.inj h ▸ declared message
  | schema => exact Option.some.inj h ▸ declared _
  | sqlite => exact Option.some.inj h ▸ declared _
  | os => exact Option.some.inj h ▸ declared _
  | value => exact Option.some.inj h ▸ declared _
  | type => exact Option.some.inj h ▸ declared _
  | index => cases h
  | recursion => cases h
  | other => cases h

theorem Raised.Declared.uploadCaught {e : Raised} (h : e.Declared) : UploadCaught e := by
  obtain ⟨message, rfl⟩ := h
  rfl

theorem readJsonMapping_caught {raw : Except String ByteArray} :
    Raises (readJsonMapping py raw) UploadCaught ↔ Shallow py raw := by
  rw [readJsonMapping_covers covers_uploadCaught]
  refine forall₄_congr (fun bytes _ text _ => ?_)
  unfold loadMapping
  split
  · next h =>
    rw [h]
    exact iff_of_true raises_ok nofun
  · next h =>
    rw [h]
    refine iff_of_true ?_ nofun
    intro e he
    cases he
    exact covers_uploadCaught _
  · next h =>
    rw [h]
    refine iff_of_true ?_ nofun
    intro e he
    cases he
    rfl
  · next h => exact iff_of_false (fun hraises => not_uploadCaught_recursion (hraises _ rfl)) (fun hne => hne h)

theorem readEntry_caught {source : Source} {check : Text → Except String Unit} {invalid duplicate : String} {seen : Seen}
    {raw : Value F} : Raises (readEntry py source check invalid duplicate seen raw) UploadCaught ↔ Undotted raw := by
  rw [readEntry_covers covers_uploadCaught]
  refine forall₂_congr (fun ms _ => ?_)
  rw [validatedRelativePath_covers covers_uploadCaught]
  have hverify (entry : Entry) : Raises (verifyRegularFile py source entry) UploadCaught := by
    unfold verifyRegularFile
    split
    · exact control_covers covers_uploadCaught _
    · intro e he
      cases he
      rfl
  exact ⟨fun h hdot => not_uploadCaught_index (h.1 hdot), fun h =>
    ⟨fun hdot => absurd hdot h, fun _ entry _ _ _ _ => hverify entry⟩⟩

theorem readUploadEntries_caught {source : Source} {format_version : Int} {raws : List (Value F)} :
    Raises (readUploadEntries py source format_version raws) UploadCaught ↔ ∀ front raw back, raws = front ++ raw :: back →
      ∀ seen, readUploadEntries py source format_version front = .ok seen → Undotted raw := by
  unfold readUploadEntries
  rw [raises_thread_iff]
  exact forall₅_congr (fun front raw back _ seen => forall_congr' (fun _ => readEntry_caught))

/-! ## what loading raises -/

theorem readUploadHash_caught (source : Source) : Raises (readUploadHash source) UploadCaught := by
  unfold readUploadHash
  simp only [raises_bind]
  exact ⟨control_covers covers_uploadCaught _, fun raw _ => ⟨raises_mapError (fun _ _ => covers_uploadCaught _), fun _ _ =>
    ⟨raises_require (covers_uploadCaught _), fun _ _ => ⟨control_covers covers_uploadCaught _, fun _ _ =>
      ⟨raises_require (covers_uploadCaught _), fun _ _ => raises_pure⟩⟩⟩⟩⟩

theorem readUploadHeader_caught {source : Source} :
    Raises (readUploadHeader py source) UploadCaught ↔ Shallow py source.manifest := by
  unfold readUploadHeader
  simp only [raises_bind]
  rw [readJsonMapping_caught]
  exact ⟨fun h => h.1, fun h => ⟨h, fun _ _ => ⟨raises_fetch (covers_uploadCaught _), fun _ _ =>
    ⟨raises_fetch (covers_uploadCaught _), fun _ _ => ⟨raises_require (covers_uploadCaught _), fun _ _ => raises_pure⟩⟩⟩⟩⟩

/-- **Only what is caught is raised of a backup iff it is as `UploadLoads` says.** -/
theorem loadUploadBackup_raises {streams : Except Raised Unit} {source : Source} :
    Raises (loadUploadBackup py streams source) UploadCaught ↔ UploadLoads py streams source := by
  unfold loadUploadBackup
  simp only [raises_bind, require_eq_ok]
  constructor
  · rintro ⟨hstreams, h⟩
    have hload (hok : streams = .ok ()) (hash : List Char) (hhash : readUploadHash source = .ok hash) :=
      (h () hok).2 hash hhash
    refine ⟨hstreams, fun hok hash hhash => readUploadHeader_caught.mp (hload hok hash hhash).1, ?_, ?_, ?_⟩
    · intro hok hash hhash header hheader
      exact readUploadEntries_caught.mp ((hload hok hash hhash).2 header hheader).1
    · intro hok hash hhash header hheader seen hseen hcanonical
      exact ((((hload hok hash hhash).2 header hheader).2 seen hseen).2 ⟨⟩ hcanonical).1
    · intro hok hash hhash header hheader seen hseen hcanonical files hfiles hnodup hsame hcovered
      have hfiles := ((((hload hok hash hhash).2 header hheader).2 seen hseen).2 ⟨⟩ hcanonical).2 files hfiles
      have hmetadata := ((hfiles.2 ⟨⟩ hnodup).2 ⟨⟩ hsame).2 ⟨⟩ hcovered
      exact readJsonMapping_caught.mp hmetadata.1
  · intro h
    have hp := covers_uploadCaught
    refine ⟨h.walked, fun _ hok => ⟨readUploadHash_caught source, fun hash hhash =>
      ⟨readUploadHeader_caught.mpr (h.manifest hok hash hhash), fun header hheader =>
        ⟨readUploadEntries_caught.mpr (h.undotted hok hash hhash header hheader), fun seen hseen =>
          ⟨raises_require (hp _), fun _ hcanonical =>
            ⟨h.scanned hok hash hhash header hheader seen hseen hcanonical, fun files hfiles =>
              ⟨raises_require (hp _), fun _ hnodup => ⟨raises_require (hp _), fun _ hsame =>
                ⟨raises_require (hp _), fun _ hcovered => ⟨?_, fun metadata _ => ⟨?_, fun _ _ => raises_pure⟩⟩⟩⟩⟩⟩⟩⟩⟩⟩⟩
    · exact readJsonMapping_caught.mpr
        (h.metadata hok hash hhash header hheader seen hseen hcanonical files hfiles hnodup hsame hcovered)
    · unfold validateMetadata
      simp only [raises_bind]
      exact ⟨raises_require (hp _), fun _ _ => ⟨raises_require (hp _), fun _ _ => raises_require (hp _)⟩⟩

end

end OpenFlame.Backup
