import OpenFlame.Base.Effect
import OpenFlame.Backup.Manifest

/-!
# Restoring a backup

`loadAndVerifyBackup`   `_load_and_verify_backup`
`restoreBackup`         `restore_backup`

`Loads`      what has to be true of a backup for `_load_and_verify_backup` to raise nothing undeclared
`Converts`   what has to be true of it, and of the final audit, for `restore_backup`

* `loadAndVerifyBackup_raises`   the first raises `BackupRestoreError` only, iff `Loads`;
* `restoreBackup_settled`        what is declared leaves nothing behind;
* `restoreBackup_iff`            **a target is published whole, or nothing is left and the error is declared, iff `Converts`.**
-/

set_option linter.all false

namespace OpenFlame.Backup
open Guard Points
open Effect (ask modify tryExcept)

def BACKUP_FORMAT_VERSION : Int := 1
def BACKUP_METADATA_NAME : String := "backup-metadata.json"
def BACKUP_MANIFEST_NAME : String := "backup-manifest.json"
def BACKUP_MANIFEST_HASH_NAME : String := "backup-manifest.sha256"
def DATABASE_PAYLOAD_PATH : String := "payload/database/control.sqlite3"
def DATA_PAYLOAD_PREFIX : String := "payload/data"
def MAX_BACKUP_ENTRIES : Nat := 1000000
def SCHEMA_VERSION : Int := 11

section
variable {F : Type} (py : Python F)

/-! ## loading -/

/-- the hash record, and the manifest that has this hash -/
def readHash (source : Source) : Except Raised (List Char) := do
  let raw ← control source.hash_record
  let hash_text ← decodeAscii raw
  require (isHashRecord hash_text = true) (.restore "backup manifest hash record is invalid")
  let digest ← control source.manifest_sha256
  require (digest = Text.strip hash_text) (.restore "backup manifest hash mismatch")
  return Text.strip hash_text

/-- the manifest up to its entries -/
def readHeader (source : Source) : Except Raised (List (Value F)) := do
  let manifest ← readJsonMapping py source.manifest
  require (equals py (get manifest "format_version") BACKUP_FORMAT_VERSION = true ∧
      isText (get manifest "algorithm") "sha256" = true ∧ isText (get manifest "metadata_path") BACKUP_METADATA_NAME = true)
    (.restore "backup manifest header is invalid")
  let raw_entries ← fetch (array? (get manifest "entries")) (.restore "backup manifest entry count is invalid")
  require (1 ≤ raw_entries.length ∧ raw_entries.length ≤ MAX_BACKUP_ENTRIES) (.restore "backup manifest entry count is invalid")
  return raw_entries

/-- the loop over the entries -/
def readEntries (source : Source) (raws : List (Value F)) : Except Raised Seen :=
  thread (readEntry py source (fun _ => .ok ()) "backup manifest entry is invalid" "backup manifest has duplicate paths")
    ([], []) raws

/-- the files of a backup are those of its manifest -/
def SameFiles (seen : Seen) (files : List Text) : Prop :=
  let expected := seen.2.map (fun e => py.casefold e.path) ++
    [py.casefold (text BACKUP_MANIFEST_NAME), py.casefold (text BACKUP_MANIFEST_HASH_NAME)]
  (∀ f ∈ files, py.casefold f ∈ expected) ∧ ∀ e ∈ expected, e ∈ files.map py.casefold

instance (seen : Seen) (files : List Text) : Decidable (SameFiles py seen files) := inferInstanceAs (Decidable (_ ∧ _))

/-- the entries besides the metadata -/
def payloadEntries (entries : List Entry) : List Entry := entries.filter (fun e => e.path ≠ text BACKUP_METADATA_NAME)

def totalBytes (entries : List Entry) : Int := ((payloadEntries entries).map (·.size_bytes)).sum

/-- the metadata of a backup -/
def validMetadata (metadata : List (Text × Value F)) (entries : List Entry) : Except Raised Unit := do
  require (equals py (get metadata "format_version") BACKUP_FORMAT_VERSION = true ∧
      isText (get metadata "data_payload_prefix") DATA_PAYLOAD_PREFIX = true ∧
      isText (get metadata "database_payload_path") DATABASE_PAYLOAD_PATH = true) (.restore "backup metadata is invalid")
  require (equals py (get metadata "payload_file_count") (payloadEntries entries).length = true ∧
      equals py (get metadata "payload_total_bytes") (totalBytes entries) = true) (.restore "backup metadata totals are invalid")

/-- what is loaded of a backup -/
abbrev Loaded (F : Type) : Type := List Char × List Entry × List (Text × Value F)

/-- `_load_and_verify_backup` -/
def loadAndVerifyBackup (source : Source) : Except Raised (Loaded F) := do
  let hash ← readHash source
  let raws ← readHeader py source
  let seen ← readEntries py source raws
  require (py.casefold (text BACKUP_METADATA_NAME) ∈ seen.1) (.restore "backup metadata is not covered by manifest")
  let files ← source.scan
  require (SameFiles py seen files) (.restore "backup contains untracked or missing files")
  let metadata ← readJsonMapping py source.metadata
  validMetadata py metadata seen.2
  return (hash, seen.2, metadata)

/-- **What a backup must be** for what is raised of it to be declared: the hash record is ASCII; the manifest and the
metadata are within the limits of the interpreter; every path can be named; and the directory is scanned without an
undeclared exception.  Each of these only when it is looked at. -/
structure Loads (source : Source) : Prop where
  record : ∀ raw, source.hash_record = .ok raw → raw.all (· < 128) = true
  manifest : ∀ hash, readHash source = .ok hash → Limited py source.manifest
  named : ∀ hash, readHash source = .ok hash → ∀ raws, readHeader py source = .ok raws →
    ∀ front raw back, raws = front ++ raw :: back → ∀ seen, readEntries py source front = .ok seen →
      Named py (fun _ => .ok ()) seen raw
  scanned : ∀ hash, readHash source = .ok hash → ∀ raws, readHeader py source = .ok raws → ∀ seen,
    readEntries py source raws = .ok seen → py.casefold (text BACKUP_METADATA_NAME) ∈ seen.1 →
      Raises source.scan Raised.Declared
  metadata : ∀ hash, readHash source = .ok hash → ∀ raws, readHeader py source = .ok raws → ∀ seen,
    readEntries py source raws = .ok seen → py.casefold (text BACKUP_METADATA_NAME) ∈ seen.1 → ∀ files,
      source.scan = .ok files → SameFiles py seen files → Limited py source.metadata

/-! ## the disk -/

/-- a directory that a restore fills -/
structure Directory where
  /-- its files, with the entries that they are copies of -/
  files : List (Text × Entry)
  /-- the final audit of its database went well -/
  audited : Bool
  deriving DecidableEq

structure Disk where
  stage : Option Directory
  target : Option Directory
  deriving DecidableEq

/-- neither exists -/
def Disk.clean : Disk := ⟨none, none⟩

/-- what a step on files raises -/
inductive FileFault where
  | restore (message : String)
  | os

def FileFault.raised : FileFault → Raised
  | .restore message => .restore message
  | .os => .os

/-- what either restore meets in the file system -/
structure Files where
  /-- the checks of the paths that it is given -/
  paths : Except String Unit
  source : Source
  /-- `os.path.lexists(stage)` -/
  stage_exists : Bool
  /-- the free space; none raises `OSError` -/
  disk_free : Option Int
  /-- `stage.mkdir` raises `OSError` unless it is true -/
  mkdir : Bool
  /-- `_copy_regular_file`: the digest and the size of what was copied -/
  copy : Entry → Except FileFault (Text × Int)
  /-- `_sync_tree` -/
  sync_tree : Except String Unit
  /-- `os.replace` raises `OSError` unless it is true -/
  replace : Bool
  /-- `_sync_directory` of the directory that the target is in -/
  sync_parent : Except String Unit

/-- what `restore_backup` meets outside -/
structure Outside extends Files where
  /-- `_audit_database_and_assets` -/
  audit : Except Raised Unit

/-- how a restore copies an entry: where it goes, whether its key can be taken, and the messages -/
structure Copying where
  destination : Entry → Except Raised Text
  fresh : List Text → Text → Bool
  collision : String
  verification : String

/-- the restored database, inside the target -/
structure RestoreTarget where
  database_relative : Text

structure RestoreResult where
  manifest_sha256 : List Char
  file_count : Nat
  total_bytes : Int

/-! ## restoring -/

/-- where an entry goes in the target -/
def relativeDestination (target : RestoreTarget) (entry : Entry) : Except Raised Text :=
  if entry.path = text DATABASE_PAYLOAD_PATH then .ok target.database_relative
  else (fetch (relativeTo (pathParts (text DATA_PAYLOAD_PREFIX)) (pathParts entry.path))
    (.restore "backup contains an unexpected payload path")).map asPosix

/-- `not key or key in restored_paths` is a collision -/
def restoreCopying (target : RestoreTarget) : Copying where
  destination := relativeDestination target
  fresh restored_paths key := key ≠ [] ∧ key ∉ restored_paths
  collision := "restore destination path collision"
  verification := "restored file verification failed"

/-- the loop over the entries, without the metadata -/
def copyEntries (files : Files) (copying : Copying) : List Text → List Entry → Effect Disk Raised Unit
  | _, [] => pure ()
  | restored_paths, entry :: entries => do
    let destination ← ask (copying.destination entry)
    let key := py.casefold destination
    Effect.require (copying.fresh restored_paths key = true) (.restore copying.collision)
    let copied ← ask ((files.copy entry).mapError FileFault.raised)
    Effect.require (copied = (entry.sha256, entry.size_bytes)) (.restore copying.verification)
    modify (fun d => { d with stage := d.stage.map (fun s => { s with files := s.files ++ [(destination, entry)] }) })
    copyEntries files copying (key :: restored_paths) entries

/-- up to the audit -/
def stageFiles (o : Outside) (target : RestoreTarget) (entries : List Entry) : Effect Disk Raised Unit := do
  let free ← ask (fetch o.disk_free .os)
  Effect.require (totalBytes entries ≤ free) (.restore "insufficient free space for restore")
  Effect.require (o.mkdir = true) .os
  modify (fun d => { d with stage := some ⟨[], false⟩ })
  copyEntries py o.toFiles (restoreCopying target) [] (payloadEntries entries)

/-- `_publish_directory` -/
def publishDirectory (files : Files) : Effect Disk Raised Unit := do
  Effect.require (files.replace = true) (.restore "atomic directory publish failed")
  modify (fun d => ⟨none, d.stage⟩)
  tryExcept (ask (control files.sync_parent)) (fun e => do
    modify (fun d => { d with target := none })
    Effect.raise e)

/-- the body of the `try` -/
def restoreStage (o : Outside) (target : RestoreTarget) (loaded : Loaded F) : Effect Disk Raised RestoreResult := do
  stageFiles py o target loaded.2.1
  ask o.audit
  modify (fun d => { d with stage := d.stage.map (fun s => { s with audited := true }) })
  ask (control o.sync_tree)
  publishDirectory o.toFiles
  return { manifest_sha256 := loaded.1, file_count := (payloadEntries loaded.2.1).length, total_bytes := totalBytes loaded.2.1 }

/-- `_cleanup_stage`, that removes the stage -/
def cleanupStage : Effect Disk Raised Unit := modify (fun d => { d with stage := none })

/-- the `except` clauses: what a caught exception becomes -/
def caught : Raised → Option Raised
  | .restore message => some (.restore message)
  | .sqlite => some (.restore "restored database verification failed")
  | .os => some (.restore "restore storage operation failed")
  | .value => some (.restore "restore storage operation failed")
  | .type => some (.restore "restore storage operation failed")
  | _ => none

def handleRestore (e : Raised) : Effect Disk Raised RestoreResult :=
  match caught e with
  | some e' => do
    cleanupStage
    Effect.raise e'
  | none => Effect.raise e

/-- `restore_backup` -/
def restoreBackup (o : Outside) (target : RestoreTarget) : Effect Disk Raised RestoreResult := do
  ask (control o.paths)
  let loaded ← ask (loadAndVerifyBackup py o.source)
  Effect.require ((match get loaded.2.2 "schema_version" with | .bool _ => false | v => equals py v SCHEMA_VERSION) = true)
    (.restore "backup schema is unsupported")
  Effect.require (isText (get loaded.2.2 "database_payload_path") DATABASE_PAYLOAD_PATH = true)
    (.restore "backup database payload identity is invalid")
  Effect.require (o.stage_exists = false) (.restore "restore staging path collision")
  tryExcept (restoreStage py o target loaded) handleRestore

variable {py} {o : Outside} {target : RestoreTarget} {files : Files} {copying : Copying}

/-! ## what loading raises -/

theorem readHash_raises {source : Source} : Raises (readHash source) Raised.Declared ↔
    ∀ raw, source.hash_record = .ok raw → raw.all (· < 128) = true := by
  unfold readHash
  simp only [raises_bind]
  constructor
  · rintro ⟨-, h⟩ raw hraw
    exact decodeAscii_raises.mp (h raw (by rw [hraw]; rfl)).1
  · intro h
    refine ⟨control_raises _, fun raw hraw => ⟨decodeAscii_raises.mpr (h raw (mapError_eq_ok.mp hraw)), fun hash_text _ =>
      ⟨raises_require (declared _), fun _ _ => ⟨control_raises _, fun digest _ =>
        ⟨raises_require (declared _), fun _ _ => raises_pure⟩⟩⟩⟩⟩

theorem readHeader_raises {source : Source} : Raises (readHeader py source) Raised.Declared ↔ Limited py source.manifest := by
  unfold readHeader
  simp only [raises_bind]
  rw [readJsonMapping_raises]
  exact ⟨fun h => h.1, fun h => ⟨h, fun manifest _ => ⟨raises_require (declared _), fun _ _ =>
    ⟨raises_fetch (declared _), fun raws _ => ⟨raises_require (declared _), fun _ _ => raises_pure⟩⟩⟩⟩⟩

/-- **Loading a backup raises only `BackupRestoreError` iff the backup is as `Loads` says.** -/
theorem loadAndVerifyBackup_raises {source : Source} :
    Raises (loadAndVerifyBackup py source) Raised.Declared ↔ Loads py source := by
  unfold loadAndVerifyBackup
  simp only [raises_bind, require_eq_ok]
  rw [readHash_raises]
  constructor
  · rintro ⟨hrecord, h⟩
    refine ⟨hrecord, fun hash hhash => readHeader_raises.mp (h hash hhash).1, ?_, ?_, ?_⟩
    · intro hash hhash raws hraws
      exact readEntries_raises.mp ((h hash hhash).2 raws hraws).1
    · intro hash hhash raws hraws seen hseen hcovered
      exact ((((h hash hhash).2 raws hraws).2 seen hseen).2 ⟨⟩ hcovered).1
    · intro hash hhash raws hraws seen hseen hcovered files hfiles hsame
      have hrest := ((((h hash hhash).2 raws hraws).2 seen hseen).2 ⟨⟩ hcovered).2 files hfiles
      exact readJsonMapping_raises.mp (hrest.2 ⟨⟩ hsame).1
  · intro h
    refine ⟨h.record, fun hash hhash => ⟨readHeader_raises.mpr (h.manifest hash hhash), fun raws hraws =>
      ⟨readEntries_raises.mpr (h.named hash hhash raws hraws), fun seen hseen => ⟨raises_require (declared _), fun _ hcovered =>
        ⟨h.scanned hash hhash raws hraws seen hseen hcovered, fun files hfiles => ⟨raises_require (declared _), fun _ hsame =>
          ⟨readJsonMapping_raises.mpr (h.metadata hash hhash raws hraws seen hseen hcovered files hfiles hsame),
            fun metadata _ => ⟨?_, fun _ _ => raises_pure⟩⟩⟩⟩⟩⟩⟩⟩
    unfold validMetadata
    rw [raises_bind]
    exact ⟨raises_require (declared _), fun _ _ => raises_require (declared _)⟩

/-! ## what restoring raises -/

/-- an exception that an `except` clause catches -/
def Caught (e : Raised) : Prop := (caught e).isSome = true

theorem caught_declared {e e' : Raised} (h : caught e = some e') : e'.Declared := by
  cases e with
  | restore message => exact Option.some.inj h ▸ declared message
  | sqlite => exact Option.some.inj h ▸ declared _
  | os => exact Option.some.inj h ▸ declared _
  | value => exact Option.some.inj h ▸ declared _
  | type => exact Option.some.inj h ▸ declared _
  | schema => cases h
  | index => cases h
  | recursion => cases h
  | other => cases h

theorem Raised.Declared.caught {e : Raised} (h : e.Declared) : Caught e := by
  obtain ⟨message, rfl⟩ := h
  rfl

theorem control_caught {α : Type} {x : Except String α} : ∀ e, control x = .error e → Caught e :=
  fun e he => (control_raises x e he).caught

theorem handleRestore_raises {e : Raised} {d : Disk} :
    Effect.RaisesFrom (handleRestore e) d Raised.Declared ↔ Caught e := by
  unfold handleRestore Caught
  split
  · next e' h =>
    rw [h]
    refine iff_of_true ?_ rfl
    unfold cleanupStage
    rw [Effect.raisesFrom_bind_modify, Effect.raisesFrom_raise]
    exact caught_declared h
  · next h =>
    rw [h, Effect.raisesFrom_raise]
    refine iff_of_false (fun hdeclared => ?_) Bool.false_ne_true
    have hcaught := hdeclared.caught
    unfold Caught at hcaught
    rw [h] at hcaught
    cases hcaught

/-- copying raises `BackupRestoreError` and `OSError` -/
theorem copyEntries_raises {p : Raised → Prop} (hdeclared : ∀ e, e.Declared → p e) (hos : p .os)
    (hdestination : ∀ entry, Raises (copying.destination entry) Raised.Declared) {keys : List Text} {entries : List Entry}
    {d : Disk} : Effect.RaisesFrom (copyEntries py files copying keys entries) d p := by
  induction entries generalizing keys d with
  | nil => exact Effect.raisesFrom_pure ()
  | cons entry entries ih =>
    unfold copyEntries
    rw [Effect.raisesFrom_bind_ask]
    refine ⟨fun e he => hdeclared e (hdestination entry e he), fun destination _ => ?_⟩
    dsimp only
    rw [Effect.raisesFrom_bind_require (hdeclared _ (declared _))]
    intro _
    rw [Effect.raisesFrom_bind_ask]
    refine ⟨raises_mapError (fun fault _ => ?_), fun copied _ => ?_⟩
    · cases fault with
      | restore message => exact hdeclared _ (declared message)
      | os => exact hos
    · rw [Effect.raisesFrom_bind_require (hdeclared _ (declared _))]
      intro _
      rw [Effect.raisesFrom_bind_modify]
      exact ih

theorem relativeDestination_raises (entry : Entry) : Raises (relativeDestination target entry) Raised.Declared := by
  unfold relativeDestination
  split
  · exact raises_ok
  · exact raises_map (raises_fetch (declared _))

theorem stageFiles_caught {entries : List Entry} {d : Disk} :
    Effect.RaisesFrom (stageFiles py o target entries) d Caught := by
  unfold stageFiles
  rw [Effect.raisesFrom_bind_ask]
  refine ⟨raises_fetch (show Caught .os from rfl), fun free _ => ?_⟩
  rw [Effect.raisesFrom_bind_require (declared _).caught]
  intro _
  rw [Effect.raisesFrom_bind_require (show Caught .os from rfl)]
  intro _
  rw [Effect.raisesFrom_bind_modify]
  exact copyEntries_raises (fun _ h => h.caught) rfl relativeDestination_raises

/-- publishing raises `BackupRestoreError` -/
theorem publishDirectory_raises {d : Disk} : Effect.RaisesFrom (publishDirectory files) d Raised.Declared := by
  unfold publishDirectory
  rw [Effect.raisesFrom_bind_require (declared _)]
  intro _
  rw [Effect.raisesFrom_bind_modify, Effect.raisesFrom_tryExcept]
  intro e s' hs
  obtain ⟨he, rfl⟩ := Prod.mk.inj hs
  rw [Effect.raisesFrom_bind_modify, Effect.raisesFrom_raise]
  exact control_raises _ e he

/-- of the body, only the audit can raise what is not caught -/
theorem restoreStage_caught {loaded : Loaded F} {d : Disk} : Effect.RaisesFrom (restoreStage py o target loaded) d Caught ↔
    ∀ d', stageFiles py o target loaded.2.1 d = (.ok (), d') → ∀ e, o.audit = .error e → Caught e := by
  unfold restoreStage
  rw [Effect.raisesFrom_bind]
  constructor
  · rintro ⟨-, h⟩ d' hd
    exact (Effect.raisesFrom_bind_ask.mp (h () d' hd)).1
  · intro h
    refine ⟨stageFiles_caught, fun _ d' hd => ?_⟩
    rw [Effect.raisesFrom_bind_ask]
    refine ⟨h d' hd, fun _ _ => ?_⟩
    rw [Effect.raisesFrom_bind_modify, Effect.raisesFrom_bind_ask]
    refine ⟨control_caught, fun _ _ => ?_⟩
    rw [Effect.raisesFrom_bind]
    exact ⟨fun e he => (publishDirectory_raises e he).caught, fun _ _ _ => Effect.raisesFrom_pure _⟩

variable (py o target)

/-- the checks between the loading and the staging -/
def Ready (loaded : Loaded F) : Prop :=
  (match get loaded.2.2 "schema_version" with | .bool _ => false | v => equals py v SCHEMA_VERSION) = true ∧
    isText (get loaded.2.2 "database_payload_path") DATABASE_PAYLOAD_PATH = true ∧ o.stage_exists = false

/-- **What has to be true** for `restore_backup` to raise nothing undeclared: the backup is as `Loads` says, and the audit
of the staged database, when it is reached, raises only what is caught. -/
structure Converts : Prop where
  loads : o.paths = .ok () → Loads py o.source
  audit : o.paths = .ok () → ∀ loaded, loadAndVerifyBackup py o.source = .ok loaded → Ready py o loaded → ∀ d,
    stageFiles py o target loaded.2.1 .clean = (.ok (), d) → ∀ e, o.audit = .error e → Caught e

variable {py o target}

/-- **`restore_backup` raises only `BackupRestoreError` iff `Converts`.** -/
theorem restoreBackup_raises : Effect.RaisesFrom (restoreBackup py o target) .clean Raised.Declared ↔ Converts py o target := by
  unfold restoreBackup
  rw [Effect.raisesFrom_bind_ask]
  have hbody (loaded : Loaded F) :
      Effect.RaisesFrom (tryExcept (restoreStage py o target loaded) handleRestore) .clean Raised.Declared ↔
        ∀ d, stageFiles py o target loaded.2.1 .clean = (.ok (), d) → ∀ e, o.audit = .error e → Caught e := by
    rw [Effect.raisesFrom_tryExcept, ← restoreStage_caught]
    constructor
    · intro h e he
      exact handleRestore_raises.mp (h e _ (Prod.ext he rfl))
    · intro h e d he
      exact handleRestore_raises.mpr (h e (by rw [he]))
  constructor
  · rintro ⟨-, h⟩
    refine ⟨fun hpaths => ?_, fun hpaths loaded hloaded hready => ?_⟩
    · exact loadAndVerifyBackup_raises.mp (Effect.raisesFrom_bind_ask.mp (h () (by rw [hpaths]; rfl))).1
    · have hrest := (Effect.raisesFrom_bind_ask.mp (h () (by rw [hpaths]; rfl))).2 loaded hloaded
      rw [Effect.raisesFrom_bind_require (declared _)] at hrest
      have hrest := hrest hready.1
      rw [Effect.raisesFrom_bind_require (declared _)] at hrest
      have hrest := hrest hready.2.1
      rw [Effect.raisesFrom_bind_require (declared _)] at hrest
      exact (hbody loaded).mp (hrest hready.2.2)
  · intro h
    refine ⟨control_raises _, fun _ hpaths => ?_⟩
    have hpaths := mapError_eq_ok.mp hpaths
    rw [Effect.raisesFrom_bind_ask]
    refine ⟨loadAndVerifyBackup_raises.mpr (h.loads hpaths), fun loaded hloaded => ?_⟩
    rw [Effect.raisesFrom_bind_require (declared _)]
    intro hschema
    rw [Effect.raisesFrom_bind_require (declared _)]
    intro hdatabase
    rw [Effect.raisesFrom_bind_require (declared _)]
    intro hstage
    exact (hbody loaded).mpr (h.audit hpaths loaded hloaded ⟨hschema, hdatabase, hstage⟩)

/-! ## what restoring leaves -/

/-- no target yet, and a stage with copies of these entries -/
def Staged (entries : List Entry) (d : Disk) : Prop :=
  d.target = none ∧ ∃ s, d.stage = some s ∧ s.files.map Prod.snd = entries

/-- a target with copies of these entries, whose database passed the audit, and no stage -/
def Published (entries : List Entry) (d : Disk) : Prop :=
  d.stage = none ∧ ∃ t, d.target = some t ∧ t.files.map Prod.snd = entries ∧ t.audited = true

theorem copyEntries_staged {keys : List Text} {entries done : List Entry} :
    Effect.Triple (Staged done) (copyEntries py files copying keys entries) (fun _ => Staged (done ++ entries))
      (fun _ d => d.target = none) := by
  induction entries generalizing keys done with
  | nil =>
    rw [List.append_nil]
    exact Effect.triple_pure (fun _ h => h)
  | cons entry entries ih =>
    unfold copyEntries
    refine Effect.triple_bind (Q := fun _ => Staged done)
      (Effect.triple_ask (fun _ _ _ h => h) (fun _ _ _ h => h.1)) (fun destination => ?_)
    refine Effect.triple_bind (Q := fun _ => Staged done)
      (Effect.triple_require (fun _ _ h => h) (fun _ _ h => h.1)) (fun _ => ?_)
    refine Effect.triple_bind (Q := fun _ => Staged done)
      (Effect.triple_ask (fun _ _ _ h => h) (fun _ _ _ h => h.1)) (fun copied => ?_)
    refine Effect.triple_bind (Q := fun _ => Staged done)
      (Effect.triple_require (fun _ _ h => h) (fun _ _ h => h.1)) (fun _ => ?_)
    refine Effect.triple_bind (Q := fun _ => Staged (done ++ [entry])) (Effect.triple_modify (fun d h => ?_)) (fun _ => ?_)
    · obtain ⟨htarget, s, hs, hfiles⟩ := h
      refine ⟨htarget, { s with files := s.files ++ [(destination, entry)] }, ?_, ?_⟩
      · show d.stage.map _ = _
        rw [hs]
        rfl
      · show (s.files ++ [(destination, entry)]).map Prod.snd = _
        rw [List.map_append, hfiles]
        rfl
    · have hrest := @ih (py.casefold destination :: keys) (done ++ [entry])
      rw [List.append_assoc] at hrest
      exact hrest

theorem stageFiles_staged {entries : List Entry} :
    Effect.Triple (fun d => d = .clean) (stageFiles py o target entries) (fun _ => Staged (payloadEntries entries))
      (fun _ d => d.target = none) := by
  unfold stageFiles
  refine Effect.triple_bind (Q := fun _ d => d = .clean)
    (Effect.triple_ask (fun _ _ _ h => h) (fun _ _ _ h => by rw [h]; rfl)) (fun free => ?_)
  refine Effect.triple_bind (Q := fun _ d => d = .clean)
    (Effect.triple_require (fun _ _ h => h) (fun _ _ h => by rw [h]; rfl)) (fun _ => ?_)
  refine Effect.triple_bind (Q := fun _ d => d = .clean)
    (Effect.triple_require (fun _ _ h => h) (fun _ _ h => by rw [h]; rfl)) (fun _ => ?_)
  refine Effect.triple_bind (Q := fun _ => Staged []) (Effect.triple_modify (fun d h => ?_)) (fun _ => copyEntries_staged)
  rw [h]
  exact ⟨rfl, _, rfl, rfl⟩

/-- a directory is published, or removed again -/
theorem publishDirectory_published {entries : List Entry} :
    Effect.Triple (fun d => Staged entries d ∧ ∀ s, d.stage = some s → s.audited = true) (publishDirectory files)
      (fun _ => Published entries) (fun _ d => d.target = none) := by
  unfold publishDirectory
  refine Effect.triple_bind (Q := fun _ d => Staged entries d ∧ ∀ s, d.stage = some s → s.audited = true)
    (Effect.triple_require (fun _ _ h => h) (fun _ _ h => h.1.1)) (fun _ => ?_)
  refine Effect.triple_bind (Q := fun _ => Published entries) (Effect.triple_modify (fun d h => ?_)) (fun _ => ?_)
  · obtain ⟨⟨-, s, hs, hfiles⟩, haudited⟩ := h
    exact ⟨rfl, s, hs, hfiles, haudited s hs⟩
  · refine Effect.triple_tryExcept (Effect.triple_ask (fun _ _ _ h => h) (fun _ _ _ _ => True.intro)) (fun e => ?_)
    exact Effect.triple_bind (Q := fun _ d => d.target = none) (Effect.triple_modify (fun _ _ => rfl))
      (fun _ => Effect.triple_raise (fun _ h => h))

theorem restoreStage_published {loaded : Loaded F} :
    Effect.Triple (fun d => d = .clean) (restoreStage py o target loaded)
      (fun _ d => Published (payloadEntries loaded.2.1) d ∧ o.audit = .ok ()) (fun _ d => d.target = none) := by
  unfold restoreStage
  refine Effect.triple_bind stageFiles_staged (fun _ => ?_)
  refine Effect.triple_bind (Q := fun _ d => Staged (payloadEntries loaded.2.1) d ∧ o.audit = .ok ())
    (Effect.triple_ask (fun _ ha _ h => ⟨h, ha⟩) (fun _ _ _ h => h.1)) (fun _ => ?_)
  refine Effect.triple_bind (Q := fun _ d => (Staged (payloadEntries loaded.2.1) d ∧ ∀ s, d.stage = some s →
    s.audited = true) ∧ o.audit = .ok ()) (Effect.triple_modify (fun d h => ?_)) (fun _ => ?_)
  · obtain ⟨⟨htarget, s, hs, hfiles⟩, haudit⟩ := h
    have hstage : d.stage.map (fun s => { s with audited := true }) = some { s with audited := true } := by
      rw [hs]
      rfl
    refine ⟨⟨⟨htarget, _, hstage, hfiles⟩, fun s' hs' => ?_⟩, haudit⟩
    rw [← Option.some.inj (hstage.symm.trans hs')]
  · refine Effect.triple_bind (Q := fun _ d => (Staged (payloadEntries loaded.2.1) d ∧ ∀ s, d.stage = some s →
      s.audited = true) ∧ o.audit = .ok ()) (Effect.triple_ask (fun _ _ _ h => h) (fun _ _ _ h => h.1.1.1)) (fun _ => ?_)
    exact Effect.triple_bind publishDirectory_published.keep (fun _ => Effect.triple_pure (fun _ h => h))

/-- what `restore_backup` leaves: a whole target, or nothing when its error is declared -/
def Settled (py : Python F) (o : Outside) (r : Except Raised RestoreResult × Disk) : Prop :=
  match r.1 with
  | .ok _ => ∃ loaded, loadAndVerifyBackup py o.source = .ok loaded ∧ Published (payloadEntries loaded.2.1) r.2 ∧
      o.audit = .ok ()
  | .error e => e.Declared ∧ r.2 = .clean

/-- **What is declared leaves nothing behind**, and what is returned is whole. -/
theorem restoreBackup_settled : Effect.Triple (fun d => d = .clean) (restoreBackup py o target)
    (fun _ d => ∃ loaded, loadAndVerifyBackup py o.source = .ok loaded ∧ Published (payloadEntries loaded.2.1) d ∧
      o.audit = .ok ())
    (fun e d => e.Declared → d = .clean) := by
  unfold restoreBackup
  refine Effect.triple_bind (Q := fun _ d => d = .clean)
    (Effect.triple_ask (fun _ _ _ h => h) (fun _ _ _ h _ => h)) (fun _ => ?_)
  refine Effect.triple_bind (Q := fun loaded d => d = .clean ∧ loadAndVerifyBackup py o.source = .ok loaded)
    (Effect.triple_ask (fun _ ha _ h => ⟨h, ha⟩) (fun _ _ _ h _ => h)) (fun loaded => ?_)
  refine Effect.triple_bind (Q := fun _ d => d = .clean ∧ loadAndVerifyBackup py o.source = .ok loaded)
    (Effect.triple_require (fun _ _ h => h) (fun _ _ h _ => h.1)) (fun _ => ?_)
  refine Effect.triple_bind (Q := fun _ d => d = .clean ∧ loadAndVerifyBackup py o.source = .ok loaded)
    (Effect.triple_require (fun _ _ h => h) (fun _ _ h _ => h.1)) (fun _ => ?_)
  refine Effect.triple_bind (Q := fun _ d => d = .clean ∧ loadAndVerifyBackup py o.source = .ok loaded)
    (Effect.triple_require (fun _ _ h => h) (fun _ _ h _ => h.1)) (fun _ => ?_)
  have hbody : Effect.Triple (fun d => d = .clean ∧ loadAndVerifyBackup py o.source = .ok loaded)
      (restoreStage py o target loaded)
      (fun _ d => ∃ loaded, loadAndVerifyBackup py o.source = .ok loaded ∧ Published (payloadEntries loaded.2.1) d ∧
        o.audit = .ok ()) (fun _ d => d.target = none) := by
    intro d hd
    have hstage := @restoreStage_published _ py o target loaded d hd.1
    exact ⟨fun a ha => ⟨loaded, hd.2, hstage.1 a ha⟩, hstage.2⟩
  refine Effect.triple_tryExcept hbody (fun e => ?_)
  · unfold handleRestore
    split
    · refine Effect.triple_bind (Q := fun _ d => d = .clean) (Effect.triple_modify (fun d h => ?_))
        (fun _ => Effect.triple_raise (fun _ h _ => h))
      show (⟨none, d.target⟩ : Disk) = ⟨none, none⟩
      rw [h]
    · next hnone =>
      refine Effect.triple_raise (fun _ _ hdeclared => ?_)
      have hcaught := hdeclared.caught
      unfold Caught at hcaught
      rw [hnone] at hcaught
      cases hcaught

/-- **A target is published whole, or nothing is left and the error is declared, iff `Converts`.** -/
theorem restoreBackup_iff (py : Python F) (o : Outside) (target : RestoreTarget) :
    Settled py o (restoreBackup py o target .clean) ↔ Converts py o target := by
  rw [← restoreBackup_raises]
  have hsettled := @restoreBackup_settled _ py o target .clean rfl
  unfold Settled
  cases hrun : (restoreBackup py o target .clean).1 with
  | ok a =>
    refine iff_of_true (hsettled.1 a hrun) (fun e he => ?_)
    rw [hrun] at he
    cases he
  | error e =>
    constructor
    · intro h e' he
      rw [hrun] at he
      cases he
      exact h.1
    · intro h
      exact ⟨h e hrun, hsettled.2 e hrun (h e hrun)⟩

end

end OpenFlame.Backup
