import OpenFlame.Backup.UploadManifest

/-!
# Restoring a backup of the uploads

`restoreUploadStage`    the body of `_restore_upload_backup_locked`
`restoreUploadBackup`   `restore_upload_backup`

`StageConverts`, `UploadConverts`   what has to be true of a backup and of what is met outside
`Publishes`                         what has to go well for a target to be published
`UploadSettled`                     a whole target, or nothing and a declared error

* `restoreUploadStage_raises`, `restoreUploadStage_returns`   what the body raises, and when it returns;
* `restoreUploadStage_published`                              what it leaves;
* `restoreUploadBackup_raises`                                only what is declared gets out iff `StageConverts`;
* `restoreUploadBackup_iff`                                   **it settles iff `UploadConverts`**;
* `restore_iff`                                               **both restores.**
-/

set_option linter.all false

namespace OpenFlame.Backup
open Guard Points
open Effect (ask modify tryExcept tryFinally)

/-- what is done with the restored database -/
inductive DatabaseStep where
  /-- `_audit_database_and_media` with the schema of the backup -/
  | auditSource
  /-- `_job_states` -/
  | jobStates
  /-- `ensure_upload_schema` -/
  | ensureSchema
  /-- `_audit_database_and_media` -/
  | audit
  /-- `_apply_restore_state_policy` -/
  | applyPolicy
  /-- `_mark_current_missing_receipts` -/
  | markReceipts
  /-- `_audit_database_and_media`, the last time -/
  | finalAudit
  deriving DecidableEq

/-- what `restore_upload_backup` meets outside -/
structure UploadOutside extends Files where
  /-- `activity_lock_path` of both paths; it raises `UploadActivityBusy` unless it is true -/
  lock_paths : Bool
  /-- the checks of both paths and their locks against each other -/
  overlap : Except String Unit
  /-- `UploadActivityLease.acquire`; a busy lease has its message -/
  acquire : Except FileFault Unit
  /-- the checks of the paths with the lease -/
  recheck : Except FileFault Unit
  /-- the same checks in `_restore_upload_backup_locked` -/
  recheck_locked : Except FileFault Unit
  /-- the stage is one of the lock files -/
  stage_locks : Bool
  /-- `_assert_no_windows_named_streams` of the backup -/
  streams : Except Raised Unit
  mkdir_media : Bool
  mkdir_assets : Bool
  step : DatabaseStep → Except Raised Unit
  /-- `_assert_no_windows_named_streams` of the stage -/
  stage_streams : Except Raised Unit
  /-- `os.path.lexists(target)` -/
  target_exists : Bool
  /-- `lease.release`, whose `os.close` raises `OSError` unless it is true -/
  release : Bool

section
variable {F : Type} (py : Python F)

/-! ## restoring -/

/-- `metadata["format_version"]` -/
def formatVersion (loaded : Loaded F) : Int := (int? (get loaded.2.2 "format_version")).getD 0

/-- where an entry goes in the target -/
def uploadDestination (format_version : Int) (entry : Entry) : Except Raised Text :=
  if entry.path = text UPLOAD_DATABASE_PAYLOAD_PATH then .ok (text "uploads.sqlite3")
  else match relativeTo (pathParts (text UPLOAD_MEDIA_PAYLOAD_PREFIX)) (pathParts entry.path) with
  | some media_relative => do
    require (media_relative.length = 1) (.restore "upload backup media path is invalid")
    return asPosix (text "media" :: media_relative)
  | none => do
    let asset_relative ← fetch (relativeTo (pathParts (text UPLOAD_ASSET_PAYLOAD_PREFIX)) (pathParts entry.path))
      (.restore "upload backup payload path is unexpected")
    require (format_version = 2 ∨ format_version = 3) (.restore "upload backup payload path is unexpected")
    require (asset_relative.length = 1) (.restore "upload backup asset path is invalid")
    return asPosix (text "assets" :: asset_relative)

def uploadCopying (format_version : Int) : Copying where
  destination := uploadDestination format_version
  fresh restored_paths key := key ∉ restored_paths
  collision := "upload restore destination path collision"
  verification := "upload restored file verification failed"

/-- up to the database -/
def stageUploadFiles (o : UploadOutside) (loaded : Loaded F) : Effect Disk Raised Unit := do
  let free ← ask (fetch o.disk_free .os)
  Effect.require (totalBytes loaded.2.1 ≤ free) (.restore "insufficient free space for upload restore")
  Effect.require (o.mkdir = true) .os
  modify (fun d => { d with stage := some ⟨[], false⟩ })
  Effect.require (o.mkdir_media = true) .os
  Effect.require (o.mkdir_assets = true) .os
  copyEntries py o.toFiles (uploadCopying (formatVersion loaded)) [] (payloadEntries loaded.2.1)

/-- what is done with the database, by the format -/
def databaseSteps (format_version : Int) : List DatabaseStep :=
  (if format_version = 1 ∨ format_version = 2 then [.auditSource, .jobStates, .ensureSchema] else []) ++ [.audit] ++
    (if format_version = 3 then [.jobStates] else []) ++ [.applyPolicy] ++
    (if format_version = 3 then [.markReceipts] else []) ++ [.finalAudit]

def runSteps (o : UploadOutside) : List DatabaseStep → Effect Disk Raised Unit
  | [] => pure ()
  | step :: steps => do
    ask (o.step step)
    modify (fun d => { d with stage := d.stage.map (fun s => { s with audited := step == .finalAudit }) })
    runSteps o steps

/-- behind the database -/
def publishUpload (o : UploadOutside) (loaded : Loaded F) : Effect Disk Raised RestoreResult := do
  ask o.stage_streams
  ask (control o.sync_tree)
  Effect.require (o.target_exists = false) (.restore "upload restore target already exists")
  publishDirectory o.toFiles
  return { manifest_sha256 := loaded.1, file_count := (payloadEntries loaded.2.1).length, total_bytes := totalBytes loaded.2.1 }

/-- the body of the `try` -/
def restoreUploadStage (o : UploadOutside) : Effect Disk Raised RestoreResult := do
  let loaded ← ask (loadUploadBackup py o.streams o.source)
  stageUploadFiles py o loaded
  runSteps o (databaseSteps (formatVersion loaded))
  publishUpload o loaded

/-- the `except` clauses -/
def handleUpload (e : Raised) : Effect Disk Raised RestoreResult := Effect.raise ((uploadCaught e).getD e)

/-- `_restore_upload_backup_locked` -/
def restoreUploadBackupLocked (o : UploadOutside) : Effect Disk Raised RestoreResult := do
  ask (o.recheck_locked.mapError FileFault.raised)
  Effect.require (o.stage_locks = false) (.restore "upload restore staging path conflicts with activity lock")
  Effect.require (o.stage_exists = false) (.restore "upload restore staging path collision")
  tryFinally (tryExcept (restoreUploadStage py o) handleUpload) cleanupStage

/-- the body of the `with` -/
def restoreWithLease (o : UploadOutside) : Effect Disk Raised RestoreResult := do
  ask (o.recheck.mapError FileFault.raised)
  restoreUploadBackupLocked py o

/-- `_exclusive_upload_activity` around the body -/
def exclusiveUploadActivity (o : UploadOutside) : Effect Disk Raised RestoreResult := do
  ask (o.acquire.mapError FileFault.raised)
  tryFinally (restoreWithLease py o) (Effect.require (o.release = true) .os)

/-- `restore_upload_backup` -/
def restoreUploadBackup (o : UploadOutside) : Effect Disk Raised RestoreResult := do
  ask (control o.paths)
  Effect.require (o.lock_paths = true) .os
  ask (control o.overlap)
  tryExcept (exclusiveUploadActivity py o) handleUpload

/-! ## statements -/

/-- the target is published -/
def Publishes (o : UploadOutside) : Prop :=
  ∃ loaded, loadUploadBackup py o.streams o.source = .ok loaded ∧ Effect.Returns (stageUploadFiles py o loaded) .clean ∧
    (∀ step ∈ databaseSteps (formatVersion loaded), o.step step = .ok ()) ∧ o.stage_streams = .ok () ∧
    o.sync_tree = .ok () ∧ o.target_exists = false ∧ o.replace = true ∧ o.sync_parent = .ok ()

/-- **What has to be true** for the body to raise only what is caught: the backup is as `UploadLoads` says; and the steps on
the database and the last look through the stage, when they are reached, raise only what is caught. -/
structure StageConverts (o : UploadOutside) : Prop where
  loads : UploadLoads py o.streams o.source
  steps : ∀ loaded, loadUploadBackup py o.streams o.source = .ok loaded → Effect.Returns (stageUploadFiles py o loaded) .clean →
    ∀ front step back, databaseSteps (formatVersion loaded) = front ++ step :: back →
      (∀ s ∈ front, o.step s = .ok ()) → Raises (o.step step) UploadCaught
  walked : ∀ loaded, loadUploadBackup py o.streams o.source = .ok loaded → Effect.Returns (stageUploadFiles py o loaded) .clean →
    (∀ step ∈ databaseSteps (formatVersion loaded), o.step step = .ok ()) → Raises o.stage_streams UploadCaught

/-- the paths and the lease are good -/
structure Leased (o : UploadOutside) : Prop where
  paths : o.paths = .ok ()
  lock_paths : o.lock_paths = true
  overlap : o.overlap = .ok ()
  acquire : o.acquire = .ok ()

/-- and so are the checks up to the body -/
structure Entered (o : UploadOutside) : Prop extends Leased o where
  recheck : o.recheck = .ok ()
  recheck_locked : o.recheck_locked = .ok ()
  stage_locks : o.stage_locks = false
  stage_exists : o.stage_exists = false

/-- **What has to be true** for `restore_upload_backup`: the lock paths can be taken; the body, when it is reached, raises
only what is caught; and a lease under which a target was published closes. -/
structure UploadConverts (o : UploadOutside) : Prop where
  locks : o.paths = .ok () → o.lock_paths = true
  stage : Entered o → o.release = true → StageConverts py o
  closes : Entered o → Publishes py o → o.release = true

/-- a whole target of what was loaded, whose database passed the final audit -/
def UploadPublished (o : UploadOutside) (d : Disk) : Prop :=
  ∃ loaded, loadUploadBackup py o.streams o.source = .ok loaded ∧ Published (payloadEntries loaded.2.1) d ∧
    o.step .finalAudit = .ok ()

/-- what `restore_upload_backup` leaves: a whole target, or nothing when its error is declared -/
def UploadSettled (o : UploadOutside) (r : Except Raised RestoreResult × Disk) : Prop :=
  match r.1 with
  | .ok _ => UploadPublished py o r.2
  | .error e => e.Declared ∧ r.2 = .clean

variable {py} {o : UploadOutside}

/-! ## what the body raises -/

theorem FileFault.uploadCaught (fault : FileFault) : UploadCaught fault.raised := by
  cases fault with
  | restore message => rfl
  | os => rfl

theorem uploadDestination_raises (format_version : Int) (entry : Entry) :
    Raises (uploadDestination format_version entry) Raised.Declared := by
  unfold uploadDestination
  split
  · exact raises_ok
  · split
    · simp only [raises_bind]
      exact ⟨raises_require (declared _), fun _ _ => raises_pure⟩
    · simp only [raises_bind]
      exact ⟨raises_fetch (declared _), fun _ _ => ⟨raises_require (declared _), fun _ _ =>
        ⟨raises_require (declared _), fun _ _ => raises_pure⟩⟩⟩

theorem stageUploadFiles_raises {loaded : Loaded F} {d : Disk} :
    Effect.RaisesFrom (stageUploadFiles py o loaded) d UploadCaught := by
  have hos : UploadCaught .os := rfl
  unfold stageUploadFiles
  rw [Effect.raisesFrom_bind_ask]
  refine ⟨raises_fetch hos, fun free _ => ?_⟩
  rw [Effect.raisesFrom_bind_require (covers_uploadCaught _)]
  intro _
  rw [Effect.raisesFrom_bind_require hos]
  intro _
  rw [Effect.raisesFrom_bind_modify, Effect.raisesFrom_bind_require hos]
  intro _
  rw [Effect.raisesFrom_bind_require hos]
  intro _
  exact copyEntries_raises (fun _ h => h.uploadCaught) hos (uploadDestination_raises _)

theorem runSteps_raises {steps : List DatabaseStep} {d : Disk} : Effect.RaisesFrom (runSteps o steps) d UploadCaught ↔
    ∀ front step back, steps = front ++ step :: back → (∀ s ∈ front, o.step s = .ok ()) →
      Raises (o.step step) UploadCaught := by
  induction steps generalizing d with
  | nil => exact iff_of_true (Effect.raisesFrom_pure ()) (fun front step back h => absurd h (by simp))
  | cons step steps ih =>
    unfold runSteps
    rw [Effect.raisesFrom_bind_ask]
    simp only [Effect.raisesFrom_bind_modify, ih]
    constructor
    · rintro ⟨hstep, hrest⟩ front step' back hsplit hfront
      cases front with
      | nil =>
        obtain ⟨rfl, rfl⟩ := List.cons.inj hsplit
        exact hstep
      | cons s front =>
        obtain ⟨rfl, htail⟩ := List.cons.inj hsplit
        exact hrest () (hfront _ List.mem_cons_self) front step' back htail
          (fun s' hs' => hfront s' (List.mem_cons_of_mem _ hs'))
    · intro h
      refine ⟨h [] step steps rfl nofun, fun _ hok front step' back hsplit hfront => ?_⟩
      exact h (step :: front) step' back (by rw [hsplit]; rfl) (List.forall_mem_cons.mpr ⟨hok, hfront⟩)

theorem runSteps_returns {steps : List DatabaseStep} {d : Disk} :
    Effect.Returns (runSteps o steps) d ↔ ∀ step ∈ steps, o.step step = .ok () := by
  induction steps generalizing d with
  | nil => exact iff_of_true (Effect.returns_pure ()) nofun
  | cons step steps ih =>
    unfold runSteps
    rw [Effect.returns_bind_ask, List.forall_mem_cons]
    simp only [Effect.returns_bind_modify, ih]
    exact ⟨fun ⟨_, hstep, hrest⟩ => ⟨hstep, hrest⟩, fun ⟨hstep, hrest⟩ => ⟨(), hstep, hrest⟩⟩

theorem publishUpload_raises {loaded : Loaded F} {d : Disk} :
    Effect.RaisesFrom (publishUpload o loaded) d UploadCaught ↔ Raises o.stage_streams UploadCaught := by
  unfold publishUpload
  rw [Effect.raisesFrom_bind_ask]
  refine ⟨fun h => h.1, fun h => ⟨h, fun _ _ => ?_⟩⟩
  rw [Effect.raisesFrom_bind_ask]
  refine ⟨control_covers covers_uploadCaught _, fun _ _ => ?_⟩
  rw [Effect.raisesFrom_bind_require (covers_uploadCaught _)]
  intro _
  rw [Effect.raisesFrom_bind]
  exact ⟨fun e he => (publishDirectory_raises e he).uploadCaught, fun _ _ _ => Effect.raisesFrom_pure _⟩

/-- **The body raises only what is caught iff `StageConverts`.** -/
theorem restoreUploadStage_raises :
    Effect.RaisesFrom (restoreUploadStage py o) .clean UploadCaught ↔ StageConverts py o := by
  unfold restoreUploadStage
  rw [Effect.raisesFrom_bind_ask]
  constructor
  · rintro ⟨hloads, h⟩
    have hstage (loaded : Loaded F) (hloaded : loadUploadBackup py o.streams o.source = .ok loaded)
        (hreturns : Effect.Returns (stageUploadFiles py o loaded) .clean) :
        Effect.RaisesFrom (runSteps o (databaseSteps (formatVersion loaded)) >>= fun _ => publishUpload o loaded)
          (stageUploadFiles py o loaded .clean).2 UploadCaught := by
      obtain ⟨u, hu⟩ := hreturns
      exact (Effect.raisesFrom_bind.mp (h loaded hloaded)).2 u _ (Prod.ext hu rfl)
    refine ⟨loadUploadBackup_raises.mp hloads, fun loaded hloaded hreturns => ?_, fun loaded hloaded hreturns hsteps => ?_⟩
    · exact runSteps_raises.mp (Effect.raisesFrom_bind.mp (hstage loaded hloaded hreturns)).1
    · obtain ⟨u, hu⟩ := (runSteps_returns (d := (stageUploadFiles py o loaded .clean).2)).mpr hsteps
      exact publishUpload_raises.mp ((Effect.raisesFrom_bind.mp (hstage loaded hloaded hreturns)).2 u _ (Prod.ext hu rfl))
  · intro h
    refine ⟨loadUploadBackup_raises.mpr h.loads, fun loaded hloaded => ?_⟩
    rw [Effect.raisesFrom_bind]
    refine ⟨stageUploadFiles_raises, fun u d hd => ?_⟩
    have hreturns : Effect.Returns (stageUploadFiles py o loaded) .clean := ⟨u, by rw [hd]⟩
    rw [Effect.raisesFrom_bind]
    refine ⟨runSteps_raises.mpr (h.steps loaded hloaded hreturns), fun u' d' hd' => ?_⟩
    exact publishUpload_raises.mpr (h.walked loaded hloaded hreturns (runSteps_returns.mp ⟨u', by rw [hd']⟩))

/-! ## when it publishes -/

theorem publishDirectory_returns {files : Files} {d : Disk} :
    Effect.Returns (publishDirectory files) d ↔ files.replace = true ∧ files.sync_parent = .ok () := by
  unfold publishDirectory
  rw [Effect.returns_bind_require, Effect.returns_bind_modify, Effect.returns_tryExcept]
  · refine and_congr_right (fun _ => ⟨fun ⟨_, h⟩ => mapError_eq_ok.mp h, fun h => ⟨(), ?_⟩⟩)
    show control files.sync_parent = .ok ()
    rw [h]
    rfl
  · intro e s
    rw [Effect.returns_bind_modify]
    exact Effect.not_returns_raise e

theorem publishUpload_returns {loaded : Loaded F} {d : Disk} : Effect.Returns (publishUpload o loaded) d ↔
    o.stage_streams = .ok () ∧ o.sync_tree = .ok () ∧ o.target_exists = false ∧ o.replace = true ∧ o.sync_parent = .ok () := by
  unfold publishUpload
  rw [Effect.returns_bind_ask]
  constructor
  · rintro ⟨_, hstreams, h⟩
    obtain ⟨_, hsync, h⟩ := Effect.returns_bind_ask.mp h
    obtain ⟨htarget, h⟩ := Effect.returns_bind_require.mp h
    obtain ⟨u, d', hd, -⟩ := Effect.returns_bind.mp h
    exact ⟨hstreams, mapError_eq_ok.mp hsync, htarget, publishDirectory_returns.mp ⟨u, by rw [hd]⟩⟩
  · rintro ⟨hstreams, hsync, htarget, hpublish⟩
    obtain ⟨u, hu⟩ := (publishDirectory_returns (d := d)).mpr hpublish
    exact ⟨(), hstreams, Effect.returns_bind_ask.mpr ⟨(), mapError_eq_ok.mpr hsync, Effect.returns_bind_require.mpr
      ⟨htarget, Effect.returns_bind.mpr ⟨u, _, Prod.ext hu rfl, Effect.returns_pure _⟩⟩⟩⟩

/-- **The body publishes iff `Publishes`.** -/
theorem restoreUploadStage_returns : Effect.Returns (restoreUploadStage py o) .clean ↔ Publishes py o := by
  unfold restoreUploadStage Publishes
  rw [Effect.returns_bind_ask]
  refine exists_congr (fun loaded => and_congr_right (fun _ => ?_))
  rw [Effect.returns_bind]
  constructor
  · rintro ⟨u, d, hd, h⟩
    obtain ⟨u', d', hd', h'⟩ := Effect.returns_bind.mp h
    exact ⟨⟨u, by rw [hd]⟩, runSteps_returns.mp ⟨u', by rw [hd']⟩, publishUpload_returns.mp h'⟩
  · rintro ⟨⟨u, hu⟩, hsteps, h⟩
    refine ⟨u, _, Prod.ext hu rfl, Effect.returns_bind.mpr ?_⟩
    obtain ⟨u', hu'⟩ := (runSteps_returns (d := (stageUploadFiles py o loaded .clean).2)).mpr hsteps
    exact ⟨u', _, Prod.ext hu' rfl, publishUpload_returns.mpr h⟩

/-! ## what the body leaves -/

/-- the stage has copies of these entries, and its database was audited or not -/
def StagedUpload (entries : List Entry) (audited : Bool) (d : Disk) : Prop :=
  Staged entries d ∧ ∀ s, d.stage = some s → s.audited = audited

theorem runSteps_staged {entries : List Entry} {steps : List DatabaseStep} {audited : Bool} :
    Effect.Triple (StagedUpload entries audited) (runSteps o steps)
      (fun _ => StagedUpload entries (steps.foldl (fun _ step => step == .finalAudit) audited))
      (fun _ d => d.target = none) := by
  induction steps generalizing audited with
  | nil => exact Effect.triple_pure (fun _ h => h)
  | cons step steps ih =>
    unfold runSteps
    refine Effect.triple_bind (Q := fun _ => StagedUpload entries audited)
      (Effect.triple_ask (fun _ _ _ h => h) (fun _ _ _ h => h.1.1)) (fun _ => ?_)
    refine Effect.triple_bind (Q := fun _ => StagedUpload entries (step == .finalAudit))
      (Effect.triple_modify (fun d h => ?_)) (fun _ => ih)
    obtain ⟨⟨htarget, s, hs, hfiles⟩, -⟩ := h
    have hstage : d.stage.map (fun s => { s with audited := step == DatabaseStep.finalAudit }) =
        some { s with audited := step == DatabaseStep.finalAudit } := by
      rw [hs]
      rfl
    refine ⟨⟨htarget, _, hstage, hfiles⟩, fun s' hs' => ?_⟩
    rw [← Option.some.inj (hstage.symm.trans hs')]

/-- the last step is the final audit -/
theorem databaseSteps_audited (format_version : Int) (audited : Bool) :
    (databaseSteps format_version).foldl (fun _ step => step == .finalAudit) audited = true := by
  unfold databaseSteps
  rw [List.foldl_append]
  rfl

theorem finalAudit_mem (format_version : Int) : DatabaseStep.finalAudit ∈ databaseSteps format_version :=
  List.mem_append_right _ List.mem_cons_self

theorem stageUploadFiles_staged {loaded : Loaded F} : Effect.Triple (fun d => d = .clean) (stageUploadFiles py o loaded)
    (fun _ => Staged (payloadEntries loaded.2.1)) (fun _ d => d.target = none) := by
  unfold stageUploadFiles
  refine Effect.triple_bind (Q := fun _ d => d = .clean)
    (Effect.triple_ask (fun _ _ _ h => h) (fun _ _ _ h => by rw [h]; rfl)) (fun free => ?_)
  refine Effect.triple_bind (Q := fun _ d => d = .clean)
    (Effect.triple_require (fun _ _ h => h) (fun _ _ h => by rw [h]; rfl)) (fun _ => ?_)
  refine Effect.triple_bind (Q := fun _ d => d = .clean)
    (Effect.triple_require (fun _ _ h => h) (fun _ _ h => by rw [h]; rfl)) (fun _ => ?_)
  refine Effect.triple_bind (Q := fun _ => Staged []) (Effect.triple_modify (fun d h => ?_)) (fun _ => ?_)
  · rw [h]
    exact ⟨rfl, _, rfl, rfl⟩
  · refine Effect.triple_bind (Q := fun _ => Staged [])
      (Effect.triple_require (fun _ _ h => h) (fun _ _ h => h.1)) (fun _ => ?_)
    refine Effect.triple_bind (Q := fun _ => Staged [])
      (Effect.triple_require (fun _ _ h => h) (fun _ _ h => h.1)) (fun _ => ?_)
    exact copyEntries_staged

/-- the body publishes a whole target whose database passed the final audit, or no target -/
theorem restoreUploadStage_published : Effect.Triple (fun d => d = .clean) (restoreUploadStage py o)
    (fun _ => UploadPublished py o)
    (fun _ d => d.target = none) := by
  unfold restoreUploadStage
  refine Effect.triple_bind (Q := fun loaded d => d = .clean ∧ loadUploadBackup py o.streams o.source = .ok loaded)
    (Effect.triple_ask (fun _ ha _ h => ⟨h, ha⟩) (fun _ _ _ h => by rw [h]; rfl)) (fun loaded => ?_)
  refine Effect.triple_bind stageUploadFiles_staged.keep (fun _ => ?_)
  refine Effect.triple_bind (Q := fun _ d => StagedUpload (payloadEntries loaded.2.1) true d ∧
    loadUploadBackup py o.streams o.source = .ok loaded ∧ o.step .finalAudit = .ok ()) ?_ (fun _ => ?_)
  · intro d hd
    obtain ⟨⟨htarget, s, hs, hfiles⟩, hloaded⟩ := hd
    have hstaged : StagedUpload (payloadEntries loaded.2.1) s.audited d :=
      ⟨⟨htarget, s, hs, hfiles⟩, fun s' hs' => by rw [Option.some.inj (hs'.symm.trans hs)]⟩
    have hrun := @runSteps_staged o _ (databaseSteps (formatVersion loaded)) _ d hstaged
    rw [databaseSteps_audited] at hrun
    exact ⟨fun a ha => ⟨hrun.1 a ha, hloaded, runSteps_returns.mp ⟨a, ha⟩ _ (finalAudit_mem _)⟩, hrun.2⟩
  · unfold publishUpload
    refine Effect.triple_bind (Q := fun _ d => StagedUpload (payloadEntries loaded.2.1) true d ∧
      loadUploadBackup py o.streams o.source = .ok loaded ∧ o.step .finalAudit = .ok ())
      (Effect.triple_ask (fun _ _ _ h => h) (fun _ _ _ h => h.1.1.1)) (fun _ => ?_)
    refine Effect.triple_bind (Q := fun _ d => StagedUpload (payloadEntries loaded.2.1) true d ∧
      loadUploadBackup py o.streams o.source = .ok loaded ∧ o.step .finalAudit = .ok ())
      (Effect.triple_ask (fun _ _ _ h => h) (fun _ _ _ h => h.1.1.1)) (fun _ => ?_)
    refine Effect.triple_bind (Q := fun _ d => StagedUpload (payloadEntries loaded.2.1) true d ∧
      loadUploadBackup py o.streams o.source = .ok loaded ∧ o.step .finalAudit = .ok ())
      (Effect.triple_require (fun _ _ h => h) (fun _ _ h => h.1.1.1)) (fun _ => ?_)
    exact Effect.triple_bind publishDirectory_published.keep (fun _ => Effect.triple_pure (fun _ h => ⟨loaded, h.2.1, h.1, h.2.2⟩))

/-- with the lease, a whole target is left, or nothing -/
theorem restoreWithLease_published : Effect.Triple (fun d => d = .clean) (restoreWithLease py o)
    (fun _ => UploadPublished py o)
    (fun _ d => d = .clean) := by
  unfold restoreWithLease restoreUploadBackupLocked
  refine Effect.triple_bind (Q := fun _ d => d = .clean)
    (Effect.triple_ask (fun _ _ _ h => h) (fun _ _ _ h => h)) (fun _ => ?_)
  refine Effect.triple_bind (Q := fun _ d => d = .clean)
    (Effect.triple_ask (fun _ _ _ h => h) (fun _ _ _ h => h)) (fun _ => ?_)
  refine Effect.triple_bind (Q := fun _ d => d = .clean)
    (Effect.triple_require (fun _ _ h => h) (fun _ _ h => h)) (fun _ => ?_)
  refine Effect.triple_bind (Q := fun _ d => d = .clean)
    (Effect.triple_require (fun _ _ h => h) (fun _ _ h => h)) (fun _ => ?_)
  have htry : Effect.Triple (fun d => d = .clean) (tryExcept (restoreUploadStage py o) handleUpload)
      (fun _ => UploadPublished py o)
      (fun _ d => d.target = none) :=
    Effect.triple_tryExcept restoreUploadStage_published (fun e => Effect.triple_raise (fun _ h => h))
  intro d hd
  obtain ⟨hok, herror⟩ := htry d hd
  refine ⟨fun a ha => ?_, fun e he => ?_⟩
  · obtain ⟨loaded, hloaded, ⟨-, hpublished⟩, haudit⟩ := hok a ha
    exact ⟨loaded, hloaded, ⟨rfl, hpublished⟩, haudit⟩
  · show (⟨none, _⟩ : Disk) = ⟨none, none⟩
    rw [herror e he]

/-! ## the whole -/

theorem handleUpload_raises {p : Raised → Prop} (hdeclared : ∀ e, e.Declared → p e) (hcaught : ∀ e, p e → UploadCaught e)
    {e : Raised} {d : Disk} : Effect.RaisesFrom (handleUpload e) d p ↔ UploadCaught e := by
  unfold handleUpload UploadCaught
  rw [Effect.raisesFrom_raise]
  cases h : uploadCaught e with
  | some e' => exact iff_of_true (hdeclared e' (uploadCaught_declared h)) rfl
  | none =>
    refine iff_of_false (fun hp => ?_) Bool.false_ne_true
    have hcaught := hcaught e hp
    unfold UploadCaught at hcaught
    rw [h] at hcaught
    cases hcaught

theorem tryExcept_raises {p : Raised → Prop} (hdeclared : ∀ e, e.Declared → p e) (hcaught : ∀ e, p e → UploadCaught e)
    {x : Effect Disk Raised RestoreResult} {d : Disk} :
    Effect.RaisesFrom (tryExcept x handleUpload) d p ↔ Effect.RaisesFrom x d UploadCaught := by
  rw [Effect.raisesFrom_tryExcept]
  constructor
  · intro h e he
    exact (handleUpload_raises hdeclared hcaught).mp (h e _ (Prod.ext he rfl))
  · intro h e d' he
    exact (handleUpload_raises hdeclared hcaught).mpr (h e (by rw [he]))

/-- with the lease, only what is caught is raised, iff `StageConverts` when the body is reached -/
theorem restoreWithLease_raises : Effect.RaisesFrom (restoreWithLease py o) .clean UploadCaught ↔
    (o.recheck = .ok () → o.recheck_locked = .ok () → o.stage_locks = false → o.stage_exists = false → StageConverts py o) := by
  have hfault (x : Except FileFault Unit) : Raises (x.mapError FileFault.raised) UploadCaught :=
    raises_mapError (fun fault _ => fault.uploadCaught)
  have hok {x : Except FileFault Unit} : x.mapError FileFault.raised = .ok () ↔ x = .ok () := mapError_eq_ok
  have hrechecked : ∀ e, o.recheck.mapError FileFault.raised = .error e → UploadCaught e := hfault _
  unfold restoreWithLease restoreUploadBackupLocked cleanupStage
  rw [Effect.raisesFrom_bind_ask, and_iff_right hrechecked]
  simp only [Effect.raisesFrom_bind_ask, Effect.raisesFrom_bind_require (covers_uploadCaught _),
    Effect.raisesFrom_tryFinally_modify, tryExcept_raises (fun _ h => h.uploadCaught) (fun _ h => h), restoreUploadStage_raises]
  constructor
  · intro h hrecheck hlocked
    exact (h () (hok.mpr hrecheck)).2 () (hok.mpr hlocked)
  · exact fun h _ hrecheck => ⟨hfault _, fun _ hlocked => h (hok.mp hrecheck) (hok.mp hlocked)⟩

/-- with the lease, it returns iff it reaches a body that publishes -/
theorem restoreWithLease_returns : Effect.Returns (restoreWithLease py o) .clean ↔
    o.recheck = .ok () ∧ o.recheck_locked = .ok () ∧ o.stage_locks = false ∧ o.stage_exists = false ∧ Publishes py o := by
  have hok {x : Except FileFault Unit} : (∃ u, x.mapError FileFault.raised = .ok u) ↔ x = .ok () :=
    ⟨fun ⟨_, h⟩ => mapError_eq_ok.mp h, fun h => ⟨(), mapError_eq_ok.mpr h⟩⟩
  unfold restoreWithLease restoreUploadBackupLocked cleanupStage
  simp only [Effect.returns_bind_ask, Effect.returns_bind_require, Effect.returns_tryFinally_modify, exists_and_right, hok]
  have hhandler : ∀ e s, ¬ Effect.Returns (handleUpload e) s := fun _ _ => Effect.not_returns_raise _
  rw [Effect.returns_tryExcept hhandler, restoreUploadStage_returns]

/-- the body under the lease, as it is left behind the lease -/
theorem leased_raises : Effect.RaisesFrom (tryFinally (restoreWithLease py o) (Effect.require (o.release = true) .os)) .clean
    UploadCaught ↔ (o.release = true → Effect.RaisesFrom (restoreWithLease py o) .clean UploadCaught) := by
  cases hrelease : o.release with
  | true => exact ⟨fun h _ => h, fun h => h rfl⟩
  | false =>
    refine iff_of_true (fun e he => ?_) (fun h => absurd h Bool.false_ne_true)
    cases he
    rfl

/-- **`restore_upload_backup` raises only `BackupRestoreError` iff the lock paths can be taken and `StageConverts`.** -/
theorem restoreUploadBackup_raises : Effect.RaisesFrom (restoreUploadBackup py o) .clean Raised.Declared ↔
    (o.paths = .ok () → o.lock_paths = true) ∧ (Entered o → o.release = true → StageConverts py o) := by
  have hnot : ¬ Raised.Declared .os := fun ⟨message, h⟩ => nomatch h
  have hpathsRaised : ∀ e, control o.paths = .error e → e.Declared := control_raises _
  unfold restoreUploadBackup
  rw [Effect.raisesFrom_bind_ask, and_iff_right hpathsRaised]
  constructor
  · intro h
    have hlock (hpaths : o.paths = .ok ()) : o.lock_paths = true := by
      by_contra hlock
      have hrest := h () (mapError_eq_ok.mpr hpaths)
      rw [Effect.raisesFrom_bind] at hrest
      refine hnot (hrest.1 .os ?_)
      unfold Effect.require
      rw [if_neg hlock]
      rfl
    refine ⟨hlock, fun hentered hrelease => ?_⟩
    have hrest := h () (mapError_eq_ok.mpr hentered.paths)
    rw [Effect.raisesFrom_bind] at hrest
    have hrest := hrest.2 () .clean (by unfold Effect.require; rw [if_pos hentered.lock_paths]; rfl)
    have hbody := (Effect.raisesFrom_bind_ask.mp hrest).2 () (mapError_eq_ok.mpr hentered.overlap)
    rw [tryExcept_raises (fun _ h => h) (fun _ h => h.uploadCaught)] at hbody
    have hlease := leased_raises.mp ((Effect.raisesFrom_bind_ask.mp hbody).2 () (mapError_eq_ok.mpr hentered.acquire)) hrelease
    exact restoreWithLease_raises.mp hlease hentered.recheck hentered.recheck_locked hentered.stage_locks hentered.stage_exists
  · rintro ⟨hlock, hstage⟩ _ hpaths
    have hpaths := mapError_eq_ok.mp hpaths
    rw [Effect.raisesFrom_bind]
    refine ⟨fun e he => ?_, fun _ d hd => ?_⟩
    · unfold Effect.require at he
      rw [if_pos (hlock hpaths)] at he
      cases he
    · unfold Effect.require at hd
      rw [if_pos (hlock hpaths)] at hd
      obtain ⟨-, rfl⟩ := Prod.mk.inj hd
      rw [Effect.raisesFrom_bind_ask]
      refine ⟨control_raises _, fun _ hoverlap => ?_⟩
      rw [tryExcept_raises (fun _ h => h) (fun _ h => h.uploadCaught)]
      unfold exclusiveUploadActivity
      rw [Effect.raisesFrom_bind_ask]
      refine ⟨raises_mapError (fun fault _ => fault.uploadCaught), fun _ hacquire => leased_raises.mpr (fun hrelease => ?_)⟩
      refine restoreWithLease_raises.mpr (fun hrecheck hlocked hlocks hexists => hstage ?_ hrelease)
      exact ⟨⟨hpaths, hlock hpaths, mapError_eq_ok.mp hoverlap, mapError_eq_ok.mp hacquire⟩, hrecheck, hlocked, hlocks, hexists⟩

/-- **What is left behind the lease**: a whole target, or nothing, when a lease under which a target was published closes. -/
theorem exclusiveUploadActivity_left (hcloses : o.acquire = .ok () → Effect.Returns (restoreWithLease py o) .clean →
    o.release = true) : Effect.Triple (fun d => d = .clean) (exclusiveUploadActivity py o)
    (fun _ => UploadPublished py o)
    (fun _ d => d = .clean) := by
  unfold exclusiveUploadActivity
  refine Effect.triple_bind (Q := fun _ d => d = .clean ∧ o.acquire = .ok ())
    (Effect.triple_ask (fun _ ha _ h => ⟨h, mapError_eq_ok.mp ha⟩) (fun _ _ _ h => h)) (fun _ => ?_)
  rintro d ⟨rfl, hacquire⟩
  obtain ⟨hok, herror⟩ := @restoreWithLease_published _ py o .clean rfl
  cases hrelease : o.release with
  | true => exact ⟨hok, herror⟩
  | false =>
    refine ⟨(fun a ha => nomatch ha), fun e _ => ?_⟩
    cases hrun : (restoreWithLease py o .clean).1 with
    | ok a =>
      have htrue := hcloses hacquire ⟨a, hrun⟩
      rw [hrelease] at htrue
      cases htrue
    | error e' => exact herror e' hrun

theorem restoreUploadBackup_left (hcloses : Entered o → Publishes py o → o.release = true) :
    Effect.Triple (fun d => d = .clean) (restoreUploadBackup py o) (fun _ => UploadPublished py o) (fun _ d => d = .clean) := by
  unfold restoreUploadBackup
  refine Effect.triple_bind (Q := fun _ d => d = .clean ∧ o.paths = .ok ())
    (Effect.triple_ask (fun _ ha _ h => ⟨h, mapError_eq_ok.mp ha⟩) (fun _ _ _ h => h)) (fun _ => ?_)
  refine Effect.triple_bind (Q := fun _ d => d = .clean ∧ o.paths = .ok () ∧ o.lock_paths = true)
    (Effect.triple_require (fun hlock _ h => ⟨h.1, h.2, hlock⟩) (fun _ _ h => h.1)) (fun _ => ?_)
  refine Effect.triple_bind (Q := fun _ d => d = .clean ∧ o.paths = .ok () ∧ o.lock_paths = true ∧ o.overlap = .ok ())
    (Effect.triple_ask (fun _ ha _ h => ⟨h.1, h.2.1, h.2.2, mapError_eq_ok.mp ha⟩) (fun _ _ _ h => h.1)) (fun _ => ?_)
  rintro d ⟨rfl, hpaths, hlock, hoverlap⟩
  have hleft : Effect.Triple (fun d => d = .clean) (exclusiveUploadActivity py o) (fun _ => UploadPublished py o)
      (fun _ d => d = .clean) := by
    refine exclusiveUploadActivity_left (fun hacquire hreturns => ?_)
    obtain ⟨hrecheck, hlocked, hlocks, hexists, hpublishes⟩ := restoreWithLease_returns.mp hreturns
    exact hcloses ⟨⟨hpaths, hlock, hoverlap, hacquire⟩, hrecheck, hlocked, hlocks, hexists⟩ hpublishes
  have hhandled (e : Raised) : Effect.Triple (fun d => d = .clean) (handleUpload e) (fun _ => UploadPublished py o)
      (fun _ d => d = .clean) := Effect.triple_raise (fun _ h => h)
  exact Effect.triple_tryExcept hleft hhandled .clean rfl

/-- where the run is once the lease is taken -/
theorem restoreUploadBackup_leased (h : Leased o) : restoreUploadBackup py o .clean = tryExcept
    (tryFinally (restoreWithLease py o) (Effect.require (o.release = true) .os)) handleUpload .clean := by
  unfold restoreUploadBackup exclusiveUploadActivity
  rw [h.paths, h.overlap, h.acquire]
  unfold Effect.require
  rw [if_pos h.lock_paths]
  rfl

/-- a target that was published stays when the lease does not close -/
theorem restoreUploadBackup_unclosed (hentered : Entered o) (hpublishes : Publishes py o) (hrelease : o.release = false) :
    ¬ UploadSettled py o (restoreUploadBackup py o .clean) := by
  have hreturns : Effect.Returns (restoreWithLease py o) .clean := restoreWithLease_returns.mpr
    ⟨hentered.recheck, hentered.recheck_locked, hentered.stage_locks, hentered.stage_exists, hpublishes⟩
  obtain ⟨a, ha⟩ := hreturns
  obtain ⟨-, -, ⟨-, t, ht, -⟩, -⟩ := (@restoreWithLease_published _ py o .clean rfl).1 a ha
  have hrun : restoreUploadBackup py o .clean =
      (.error (.restore "upload restore operation failed"), (restoreWithLease py o .clean).2) := by
    rw [restoreUploadBackup_leased hentered.toLeased, hrelease]
    rfl
  intro hsettled
  rw [hrun] at hsettled
  obtain ⟨-, hclean⟩ := hsettled
  rw [show (restoreWithLease py o .clean).2 = .clean from hclean] at ht
  cases ht

/-- **A target is published whole, or nothing is left and the error is declared, iff `UploadConverts`.** -/
theorem restoreUploadBackup_iff (py : Python F) (o : UploadOutside) :
    UploadSettled py o (restoreUploadBackup py o .clean) ↔ UploadConverts py o := by
  constructor
  · intro hsettled
    have hraises : Effect.RaisesFrom (restoreUploadBackup py o) .clean Raised.Declared := by
      intro e he
      unfold UploadSettled at hsettled
      rw [he] at hsettled
      exact hsettled.1
    obtain ⟨hlocks, hstage⟩ := restoreUploadBackup_raises.mp hraises
    refine ⟨hlocks, hstage, fun hentered hpublishes => ?_⟩
    by_contra hrelease
    exact restoreUploadBackup_unclosed hentered hpublishes (Bool.not_eq_true _ ▸ hrelease) hsettled
  · intro h
    have hraises := restoreUploadBackup_raises.mpr ⟨h.locks, h.stage⟩
    obtain ⟨hok, herror⟩ := restoreUploadBackup_left h.closes .clean rfl
    unfold UploadSettled
    cases hrun : (restoreUploadBackup py o .clean).1 with
    | ok a => exact hok a hrun
    | error e => exact ⟨hraises e hrun, herror e hrun⟩

/-- **Either restore publishes a whole target, or leaves nothing and raises what is declared, iff what it meets is as
`Converts` and `UploadConverts` say.** -/
theorem restore_iff (py : Python F) (o : Outside) (target : RestoreTarget) (u : UploadOutside) :
    (Settled py o (restoreBackup py o target .clean) ↔ Converts py o target) ∧
      (UploadSettled py u (restoreUploadBackup py u .clean) ↔ UploadConverts py u) :=
  ⟨restoreBackup_iff py o target, restoreUploadBackup_iff py u⟩

end

/-- texts that are as they are, and floats by their texts -/
def plainPython : Python {s : List Char // Json.isFloatText s = true} where
  toFloats := Json.Floats.texts
  limits := ⟨some 4300, some 1000⟩
  equalsInt _ _ := false
  casefold s := s
  encodes s := !surrogate s
  isAware _ := false

/-- a backup whose hash record is one byte that is no ASCII -/
def latinBackup : Outside where
  paths := .ok ()
  source := {
    hash_record := .ok [0xff]
    manifest_sha256 := .ok []
    manifest := .error "backup control file is invalid"
    verify := fun _ => .error "verified path is not a plain regular file"
    scan := .ok []
    metadata := .error "backup control file is invalid" }
  stage_exists := false
  disk_free := none
  mkdir := true
  copy _ := .error .os
  audit := .ok ()
  sync_tree := .ok ()
  replace := true
  sync_parent := .ok ()

/-- **Its `UnicodeDecodeError` gets out of `restore_backup`.** -/
theorem latinBackup_raises : (restoreBackup plainPython latinBackup ⟨text "control.sqlite3"⟩ .clean).1 = .error .value ∧
    ¬ Settled plainPython latinBackup (restoreBackup plainPython latinBackup ⟨text "control.sqlite3"⟩ .clean) := by
  have hraised : (restoreBackup plainPython latinBackup ⟨text "control.sqlite3"⟩ .clean).1 = .error .value := rfl
  refine ⟨hraised, fun hsettled => ?_⟩
  unfold Settled at hsettled
  rw [hraised] at hsettled
  obtain ⟨message, hmessage⟩ := hsettled.1
  cases hmessage

end OpenFlame.Backup
