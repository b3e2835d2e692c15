import OpenFlame.Upload.Safety

/-!
# Jobs and receipts agree

* `normalizeTarget_raises`, `validateJobDefinition_raises`   the codes of a recheck name metadata, covers, files;
* `attempt_raises`, `retry_raises`   a receipt the service wrote itself is never refused;
* `coherent_reachable`   **in every reachable store every receipt fits its job, and only moves forward.**
-/

set_option linter.all false

namespace OpenFlame.Upload
open Guard Relation TransSys

/-- any code but the one of a receipt that changed -/
def IsOther (code : Code) : Prop := code ≠ "upload_attempt_identity_changed"

section
variable {u : Unicode} {host : Host} {env : Env} {db : DB}

/-! ## the codes of a recheck -/

theorem normalizeText_raises (s : Text) (maximum : Nat) (required : Bool) :
    Raises (normalizeText s maximum required) IsOther := by
  have hcode : IsOther "invalid_metadata" := by simp [IsOther]
  simp only [normalizeText, raises_bind, raises_pure, implies_true, and_true]
  exact ⟨raises_require hcode, fun _ _ => raises_require hcode⟩

theorem normalizeUploadText_raises (value : Raw) (maximum : Nat) (required : Bool) :
    Raises (normalizeUploadText value maximum required) IsOther := by
  unfold normalizeUploadText
  split
  · exact normalizeText_raises _ _ _
  · simp [IsOther]

theorem normalizeUploadTags_raises (tags : Raw) : Raises (normalizeUploadTags tags) IsOther := by
  have hcode : IsOther "invalid_tags" := by simp [IsOther]
  unfold normalizeUploadTags
  split
  · simp only [raises_bind, raises_pure, implies_true, and_true]
    exact ⟨raises_require hcode, fun _ _ => ⟨raises_each (fun _ _ => normalizeUploadText_raises _ _ _),
      fun _ _ => raises_require hcode⟩⟩
  · exact raises_throw.mpr hcode

theorem normalizeFlag_raises (items : List (OptionKey × Raw)) (key : OptionKey) :
    Raises (normalizeFlag items key) IsOther := by
  unfold normalizeFlag
  split <;> simp [IsOther]

theorem normalizeChoice_raises (value : Raw) (maximum : Nat) : Raises (normalizeChoice value maximum) IsOther := by
  unfold normalizeChoice
  split
  · exact raises_pure
  · simp only [raises_bind, raises_pure, implies_true, and_true]
    exact normalizeUploadText_raises _ _ _

theorem normalizePlatformOptions_raises (platform : Platform) (value : Raw) :
    Raises (normalizePlatformOptions platform value) IsOther := by
  have hitems : ∀ items, Raises (normalizeOptionItems platform items) IsOther := by
    intro items
    cases platform with
    | bilibili =>
      simp only [normalizeOptionItems]
      split <;> simp only [raises_bind, raises_pure, true_and, implies_true, and_true]
      · exact fun _ _ => ⟨normalizeFlag_raises _ _, fun _ _ => ⟨normalizeFlag_raises _ _, fun _ _ =>
          normalizeFlag_raises _ _⟩⟩
      · exact ⟨normalizeUploadText_raises _ _ _, fun _ _ => ⟨normalizeFlag_raises _ _, fun _ _ =>
          ⟨normalizeFlag_raises _ _, fun _ _ => normalizeFlag_raises _ _⟩⟩⟩
    | douyin =>
      simp only [normalizeOptionItems, raises_bind, raises_pure, implies_true, and_true]
      exact ⟨normalizeChoice_raises _ _, fun _ _ => raises_require (by simp [IsOther])⟩
    | tencent =>
      simp only [normalizeOptionItems, raises_bind, raises_pure, implies_true, and_true]
      exact ⟨normalizeChoice_raises _ _, fun _ _ => ⟨raises_require (by simp [IsOther]), fun _ _ =>
        ⟨normalizeChoice_raises _ _, fun _ _ => raises_require (by simp [IsOther])⟩⟩⟩
  have hcode : IsOther "unsupported_platform_option" := by simp [IsOther]
  unfold normalizePlatformOptions
  split <;> simp only [raises_bind, raises_pure, raises_throw, true_and, implies_true, and_true]
  · exact fun _ _ => ⟨raises_require hcode, fun _ _ => ⟨hitems _, fun _ _ => raises_require (by simp [IsOther])⟩⟩
  · exact fun _ _ => ⟨raises_require hcode, fun _ _ => ⟨hitems _, fun _ _ => raises_require (by simp [IsOther])⟩⟩
  · exact ⟨hcode, fun _ h => absurd h throw_ne_ok⟩

theorem validatePublishSchedule_raises (platform : Platform) (publish_at offset : Raw) (now : Int) (horizon : Bool) :
    Raises (validatePublishSchedule platform publish_at offset now horizon) IsOther := by
  unfold validatePublishSchedule
  split
  · exact raises_pure
  · simp [IsOther]
  · simp only [checkPublishTime, raises_bind, raises_pure, implies_true, and_true]
    exact ⟨raises_require (by simp [IsOther]), fun _ _ => ⟨raises_require (by simp [IsOther]), fun _ _ =>
      ⟨raises_require (by simp [IsOther]), fun _ _ => ⟨raises_require (by simp [IsOther]), fun _ _ =>
        raises_require (by simp [IsOther])⟩⟩⟩⟩
  · simp [IsOther]

theorem verifiedCoverRow_raises (id : Option Ident) : Raises (verifiedCoverRow env db id) IsOther := by
  unfold verifiedCoverRow
  split
  · exact raises_pure
  · simp only [raises_bind, raises_pure, implies_true, and_true]
    refine ⟨raises_fetch (by simp [IsOther]), fun asset _ => ⟨raises_require (by simp [IsOther]), fun _ _ => ?_⟩⟩
    unfold checked
    split
    · exact raises_pure
    · next f _ => cases f <;> simp [FileFault.coverCode, IsOther]

theorem verifiedJobCoverRows_raises (platform : Platform) (landscape portrait : Option Ident) :
    Raises (verifiedJobCoverRows env db platform landscape portrait) IsOther := by
  simp only [verifiedJobCoverRows, raises_bind, raises_pure, implies_true, and_true]
  exact ⟨raises_require (by simp [IsOther]), fun _ _ => ⟨raises_require (by simp [IsOther]), fun _ _ =>
    ⟨verifiedCoverRow_raises _, fun _ _ => ⟨verifiedCoverRow_raises _, fun _ _ =>
      ⟨raises_require (by simp [IsOther]), fun _ _ => ⟨raises_require (by simp [IsOther]), fun _ _ =>
        raises_require (by simp [IsOther])⟩⟩⟩⟩⟩⟩

theorem verifiedSourceMediaPath_raises (source : Source) : Raises (verifiedSourceMediaPath env source) IsOther := by
  simp only [verifiedSourceMediaPath, raises_bind]
  refine ⟨raises_require (by simp [IsOther]), fun _ _ => ?_⟩
  unfold checked
  split
  · exact raises_pure
  · next f _ => cases f <;> simp [FileFault.sourceCode, IsOther]

theorem scalars_raises (v : Raw) :
    Raises (parseMode v) IsOther ∧ Raises (parseCategory v) IsOther ∧ Raises (parseCopyright v) IsOther := by
  refine ⟨?_, ?_, ?_⟩
  · unfold parseMode
    split
    · split
      · exact raises_pure
      · split <;> simp [IsOther]
    · simp [IsOther]
    · simp [IsOther]
    · simp [IsOther]
  · unfold parseCategory
    split
    · exact raises_pure
    · simp only [raises_bind, raises_pure, implies_true, and_true]
      exact raises_require (by simp [IsOther])
    · simp [IsOther]
  · unfold parseCopyright
    split
    · exact raises_pure
    · simp only [raises_bind, raises_pure, implies_true, and_true]
      exact raises_require (by simp [IsOther])
    · simp [IsOther]

theorem parseCover_raises (id : RawIdent) : Raises (parseCover id) IsOther := by
  cases id with
  | none => exact raises_pure
  | ident id => exact raises_pure
  | malformed =>
    simp only [parseCover, identifier, raises_bind, raises_throw]
    exact ⟨by simp [IsOther], fun _ _ => raises_pure⟩

theorem platformRights_raises (platform : Platform) (tags : List Text) (category copyright : Option Int) (credit : Text) :
    Raises (platformRights platform tags category copyright credit) IsOther := by
  cases platform with
  | bilibili =>
    simp only [platformRights, raises_bind, raises_pure, implies_true, and_true]
    exact ⟨raises_require (by simp [IsOther]), fun _ _ => ⟨raises_fetch (by simp [IsOther]), fun _ _ =>
      ⟨raises_require (by simp [IsOther]), fun _ _ => ⟨raises_require (by simp [IsOther]), fun _ _ =>
        raises_require (by simp [IsOther])⟩⟩⟩⟩
  | douyin | tencent => exact raises_pure

theorem checkCovers_raises (platform : Platform) (landscape portrait : Option Ident) (verify : Bool) :
    Raises (checkCovers env db platform landscape portrait verify) IsOther := by
  unfold checkCovers
  split <;> simp only [raises_bind, raises_pure, implies_true, and_true]
  · exact verifiedJobCoverRows_raises _ _ _
  · exact ⟨raises_require (by simp [IsOther]), fun _ _ => raises_require (by simp [IsOther])⟩

theorem normalizeTarget_raises (account : Account) (base : RawTarget) (o : TargetOverride) (checks : Checks) :
    Raises (normalizeTarget u env db account base o checks) IsOther := by
  simp only [normalizeTarget, raises_bind, raises_pure, implies_true, and_true]
  refine ⟨raises_require (by simp [IsOther]), fun _ _ => ⟨normalizeUploadText_raises _ _ _, fun _ _ =>
    ⟨raises_require (by simp [IsOther]), fun _ _ => ⟨normalizeUploadText_raises _ _ _, fun _ _ =>
    ⟨normalizeUploadTags_raises _, fun _ _ => ⟨(scalars_raises _).1, fun _ _ =>
    ⟨raises_require (by simp [IsOther]), fun _ _ => ⟨normalizeUploadText_raises _ _ _, fun _ _ =>
    ⟨(scalars_raises _).2.1, fun _ _ => ⟨(scalars_raises _).2.2, fun _ _ => ⟨platformRights_raises _ _ _ _ _, fun _ _ =>
    ⟨parseCover_raises _, fun _ _ => ⟨parseCover_raises _, fun _ _ => ⟨checkCovers_raises _ _ _ _, fun _ _ =>
    ⟨validatePublishSchedule_raises _ _ _ _ _, fun _ _ => ⟨raises_require (by simp [IsOther]), fun _ _ =>
    normalizePlatformOptions_raises _ _⟩⟩⟩⟩⟩⟩⟩⟩⟩⟩⟩⟩⟩⟩⟩⟩

theorem validateJobDefinition_raises (j : Job) (ready : Bool) :
    Raises (validateJobDefinition u env db j ready) IsOther := by
  simp only [validateJobDefinition, raises_bind, raises_pure, implies_true, and_true]
  refine ⟨raises_fetch (by cases ready <;> simp [IsOther]), fun _ _ => ⟨raises_require (by simp [IsOther]), fun _ _ =>
    ⟨raises_require (by simp [IsOther]), fun _ _ => ⟨normalizeTarget_raises _ _ _ _, fun _ _ =>
    ⟨raises_require (by simp [IsOther]), fun _ _ => ⟨validatePublishSchedule_raises _ _ _ _ _, fun _ _ =>
    ⟨raises_fetch (by simp [IsOther]), fun _ _ => ⟨verifiedSourceMediaPath_raises _, fun _ _ =>
    verifiedJobCoverRows_raises _ _ _⟩⟩⟩⟩⟩⟩⟩⟩

/-! ## receipts that the service wrote -/

theorem getJob_raises (job_id : Ident) : Raises (getJob db job_id) IsOther := by
  intro e he
  rw [getJob_error he]
  simp [IsOther]

/-- a check that succeeds raises nothing -/
theorem raises_of_ok {x : Except Code PUnit} (h : x = .ok ⟨⟩) : Raises x IsOther := by
  rw [h]
  exact raises_ok

theorem attempt_raises (hok : db.OK host) (job_id : Ident) : Raises (attempt host db job_id) IsOther := by
  simp only [attempt, raises_bind, raises_pure, implies_true, and_true]
  refine ⟨getJob_raises _, fun j hj => ⟨raises_fetch (by simp [IsOther]), fun a ha => ?_⟩⟩
  obtain ⟨hhas, hid⟩ := getJob_has hj
  obtain ⟨ha, haid⟩ := Table.get_eq_some.mp (fetch_eq_ok.mp ha)
  obtain ⟨hi, hv⟩ := hok.receipts.receipt ha hhas (by rw [hid, haid])
  exact ⟨raises_of_ok (validateAttemptIdentity_ok hok.ledger hok.receipts.parentsEnded hhas hi false
    (fun h => absurd h Bool.false_ne_true)), fun _ _ => raises_of_ok (require_eq_ok.mpr hv)⟩

theorem retry_raises (hok : db.OK host) (job_id new_id : Ident) :
    Raises (retry host env db job_id new_id) IsOther := by
  simp only [retry, raises_bind]
  refine ⟨getJob_raises _, fun j hj => ⟨raises_require (by simp [IsOther]), fun _ _ =>
    ⟨raises_require (by simp [IsOther]), fun _ _ => ?_⟩⟩⟩
  obtain ⟨hhas, hid⟩ := getJob_has hj
  obtain ⟨l, hl, hline⟩ := retryLineage_ok hok.ledger hok.receipts.parentsEnded hhas
  obtain ⟨leaf, hlast, -⟩ := hline.getLast
  have hleaf : latestRetryJob db j = .ok leaf := (latestRetryJob_eq_ok hok hhas).mpr ⟨l, hline, hlast⟩
  rw [hleaf]
  refine ⟨raises_ok, fun x hx => ?_⟩
  cases hx
  split
  · exact raises_pure
  · next he =>
    have hlf : db.IsLeaf j := hline.isLeaf hlast (by rw [hid]; exact not_not.mp he)
    simp only [validateRetryJob, insertRetryJob, raises_bind, raises_pure, implies_true, and_true]
    refine ⟨⟨validateJobDefinition_raises _ _, fun _ _ => ⟨raises_fetch (by simp [IsOther]), fun a ha => ?_⟩⟩,
      fun _ _ => ⟨raises_fetch (by simp [IsOther]), fun _ _ => getJob_raises _⟩⟩
    obtain ⟨ha, haid⟩ := Table.get_eq_some.mp (fetch_eq_ok.mp ha)
    obtain ⟨hi, hv⟩ := hok.receipts.receipt ha hhas haid.symm
    exact ⟨raises_of_ok (validateAttemptIdentity_ok hok.ledger hok.receipts.parentsEnded hhas hi true (fun _ => hlf)),
      fun _ _ => ⟨raises_of_ok (require_eq_ok.mpr hv), fun _ _ => raises_require (by simp [IsOther])⟩⟩

/-! ## coherence -/

/-- a receipt and its job, as the validator sees them -/
structure Coherent (j : Job) (a : Attempt) : Prop where
  running : j.state = .running ↔ a.state = .reserved ∧ a.revision = 0 ∨ a.state = .dispatchMayHaveStarted ∧ a.revision = 1
  responded : a.state = .responded → a.result_status.map ResultStatus.jobState = some j.state ∧ a.result_code = some j.code
  unknown : a.state = .unknown → a.revision = 2 ∧ j.state = .unknown ∧ a.result_code = some j.code
  reconciled : a.state = .reconciled → a.revision = 3 ∧ ∃ c, a.reconciliation = some c ∧ (j.state, j.code) = c.jobResult

theorem coherent_of_valid {j : Job} {a : Attempt} (hv : attemptStateIsValid j a = true) : Coherent j a := by
  have hrun := attemptStateIsValid_running_iff hv
  obtain ⟨-, hv⟩ := Bool.and_eq_true_iff.mp hv
  constructor
  case running =>
    rw [hrun]
    constructor
    · rintro (hs | hs) <;> rw [hs] at hv <;> simp only [Bool.and_eq_true, beq_iff_eq] at hv
      · exact .inl ⟨hs, hv.1.1.2⟩
      · exact .inr ⟨hs, hv.1.1.2⟩
    · exact Or.imp (fun h => h.1) (fun h => h.1)
  case responded =>
    intro hs
    rw [hs] at hv
    simp only [Bool.and_eq_true, beq_iff_eq] at hv
    exact ⟨hv.1.1.2.symm, hv.1.2.symm⟩
  case unknown =>
    intro hs
    rw [hs] at hv
    simp only [Bool.and_eq_true, beq_iff_eq] at hv
    exact ⟨hv.1.1.1.1.2, hv.1.1.2, hv.1.2.symm⟩
  case reconciled =>
    intro hs
    rw [hs] at hv
    simp only [Bool.and_eq_true, Option.any_eq_true, beq_iff_eq] at hv
    obtain ⟨c, hc, -, hres⟩ := hv.1.1.1.2
    exact ⟨hv.1.1.1.1.2, c, hc, hres⟩

structure WorldCoherent (host : Host) (w : World) : Prop where
  coherent : ∀ a ∈ w.db.attempts, ∃ j, getJob w.db a.job_id = .ok j ∧ validateAttemptState j a = .ok () ∧ Coherent j a
  forward : ∀ ls w', Run (World.Step host) w ls w' → ∀ a ∈ w.db.attempts, ∃ a' ∈ w'.db.attempts, a'.job_id = a.job_id ∧
    (a' = a ∨ TransGen AttemptState.next a.state a'.state ∧ a.revision < a'.revision)
  attempt : ∀ job_id, attempt host w.db job_id ≠ .error "upload_attempt_identity_changed"
  retry : ∀ env job_id new_id, retry host env w.db job_id new_id ≠ .error "upload_attempt_identity_changed"

/-- **Jobs and receipts agree, receipts only move forward, and no receipt of the service's own history is refused.** -/
theorem coherent_reachable {w : World} (h : w.Reachable host) : WorldCoherent host w where
  coherent := by
    intro a ha
    obtain ⟨j, hj, hid, -, hv⟩ := (ok_reachable h).db.receipts.receipts a ha
    refine ⟨j, ?_, require_eq_ok.mpr hv, coherent_of_valid hv⟩
    rw [← hid]
    exact hj
  forward := by
    intro ls w' hr a ha
    obtain ⟨a', ha', hf⟩ := (run_chain (ok_reachable h) hr).forward ha
    exact ⟨a', ha', hf.job_id, hf.imp_right (fun h => h.2)⟩
  attempt := fun job_id he => attempt_raises (ok_reachable h).db job_id _ he rfl
  retry := fun _ job_id new_id he => retry_raises (ok_reachable h).db job_id new_id _ he rfl

/-- a receipt that has its answer -/
theorem coherent_responded : ∃ w : World, w.db.attempts.rows.map Attempt.state = [.responded] ∧
    WorldCoherent plainHost w := by
  obtain ⟨w, hw, -, -, hs, -⟩ := failedUpload_run
  exact ⟨w, hs, coherent_reachable (World.reachable_run plainHost hw)⟩

end
end OpenFlame.Upload
