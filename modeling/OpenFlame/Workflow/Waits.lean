import OpenFlame.Workflow.Keys
import OpenFlame.Workflow.Progress

/-!
# One call of `advance` comes to rest

`StepEnd r`          what a step does to the record `r`: it lowers the rank, or leaves the workflow at rest
* `does_advanceOnce`, `does_advanceStep`   every step, and every round, does;
* `advance_rests`    **a call of `advance` never uses up its rounds.**
-/

set_option linter.all false

namespace OpenFlame.Workflow
open Guard Text Json Editing Process
open Upload (Mode Platform)

section
variable {F : Type} {fl : Floats F} {py : Python fl} {s : Store F} {id : Text} {r : Record py} {E : Fault → Prop}

/-- a step that progressed has lowered the rank, and another one has left the workflow at rest -/
def StepEnd (r : Record py) (progressed : Bool) (r' : Record py) : Prop :=
  if progressed = true then r'.rank < r.rank else r'.AtRest

theorem atRest_attention {r' : Record py} (hs : r'.state = .attention_required) : r'.AtRest := Record.atRest_of hs (by decide)

/-- attention, without progress -/
theorem does_attend {code : String} (h : s.byId py id = .ok r) :
    Does E id (StepEnd r) (do let _ ← attention r code; return false) s :=
  does_attention h (fun _ hs => atRest_attention hs)

theorem rank_of_end {r' : Record py} {state : WorkflowState} (hs : r'.state = state) (h : state = .completed ∨ state = .canceled)
    (hc : r'.code ≠ CANCELLATION_REQUESTED) : r'.rank = 0 := by
  rw [rank_of_state hc hs (by rcases h with rfl | rfl <;> decide)]
  rcases h with rfl | rfl <;> rfl

/-- what the end of the uploads does to a workflow that has something left to do -/
theorem does_outcome {outcome : Option UploadOutcome} {r₀ : Record py} (hrank : 0 < r₀.rank) (h : s.byId py id = .ok r) :
    Does E id (StepEnd r₀) (recordUploadOutcome r outcome) s := by
  refine (does_recordUploadOutcome h).mono (fun t done r' _ hdone => ?_)
  cases done with
  | true =>
    show r'.rank < r₀.rank
    rw [rank_of_end hdone.1 (.inl rfl) hdone.2]
    exact hrank
  | false => exact atRest_attention hdone

/-! ## cancellation -/

theorem tries_cancelViaDiscovery {code : String} {q : AdapterCall py (Option CancellationSnapshot)}
    (h : s.byId py id = .ok r) : Tries E id r (fun _ r' => r' = r) (cancelViaDiscovery code q) s :=
  tries_bind (tries_query h) (fun _ _ _ hr' he => tries_pure hr' he)

theorem raises_uploadForExecution : Raises (uploadForExecution r) (fun e => e ≠ .other) := by
  unfold uploadForExecution
  split
  · exact raises_bind.mpr ⟨raises_require (by intro h; cases h), fun _ _ => raises_pure⟩
  · exact raises_fetch (by intro h; cases h)

theorem tries_cancelFurthestDomain (h : s.byId py id = .ok r) :
    Tries E id r (fun _ r' => r' = r) (cancelFurthestDomain r) s := by
  unfold cancelFurthestDomain
  split
  · refine tries_bind (tries_lift h raises_uploadForExecution) (fun t upload r₁ hr₁ he => ?_)
    rw [he] at hr₁
    refine tries_bind (tries_cancelViaDiscovery hr₁) (fun u snapshot r₂ hr₂ he₂ => ?_)
    split
    · exact tries_pure hr₂ he₂
    · exact tries_pure hr₂ he₂
  · split
    · exact tries_query h
    · split
      · exact tries_query h
      · exact tries_pure h rfl
      · exact tries_cancelViaDiscovery h
      · exact tries_pure h rfl
      · exact tries_cancelViaDiscovery h
      · split
        · exact tries_query h
        · exact tries_cancelViaDiscovery h

theorem does_advanceCancellation (hc : r.code = CANCELLATION_REQUESTED) (h : s.byId py id = .ok r) :
    Does E id (StepEnd r) (advanceCancellation r) s := by
  have hrank : r.rank = 1 := if_pos hc
  have hanswer : Does E id (fun _ r' => r' = r)
      (catchWorkflow (fun code => return .error code) (do return .ok (← cancelFurthestDomain r)) :
        Call py (Except String CancellationSnapshot)) s :=
    does_catch (tries_bind (tries_cancelFurthestDomain h) (fun _ _ _ hr' he => tries_pure hr' he))
      (fun _ _ ht => does_pure ht rfl)
  refine does_bind hanswer (fun t answer r₁ hr₁ he => ?_)
  rw [he] at hr₁
  cases answer with
  | error code => exact does_attend hr₁
  | ok snapshot =>
    dsimp only
    split
    · refine does_moved hr₁ (fun u r' _ hs hcode => ?_)
      show r'.rank < r.rank
      rw [rank_of_end hs (.inr rfl) (by rw [hcode]; decide), hrank]
      exact Nat.one_pos
    · exact does_pure hr₁ (.inl hc)
    · exact does_attend hr₁
    · exact does_outcome (by rw [hrank]; exact Nat.one_pos) hr₁
    · exact does_attend hr₁

/-! ## the steps of the active states -/

/-- the record `r₁` that is stored is moved on from the state of `r` to a later one -/
theorem does_progress {r₁ : Record py} {state state' : WorkflowState} {code : String}
    (hc : r.code ≠ CANCELLATION_REQUESTED) (hs : r.state = state) (h : s.byId py id = .ok r₁)
    (hlt : state ≠ .preparing_upload ∧ max 1 state'.height < state.height) :
    Does E id (StepEnd r) (do let _ ← moveTo r₁ state' code; return true) s :=
  does_moved h (fun _ _ hr' hs' _ => rank_lt hr' hc hs hs' hlt.1 hlt.2)

/-- nothing is done, and the workflow waits where it is -/
theorem does_wait {state : WorkflowState} (hs : r.state = state) (h : s.byId py id = .ok r)
    (hrest : state ∉ [WorkflowState.created, .preparing_edit, .preparing_upload]) :
    Does E id (StepEnd r) (return false) s :=
  does_pure h (Record.atRest_of hs hrest)

theorem does_advanceCreated (hc : r.code ≠ CANCELLATION_REQUESTED) (hs : r.state = .created) (h : s.byId py id = .ok r) :
    Does E id (StepEnd r) (advanceCreated r) s := by
  have hchecked : Does E id (fun _ r' => r' = r) (catchWorkflow (fun code => return .error code) (do
      let _ ← preflight py r.profile_json (some r.profile.upload.account_bindings)
      return .ok ()) : Call py (Except String Unit)) s := by
    refine does_catch (tries_bind ?_ (fun _ _ _ hr' he => tries_pure hr' he)) (fun _ _ ht => does_pure ht rfl)
    refine tries_bind (tries_query h) (fun t bindings r₁ hr₁ he => ?_)
    rw [he] at hr₁
    show Tries E id r _ (if _ then _ else _) t
    split
    · exact tries_pure hr₁ rfl
    · exact tries_fail hr₁
  refine does_bind hchecked (fun t checked r₁ hr₁ he => ?_)
  rw [he] at hr₁
  cases checked with
  | error code =>
    show Does E id (StepEnd r) (if code ∈ PREFLIGHT_WAIT_CODES then _ else _) t
    split
    · next hwait =>
      refine does_moved hr₁ (fun u r' _ hs' hcode => .inr ⟨by rw [hs']; decide, fun _ => ?_⟩)
      rw [hcode]
      exact hwait
    · exact does_attend hr₁
  | ok _ =>
    refine does_bind (does_query hr₁) (fun u batch_id r₂ hr₂ he₂ => ?_)
    rw [he₂] at hr₂
    refine does_bind (does_setRefs hr₂) (fun v updated r₃ hr₃ hu => ?_)
    rw [hu.1]
    exact does_progress hc hs hr₃ (by decide)

theorem tries_resolveSource {snapshot : DownloadSnapshot} (h : s.byId py id = .ok r) :
    Tries E id r (fun _ r' => r' = r) (resolveSource r snapshot) s := by
  refine tries_bind (tries_query h) (fun t candidate r₁ hr₁ he => ?_)
  rw [he] at hr₁
  cases candidate with
  | none => exact tries_pure hr₁ rfl
  | some candidate =>
    have hnormal : Alone (storeMachine py) E (fun u (x : Except Fault (Value F × Text)) => u.byId py id = .ok r ∧
        ∀ e, x = .error e → E e ∨ Refusal py u id e)
        (Process.lift ((normalizeResolvedUpload py (record r.profile.items) candidate).mapError WorkflowErr.fault) :
          Call py (Value F × Text)) t :=
      ⟨hr₁, fun e hx => .inr (.candidate r candidate hr₁ hx)⟩
    have hresolved : Alone (storeMachine py) E (fun u (x : Except Fault (Except String (Value F))) =>
        u.byId py id = .ok r ∧ ∀ e, x = .error e → E e ∨ Refusal py u id e) (do
          let normalized ← Process.lift
            ((normalizeResolvedUpload py (record r.profile.items) candidate).mapError WorkflowErr.fault)
          return .ok normalized.1 : Call py (Except String (Value F))) t :=
      hnormal.bind (fun u a hu => ⟨hu.1, fun _ h => by cases h⟩) (fun u e hu => ⟨hu.1, fun e' he' => hu.2 e' (by rw [Except.error.inj he'])⟩)
    refine hresolved.handle (fun u a hu => ⟨r, hu.1, rfl⟩) (fun u e hu => ?_)
    cases e with
    | workflow code => exact ⟨r, hu.1, rfl⟩
    | other => exact ⟨hu.1, fun _ => hu.2 _ rfl⟩

theorem does_advanceDownloaded {snapshot : DownloadSnapshot} {asset_id : Text} (hc : r.code ≠ CANCELLATION_REQUESTED)
    (hs : r.state = .downloading) (h : s.byId py id = .ok r) :
    Does E id (StepEnd r) (advanceDownloaded r snapshot asset_id) s := by
  unfold advanceDownloaded
  split
  · split
    · exact does_progress hc hs h (by decide)
    · have hresolved : Does E id (fun _ r' => r' = r)
          (catchWorkflow (fun code => return .error code) (resolveSource r snapshot)) s :=
        does_catch (tries_resolveSource h) (fun _ _ ht => does_pure ht rfl)
      refine does_bind hresolved (fun t resolved r₁ hr₁ he => ?_)
      rw [he] at hr₁
      cases resolved with
      | error code =>
        refine does_bind (does_setRefs hr₁) (fun u updated r₂ hr₂ hu => ?_)
        rw [hu.1]
        exact does_attention hr₂ (fun _ hs' => atRest_attention hs')
      | ok resolved =>
        refine does_bind (does_setRefs hr₁) (fun u updated r₂ hr₂ hu => ?_)
        rw [hu.1]
        exact does_progress hc hs hr₂ (by decide)
  · refine does_bind (does_setRefs h) (fun u updated r₂ hr₂ hu => ?_)
    rw [hu.1]
    exact does_progress hc hs hr₂ (by decide)

theorem does_advanceDownloading (hc : r.code ≠ CANCELLATION_REQUESTED) (hs : r.state = .downloading)
    (h : s.byId py id = .ok r) : Does E id (StepEnd r) (advanceDownloading r) s := by
  unfold advanceDownloading
  split
  · exact does_attend h
  · refine does_bind (does_query h) (fun t snapshot r₁ hr₁ he => ?_)
    rw [he] at hr₁
    split
    · exact does_wait hs hr₁ (by decide)
    · split
      · split
        · exact does_attend hr₁
        · exact does_advanceDownloaded hc hs hr₁
      · exact does_attend hr₁

theorem does_advancePreparingEdit (hc : r.code ≠ CANCELLATION_REQUESTED) (hs : r.state = .preparing_edit)
    (h : s.byId py id = .ok r) : Does E id (StepEnd r) (advancePreparingEdit r) s := by
  unfold advancePreparingEdit
  split
  · exact does_attend h
  · refine does_bind (does_query h) (fun t prepared r₁ hr₁ he => ?_)
    rw [he] at hr₁
    refine does_bind (does_setRefs hr₁) (fun u updated r₂ hr₂ hu => ?_)
    rw [hu.1]
    cases prepared.awaiting_ai_review with
    | true => exact does_progress hc hs hr₂ (by decide)
    | false => exact does_progress hc hs hr₂ (by decide)

theorem does_advanceAiReview (hc : r.code ≠ CANCELLATION_REQUESTED) (hs : r.state = .awaiting_ai_review)
    (h : s.byId py id = .ok r) : Does E id (StepEnd r) (advanceAiReview r) s := by
  unfold advanceAiReview
  dsimp only
  split
  · exact does_attend h
  · split
    · exact does_wait hs h (by decide)
    · refine does_bind (does_query h) (fun t snapshot r₁ hr₁ he => ?_)
      rw [he] at hr₁
      refine does_bind (does_applyAiSnapshot hr₁) (fun u d r₂ hr₂ hd => does_pure hr₂ ?_)
      cases d with
      | ready => exact rank_lt hr₂ hc hs hd (by decide) (by decide)
      | waiting => exact Record.atRest_of hd (by decide)
      | attention => exact atRest_attention hd
      | invalid => exact hd.elim

theorem does_advanceEditWaiting {plan_id : Text} {classification : EditClassification}
    (hc : r.code ≠ CANCELLATION_REQUESTED) (hs : r.state = .awaiting_edit_confirmation) (h : s.byId py id = .ok r) :
    Does E id (StepEnd r) (advanceEditWaiting r plan_id classification) s := by
  unfold advanceEditWaiting
  dsimp only
  split
  · exact does_wait hs h (by decide)
  · generalize editConfirmationCode (orCode classification.code r.code) = code
    have hmoved : Does E id (fun a r' => a = r' ∧ r'.state = .awaiting_edit_confirmation)
        (if code ≠ "" ∧ code ≠ r.code then moveTo r .awaiting_edit_confirmation code else pure r) s := by
      split
      · exact (does_moveTo h).mono (fun _ _ _ _ hm => ⟨hm.1, hm.2.1⟩)
      · exact does_pure h ⟨rfl, hs⟩
    have hrest : ∀ (t : Store F) (r₁ : Record py), t.byId py id = .ok r₁ → r₁.state = .awaiting_edit_confirmation →
        Does E id (StepEnd r) (do
          if r₁.auto_confirm_edit = false ∨ code ∉ AUTO_EDIT_REVIEW_CODES then return false
          let _ ← Process.query (.confirm_edit plan_id)
          let _ ← moveTo r₁ .rendering ""
          return true) t := by
      intro t r₁ hr₁ hs₁
      split
      · exact does_pure hr₁ (Record.atRest_of hs₁ (by decide))
      · refine does_bind (does_query hr₁) (fun u _ r₂ hr₂ he => ?_)
        rw [he] at hr₂
        exact does_progress hc hs hr₂ (by decide)
    split
    · next hcode =>
      rw [if_pos hcode] at hmoved
      refine does_bind hmoved (fun t a r₁ hr₁ ha => ?_)
      rw [ha.1]
      exact hrest t r₁ hr₁ ha.2
    · exact hrest s r h hs

theorem does_advanceEditConfirmation (hc : r.code ≠ CANCELLATION_REQUESTED) (hs : r.state = .awaiting_edit_confirmation)
    (h : s.byId py id = .ok r) : Does E id (StepEnd r) (advanceEditConfirmation r) s := by
  unfold advanceEditConfirmation
  split
  · exact does_attend h
  · refine does_bind (does_observeEdit nofun h) (fun t seen r₁ hr₁ hseen => ?_)
    obtain ⟨classification, d⟩ := seen
    cases d with
    | ready => exact does_pure hr₁ (rank_lt hr₁ hc hs hseen (by decide) (by decide))
    | waiting_active =>
      have he : r₁ = r := hseen
      rw [he] at hr₁
      exact does_progress hc hs hr₁ (by decide)
    | waiting_confirmation =>
      have he : r₁ = r := hseen
      rw [he] at hr₁
      exact does_advanceEditWaiting hc hs hr₁
    | failed => exact does_pure hr₁ (atRest_attention hseen)
    | attention => exact does_pure hr₁ (atRest_attention hseen)
    | invalid => exact does_pure hr₁ (atRest_attention hseen)

theorem does_advanceRendering (hc : r.code ≠ CANCELLATION_REQUESTED) (hs : r.state = .rendering)
    (h : s.byId py id = .ok r) : Does E id (StepEnd r) (advanceRendering r) s := by
  unfold advanceRendering
  split
  · exact does_attend h
  · refine does_bind (does_observeEdit nofun h) (fun t seen r₁ hr₁ hseen => ?_)
    obtain ⟨classification, d⟩ := seen
    cases d with
    | ready => exact does_pure hr₁ (rank_lt hr₁ hc hs hseen (by decide) (by decide))
    | waiting_active =>
      have he : r₁ = r := hseen
      rw [he] at hr₁
      exact does_wait hs (he ▸ hr₁) (by decide)
    | waiting_confirmation =>
      have he : r₁ = r := hseen
      rw [he] at hr₁
      show Does E id (StepEnd r) (if classification.code = "" then _ else _) t
      split
      · exact does_wait hs hr₁ (by decide)
      · exact does_moved hr₁ (fun _ _ _ hs' _ => Record.atRest_of hs' (by decide))
    | failed => exact does_pure hr₁ (atRest_attention hseen)
    | attention => exact does_pure hr₁ (atRest_attention hseen)
    | invalid => exact does_pure hr₁ (atRest_attention hseen)

/-! ### the preparation of the uploads -/

theorem pendingOutput_some {outputs : List Output} {pending : Output} (h : pendingOutput outputs = some pending) :
    pending ∈ outputs ∧ pending.upload_source_id.isNone = true :=
  ⟨List.mem_of_find?_eq_some h, List.find?_some (p := fun o : Output => o.upload_source_id.isNone) h⟩

/-- one more output is prepared -/
theorem pendingCount_prepared {pending : Output} {prepared : UploadPrepared} (h : pendingOutput r.outputs = some pending) :
    pendingCount (preparedOutputs r pending prepared) < pendingCount r.outputs := by
  obtain ⟨hmem, hnone⟩ := pendingOutput_some h
  unfold preparedOutputs pendingCount
  generalize (r.profile.upload.account_ids.zip prepared.job_ids).filterMap _ = targets
  generalize r.outputs = outputs at hmem
  rw [List.countP_map]
  have hle : ∀ outputs : List Output, outputs.countP ((fun o : Output => o.upload_source_id.isNone) ∘ fun o =>
      if o.segment_ordinal = pending.segment_ordinal then
        { pending with upload_source_id := some prepared.source_id, targets } else o) ≤
        outputs.countP (fun o => o.upload_source_id.isNone) := by
    intro outputs
    refine List.countP_mono_left (fun o _ ho => ?_)
    rw [Function.comp_apply] at ho
    split at ho
    · cases ho
    · exact ho
  induction outputs with
  | nil => nomatch hmem
  | cons o outputs ih =>
    rw [List.countP_cons, List.countP_cons]
    rcases List.mem_cons.mp hmem with rfl | hmem
    · rw [if_pos hnone, if_neg]
      · exact Nat.lt_succ_of_le (hle outputs)
      · rw [Function.comp_apply, if_pos rfl]
        exact Bool.false_ne_true
    · have hrest := ih hmem
      have hhead := hle [o]
      rw [List.countP_singleton, List.countP_singleton] at hhead
      omega

theorem rank_preparing (hc : r.code ≠ CANCELLATION_REQUESTED) (hs : r.state = .preparing_upload) :
    r.rank = 3 + pendingCount r.outputs + (if r.upload_cover_id.isNone = true then 1 else 0) := by
  unfold Record.rank
  rw [if_neg hc, if_pos hs]

/-- where the preparation of an output leaves the workflow: the cover is chosen, or it is as it was -/
def PrepareEnd (r : Record py) (x : Option UploadPrepared) (r' : Record py) : Prop :=
  match x with
  | none => r'.rank < r.rank
  | some _ => r' = r

theorem tries_prepareOutput {pending : Output} (hc : r.code ≠ CANCELLATION_REQUESTED) (hs : r.state = .preparing_upload)
    (h : s.byId py id = .ok r) : Tries E id r (PrepareEnd r) (prepareOutput r pending) s := by
  refine tries_bind (tries_lift h raises_uploadForExecution) (fun t upload r₁ hr₁ he => ?_)
  rw [he] at hr₁
  split
  · split
    · exact tries_fail hr₁
    · split
      · next hcover =>
        refine tries_bind (tries_query hr₁) (fun u selected r₂ hr₂ he₂ => ?_)
        rw [he₂] at hr₂
        refine tries_bind (tries_setRefs hr₂) (fun v updated r₃ hr₃ hu => tries_pure hr₃ ?_)
        obtain ⟨-, hw⟩ := hu
        show r₃.rank < r.rank
        rw [rank_preparing hc hs, rank_preparing (by rw [hw.code]; exact hc) (by rw [hw.state]; exact hs),
          hw.outputs, hw.upload_cover_id, hcover]
        show 3 + pendingCount r.outputs + 0 < 3 + pendingCount r.outputs + 1
        omega
      · exact tries_bind (tries_query hr₁) (fun u prepared r₂ hr₂ he₂ => tries_pure hr₂ he₂)
  · exact tries_bind (tries_query hr₁) (fun u prepared r₂ hr₂ he₂ => tries_pure hr₂ he₂)

theorem does_applyPrepared {pending : Output} {prepared : UploadPrepared} (hpending : pendingOutput r.outputs = some pending)
    (hc : r.code ≠ CANCELLATION_REQUESTED) (hs : r.state = .preparing_upload) (h : s.byId py id = .ok r) :
    Does E id (StepEnd r) (applyPrepared r pending prepared) s := by
  unfold applyPrepared
  split
  · exact does_attend h
  · split
    · exact does_attend h
    · next hcover =>
      refine does_bind (does_setRefs h) (fun t updated r₁ hr₁ hu => does_pure hr₁ ?_)
      obtain ⟨-, hw⟩ := hu
      have hcount : pendingCount (preparedOutputs r pending prepared) < pendingCount r.outputs :=
        pendingCount_prepared hpending
      show r₁.rank < r.rank
      rw [rank_preparing hc hs, rank_preparing (by rw [hw.code]; exact hc) (by rw [hw.state]; exact hs),
        hw.outputs, hw.upload_cover_id]
      show 3 + pendingCount (preparedOutputs r pending prepared) + (if prepared.cover_id.isNone = true then 1 else 0) < _
      -- a cover that was chosen stays, so one is missing only where it was before
      cases hr : r.upload_cover_id with
      | none =>
        rw [if_pos Option.isNone_none]
        split <;> omega
      | some cover =>
        have hsame : r.upload_cover_id = prepared.cover_id := by
          by_contra hne
          exact hcover ⟨by rw [hr]; rfl, hne⟩
        rw [← hsame, hr, Option.isNone_some, if_neg Bool.false_ne_true]
        omega

theorem does_advancePreparingUpload (hc : r.code ≠ CANCELLATION_REQUESTED) (hs : r.state = .preparing_upload)
    (h : s.byId py id = .ok r) : Does E id (StepEnd r) (advancePreparingUpload r) s := by
  unfold advancePreparingUpload
  split
  · exact does_attend h
  · split
    · refine does_moved h (fun t r' hr' hs' _ => ?_)
      have hle := rank_le hr'
      rw [hs'] at hle
      have htwo : max 1 WorkflowState.awaiting_upload_confirmation.height = 2 := rfl
      show r'.rank < r.rank
      rw [rank_preparing hc hs]
      omega
    · next pending hpending =>
      have hanswer : Does E id (fun (x : Except String (Option UploadPrepared)) r' => match x with
          | .ok x => PrepareEnd r x r'
          | .error _ => r' = r)
          (catchWorkflow (fun code => return .error code) (do return .ok (← prepareOutput r pending))) s :=
        does_catch (tries_bind (tries_prepareOutput hc hs h) (fun _ _ _ hr' he => tries_pure hr' he))
          (fun _ _ ht => does_pure ht rfl)
      refine does_bind hanswer (fun t answer r₁ hr₁ he => ?_)
      cases answer with
      | error code =>
        have he₁ : r₁ = r := he
        rw [he₁] at hr₁
        exact does_attend hr₁
      | ok x =>
        cases x with
        | none => exact does_pure hr₁ he
        | some prepared =>
          have he₁ : r₁ = r := he
          rw [he₁] at hr₁
          exact does_applyPrepared hpending hc hs hr₁

/-! ### the uploads -/

theorem does_advanceUploadWaiting {classification : UploadClassification} (hc : r.code ≠ CANCELLATION_REQUESTED)
    {r₁ : Record py} (hs : r.state = .awaiting_upload_confirmation) (hs₁ : r₁.state = .awaiting_upload_confirmation)
    (h : s.byId py id = .ok r₁) : Does E id (StepEnd r) (advanceUploadWaiting r₁ classification) s := by
  have hrest : ∀ (t : Store F) (r₂ : Record py), t.byId py id = .ok r₂ → r₂.state = .awaiting_upload_confirmation →
      Does E id (StepEnd r) (do
        if r₂.auto_confirm_upload = false ∨ classification.code ∉ AUTO_UPLOAD_REVIEW_CODES then return false
        let _ ← Process.query (.confirm_uploads r₂.upload_job_ids r₂.profile.upload.account_bindings)
        let _ ← moveTo r₂ .uploading ""
        return true) t := by
    intro t r₂ hr₂ hs₂
    split
    · exact does_pure hr₂ (Record.atRest_of hs₂ (by decide))
    · refine does_bind (does_query hr₂) (fun u _ r₃ hr₃ he => ?_)
      rw [he] at hr₃
      exact does_progress hc hs hr₃ (by decide)
  unfold advanceUploadWaiting
  split
  · exact does_pure h (Record.atRest_of hs₁ (by decide))
  · split
    · refine does_bind (does_moveTo h) (fun t a r₂ hr₂ ha => ?_)
      rw [ha.1]
      exact hrest t r₂ hr₂ ha.2.1
    · exact hrest s r₁ h hs₁

theorem does_advanceUploadConfirmation (hc : r.code ≠ CANCELLATION_REQUESTED)
    (hs : r.state = .awaiting_upload_confirmation) (h : s.byId py id = .ok r) :
    Does E id (StepEnd r) (advanceUploadConfirmation r) s := by
  have hrank : 0 < r.rank := by
    rw [rank_of_state hc hs (by decide)]
    decide
  refine does_bind (does_observeUpload h) (fun t seen r₁ hr₁ hseen => ?_)
  obtain ⟨updated, snapshot, classification, changed⟩ := seen
  obtain ⟨he, hs₁, -, -⟩ := hseen
  have hu : updated = r₁ := he
  rw [hu]
  dsimp only
  split
  · exact does_attention hr₁ (fun _ hs' => atRest_attention hs')
  · exact does_outcome hrank hr₁
  · exact does_attention hr₁ (fun _ hs' => atRest_attention hs')
  · exact does_progress hc hs hr₁ (by decide)
  · exact does_advanceUploadWaiting hc hs (hs₁.trans hs) hr₁

theorem does_advanceUploading (hc : r.code ≠ CANCELLATION_REQUESTED) (hs : r.state = .uploading)
    (h : s.byId py id = .ok r) : Does E id (StepEnd r) (advanceUploading r) s := by
  have hrank : 0 < r.rank := by
    rw [rank_of_state hc hs (by decide)]
    decide
  refine does_bind (does_observeUpload h) (fun t seen r₁ hr₁ hseen => ?_)
  obtain ⟨updated, snapshot, classification, changed⟩ := seen
  obtain ⟨he, hs₁, -, -⟩ := hseen
  have hu : updated = r₁ := he
  rw [hu]
  dsimp only
  split
  · exact does_moved hr₁ (fun _ _ _ hs' _ => Record.atRest_of hs' (by decide))
  · exact does_pure hr₁ (Record.atRest_of (hs₁.trans hs) (by decide))
  · exact does_attention hr₁ (fun _ hs' => atRest_attention hs')
  · exact does_attention hr₁ (fun _ hs' => atRest_attention hs')
  · exact does_outcome hrank hr₁

/-- **Every step progresses towards the end, or leaves the workflow at rest.** -/
theorem does_advanceOnce (hactive : r.code = CANCELLATION_REQUESTED ∨ r.state.isActive = true) (h : s.byId py id = .ok r) :
    Does E id (StepEnd r) (advanceOnce r) s := by
  unfold advanceOnce
  by_cases hc : r.code = CANCELLATION_REQUESTED
  · rw [if_pos hc]
    exact does_advanceCancellation hc h
  · rw [if_neg hc]
    have ha := hactive.resolve_left hc
    cases hs : r.state with
    | created => exact does_advanceCreated hc hs h
    | downloading => exact does_advanceDownloading hc hs h
    | preparing_edit => exact does_advancePreparingEdit hc hs h
    | awaiting_ai_review => exact does_advanceAiReview hc hs h
    | awaiting_edit_confirmation => exact does_advanceEditConfirmation hc hs h
    | rendering => exact does_advanceRendering hc hs h
    | preparing_upload => exact does_advancePreparingUpload hc hs h
    | awaiting_upload_confirmation => exact does_advanceUploadConfirmation hc hs h
    | uploading => exact does_advanceUploading hc hs h
    | completed =>
      rw [hs] at ha
      cases ha
    | attention_required =>
      rw [hs] at ha
      cases ha
    | canceled =>
      rw [hs] at ha
      cases ha

/-! ## the rounds -/

/-- a round that is not the last one has lowered the rank, and the last one returns the record that is stored, at rest -/
def RoundEnd (r : Record py) (x : Option (Record py)) (r' : Record py) : Prop :=
  match x with
  | none => r'.rank < r.rank
  | some record => record = r' ∧ r'.AtRest

/-- the record that is stored is read and returned -/
theorem does_reread {r₀ r₁ : Record py} (hid : r₀.id = id) (h : s.byId py id = .ok r₁) (hrest : r₁.AtRest) :
    Does E id (RoundEnd r) (do return some (← getRecord r₀.id)) s := by
  rw [hid]
  refine does_bind (does_getRecord h) (fun t record r₂ hr₂ hrecord => does_pure hr₂ ?_)
  rw [hrecord.1, hrecord.2]
  exact ⟨rfl, hrest⟩

theorem does_stepOnce (hactive : r.code = CANCELLATION_REQUESTED ∨ r.state.isActive = true) (h : s.byId py id = .ok r) :
    Does E id (RoundEnd r) (stepOnce r) s := by
  refine does_bind (does_advanceOnce hactive h) (fun t progressed r₁ hr₁ he => ?_)
  cases progressed with
  | true => exact does_pure hr₁ he
  | false => exact does_reread (byId_eq_ok h).2 hr₁ he

/-- attention is left for another state -/
theorem does_leave {r₁ : Record py} {state : WorkflowState} {code : String} (hc : r.code ≠ CANCELLATION_REQUESTED)
    (hs : r.state = .attention_required) (h : s.byId py id = .ok r₁)
    (hlt : max 1 state.height < WorkflowState.attention_required.height) :
    Does E id (RoundEnd r) (do let _ ← moveTo r₁ state code; return none) s :=
  does_moved h (fun _ _ hr' hs' _ => rank_lt hr' hc hs hs' (by decide) hlt)

theorem does_stay {r₁ : Record py} {code : String} (h : s.byId py id = .ok r₁) :
    Does E id (RoundEnd r) (do return some (← attention r₁ code)) s :=
  does_bind (does_moveTo h) (fun _ _ _ hr' ha => does_pure hr' ⟨ha.1, atRest_attention ha.2.1⟩)

theorem does_advanceUploadAttention (hc : r.code ≠ CANCELLATION_REQUESTED) (hs : r.state = .attention_required)
    (h : s.byId py id = .ok r) : Does E id (RoundEnd r) (advanceUploadAttention r) s := by
  refine does_bind (does_observeUpload h) (fun t seen r₁ hr₁ hseen => ?_)
  obtain ⟨updated, snapshot, classification, changed⟩ := seen
  obtain ⟨he, hs₁, -, -⟩ := hseen
  have hu : updated = r₁ := he
  have hid : r₁.id = id := (byId_eq_ok hr₁).2
  rw [hu]
  dsimp only
  split
  · refine does_bind (does_recordUploadOutcome hr₁) (fun u done r₂ hr₂ hdone => does_reread hid hr₂ ?_)
    cases done with
    | true => exact Record.atRest_of hdone.1 (by decide)
    | false => exact atRest_attention hdone
  · exact does_leave hc hs hr₁ (by decide)
  · exact does_leave hc hs hr₁ (by decide)
  · exact does_stay hr₁
  · exact does_reread hid hr₁ (atRest_attention (hs₁.trans hs))

theorem does_advanceLedgerAttention (hc : r.code ≠ CANCELLATION_REQUESTED) (hs : r.state = .attention_required)
    (h : s.byId py id = .ok r) : Does E id (RoundEnd r) (advanceLedgerAttention r) s := by
  have hid : r.id = id := (byId_eq_ok h).2
  unfold advanceLedgerAttention
  split
  · refine does_bind (does_observeEdit nofun h) (fun t seen r₁ hr₁ hseen => ?_)
    obtain ⟨classification, d⟩ := seen
    cases d with
    | ready => exact does_pure hr₁ (rank_lt hr₁ hc hs hseen (by decide) (by decide))
    | waiting_confirmation =>
      have he : r₁ = r := hseen
      rw [he] at hr₁
      exact does_leave hc hs hr₁ (by decide)
    | waiting_active =>
      have he : r₁ = r := hseen
      rw [he] at hr₁
      exact does_leave hc hs hr₁ (by decide)
    | failed => exact does_reread hid hr₁ (atRest_attention hseen)
    | attention => exact does_reread hid hr₁ (atRest_attention hseen)
    | invalid => exact does_reread hid hr₁ (atRest_attention hseen)
  · split
    · exact does_stay h
    · refine does_bind (does_query h) (fun t snapshot r₁ hr₁ he => ?_)
      rw [he] at hr₁
      refine does_bind (does_applyAiSnapshot hr₁) (fun u d r₂ hr₂ hd => ?_)
      cases d with
      | ready => exact does_pure hr₂ (rank_lt hr₂ hc hs hd (by decide) (by decide))
      | waiting => exact does_pure hr₂ (rank_lt hr₂ hc hs hd (by decide) (by decide))
      | attention => exact does_reread hid hr₂ (atRest_attention hd)
      | invalid => exact hd.elim

/-- **Every round lowers the rank or returns.** -/
theorem does_advanceStep (h : s.byId py id = .ok r) : Does E id (RoundEnd r) (advanceStep r) s := by
  unfold advanceStep
  by_cases hc : r.code = CANCELLATION_REQUESTED
  · rw [if_pos hc]
    exact does_stepOnce (.inl hc) h
  · rw [if_neg hc]
    by_cases hs : r.state = .attention_required
    · rw [if_pos hs]
      have hstay : Does E id (RoundEnd r) (return some r) s := does_pure h ⟨rfl, atRest_attention hs⟩
      split
      · exact does_leave hc hs h (by decide)
      · split
        · exact does_advanceUploadAttention hc hs h
        · split
          · exact does_leave hc hs h (by decide)
          · split
            · exact does_leave hc hs h (by decide)
            · split
              · exact does_advanceLedgerAttention hc hs h
              · exact hstay
    · rw [if_neg hs]
      by_cases ha : r.state.isActive = false
      · rw [if_pos ha]
        refine does_pure h ⟨rfl, ?_⟩
        have hend : r.state ∉ [WorkflowState.created, .preparing_edit, .preparing_upload] := by
          intro hmem
          have hactive : ∀ state ∈ [WorkflowState.created, .preparing_edit, .preparing_upload],
              state.isActive = true := by decide
          rw [hactive _ hmem] at ha
          cases ha
        exact Record.atRest_of rfl hend
      · rw [if_neg ha]
        exact does_stepOnce (.inr (by rwa [Bool.not_eq_false] at ha)) h

/-- the loop of `advance`; `none` where its rounds are used up -/
def rounds (id : Text) : Nat → Call py (Option (Record py))
  | 0 => return none
  | n + 1 => do
    let r ← getRecord id
    match ← advanceStep r with
    | none => rounds id n
    | some r => return some r

/-- what `advance` returns after its loop -/
def afterRounds (id : Text) : Option (Record py) → Call py (Record py)
  | some r => return r
  | none => do
    let r ← getRecord id
    if r.code = CANCELLATION_REQUESTED then return r
    else attention r "workflow_progress_limit"

theorem advanceLoop_eq (id : Text) (n : Nat) : (advanceLoop id n : Call py (Record py)) = rounds id n >>= afterRounds id := by
  induction n with
  | zero => rfl
  | succ n ih =>
    show (getRecord id >>= fun r => advanceStep r >>= fun x => _) = (getRecord id >>= fun r => advanceStep r >>= fun x => _) >>= _
    rw [bind_assoc]
    congr 1
    funext r
    rw [bind_assoc]
    congr 1
    funext x
    cases x with
    | none => exact ih
    | some r => rfl

/-- where the loop leaves a workflow -/
def LoopEnd (x : Option (Record py)) (r' : Record py) : Prop := x = some r' ∧ r'.AtRest

/-- more rounds than the rank are never used up -/
theorem does_rounds {n : Nat} (h : s.byId py id = .ok r) (hn : r.rank < n) :
    Does E id LoopEnd (rounds id n : Call py (Option (Record py))) s := by
  induction n generalizing s r with
  | zero => exact absurd hn (Nat.not_lt_zero _)
  | succ n ih =>
    refine does_bind (does_getRecord h) (fun t a r₁ hr₁ ha => ?_)
    rw [ha.1]
    rw [ha.2] at hr₁
    refine does_bind (does_advanceStep hr₁) (fun u x r₂ hr₂ hx => ?_)
    cases x with
    | none => exact ih hr₂ (Nat.lt_of_lt_of_le hx (Nat.lt_succ_iff.mp hn))
    | some record => exact does_pure hr₂ ⟨congrArg some hx.1, hx.2⟩

/-! ## workflows that can be reached -/

variable (py)

/-- a row that can be read -/
def Readable (row : WorkflowRow F) : Prop := isHex 32 row.id = true ∧ ∃ r, row.public py = .ok r

def AllReadable (s : Store F) : Prop := ∀ row ∈ s.workflows, Readable py row

variable {py}

theorem byId_readable {row : WorkflowRow F} (hrow : row ∈ s.workflows) (h : Readable py row) :
    ∃ r, s.byId py row.id = .ok r := by
  obtain ⟨-, r, hr⟩ := h
  refine ⟨r, ?_⟩
  simp only [Store.byId, bind_eq_ok, fetch_eq_ok]
  exact ⟨row, Table.get_eq_some.mpr ⟨hrow, rfl⟩, hr⟩

/-- what is read of a row does not depend on the code of its state -/
theorem public_move {row : WorkflowRow F} {code : String} {finished_at : Option Text} (h : ∃ r, row.public py = .ok r) :
    ∃ r, (row.move row.state code finished_at).public py = .ok r := by
  obtain ⟨r, hr⟩ := h
  simp only [WorkflowRow.public, bind_eq_ok, pure_eq_ok] at hr
  obtain ⟨p, hp, x, hx, u, hu, v, hv, outputs, ho, a, ha, b, hb, -⟩ := hr
  refine ⟨{ toWorkflowRow := row.move row.state code finished_at, profile := p }, ?_⟩
  simp only [WorkflowRow.public, bind_eq_ok, pure_eq_ok]
  exact ⟨p, hp, x, hx, u, hu, v, hv, outputs, ho, a, ha, b, hb, rfl⟩

theorem AllReadable.write {s' : Store F} {row : WorkflowRow F} {f : WorkflowRow F → WorkflowRow F}
    (hs : AllReadable py s) (h : Rewrite s row f s') (hf : ∃ r, (f row).public py = .ok r) : AllReadable py s' := by
  intro r hr
  rcases h.mem.mp hr with rfl | ⟨hold, -⟩
  · exact ⟨by rw [h.same.id]; exact (hs row h.stored).1, hf⟩
  · exact hs r hold

theorem public_of_byId {row : WorkflowRow F} {a : Record py} (hrow : row ∈ s.workflows) (h : s.byId py row.id = .ok a) :
    row.public py = .ok a := by
  simp only [Store.byId, bind_eq_ok, fetch_eq_ok] at h
  obtain ⟨row', hget, hpublic⟩ := h
  obtain ⟨hmem, hid⟩ := Table.get_eq_some.mp hget
  rwa [Table.eq_of_key hmem hrow hid] at hpublic

section
variable {s' : Store F} {m : Moment}

/-- a row that is read after it was written -/
theorem AllReadable.reread {row : WorkflowRow F} {f : WorkflowRow F → WorkflowRow F} {a : Record py}
    (hs : AllReadable py s) (h : Rewrite s row f s') (hread : s'.byId py row.id = .ok a) : AllReadable py s' := by
  refine hs.write h ⟨a, public_of_byId h.written ?_⟩
  rw [h.same.id]
  exact hread

theorem execInsert_readable {new : NewWorkflow F} (hs : AllReadable py s) (h : execInsert py new m s = .ok (r, s')) :
    AllReadable py s' := by
  simp only [execInsert, bind_eq_ok] at h
  obtain ⟨prior, -, h⟩ := h
  cases prior with
  | some prior =>
    cases h
    exact hs
  | none =>
    simp only [bind_eq_ok, fetch_eq_ok, pure_eq_ok] at h
    obtain ⟨workflows, hinsert, s₁, hevent, record, hread, h⟩ := h
    cases h
    obtain ⟨hworkflows, -⟩ := event_eq_ok hevent
    intro row hrow
    rw [hworkflows] at hrow
    rcases (Table.mem_insert hinsert).mp hrow with hold | rfl
    · exact hs row hold
    · refine ⟨m.uuid.2, _, public_of_byId ?_ hread⟩
      rw [hworkflows]
      exact hrow

theorem execRequestCancel_readable {revision : Nat} {o : Option (Record py)} (hs : AllReadable py s)
    (h : execRequestCancel py id revision m s = .ok (o, s')) : AllReadable py s' := by
  have hread : ∀ row ∈ s.workflows, ∃ r, row.public py = .ok r := fun row hrow => (hs row hrow).2
  simp only [execRequestCancel, bind_eq_ok, fetch_eq_ok] at h
  obtain ⟨row, hget, record, -, h⟩ := h
  obtain ⟨hrow, hid⟩ := Table.get_eq_some.mp hget
  split at h
  · cases h
    exact hs
  · simp only [bind_eq_ok, require_eq_ok] at h
    obtain ⟨_, -, h⟩ := h
    split at h
    · simp only [bind_eq_ok, require_eq_ok, pure_eq_ok] at h
      obtain ⟨_, -, h⟩ := h
      cases h
      exact hs
    · simp only [bind_eq_ok, require_eq_ok, pure_eq_ok] at h
      obtain ⟨_, -, _, -, s₁, hwrite, s₂, hevent, h⟩ := h
      cases h
      -- of the new row only its code, its end and its revision are others
      obtain ⟨hrows, -⟩ := write_eq_ok hwrite
      obtain ⟨hworkflows, -⟩ := event_eq_ok hevent
      intro x hx
      rw [hworkflows, ← Table.mem_rows, hrows, List.mem_map] at hx
      obtain ⟨y, hy, rfl⟩ := hx
      have hy' : y ∈ s.workflows := Table.mem_rows.mp hy
      cases hheld : row.isHeld y with
      | false =>
        rw [Table.upd_neg hheld]
        exact hs y hy'
      | true =>
        rw [Table.upd_pos hheld, eq_of_isHeld hrow hy' hheld]
        exact ⟨(hs row hrow).1, public_move (hread row hrow)⟩

theorem execSetRefs_readable {expected : Record py} {values : Refs F} (hs : AllReadable py s)
    (h : execSetRefs py expected values s = .ok (r, s')) : AllReadable py s' := by
  simp only [execSetRefs, bind_eq_ok, require_eq_ok, pure_eq_ok] at h
  obtain ⟨_, -, row, hheld, values', -, _, -, s₁, hwrite, a, hread, h⟩ := h
  cases h
  obtain ⟨hrows, hevents⟩ := write_eq_ok hwrite
  have hrewrite : Rewrite s row values'.write s' :=
    ⟨(held_eq_ok hheld).1, hrows, ⟨rfl, rfl, rfl, rfl, rfl, rfl, rfl⟩, rfl, .inl ⟨hevents, rfl, rfl, rfl⟩⟩
  exact hs.reread hrewrite hread

theorem execTransition_readable {expected : Record py} {state : WorkflowState} {code : String} (hs : AllReadable py s)
    (h : execTransition py expected state code m s = .ok (r, s')) : AllReadable py s' := by
  simp only [execTransition, bind_eq_ok] at h
  obtain ⟨row, hheld, h⟩ := h
  split at h
  · simp only [bind_eq_ok, pure_eq_ok] at h
    obtain ⟨_, -, h⟩ := h
    cases h
    exact hs
  · simp only [bind_eq_ok, pure_eq_ok] at h
    obtain ⟨s₁, hwrite, s₂, hevent, a, hread, h⟩ := h
    cases h
    have hfin : ((if state.isFinished then some m.now else none : Option Text)).isSome = state.isFinished := by
      cases state.isFinished <;> rfl
    exact hs.reread (.of_move (held_eq_ok hheld).1 hwrite hevent hfin) hread

end

theorem next_readable {β : Type} (o : StoreOp py β) (m : Moment) (s : Store F) (hs : AllReadable py s) :
    AllReadable py ((storeMachine py).next o m s) := by
  rcases (storeMachine py).next_cases o m s with h | ⟨b, h⟩
  · rw [h]
    exact hs
  · generalize (storeMachine py).next o m s = s' at h
    have hexec : execStore py o m s = .ok (b, s') := h
    cases o with
    | get id =>
      simp only [execStore, bind_eq_ok, pure_eq_ok] at hexec
      obtain ⟨_, -, hexec⟩ := hexec
      cases hexec
      exact hs
    | findKey key digest =>
      simp only [execStore, bind_eq_ok, pure_eq_ok] at hexec
      obtain ⟨_, -, hexec⟩ := hexec
      cases hexec
      exact hs
    | insert new => exact execInsert_readable hs hexec
    | requestCancel id revision => exact execRequestCancel_readable hs hexec
    | setRefs expected values => exact execSetRefs_readable hs hexec
    | transition expected state code => exact execTransition_readable hs hexec

/-- every workflow that can be reached can be read -/
theorem reach_readable {w : ServiceWorld py} (h : ServiceReach py w) : AllReadable py w.store :=
  World.reach_inv (I := AllReadable py) (fun s hs => by rw [hs]; exact fun row hrow => nomatch hrow)
    (fun o x s hs => next_readable o x s hs) h

/-- what a call of `advance` ends with alone -/
theorem does_advance {row : WorkflowRow F} (hs : AllReadable py s) (hrow : row ∈ s.workflows) :
    Does E row.id LoopEnd (rounds row.id WORKFLOW_PROGRESS_LIMIT : Call py (Option (Record py))) s ∧
      Does E row.id (fun record r' => record = r' ∧ r'.AtRest) (advance row.id : Call py (Record py)) s := by
  obtain ⟨r, hr⟩ := byId_readable hrow (hs row hrow)
  have hrounds : Does E row.id LoopEnd (rounds row.id WORKFLOW_PROGRESS_LIMIT : Call py (Option (Record py))) s :=
    does_rounds hr (rank_lt_limit hr)
  refine ⟨hrounds, ?_⟩
  have hidentifier : (identifier row.id : Call py Unit) = pure () := if_pos (hs row hrow).1
  unfold advance
  rw [hidentifier, advanceLoop_eq]
  show Does E row.id _ (rounds row.id WORKFLOW_PROGRESS_LIMIT >>= afterRounds row.id) s
  refine does_bind hrounds (fun t x r' hr' hx => ?_)
  rw [hx.1]
  exact does_pure hr' ⟨rfl, hx.2⟩

/-- **In the world, while the other calls rest**, a call of `advance` that returns has come to rest. -/
theorem advance_run {w w' : ServiceWorld py} {row : WorkflowRow F} {n : Nat} {c : ServiceCall (F := F)} {record : Record py}
    {ls : List (World.Label (StoreOp py) (ServiceCall (F := F)) Moment)} (hw : ServiceReach py w)
    (hrow : row ∈ w.store.workflows) (hn : w.calls[n]? = some (c, advance row.id))
    (hrun : TransSys.Run (ServiceStep py) w ls w') (hls : ∀ l ∈ ls, l.IsOf n)
    (hdone : w'.calls[n]? = some (c, .done (.ok record))) :
    w'.store.byId py row.id = .ok record ∧ record.AtRest := by
  obtain ⟨p, hp, hends⟩ := World.run_alone hrun hls hn (does_advance (reach_readable hw) hrow).2
  rw [hdone] at hp
  cases hp
  obtain ⟨r', hr', he, hrest⟩ := hends
  rw [he]
  exact ⟨hr', hrest⟩

variable (py)

/-- **A call of `advance` comes to rest**: it is a loop of so many rounds, and a program for the case that they are used up.
On every workflow that can be reached, alone on the store and whatever the domains answer, they are not used up: the call
returns the record that is stored, which waits for a domain, is in attention or has ended, or it raises an error that a domain
has raised, or one with which the service refuses what a domain has answered. -/
theorem advance_rests :
    (∀ id : Text, (advance id : Call py (Record py)) =
      (do identifier id; rounds id WORKFLOW_PROGRESS_LIMIT) >>= afterRounds id) ∧
    ∀ (w : ServiceWorld py) (row : WorkflowRow F) (E : Fault → Prop), ServiceReach py w → row ∈ w.store.workflows →
      Does E row.id LoopEnd (rounds row.id WORKFLOW_PROGRESS_LIMIT : Call py (Option (Record py))) w.store ∧
        Does E row.id (fun record r' => record = r' ∧ r'.AtRest) (advance row.id : Call py (Record py)) w.store := by
  refine ⟨fun id => ?_, fun w row E hw hrow => does_advance (reach_readable hw) hrow⟩
  unfold advance
  rw [bind_assoc]
  congr 1
  funext _
  exact advanceLoop_eq id _

end

/-! ### a first workflow -/

/-- the first workflow of a store, as it is read -/
def lettersRecord : Record lettersPython where
  toWorkflowRow := lettersNew.row lettersMoment.uuid
  profile := storedProfile

/-- a new workflow is read as it was inserted -/
theorem execInsert_byId {F : Type} {fl : Floats F} {py : Python fl} {new : NewWorkflow F} {m : Moment} {s' : Store F}
    {r : Record py} (h : execInsert py new m (Store.empty F) = .ok (r, s')) : s'.byId py m.uuid.1 = .ok r := by
  simp only [execInsert, bind_eq_ok] at h
  obtain ⟨prior, hprior, h⟩ := h
  have hnone : (Store.empty F).keyed py new.request_key new.request_digest = .ok none := rfl
  rw [hnone] at hprior
  cases hprior
  simp only [bind_eq_ok, fetch_eq_ok, pure_eq_ok] at h
  obtain ⟨workflows, -, s₁, -, record, hread, h⟩ := h
  cases h
  exact hread

theorem letters_reached : ∃ w : ServiceWorld lettersPython, ServiceReach lettersPython w ∧
    w.store.byId lettersPython lettersRecord.id = .ok lettersRecord := by
  obtain ⟨s, hs⟩ := insert_empty public_letters
  obtain ⟨w, hw, -, hstore⟩ := race_reached first_intent second_intent new_letters hs .other
  refine ⟨w, hw, ?_⟩
  rw [hstore]
  exact execInsert_byId hs

/-- the first workflow comes to rest -/
theorem advance_rests_letters : ∃ w : ServiceWorld lettersPython, lettersRecord.toWorkflowRow ∈ w.store.workflows ∧
    Does (fun _ => False) lettersRecord.id LoopEnd
      (rounds lettersRecord.id WORKFLOW_PROGRESS_LIMIT : Call lettersPython (Option (Record lettersPython))) w.store ∧
    Does (fun _ => False) lettersRecord.id (fun record r' => record = r' ∧ r'.AtRest)
      (advance lettersRecord.id : Call lettersPython (Record lettersPython)) w.store := by
  obtain ⟨w, hw, hread⟩ := letters_reached
  have hrow := (byId_eq_ok hread).1
  exact ⟨w, hrow, (advance_rests lettersPython).2 w _ (fun _ => False) hw hrow⟩

/-- **An error may be the service's own**: a domain that answers the name of no download makes `advance` raise, although no
domain has raised anything. -/
theorem advance_refuses :
    ¬ ∀ (w : ServiceWorld lettersPython) (row : WorkflowRow {s : List Char // isFloatText s = true}) (E : Fault → Prop),
      ServiceReach lettersPython w → row ∈ w.store.workflows →
        Alone (storeMachine lettersPython) E (fun t x => match x with
          | .ok record => t.byId lettersPython row.id = .ok record ∧ record.AtRest
          | .error e => E e) (advance row.id : Call lettersPython (Record lettersPython)) w.store := by
  intro h
  obtain ⟨w, hw, hread⟩ := letters_reached
  have hrow := (byId_eq_ok hread).1
  have halone := h w _ (fun _ => False) hw hrow
  have hidentifier : (identifier lettersRecord.id : Call lettersPython Unit) = pure () := if_pos (by decide)
  unfold advance at halone
  rw [hidentifier] at halone
  have hexec : (storeMachine lettersPython).exec (.get lettersRecord.id) lettersMoment w.store =
      .ok (lettersRecord, w.store) := by
    show ((do return (← w.store.byId lettersPython lettersRecord.id, w.store)) : Except Fault _) = _
    rw [hread]
    rfl
  have hround := halone lettersMoment
  rw [Machine.result_ok hexec, Machine.next_ok hexec] at hround
  -- the preflight finds the accounts as they were, and the download has no proper name
  have hasked := hround (.ok lettersBindings) nofun
  have hcreated := hasked (.ok ['x']) nofun
  have hwritten := hcreated lettersMoment
  exact hwritten

end OpenFlame.Workflow
