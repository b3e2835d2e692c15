import OpenFlame.Base.Alone
import OpenFlame.Workflow.History

/-!
# How far a workflow is from its end

`Record.rank`        a bound on the rounds that `advance` may still make
`Record.AtRest`      where it may leave a workflow: waiting for a domain, in attention or at its end
`Does E id Q p s`    alone on the store and with only errors of `E` from the domains, `p` ends with a result and a record that
                     `Q` relates, with one of these errors, or where the store refuses what was answered (`Refusal`)

* `does_moveTo`, `does_setRefs`     what the two writes do to the record that they hold;
* `does_applyAiSnapshot`, `does_observeEdit`, `does_observeUpload`, `does_recordUploadOutcome`
                                    the parts that the steps share.
-/

set_option linter.all false

namespace OpenFlame.Workflow
open Guard Text Json Editing Process
open Upload (Mode Platform)

section
variable {F : Type} {fl : Floats F} {py : Python fl}

/-! ## the rank -/

/-- no more rounds than this start from a state -/
def WorkflowState.height : WorkflowState → Nat
  | .completed | .canceled => 0
  | .uploading => 1
  | .awaiting_upload_confirmation => 2
  | .preparing_upload => MAX_WORKFLOW_SEGMENTS + 4
  | .rendering => MAX_WORKFLOW_SEGMENTS + 5
  | .awaiting_edit_confirmation => MAX_WORKFLOW_SEGMENTS + 6
  | .awaiting_ai_review => MAX_WORKFLOW_SEGMENTS + 7
  | .preparing_edit => MAX_WORKFLOW_SEGMENTS + 8
  | .downloading => MAX_WORKFLOW_SEGMENTS + 9
  | .created => MAX_WORKFLOW_SEGMENTS + 10
  | .attention_required => MAX_WORKFLOW_SEGMENTS + 11

/-- the outputs without an upload -/
def pendingCount (outputs : List Output) : Nat := outputs.countP (fun o => o.upload_source_id.isNone)

/-- the rounds that may still be made: each prepares an output, chooses the cover or leaves its state for a later one -/
def Record.rank (r : Record py) : Nat :=
  if r.code = CANCELLATION_REQUESTED then 1
  else if r.state = .preparing_upload then
    3 + pendingCount r.outputs + (if r.upload_cover_id.isNone = true then 1 else 0)
  else r.state.height

/-- a workflow that waits for a domain, is in attention or has ended -/
def Record.AtRest (r : Record py) : Prop :=
  r.code = CANCELLATION_REQUESTED ∨ r.state ∉ [WorkflowState.preparing_edit, .preparing_upload] ∧
    (r.state = .created → r.code ∈ PREFLIGHT_WAIT_CODES)

theorem Record.atRest_of {r : Record py} {state : WorkflowState} (hs : r.state = state)
    (h : state ∉ [WorkflowState.created, .preparing_edit, .preparing_upload]) : r.AtRest := by
  rw [List.mem_cons, not_or] at h
  refine .inr ⟨by rw [hs]; exact h.2, fun hc => ?_⟩
  exact absurd (hs ▸ hc) h.1

/-! ## records that are stored -/

variable {s t : Store F} {id : Text} {r r' : Record py}

theorem public_outputs {row : WorkflowRow F} (h : row.public py = .ok r) : r.outputs.length ≤ MAX_WORKFLOW_SEGMENTS := by
  have hrow := public_row h
  simp only [WorkflowRow.public, normalizeWorkflowOutputs, bind_eq_ok, require_eq_ok, pure_eq_ok] at h
  obtain ⟨_, -, _, -, _, -, _, -, outputs, ⟨_, hfit, rfl⟩, _, -, _, -, _⟩ := h
  rw [hrow]
  exact hfit.1

theorem byId_outputs (h : s.byId py id = .ok r) : r.outputs.length ≤ MAX_WORKFLOW_SEGMENTS := by
  simp only [Store.byId, bind_eq_ok, fetch_eq_ok] at h
  obtain ⟨row, -, hrow⟩ := h
  exact public_outputs hrow

theorem rank_le (h : s.byId py id = .ok r) : r.rank ≤ max 1 r.state.height := by
  have hlength := byId_outputs h
  have hcount : pendingCount r.outputs ≤ r.outputs.length := List.countP_le_length
  unfold Record.rank
  by_cases hc : r.code = CANCELLATION_REQUESTED
  · rw [if_pos hc]
    exact Nat.le_max_left _ _
  · rw [if_neg hc]
    by_cases hs : r.state = .preparing_upload
    · rw [if_pos hs, hs]
      show _ ≤ max 1 (MAX_WORKFLOW_SEGMENTS + 4)
      split <;> omega
    · rw [if_neg hs]
      exact Nat.le_max_right _ _

/-- **No workflow has more rounds to make than `advance` allows.** -/
theorem rank_lt_limit (h : s.byId py id = .ok r) : r.rank < WORKFLOW_PROGRESS_LIMIT := by
  have hle := rank_le h
  have hheight : r.state.height ≤ MAX_WORKFLOW_SEGMENTS + 11 := by
    cases r.state <;> decide
  unfold WORKFLOW_PROGRESS_LIMIT
  omega

theorem rank_of_state {state : WorkflowState} (hc : r.code ≠ CANCELLATION_REQUESTED) (hs : r.state = state)
    (hne : state ≠ .preparing_upload) : r.rank = state.height := by
  unfold Record.rank
  rw [if_neg hc, if_neg (by rw [hs]; exact hne), hs]

/-- a later state has less to do, whatever its code -/
theorem rank_lt {state state' : WorkflowState} (h : t.byId py id = .ok r') (hc : r.code ≠ CANCELLATION_REQUESTED)
    (hs : r.state = state) (hs' : r'.state = state') (hne : state ≠ .preparing_upload)
    (hlt : max 1 state'.height < state.height) : r'.rank < r.rank := by
  have hle := rank_le h
  rw [hs'] at hle
  rw [rank_of_state hc hs hne]
  exact Nat.lt_of_le_of_lt hle hlt

/-! ## the two writes -/

/-- a row that was written is read as it was written -/
theorem byId_written {row : WorkflowRow F} {f : WorkflowRow F → WorkflowRow F} (h : Rewrite s row f t)
    (hid : t.byId py row.id = .ok r') : r'.toWorkflowRow = f row := by
  obtain ⟨hmem, hr'⟩ := byId_eq_ok hid
  exact Table.eq_of_key hmem h.written (hr'.trans h.same.id.symm)

/-- the row that a stored record holds is its own -/
theorem held_stored {row : WorkflowRow F} (h : s.byId py id = .ok r) (hheld : s.held r.toWorkflowRow = .ok row) :
    row = r.toWorkflowRow := by
  obtain ⟨hmem, hid, -⟩ := held_eq_ok hheld
  exact Table.eq_of_key hmem (byId_eq_ok h).1 hid

theorem execTransition_stored {state : WorkflowState} {code : String} {m : Moment} (h : s.byId py id = .ok r)
    (hx : execTransition py r state code m s = .ok (r', t)) :
    t.byId py id = .ok r' ∧ r'.state = state ∧ r'.code = code := by
  have hid := (byId_eq_ok h).2
  simp only [execTransition, bind_eq_ok] at hx
  obtain ⟨row, hheld, hx⟩ := hx
  have hrow := held_stored h hheld
  split at hx
  · next hsame =>
    simp only [bind_eq_ok, pure_eq_ok] at hx
    obtain ⟨a, hpublic, hx⟩ := hx
    cases hx
    have hr' := public_row hpublic
    simp only [Store.byId, bind_eq_ok, fetch_eq_ok] at h ⊢
    obtain ⟨row₀, hget, -⟩ := h
    obtain ⟨hmem₀, hid₀⟩ := Table.get_eq_some.mp hget
    have hrow₀ : row₀ = row := Table.eq_of_key hmem₀ (held_eq_ok hheld).1 (by rw [hid₀, hrow, hid])
    refine ⟨⟨row₀, hget, by rw [hrow₀]; exact hpublic⟩, ?_, ?_⟩
    · rw [hr']
      exact hsame.1
    · rw [hr']
      exact hsame.2
  · simp only [bind_eq_ok, pure_eq_ok] at hx
    obtain ⟨s₁, hwrite, s₂, hevent, a, hbyId, hx⟩ := hx
    cases hx
    have hfin : ((if state.isFinished then some m.now else none : Option Text)).isSome = state.isFinished := by
      cases state.isFinished <;> rfl
    have hr' := byId_written (.of_move (held_eq_ok hheld).1 hwrite hevent hfin) hbyId
    have hrowid : row.id = id := by rw [hrow, hid]
    rw [hrowid] at hbyId
    exact ⟨hbyId, by rw [hr']; rfl, by rw [hr']; rfl⟩

theorem written_eq_ok {α : Type} {f : α → Except Fault α} {o o' : Option α} (hf : ∀ a a', f a = .ok a' → a' = a)
    (h : written f o = .ok o') : o' = o := by
  cases o with
  | none =>
    cases h
    rfl
  | some a =>
    have hmap : (f a).map some = .ok o' := h
    cases ha : f a with
    | error e =>
      rw [ha] at hmap
      cases hmap
    | ok a' =>
      rw [ha] at hmap
      cases hmap
      rw [hf a a' ha]

/-- outputs are written as they are given -/
theorem normalize_outputs {values values' : Refs F} {profile_json : Value F}
    (h : values.normalize py profile_json = .ok values') :
    values'.outputs = values.outputs ∧ values'.upload_cover_id = values.upload_cover_id := by
  unfold Refs.normalize at h
  split at h
  · cases h
    exact ⟨rfl, rfl⟩
  · simp only [bind_eq_ok, pure_eq_ok] at h
    obtain ⟨p, -, _, -, outputs, houtputs, resolved, -, rfl⟩ := h
    refine ⟨written_eq_ok (fun a a' ha => ?_) houtputs, rfl⟩
    simp only [normalizeWorkflowOutputs, bind_eq_ok, require_eq_ok, pure_eq_ok] at ha
    obtain ⟨_, -, rfl⟩ := ha
    rfl

/-- what a write of references does to the record that holds the row -/
structure Wrote (r : Record py) (values : Refs F) (r' : Record py) : Prop where
  state : r'.state = r.state
  code : r'.code = r.code
  outputs : r'.outputs = values.outputs.getD r.outputs
  upload_cover_id : r'.upload_cover_id = values.upload_cover_id.getD r.upload_cover_id

theorem execSetRefs_stored {values : Refs F} (h : s.byId py id = .ok r)
    (hx : execSetRefs py r values s = .ok (r', t)) : t.byId py id = .ok r' ∧ Wrote r values r' := by
  have hid := (byId_eq_ok h).2
  simp only [execSetRefs, bind_eq_ok, require_eq_ok, pure_eq_ok] at hx
  obtain ⟨_, -, row, hheld, values', hvalues, _, -, s₁, hwrite, a, hbyId, hx⟩ := hx
  cases hx
  have hrow := held_stored h hheld
  obtain ⟨hrows, hevents⟩ := write_eq_ok hwrite
  have hrewrite : Rewrite s row values'.write t :=
    ⟨(held_eq_ok hheld).1, hrows, ⟨rfl, rfl, rfl, rfl, rfl, rfl, rfl⟩, rfl, .inl ⟨hevents, rfl, rfl, rfl⟩⟩
  have hr' := byId_written hrewrite hbyId
  obtain ⟨houtputs, hcover⟩ := normalize_outputs hvalues
  have hrowid : row.id = id := by rw [hrow, hid]
  rw [hrowid] at hbyId
  refine ⟨hbyId, by rw [hr', hrow]; rfl, by rw [hr', hrow]; rfl, ?_, ?_⟩
  · rw [hr', hrow, ← houtputs]
    rfl
  · rw [hr', hrow, ← hcover]
    rfl

/-! ## what a call does alone -/

variable (py)

/-- the store refuses what is to be written of the very record it holds, or what a domain answered is not what was asked for -/
inductive Refusal (s : Store F) (id : Text) (e : Fault) : Prop where
  | refs (r : Record py) (values : Refs F) (h : s.byId py id = .ok r) (he : execSetRefs py r values s = .error e)
  | move (r : Record py) (state : WorkflowState) (code : String) (m : Moment) (h : s.byId py id = .ok r)
      (he : execTransition py r state code m s = .error e)
  | candidate (r : Record py) (v : Value F) (h : s.byId py id = .ok r)
      (he : (normalizeResolvedUpload py (record r.profile.items) v).mapError WorkflowErr.fault = .error e)
  | job_ids (r : Record py) (ids : List Text) (h : s.byId py id = .ok r)
      (hids : ¬ (ids.length = r.upload_job_ids.length ∧ ids.all (isHex 32) = true ∧ ids.Nodup))
      (he : e = .workflow "workflow_domain_data_invalid")

variable {py}

/-- how a call may end: with a record that `Q` relates to its result, or with an error of the domains or a refusal -/
def Ended {α : Type} (E : Fault → Prop) (id : Text) (Q : α → Record py → Prop) (t : Store F) : Except Fault α → Prop
  | .ok a => ∃ r, t.byId py id = .ok r ∧ Q a r
  | .error e => E e ∨ Refusal py t id e

/-- alone on the store, and with only errors of `E` from the domains -/
def Does {α : Type} (E : Fault → Prop) (id : Text) (Q : α → Record py → Prop) (p : Call py α) (s : Store F) : Prop :=
  Alone (storeMachine py) E (Ended E id Q) p s

variable {E : Fault → Prop}

section
variable {α β : Type} {Q : α → Record py → Prop} {Q' : β → Record py → Prop}

theorem does_pure {a : α} (h : s.byId py id = .ok r) (hQ : Q a r) : Does E id Q (pure a) s := ⟨r, h, hQ⟩

theorem does_bind {p : Call py α} {f : α → Call py β} (hp : Does E id Q p s)
    (hf : ∀ (t : Store F) a r, t.byId py id = .ok r → Q a r → Does E id Q' (f a) t) : Does E id Q' (p >>= f) s :=
  Alone.bind hp (fun t a h => by
    obtain ⟨r, hr, hQ⟩ := h
    exact hf t a r hr hQ) (fun _ _ h => h)

theorem Does.mono {Q'' : α → Record py → Prop} {p : Call py α} (hp : Does E id Q p s)
    (h : ∀ (t : Store F) a r, t.byId py id = .ok r → Q a r → Q'' a r) : Does E id Q'' p s :=
  Alone.mono hp (fun t x hx => by
    cases x with
    | ok a =>
      obtain ⟨r, hr, hQ⟩ := hx
      exact ⟨r, hr, h t a r hr hQ⟩
    | error e => exact hx)

/-- a question leaves the record as it is -/
theorem does_query {q : AdapterCall py α} (h : s.byId py id = .ok r) :
    Does E id (fun _ r' => r' = r) (Process.query q) s :=
  Alone.query (fun _ => ⟨r, h, rfl⟩) (fun _ he => .inl he)

theorem does_moveTo {state : WorkflowState} {code : String} (h : s.byId py id = .ok r) :
    Does E id (fun a r' => a = r' ∧ r'.state = state ∧ r'.code = code) (moveTo r state code) s :=
  Alone.txn (fun x a t hx => by
      obtain ⟨hbyId, hmoved⟩ := execTransition_stored h hx
      exact ⟨a, hbyId, rfl, hmoved⟩)
    (fun x e hx => .inr (.move r state code x h hx))

theorem does_setRefs {values : Refs F} (h : s.byId py id = .ok r) :
    Does E id (fun a r' => a = r' ∧ Wrote r values r') (setRefs r values) s :=
  Alone.txn (fun x a t hx => by
      obtain ⟨hbyId, hwrote⟩ := execSetRefs_stored h hx
      exact ⟨a, hbyId, rfl, hwrote⟩)
    (fun x e hx => .inr (.refs r values h hx))

theorem does_getRecord (h : s.byId py id = .ok r) : Does E id (fun a r' => a = r ∧ r' = r) (getRecord id) s := by
  have hexec : ∀ x, (storeMachine py).exec (.get id) x s = .ok (r, s) := by
    intro x
    show ((do return (← s.byId py id, s)) : Except Fault _) = _
    rw [h]
    rfl
  refine Alone.txn (fun x a t hx => ?_) (fun x e hx => ?_)
  · rw [hexec] at hx
    cases hx
    exact ⟨r, h, rfl, rfl⟩
  · rw [hexec] at hx
    cases hx

/-- a move, and then a result -/
theorem does_moved {state : WorkflowState} {code : String} {a : α} (h : s.byId py id = .ok r)
    (hQ : ∀ (t : Store F) r', t.byId py id = .ok r' → r'.state = state → r'.code = code → Q a r') :
    Does E id Q (do let _ ← moveTo r state code; return a) s :=
  does_bind (does_moveTo h) (fun t _ r' hr' hm => does_pure hr' (hQ t r' hr' hm.2.1 hm.2.2))

/-- attention, and then a result -/
theorem does_attention {code : String} {a : α} (h : s.byId py id = .ok r)
    (hQ : ∀ r' : Record py, r'.state = .attention_required → Q a r') :
    Does E id Q (do let _ ← attention r code; return a) s :=
  does_moved h (fun _ r' _ hs _ => hQ r' hs)

/-- a program whose errors are handled changes nothing before it raises one -/
def Tries {α : Type} (E : Fault → Prop) (id : Text) (r : Record py) (Q : α → Record py → Prop) (p : Call py α)
    (s : Store F) : Prop :=
  Alone (storeMachine py) E (fun t x => match x with
    | .ok a => ∃ r', t.byId py id = .ok r' ∧ Q a r'
    | .error e => t.byId py id = .ok r ∧ (e = .other → E e ∨ Refusal py t id e)) p s

theorem does_catch {p : Call py α} {handler : String → Call py α} (hp : Tries E id r Q p s)
    (hcode : ∀ code (t : Store F), t.byId py id = .ok r → Does E id Q (handler code) t) : Does E id Q (catchWorkflow handler p) s := by
  refine Alone.handle hp (fun t a h => h) (fun t e h => ?_)
  cases e with
  | workflow code => exact hcode code t h.1
  | other => exact h.2 rfl

end

section
variable {α β : Type} {Q : α → Record py → Prop} {Q' : β → Record py → Prop}

theorem tries_pure {a : α} (h : s.byId py id = .ok r') (hQ : Q a r') : Tries E id r Q (pure a) s := ⟨r', h, hQ⟩

theorem tries_bind {p : Call py α} {f : α → Call py β} (hp : Tries E id r Q p s)
    (hf : ∀ (t : Store F) a r', t.byId py id = .ok r' → Q a r' → Tries E id r Q' (f a) t) :
    Tries E id r Q' (p >>= f) s :=
  Alone.bind hp (fun t a h => by
    obtain ⟨r', hr', hQ⟩ := h
    exact hf t a r' hr' hQ) (fun _ _ h => h)

theorem tries_fail {code : String} (h : s.byId py id = .ok r) : Tries E id r Q (fail code) s := ⟨h, nofun⟩

theorem tries_lift {x : Except Fault α} (h : s.byId py id = .ok r) (hx : Raises x (fun e => e ≠ .other)) :
    Tries E id r (fun _ r' => r' = r) (Process.lift x) s := by
  cases x with
  | ok a => exact ⟨r, h, rfl⟩
  | error e => exact ⟨h, fun he => absurd he (hx e rfl)⟩

theorem tries_query {q : AdapterCall py α} (h : s.byId py id = .ok r) :
    Tries E id r (fun _ r' => r' = r) (Process.query q) s :=
  Alone.query (fun _ => ⟨r, h, rfl⟩) (fun _ he => ⟨h, fun _ => .inl he⟩)

theorem tries_setRefs {values : Refs F} (h : s.byId py id = .ok r) :
    Tries E id r (fun a r' => a = r' ∧ Wrote r values r') (setRefs r values) s :=
  Alone.txn (fun x a t hx => by
      obtain ⟨hbyId, hwrote⟩ := execSetRefs_stored h hx
      exact ⟨a, hbyId, rfl, hwrote⟩)
    (fun x e hx => ⟨h, fun _ => .inr (.refs r values h hx)⟩)

end

/-! ## the parts of the steps -/

theorem outcome_code (outcome : UploadOutcome) : outcome.code ≠ CANCELLATION_REQUESTED := by
  cases outcome <;> decide

theorem does_recordUploadOutcome {outcome : Option UploadOutcome} (h : s.byId py id = .ok r) :
    Does E id (fun (done : Bool) r' =>
      if done = true then r'.state = .completed ∧ r'.code ≠ CANCELLATION_REQUESTED else r'.state = .attention_required)
      (recordUploadOutcome r outcome) s := by
  cases outcome with
  | none => exact does_attention h (fun r' hs => hs)
  | some outcome =>
    refine does_moved h (fun t r' _ hs hc => ⟨hs, ?_⟩)
    rw [hc]
    exact outcome_code outcome

theorem raises_outputIds (snapshot : EditSnapshot) : Raises (outputIdsFromSnapshot snapshot) (fun e => e ≠ .other) := by
  unfold outputIdsFromSnapshot
  exact raises_bind.mpr ⟨raises_require nofun, fun _ _ => raises_pure⟩

/-- where `_apply_ai_snapshot` leaves the workflow -/
def AiSeen (d : AiDisposition) (r' : Record py) : Prop :=
  match d with
  | .ready => r'.state = .awaiting_edit_confirmation
  | .waiting => r'.state = .awaiting_ai_review
  | .attention => r'.state = .attention_required
  | .invalid => False

theorem does_applyAiSnapshot {snapshot : AiSnapshot} {context : AiContext} (h : s.byId py id = .ok r) :
    Does E id AiSeen (applyAiSnapshot r snapshot context) s := by
  unfold applyAiSnapshot
  dsimp only
  cases (classifyAiSnapshot snapshot).disposition with
  | invalid => exact does_attention h (fun r' hs => hs)
  | attention =>
    dsimp only
    split
    · exact does_attention h (fun r' hs => hs)
    · next hsame =>
      refine does_pure h ?_
      by_contra hne
      exact hsame (.inl hne)
  | waiting =>
    dsimp only
    split
    · exact does_moved h (fun t r' _ hs _ => hs)
    · next hsame =>
      refine does_pure h ?_
      by_contra hne
      exact hsame (.inr (.inl hne))
  | ready =>
    dsimp only
    split
    · split
      · exact does_attention h (fun r' hs => hs)
      · refine does_bind (does_setRefs h) (fun t a r₁ hr₁ ha => ?_)
        rw [ha.1]
        exact does_moved hr₁ (fun t r' _ hs _ => hs)
    · exact does_attention h (fun r' hs => hs)

theorem does_recordEditOutputs {snapshot : EditSnapshot} (h : s.byId py id = .ok r) :
    Does E id (fun (a : Option (Record py)) r' => match a with
      | some updated => updated = r'
      | none => r'.state = .attention_required) (recordEditOutputs r snapshot) s := by
  refine does_catch ?_ (fun code t ht => does_attention ht (fun r' hs => hs))
  refine tries_bind (tries_lift h (raises_outputIds snapshot)) (fun t output_ids r₁ hr₁ he => ?_)
  rw [he] at hr₁
  refine tries_bind (tries_setRefs hr₁) (fun u updated r₂ hr₂ hu => ?_)
  exact tries_pure hr₂ hu.1

/-- where `_apply_edit_snapshot` leaves the workflow `r` -/
def EditSeen (r : Record py) (d : EditDisposition) (r' : Record py) : Prop :=
  match d with
  | .ready => r'.state = .preparing_upload
  | .failed | .attention | .invalid => r'.state = .attention_required
  | .waiting_confirmation | .waiting_active => r' = r

theorem does_applyEditSnapshot {snapshot : EditSnapshot} {classification : EditClassification} {context : EditContext}
    (hcontext : context ≠ .retry) (h : s.byId py id = .ok r) :
    Does E id (EditSeen r) (applyEditSnapshot r snapshot classification context) s := by
  have hrefresh : ∀ d : EditDisposition, d = .failed ∨ d = .attention →
      Does E id (EditSeen r) (if r.state ≠ .attention_required ∨ r.code ≠ classification.code then do
        let _ ← attention r classification.code
        return d
      else return d : Call py EditDisposition) s := by
    intro d hd
    have hseen : ∀ r' : Record py, r'.state = .attention_required → EditSeen r d r' := by
      intro r' hs
      rcases hd with rfl | rfl
      · exact hs
      · exact hs
    split
    · exact does_attention h hseen
    · next hsame =>
      refine does_pure h (hseen r ?_)
      by_contra hne
      exact hsame (.inl hne)
  unfold applyEditSnapshot
  dsimp only
  by_cases hinvalid : classification.disposition = .invalid
  · rw [if_pos hinvalid]
    exact does_attention h (fun r' hs => hs)
  · rw [if_neg hinvalid]
    by_cases hledger : classification.code ∈ AI_LEDGER_REVIEW_CODES
    · rw [if_pos hledger]
      exact hrefresh .attention (.inr rfl)
    · rw [if_neg hledger]
      cases hd : classification.disposition with
      | failed =>
        dsimp only
        rw [if_neg hcontext]
        exact hrefresh .failed (.inl rfl)
      | attention => exact hrefresh .attention (.inr rfl)
      | ready =>
        refine does_bind (does_recordEditOutputs h) (fun t a r₁ hr₁ ha => ?_)
        cases a with
        | none => exact does_pure hr₁ ha
        | some updated =>
          have hu : updated = r₁ := ha
          rw [hu]
          exact does_moved hr₁ (fun u r' _ hs _ => hs)
      | waiting_confirmation => exact does_pure h rfl
      | waiting_active => exact does_pure h rfl
      | invalid => exact absurd hd hinvalid

theorem does_observeEdit {plan_id : Text} {context : EditContext} (hcontext : context ≠ .retry)
    (h : s.byId py id = .ok r) :
    Does E id (fun x r' => EditSeen r x.2 r') (observeEdit r plan_id context) s := by
  have hasked : Does E id (fun _ r' => r' = r) (catchWorkflow (fun code =>
      if code ∈ AI_LEDGER_REVIEW_CODES then return { status := some .attention, code } else fail code)
      (Process.query (AdapterCall.inspect_edit plan_id))) s := by
    intro x hx
    cases x with
    | ok snapshot => exact ⟨r, h, rfl⟩
    | error e =>
      have he := hx e rfl
      cases e with
      | other => exact .inl he
      | workflow code =>
        show Alone _ _ _ (if code ∈ AI_LEDGER_REVIEW_CODES then _ else _) s
        split
        · exact ⟨r, h, rfl⟩
        · exact .inl he
  refine does_bind hasked (fun t snapshot r₁ hr₁ he => ?_)
  rw [he] at hr₁
  refine does_bind (does_applyEditSnapshot hcontext hr₁) (fun u d r₂ hr₂ hd => ?_)
  exact does_pure hr₂ hd

theorem does_syncUploadJobIds {snapshot : UploadSnapshot} (h : s.byId py id = .ok r) :
    Does E id (fun a r' => a = r' ∧ r'.state = r.state ∧ r'.code = r.code) (syncUploadJobIds r snapshot) s := by
  unfold syncUploadJobIds
  split
  · exact does_pure h ⟨rfl, rfl, rfl⟩
  · split
    · exact does_pure h ⟨rfl, rfl, rfl⟩
    · split
      · exact (does_setRefs h).mono (fun t a r' _ hw => ⟨hw.1, hw.2.state, hw.2.code⟩)
      · next ids _ _ hids => exact .inr (.job_ids r ids h hids rfl)

theorem does_observeUpload (h : s.byId py id = .ok r) :
    Does E id (fun x r' => x.1 = r' ∧ r'.state = r.state ∧ r'.code = r.code ∧ x.2.2.1 = classifyUploadSnapshot x.2.1)
      (observeUpload r) s := by
  refine does_bind (does_query h) (fun t snapshot r₁ hr₁ he => ?_)
  rw [he] at hr₁
  refine does_bind (does_syncUploadJobIds hr₁) (fun u updated r₂ hr₂ hu => ?_)
  exact does_pure hr₂ ⟨hu.1, hu.2.1, hu.2.2, rfl⟩

end
end OpenFlame.Workflow
