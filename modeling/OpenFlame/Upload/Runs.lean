import OpenFlame.Upload.Dispatch

/-!
# Steps of the upload service

`World.Did host w w'`   what one step can do: a quiet client call, a login, a confirmation, or one of the
                        steps of the scheduler
`World.ExecOK`          the upload the scheduler holds exists, with a receipt in the state of the execution

* `step_did`            every step is one of these;
* `World.Did.chain`     and moves the store by a chain of moves;
* `ok_reachable`        so **the invariants of the store hold in every reachable world.**
-/

set_option linter.all false

namespace OpenFlame.Upload
open Guard Relation TransSys

/-- the upload in progress, and the state of its receipt -/
def Exec.receipt : Exec → Option (Job × AttemptState)
  | .holding row => some (row, .reserved)
  | .dispatched row | .invoked row => some (row, .dispatchMayHaveStarted)
  | .down | .idle | .operating _ => none

/-- the receipts a job has in a store -/
def DB.HasReceipt (db : DB) (job_id : Ident) (s : AttemptState) : Prop :=
  ∃ a ∈ db.attempts, a.job_id = job_id ∧ a.state = s

/-- a job known under its id and payload -/
def DB.Knows (db : DB) (row : Job) : Prop := ∃ j, db.Has j ∧ j.id = row.id ∧ j.payload = row.payload

def World.ExecOK (w : World) : Prop :=
  ∀ row s, w.exec.receipt = some (row, s) → w.db.Knows row ∧ w.db.HasReceipt row.id s

inductive World.Did (host : Host) (w w' : World) : Prop where
  | client (db : Clients host w.db w'.db) (exec : w'.exec = w.exec) (log : w'.log = w.log)
  | login (account_id operation_id : Ident) (db : Clients host w.db w'.db) (fresh : w.db.Fresh operation_id)
      (session : w'.db.session account_id = operation_id)
      (unqueued : ∀ r ∈ w'.db.jobs, r.content.account_id = account_id → r.state ≠ .queued) (exec : w'.exec = w.exec)
      (log : w'.log = w.log ++ [.loginCreated account_id operation_id])
  | confirm (ids : List Ident) (db : Queues w.db w'.db) (nodup : ids.Nodup)
      (drafts : ∀ id ∈ ids, ∃ r ∈ w.db.jobs, r.id = id ∧ r.state = .draft)
      (queued : ∀ r' ∈ w'.db.jobs, r'.state = .queued → r'.id ∉ ids →
        ∃ r ∈ w.db.jobs, r.lasting = r'.lasting ∧ r.state = .queued)
      (exec : w'.exec = w.exec) (log : w'.log = w.log ++ ids.map .confirmed)
  | operate (o : Operation) (db : Clients host w.db w'.db) (idle : w.exec = .idle) (exec : w'.exec = .operating o)
      (log : w'.log = w.log)
  | claim (j : Job) (a : Attempt) (db : Reserve host w.db w'.db j a) (account_id : a.account_id = j.account_id)
      (session : a.session_revision = w.db.session j.account_id) (idle : w.exec = .idle) (exec : w'.exec = .holding j)
      (log : w'.log = w.log)
  | settle (row : Job) (a a' : Attempt) (mid : DB) (advance : Advance host w.db mid a a') (db : Clients host mid w'.db)
      (job_id : a.job_id = row.id) (holding : w.exec.receipt = some (row, a.state)) (exec : w'.exec = .idle)
      (closed : a'.state = .responded ∨ a'.state = .unknown) (log : w'.log = w.log)
  | dispatch (row : Job) (a a' : Attempt) (db : Advance host w.db w'.db a a') (job_id : a.job_id = row.id)
      (reserved : a.state = .reserved) (dispatched : a'.state = .dispatchMayHaveStarted)
      (account : w'.db.Authorizes row.account_id a.session_revision) (holding : w.exec = .holding row)
      (exec : w'.exec = .dispatched row) (log : w'.log = w.log ++ [.dispatchCommitted row.id w'.db])
  | invoke (row : Job) (db : w'.db = w.db) (dispatched : w.exec = .dispatched row) (exec : w'.exec = .invoked row)
      (log : w'.log = w.log ++ [.uploadInvoked row.id])
  | finishOperation (row : Operation) (db : Clients host w.db w'.db) (operating : w.exec = .operating row)
      (exec : w'.exec = .idle) (log : w'.log = w.log)
  | crash (db : w'.db = w.db) (exec : w'.exec = .down) (log : w'.log = w.log)
  | recover (db : Chain host w.db w'.db) (settled : ∀ r ∈ w'.db.jobs, ¬ r.state.isInterrupted) (down : w.exec = .down)
      (exec : w'.exec = .idle) (log : w'.log = w.log)

section
variable {host : Host} {env : Env} {w w' : World} {l : Label} {db db' : DB}

/-- **Every step is a chain of moves.** -/
theorem World.Did.chain (h : w.Did host w') : Chain host w.db w'.db := by
  cases h with
  | client db | login _ _ db | operate _ db | finishOperation _ db => exact db.chain
  | confirm ids db => exact db.chain
  | claim j a db => exact .single (.reserve db)
  | settle row a a' mid advance db => exact .head (.advance advance) db.chain
  | dispatch row a a' db => exact .single (.advance db)
  | invoke row db | crash db => rw [db]
  | recover db => exact db

/-! ## logins -/

theorem latestLogin_insert {o : Operation} {t : Table Operation Operation.id} (h : db.operations.insert o = some t)
    (hlogin : o.action = .login) : latestLogin { db with operations := t } o.account_id = some o := by
  unfold latestLogin Table.filter
  rw [Table.insert_rows h, List.filter_append, List.filter_singleton]
  simp [hlogin]

theorem accountAction_login {account_id : Ident} {operation_id : Ident}
    (h : accountAction env db account_id .login operation_id = .ok db') :
    db'.session account_id = operation_id ∧
      ∀ r ∈ db'.jobs, r.content.account_id = account_id → r.state ≠ .queued := by
  simp only [accountAction, if_true, bind_eq_ok, require_eq_ok, fetch_eq_ok, pure_eq_ok] at h
  obtain ⟨-, -, account, -, -, -, -, -, t, ht, rfl⟩ := h
  constructor
  · show ((latestLogin { db with operations := t } account_id).map Operation.id).getD account_id = operation_id
    rw [latestLogin_insert ht rfl]
    rfl
  · intro r hr hacc
    obtain ⟨s, hs, rfl⟩ := Table.exists_of_rows hr rfl
    have e := Table.upd_col (p := fun r : JobRow => r.content.account_id == account_id && r.state == .queued)
      (f := fun r => r.setResult .draft "account_session_changed") (fun r => r.content.account_id) (fun _ => rfl) s
    have hacc : s.content.account_id = account_id := e.symm.trans hacc
    by_cases hq : s.state = .queued
    · rw [Table.upd_pos]
      · exact fun h => by cases h
      · simp [hacc, hq]
    · rw [Table.upd_neg]
      · exact hq
      · simp [hq]

/-! ## confirmations -/

/-- a job after a list of others were queued -/
theorem setJobs_queued : ∀ {jobs : List Job} {db : DB} {r' : JobRow},
    r' ∈ (jobs.foldl (fun d j => d.setJob j.id .queued "") db).jobs → r'.id ∉ jobs.map Job.id → r' ∈ db.jobs := by
  intro jobs
  induction jobs with
  | nil => exact fun h _ => h
  | cons j js ih =>
    intro db r' hr' hnot
    rw [List.map_cons, List.mem_cons, not_or] at hnot
    obtain ⟨s, hs, hsr⟩ := Table.exists_of_rows (ih hr' hnot.2) rfl
    by_cases e : s.id = j.id
    · rw [Table.upd_eq e] at hsr
      exact absurd (by rw [← hsr]; exact e) hnot.1
    · rw [Table.upd_ne e] at hsr
      rw [← hsr]
      exact hs

theorem mem_drafts {ids : List Ident} {id : Ident} :
    id ∈ db.drafts ids ↔ id ∈ ids ∧ ∃ r ∈ db.jobs, r.id = id ∧ r.state = .draft := by
  simp only [DB.drafts, List.mem_filter, Option.any_eq_true, beq_iff_eq, Table.get_eq_some]
  constructor
  · rintro ⟨h, r, ⟨hr, hid⟩, hs⟩
    exact ⟨h, r, hr, hid, hs⟩
  · rintro ⟨h, r, hr, hid, hs⟩
    exact ⟨h, r, ⟨hr, hid⟩, hs⟩

theorem confirm_did {job_id : Ident} {j' : Job} (h : confirm host env w.db job_id = .ok (db', j')) :
    w.Did host { w with db := db', log := w.log ++ (w.db.drafts [job_id]).map .confirmed } := by
  refine .confirm (w.db.drafts [job_id]) (confirm_queues h) ((List.nodup_singleton _).filter _)
    (fun id hid => (mem_drafts.mp hid).2) (fun r' hr' hq hnot => ?_) rfl rfl
  obtain ⟨j, hj, hid, ⟨-, rfl⟩ | ⟨hs, -, rfl⟩⟩ := confirm_spec h
  · exact ⟨r', hr', rfl, hq⟩
  · obtain ⟨s, hs', rfl⟩ := Table.exists_of_rows hr' rfl
    by_cases e : s.id = job_id
    · have hd : s.state = .draft := by rw [hj.row_state hs' (by rw [e, hid]), hs]
      exact absurd (mem_drafts.mpr ⟨by rw [Table.upd_eq e]; exact List.mem_singleton.mpr e, s, hs',
        by rw [Table.upd_eq e]; rfl, hd⟩) hnot
    · rw [Table.upd_ne e] at hq ⊢
      exact ⟨s, hs', rfl, hq⟩

theorem confirmMany_did {job_ids : List Ident} {bindings : Option (List AccountBinding)} {out : List Job}
    (h : confirmMany host env w.db job_ids bindings = .ok (db', out)) :
    w.Did host { w with db := db', log := w.log ++ (w.db.drafts job_ids).map .confirmed } := by
  obtain ⟨jobs, hnd, hjobs, -, hdb⟩ := confirmMany_spec h
  refine .confirm (w.db.drafts job_ids) (confirmMany_queues h) (hnd.filter _) (fun id hid => (mem_drafts.mp hid).2)
    (fun r' hr' hq hnot => ⟨r', ?_, rfl, hq⟩) rfl rfl
  have hr' : r' ∈ db'.jobs := hr'
  rw [hdb] at hr'
  refine setJobs_queued hr' (fun hm => hnot ?_)
  obtain ⟨j, hj, hjid⟩ := List.mem_map.mp hm
  obtain ⟨hj, hs⟩ := List.mem_filter.mp hj
  obtain ⟨s, hs', hsid, -, -, hst, -⟩ := ((each_getJob_ids hjobs).2 j hj).row
  rw [← hjid]
  refine mem_drafts.mpr ⟨?_, s, hs', hsid, by rw [hst]; simpa using hs⟩
  rw [← (each_getJob_ids hjobs).1]
  exact List.mem_map_of_mem hj

/-! ## steps -/

theorem DB.SameWorld.authorizes (h : db.SameWorld db') {account_id session_revision : Ident}
    (ha : db.Authorizes account_id session_revision) : db'.Authorizes account_id session_revision := by
  obtain ⟨account, hm, h1, h2, h3, h4⟩ := ha
  refine ⟨account, h.accounts ▸ hm, h1, h2, h3, ?_⟩
  rw [← h4, DB.session, DB.session, latestLogin, latestLogin, h.operations]

/-- a call that returns a store and something else -/
theorem client_did {α : Type} {x : Except Code (DB × α)} (hx : ∀ d a, x = .ok (d, a) → Clients host w.db d)
    (h : (do return { w with db := (← x).1 } : Except Code World) = .ok w') : w.Did host w' := by
  simp only [bind_eq_ok, pure_eq_ok] at h
  obtain ⟨⟨d, a⟩, hd, rfl⟩ := h
  exact .client (hx d a hd) rfl rfl

theorem client_did' {x : Except Code DB} (hx : ∀ d, x = .ok d → Clients host w.db d)
    (h : (do return { w with db := ← x } : Except Code World) = .ok w') : w.Did host w' := by
  simp only [bind_eq_ok, pure_eq_ok] at h
  obtain ⟨d, hd, rfl⟩ := h
  exact .client (hx d hd) rfl rfl

theorem accountAction_did {account_id operation_id : Ident} {action : Action} (hf : w.db.Fresh operation_id)
    (h : w.apply host (.accountAction env account_id action operation_id) = .ok w') : w.Did host w' := by
  simp only [World.apply, bind_eq_ok, pure_eq_ok] at h
  obtain ⟨d, hd, rfl⟩ := h
  by_cases e : action = .login
  · subst e
    obtain ⟨hs, hq⟩ := accountAction_login hd
    exact .login account_id operation_id (accountAction_clients hf hd) hf hs hq rfl (by rw [if_pos rfl])
  · exact .client (accountAction_clients hf hd) rfl (by rw [if_neg e])

theorem claim_did (hok : w.db.OK host) {attempt_id : Ident} (h : w.apply host (.claim env attempt_id) = .ok w') :
    w.Did host w' := by
  cases hx : w.exec <;> simp only [World.apply, hx, bind_eq_ok, pure_eq_ok, throw_ne_ok] at h
  obtain ⟨⟨d, out⟩, hd, rfl⟩ := h
  cases claim_spec hok hd with
  | idle same => exact .client (by rw [same]) (by rw [hx]; rfl) rfl
  | operation o mem queued move => exact .operate o (.single move) hx rfl rfl
  | upload j a reserve account_id session => exact .claim j a reserve account_id session hx rfl rfl

theorem finalize_did (hok : w.db.OK host) (he : w.ExecOK) {row : Job} {outcome : Outcome} {invoked : Bool} {now : Time}
    (hrow : w.exec.receipt = some (row, openState invoked)) (hout : invoked = false → ∃ why : Abandon, outcome = why.outcome)
    (h : finalizeUpload w.db row outcome invoked now = .ok db') (hw : w' = { w with db := db', exec := .idle }) :
    w.Did host w' := by
  subst hw
  obtain ⟨⟨j, hj, hid, hpay⟩, -⟩ := he row _ hrow
  obtain ⟨a, ha, haid, hs, r, state, mid, hadv, hcl⟩ := finalizeUpload_spec hok hj hid hpay hout h
  refine .settle row a _ mid hadv hcl haid (by rw [hs]; exact hrow) rfl ?_ rfl
  show (if state = .unknown then AttemptState.unknown else .responded) = .responded ∨
    (if state = .unknown then AttemptState.unknown else .responded) = .unknown
  split
  · exact .inr rfl
  · exact .inl rfl

theorem markUploadDispatch_did (hok : w.db.OK host) (he : w.ExecOK) {now : Time}
    (h : w.apply host (.markUploadDispatch env now) = .ok w') : w.Did host w' := by
  cases hx : w.exec <;> simp only [World.apply, hx, bind_eq_ok, require_eq_ok, pure_eq_ok, throw_ne_ok] at h
  case holding row =>
    obtain ⟨⟨d, out⟩, hd, -, hout, rfl⟩ := h
    obtain ⟨j, a, hj, hid, ha, haid, ⟨hf, -⟩ | ⟨-, hres, hadv, hauth⟩⟩ := markUploadDispatch_spec hok hd
    · rw [hf] at hout
      cases hout
    · obtain ⟨⟨k, hk, hkid, hkpay⟩, -⟩ := he row .reserved (by rw [hx]; rfl)
      have hjk : j = k := hj.unique hk (by rw [hid, hkid])
      have hacc : row.account_id = j.account_id := by
        rw [Job.account_id, Job.account_id, hjk, (Prod.mk.inj hkpay).2]
      exact .dispatch row a _ hadv haid hres rfl (by rw [hacc]; exact hadv.world.authorizes hauth) hx rfl rfl

/-- **What one step can do.** -/
theorem step_did (hok : w.db.OK host) (he : w.ExecOK) (h : w.Step host l w') : w.Did host w' := by
  obtain ⟨hallow, h⟩ := h
  cases l with
  | addAccount platform name id => exact client_did' (fun _ hd => addAccount_clients hd) h
  | disconnectAccount id => exact client_did' (fun _ hd => disconnectAccount_clients hd) h
  | scrubAccount id removed =>
    cases h
    exact .client (scrubAccount_clients id removed) rfl rfl
  | accountAction env id action op => exact accountAction_did hallow h
  | cancelOperation id => exact client_did' (fun _ hd => cancelOperation_clients hd) h
  | importSource id sha256 => exact client_did' (fun _ hd => importSource_clients hd) h
  | importCover id sha256 width height => exact client_did' (fun _ hd => importCover_clients hd) h
  | setSourceMedia id state =>
    cases h
    exact .client (setSourceMedia_clients id state) rfl rfl
  | setCoverMedia id state =>
    cases h
    exact .client (setCoverMedia_clients id state) rfl rfl
  | createJobs env intent key bindings new_id => exact client_did (fun _ _ hd => createJobs_clients hd) h
  | claimOrReadWorkflowCancellation key =>
    exact client_did (fun _ _ hd => claimOrReadWorkflowCancellation_clients hd) h
  | claimWorkflowRequestForCancellation env key expected =>
    exact client_did (fun _ _ hd => claimWorkflowRequestForCancellation_clients hd) h
  | confirm env id =>
    simp only [World.apply, bind_eq_ok, pure_eq_ok] at h
    obtain ⟨⟨d, j⟩, hd, rfl⟩ := h
    exact confirm_did hd
  | confirmMany env ids bindings =>
    simp only [World.apply, bind_eq_ok, pure_eq_ok] at h
    obtain ⟨⟨d, js⟩, hd, rfl⟩ := h
    exact confirmMany_did hd
  | cancel id => exact client_did (fun _ _ hd => cancel_clients hd) h
  | cancelMany ids targets bindings => exact client_did (fun _ _ hd => cancelMany_clients hd) h
  | retry env id new_id => exact client_did (fun _ _ hd => retry_clients hok hd) h
  | retryMany env ids targets bindings keys requests new_id =>
    exact client_did (fun _ _ hd => retryMany_clients hok hd) h
  | reconcileUnknown id attempt_id revision conclusion acknowledged now =>
    exact client_did (fun _ out hd => reconcileUnknown_clients (k := out.1) (x := out.2) hd) h
  | claim env id => exact claim_did hok h
  | abandonUpload why now =>
    cases hx : w.exec <;> simp only [World.apply, hx, bind_eq_ok, pure_eq_ok, throw_ne_ok] at h
    obtain ⟨d, hd, hw⟩ := h
    exact finalize_did hok he (by rw [hx]; rfl) (fun _ => ⟨why, rfl⟩) hd hw.symm
  | markUploadDispatch env now => exact markUploadDispatch_did hok he h
  | invokeUpload =>
    cases hx : w.exec <;> simp only [World.apply, hx, pure_eq_ok, throw_ne_ok] at h
    cases h
    exact .invoke _ rfl hx rfl rfl
  | finishUpload outcome now =>
    cases hx : w.exec <;> simp only [World.apply, hx, bind_eq_ok, pure_eq_ok, throw_ne_ok] at h
    obtain ⟨d, hd, hw⟩ := h
    exact finalize_did hok he (by rw [hx]; rfl) (fun hf => by cases hf) hd hw.symm
  | finishOperation outcome stopped =>
    cases hx : w.exec <;> simp only [World.apply, hx, pure_eq_ok, throw_ne_ok] at h
    cases h
    exact .finishOperation _ (finalizeOperation_clients _ outcome stopped) hx rfl rfl
  | crash =>
    cases h
    exact .crash rfl rfl rfl
  | recover now =>
    cases hx : w.exec <;> simp only [World.apply, hx, bind_eq_ok, pure_eq_ok, throw_ne_ok] at h
    obtain ⟨d, hd, rfl⟩ := h
    obtain ⟨hchain, hset⟩ := recover_spec hok hd
    exact .recover hchain hset hx rfl rfl

/-! ## the execution -/

theorem DB.Knows.mono {row : Job} (h : db.Knows row) (he : db.Extends db') : db'.Knows row := by
  obtain ⟨j, hj, hid, hpay⟩ := h
  obtain ⟨j', hj', el⟩ := he.has hj
  exact ⟨j', hj', by rw [Job.lasting_id el, hid], by rw [Job.lasting_payload el, hpay]⟩

theorem Queues.attempts (h : Queues db db') : db'.attempts = db.attempts := by
  induction h with
  | refl => rfl
  | tail _ hq ih =>
    obtain ⟨id, hq⟩ := hq
    rw [hq.attempts, ih]

/-- open receipts are the same -/
def SameOpen (db db' : DB) : Prop := ∀ x : Attempt, x.state.isOpen = true → (x ∈ db'.attempts ↔ x ∈ db.attempts)

theorem Exec.receipt_isOpen {e : Exec} {row : Job} {s : AttemptState} (h : e.receipt = some (row, s)) :
    s.isOpen = true := by
  cases e <;> cases h <;> rfl

theorem World.ExecOK.sameOpen (he : w.ExecOK) (hc : Chain host w.db w'.db) (hs : SameOpen w.db w'.db)
    (hx : w'.exec = w.exec) : w'.ExecOK := by
  intro row s hrow
  rw [hx] at hrow
  obtain ⟨hk, a, ha, haid, hst⟩ := he row s hrow
  exact ⟨hk.mono hc.extends, a, (hs a (by rw [hst]; exact Exec.receipt_isOpen hrow)).mpr ha, haid, hst⟩

theorem World.ExecOK.of_none (hx : w'.exec.receipt = none) : w'.ExecOK := by
  intro row s hrow
  rw [hx] at hrow
  cases hrow

theorem World.Did.execOK (he : w.ExecOK) (h : w.Did host w') : w'.ExecOK := by
  have hc := h.chain
  cases h with
  | client db exec | login _ _ db _ _ _ exec => exact he.sameOpen hc (fun _ hx => db.open_receipt hx) exec
  | confirm ids db _ _ _ exec => exact he.sameOpen hc (fun _ _ => by rw [db.attempts]) exec
  | operate o db idle exec | settle row a a' mid advance db job_id holding exec
  | finishOperation row db operating exec | crash db exec | recover db settled down exec =>
    exact .of_none (by rw [exec]; rfl)
  | claim j a db account_id session idle exec =>
    intro row s hrow
    rw [exec] at hrow
    cases hrow
    refine ⟨.mono ⟨j, db.has, rfl, rfl⟩ hc.extends, a, (Table.mem_insert db.attempts).mpr (.inr rfl), db.job_id,
      db.reserved.1⟩
  | dispatch row a a' db job_id reserved dispatched account holding exec =>
    intro row' s hrow
    rw [exec] at hrow
    cases hrow
    obtain ⟨hk, -⟩ := he row .reserved (by rw [holding]; rfl)
    exact ⟨hk.mono hc.extends, a', db.mem_attempts.mpr (.inl rfl), by rw [db.job_id, job_id], dispatched⟩
  | invoke row db dispatched exec =>
    intro row' s hrow
    rw [exec] at hrow
    cases hrow
    rw [db]
    exact he row .dispatchMayHaveStarted (by rw [dispatched]; rfl)

/-! ## reachable worlds -/

/-- the invariants of a world -/
structure World.OK (host : Host) (w : World) : Prop where
  db : w.db.OK host
  exec : w.ExecOK

theorem World.OK.did (h : w.OK host) (hs : w.Step host l w') : w.Did host w' := step_did h.db h.exec hs

theorem World.OK.step (h : w.OK host) (hs : w.Step host l w') : w'.OK host :=
  ⟨(h.did hs).chain.ok h.db, (h.did hs).execOK h.exec⟩

/-- **The invariants hold in every reachable world.** -/
theorem ok_reachable (h : w.Reachable host) : w.OK host := by
  refine h.induct (I := World.OK host) ?_ (fun _ _ _ _ hi hs => hi.step hs)
  rintro s rfl
  exact ⟨DB.OK.initial, .of_none rfl⟩

/-- a run is a chain of moves -/
theorem run_chain (h : w.OK host) {ls : List Label} (hr : Run (World.Step host) w ls w') : Chain host w.db w'.db := by
  refine hr.mono (I := World.OK host) (r := fun w w' => Chain host w.db w'.db) (fun _ _ _ hi hs => hi.step hs)
    (fun _ => .refl) (fun _ _ _ h1 h2 => h1.trans h2) (fun _ _ _ hi hs => (hi.did hs).chain) h

end
end OpenFlame.Upload
