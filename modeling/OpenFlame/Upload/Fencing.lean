import OpenFlame.Base.Log
import OpenFlame.Upload.Safety

/-!
# Session fencing of uploads

`Confirmed log job_id account_id`   the job was queued, and no login of the account was created since
`World.Fenced`                      queued jobs and fresh reservations are confirmed, or the session changed

* `Fenced.step`        every step keeps it;
* `fenced_reachable`   **the backend is called only for a job that was confirmed under the session that the
                       dispatch boundary saw.**
-/

set_option linter.all false

namespace OpenFlame.Upload
open Guard Relation TransSys Log

section
variable {host : Host} {w w' : World} {db db' : DB}

/-! ## sessions -/

theorem latestLogin_lasting (db : DB) (account_id : Ident) : (latestLogin db account_id).map Operation.id =
    ((db.operations.rows.map Operation.lasting).filter
      (fun p : Ident × Ident × Action => p.2.1 == account_id && p.2.2 == .login)).getLast?.map Prod.fst := by
  rw [List.filter_map, List.getLast?_map, Option.map_map]
  rfl

theorem DB.session_congr (h : db'.operations.rows.map Operation.lasting = db.operations.rows.map Operation.lasting)
    (account_id : Ident) : db'.session account_id = db.session account_id := by
  unfold DB.session
  rw [latestLogin_lasting, latestLogin_lasting, h]

theorem DB.SameWorld.session (h : db.SameWorld db') (account_id : Ident) :
    db'.session account_id = db.session account_id := DB.session_congr (by rw [h.operations]) account_id

/-- an id that some account or operation has -/
def DB.KnowsId (db : DB) (s : Ident) : Prop := (∃ a ∈ db.accounts, a.id = s) ∨ ∃ o ∈ db.operations, o.id = s

theorem DB.KnowsId.mono {s : Ident} (h : db.KnowsId s) (he : db.Extends db') : db'.KnowsId s := by
  rcases h with ⟨a, ha, rfl⟩ | ⟨o, ho, rfl⟩
  · obtain ⟨a', ha', e, -⟩ := he.account ha
    exact .inl ⟨a', ha', e⟩
  · obtain ⟨o', ho', e, -⟩ := he.operation ho
    exact .inr ⟨o', ho', e⟩

theorem DB.KnowsId.not_fresh {s : Ident} (h : db.KnowsId s) : ¬ db.Fresh s := by
  rintro ⟨hacc, -, -, hop, -⟩
  rcases h with ⟨a, ha, e⟩ | ⟨o, ho, e⟩
  · exact hacc a ha e
  · exact hop o ho e

theorem session_insert {o : Operation} (h : db.operations.insert o = some db'.operations) (account_id : Ident) :
    db'.session account_id = o.id ∨ db'.session account_id = db.session account_id := by
  unfold DB.session latestLogin Table.filter
  rw [Table.insert_rows h, List.filter_append, List.filter_singleton]
  cases o.account_id == account_id && o.action == .login with
  | true =>
    left
    rw [cond_true, List.getLast?_concat]
    rfl
  | false =>
    right
    rw [cond_false, List.append_nil]

/-- a session that was left is not taken up again -/
theorem Client.session_ne (h : Client host db db') {account_id s : Ident} (hs : db.KnowsId s)
    (hne : db.session account_id ≠ s) : db'.session account_id ≠ s := by
  cases h with
  | world _ _ _ operations =>
    rw [DB.session_congr operations]
    exact hne
  | operation o fresh operations =>
    rcases session_insert operations account_id with e | e
    · rw [e]
      rintro rfl
      exact hs.not_fresh fresh
    · rw [e]
      exact hne
  | jobs world | create world | tombstone world | successor world =>
    rw [world.session]
    exact hne
  | reconcile ha =>
    rw [ha.world.session]
    exact hne

theorem Clients.session_ne (h : Clients host db db') {account_id s : Ident} (hs : db.KnowsId s)
    (hne : db.session account_id ≠ s) : db'.session account_id ≠ s := by
  induction h with
  | refl => exact hne
  | tail hc hm ih => exact hm.session_ne (hs.mono (Clients.chain hc).extends) ih

theorem Queues.sameWorld (h : Queues db db') : db.SameWorld db' := by
  induction h with
  | refl => exact ⟨rfl, rfl, rfl, rfl⟩
  | tail _ hq ih =>
    obtain ⟨id, hq⟩ := hq
    exact ⟨hq.world.accounts.trans ih.accounts, hq.world.sources.trans ih.sources,
      hq.world.assets.trans ih.assets, hq.world.operations.trans ih.operations⟩

/-- the account of a receipt, and its session -/
theorem receipt_known (hok : db.OK host) {a : Attempt} (ha : a ∈ db.attempts) {j : Job} (hj : db.Has j)
    (hid : j.id = a.job_id) : a.account_id = j.account_id ∧ db.KnowsId a.session_revision := by
  obtain ⟨hi, -⟩ := hok.receipts.receipt ha hj hid
  obtain ⟨root, q, x, s, l, p, -, -, -, -, -, hx, hxid, -, -, -, -, -, hdef⟩ := hi.defines.rows
  have hacc : a.account_id = x.id := congrArg AttemptDefinition.account_id hdef
  refine ⟨by rw [hacc, hxid], ?_⟩
  by_cases e : a.session_revision = a.account_id
  · exact .inl ⟨x, hx, by rw [e, hacc]⟩
  · obtain ⟨o, ho, h1, -⟩ := hi.session e
    exact .inr ⟨o, ho, h1⟩

/-! ## queued jobs -/

theorem setResult_other {id : Ident} {state : JobState} {code : Code} {r : JobRow} (hs : state ≠ .queued)
    (hq : (Table.upd (fun r : JobRow => r.id == id) (fun r => r.setResult state code) r).state = .queued) :
    r.id ≠ id ∧ Table.upd (fun r : JobRow => r.id == id) (fun r => r.setResult state code) r = r := by
  by_cases e : r.id = id
  · rw [Table.upd_eq e] at hq
    exact absurd hq hs
  · exact ⟨e, Table.upd_ne e⟩

/-- the job of a receipt is not queued, so an advance leaves queued jobs alone -/
theorem Advance.queued_mem {a a' : Attempt} (hok : db.OK host) (h : Advance host db db' a a') {r : JobRow}
    (hr : r ∈ db'.jobs) (hq : r.state = .queued) : r ∈ db.jobs := by
  have hok' : db'.OK host := hok.move (.advance h)
  obtain ⟨j, hj, hid, -, -, -, hst, -⟩ := hok'.ledger.getRow hr
  obtain ⟨g, hrows, hgl, hgk⟩ := h.jobs
  rw [← Table.mem_rows, hrows] at hr
  obtain ⟨s, hs, rfl⟩ := List.mem_map.mp hr
  by_cases e : s.id = a.job_id
  · have hv := h.valid j hj (by rw [hid, (JobRow.lasting_inj (hgl s)).1, e])
    exact absurd (by rw [hst, hq]) (attemptStateIsValid_claimed hv).2
  · rw [hgk s hs e]
    exact hs

theorem Client.queued_mem (hok : db.OK host) (h : Client host db db') {r : JobRow} (hr : r ∈ db'.jobs)
    (hq : r.state = .queued) : r ∈ db.jobs := by
  cases h with
  | world _ _ _ _ jobs | operation _ _ _ _ _ _ jobs | tombstone _ _ jobs => exact jobs ▸ hr
  | jobs world requests attempts g rows lasting can =>
    rw [← Table.mem_rows, rows] at hr
    obtain ⟨s, hs, rfl⟩ := List.mem_map.mp hr
    rcases can s hs with e | ⟨-, hne⟩
    · rw [e]
      exact hs
    · exact absurd hq hne
  | create world attempts new rows q request draft =>
    rw [← Table.mem_rows, rows] at hr
    rcases List.mem_append.mp hr with hr | hr
    · exact hr
    · rw [(draft r hr).1] at hq
      cases hq
  | successor world requests attempts p row mem leaf insert source content parent draft =>
    rcases (Table.mem_insert insert).mp hr with hr | rfl
    · exact hr
    · rw [draft] at hq
      cases hq
  | reconcile ha unknown => exact ha.queued_mem hok hr hq

theorem Clients.queued_mem (hok : db.OK host) (h : Clients host db db') {r : JobRow} (hr : r ∈ db'.jobs)
    (hq : r.state = .queued) : r ∈ db.jobs := by
  induction h with
  | refl => exact hr
  | tail hc hm ih => exact ih (hm.queued_mem ((Clients.chain hc).ok hok) hr hq)

theorem Reserve.queued_mem {j : Job} {a : Attempt} (h : Reserve host db db' j a) {r : JobRow} (hr : r ∈ db'.jobs)
    (hq : r.state = .queued) : r ∈ db.jobs := by
  obtain ⟨s, hs, rfl⟩ := Table.exists_of_rows hr h.jobs
  rw [(setResult_other (show JobState.running ≠ .queued from nofun) hq).2]
  exact hs

/-- a reserved receipt belongs to a running job -/
theorem reserved_running (hok : db.OK host) {a : Attempt} (ha : a ∈ db.attempts) (hs : a.state = .reserved) :
    ∃ r ∈ db.jobs, r.id = a.job_id ∧ r.state = .running := by
  obtain ⟨j, hj, hid, -, hv⟩ := hok.receipts.receipts a ha
  obtain ⟨r, hr, hrid, -, -, hst, -⟩ := hj.row
  exact ⟨r, hr, by rw [hrid, hid], by rw [hst, (attemptStateIsValid_running_iff hv).mpr (.inl hs)]⟩

/-! ## confirmations -/

/-- the job was queued, and neither queued again nor its account logged in since -/
def Confirmed (job_id account_id : Ident) : List Event → Prop :=
  Since (· = .confirmed job_id) (fun e => e = .confirmed job_id ∨ ∃ op, e = .loginCreated account_id op)

/-- the boundary of an upload was committed to `db`: its account may upload, the receipt has the current session,
and the job was confirmed under it -/
def Authorized (before : List Event) (job_id : Ident) (db : DB) : Prop :=
  ∃ j account a, db.Has j ∧ j.id = job_id ∧ account ∈ db.accounts ∧ account.id = j.account_id ∧
    account.lifecycle_state = .active ∧ account.auth_state = .ready ∧ a ∈ db.attempts ∧ a.job_id = job_id ∧
    a.state = .dispatchMayHaveStarted ∧ a.session_revision = (workflowAccountBinding db account).session_revision ∧
    Confirmed job_id account.id before

/-- the event is the commit of the boundary of an upload -/
def Event.IsCommit (job_id : Ident) (e : Event) : Prop := ∃ db, e = .dispatchCommitted job_id db

def Event.Good (before : List Event) : Event → Prop
  | .dispatchCommitted job_id db => Authorized before job_id db
  | .uploadInvoked job_id => Since (Event.IsCommit job_id) (Event.IsCommit job_id) before
  | .confirmed _ | .loginCreated _ _ => True

structure World.Fenced (w : World) : Prop where
  queued : ∀ r ∈ w.db.jobs, r.state = .queued → Confirmed r.id r.content.account_id w.log
  reserved : ∀ a ∈ w.db.attempts, a.state = .reserved → Confirmed a.job_id a.account_id w.log ∨
    w.db.session a.account_id ≠ a.session_revision
  committed : ∀ row, w.exec = .dispatched row → Since (Event.IsCommit row.id) (Event.IsCommit row.id) w.log
  log : Holds Event.Good w.log

/-! ## one step -/

theorem Confirmed.append {job_id account_id : Ident} {log new : List Event} (h : Confirmed job_id account_id log)
    (hc : .confirmed job_id ∉ new) (hl : ∀ op, .loginCreated account_id op ∉ new) :
    Confirmed job_id account_id (log ++ new) := by
  refine Since.append h (fun x hx => ?_)
  rintro (rfl | ⟨op, rfl⟩)
  · exact hc hx
  · exact hl op hx

/-- the last confirmation of a job among many -/
theorem confirmed_of_mem {ids : List Ident} (hnd : ids.Nodup) {id account_id : Ident} (hid : id ∈ ids) (log : List Event) :
    Confirmed id account_id (log ++ ids.map .confirmed) := by
  obtain ⟨l₁, l₂, rfl⟩ := List.append_of_mem hid
  have hnot : id ∉ l₂ := (List.nodup_cons.mp (List.nodup_append.mp hnd).2.1).1
  refine Since.right ⟨l₁.map .confirmed, .confirmed id, l₂.map .confirmed, ?_, rfl, fun x hx => ?_⟩
  · rw [List.map_append, List.map_cons]
  · obtain ⟨i, hi, rfl⟩ := List.mem_map.mp hx
    rintro (e | ⟨op, e⟩)
    · cases e
      exact hnot hi
    · cases e

theorem not_confirmed {ids : List Ident} {id : Ident} (h : id ∉ ids) : Event.confirmed id ∉ ids.map .confirmed := by
  intro hm
  obtain ⟨i, hi, e⟩ := List.mem_map.mp hm
  cases e
  exact h hi

theorem not_login {ids : List Ident} {account_id op : Ident} : Event.loginCreated account_id op ∉ ids.map .confirmed := by
  intro hm
  obtain ⟨i, -, e⟩ := List.mem_map.mp hm
  cases e

theorem World.Fenced.queued_step (hok : w.OK host) (hf : w.Fenced) (h : w.Did host w') :
    ∀ r ∈ w'.db.jobs, r.state = .queued → Confirmed r.id r.content.account_id w'.log := by
  intro r hr hq
  cases h with
  | client db exec log | operate o db idle exec log | finishOperation row db operating exec log =>
    rw [log]
    exact hf.queued r (db.queued_mem hok.db hr hq) hq
  | login account_id operation_id db fresh session unqueued exec log =>
    rw [log]
    have hne : r.content.account_id ≠ account_id := fun e => unqueued r hr e hq
    refine (hf.queued r (db.queued_mem hok.db hr hq) hq).append (by simp) (fun op hm => ?_)
    rw [List.mem_singleton] at hm
    cases hm
    exact hne rfl
  | confirm ids db nodup drafts queued exec log =>
    rw [log]
    by_cases hm : r.id ∈ ids
    · exact confirmed_of_mem nodup hm _
    · obtain ⟨s, hs, hl, hsq⟩ := queued r hr hq hm
      obtain ⟨e1, -, e3, -⟩ := JobRow.lasting_inj hl
      have hc := hf.queued s hs hsq
      rw [e1, e3] at hc
      exact hc.append (not_confirmed hm) (fun _ => not_login)
  | claim j a db account_id session idle exec log =>
    rw [log]
    exact hf.queued r (db.queued_mem hr hq) hq
  | settle row a a' mid advance db job_id holding exec closed log =>
    rw [log]
    exact hf.queued r (advance.queued_mem hok.db (db.queued_mem (hok.db.move (.advance advance)) hr hq) hq) hq
  | dispatch row a a' db job_id reserved dispatched account holding exec log =>
    rw [log]
    exact (hf.queued r (db.queued_mem hok.db hr hq) hq).append (by simp) (by simp)
  | invoke row db dispatched exec log =>
    rw [log]
    exact (hf.queued r (db ▸ hr) hq).append (by simp) (by simp)
  | crash db exec log =>
    rw [log]
    exact hf.queued r (db ▸ hr) hq
  | recover db settled down exec log => exact absurd (.inr hq) (settled r hr)

/-- a reservation whose session changed stays so, whatever the log says -/
theorem World.Fenced.reserved_step (hok : w.OK host) (hf : w.Fenced) (h : w.Did host w') :
    ∀ a ∈ w'.db.attempts, a.state = .reserved → Confirmed a.job_id a.account_id w'.log ∨
      w'.db.session a.account_id ≠ a.session_revision := by
  have hknown : ∀ a ∈ w.db.attempts, w.db.KnowsId a.session_revision := by
    intro a ha
    obtain ⟨j, hj, hid, -⟩ := hok.db.receipts.receipts a ha
    exact (receipt_known hok.db ha hj hid).2
  intro a ha hs
  have hopen : a.state.isOpen = true := by
    rw [hs]
    rfl
  cases h with
  | client db exec log | operate o db idle exec log | finishOperation row db operating exec log =>
    have ha := (db.open_receipt hopen).mp ha
    rw [log]
    exact (hf.reserved a ha hs).imp_right (db.session_ne (hknown a ha))
  | login account_id operation_id db fresh session unqueued exec log =>
    have ha := (db.open_receipt hopen).mp ha
    rw [log]
    by_cases e : a.account_id = account_id
    · right
      rw [e, session]
      rintro rfl
      exact (hknown a ha).not_fresh fresh
    · refine (hf.reserved a ha hs).imp (fun hc => hc.append (by simp) (fun op hm => ?_)) (db.session_ne (hknown a ha))
      rw [List.mem_singleton] at hm
      cases hm
      exact e rfl
  | confirm ids db nodup drafts queued exec log =>
    have ha : a ∈ w.db.attempts := by
      rw [db.attempts] at ha
      exact ha
    rw [log, db.sameWorld.session]
    refine (hf.reserved a ha hs).imp_left (fun hc => hc.append (not_confirmed (fun hm => ?_)) (fun _ => not_login))
    obtain ⟨r, hr, hrid, hrs⟩ := reserved_running hok.db ha hs
    obtain ⟨s, hsm, hsid, hss⟩ := drafts _ hm
    rw [Table.eq_of_key hr hsm (by rw [hrid, hsid]), hss] at hrs
    cases hrs
  | claim j x db account_id session idle exec log =>
    rw [log, db.world.session]
    rcases (Table.mem_insert db.attempts).mp ha with ha | rfl
    · exact hf.reserved a ha hs
    · obtain ⟨r, hr, hrid, -, hcon, hst, -⟩ := db.has.row
      have hc := hf.queued r hr (by rw [hst, db.queued])
      rw [hrid, show r.content.account_id = j.account_id by rw [hcon]] at hc
      rw [db.job_id, account_id]
      exact .inl hc
  | settle row x x' mid advance db job_id holding exec closed log =>
    have ha := (db.open_receipt hopen).mp ha
    rw [log]
    rcases advance.mem_attempts.mp ha with rfl | ⟨ha, -⟩
    · rw [hs] at closed
      rcases closed with e | e <;> cases e
    · have hmid := (hf.reserved a ha hs).imp_right (fun hne => by rwa [← advance.world.session] at hne)
      exact hmid.imp_right (db.session_ne ((hknown a ha).mono (Move.advance advance).extends))
  | dispatch row x x' db job_id reserved dispatched account holding exec log =>
    rw [log, db.world.session]
    rcases db.mem_attempts.mp ha with rfl | ⟨ha, -⟩
    · rw [hs] at dispatched
      cases dispatched
    · exact (hf.reserved a ha hs).imp_left (fun hc => hc.append (by simp) (by simp))
  | invoke row db dispatched exec log =>
    rw [log, db]
    exact (hf.reserved a (db ▸ ha) hs).imp_left (fun hc => hc.append (by simp) (by simp))
  | crash db exec log =>
    rw [log, db]
    exact hf.reserved a (db ▸ ha) hs
  | recover db settled down exec log =>
    obtain ⟨r, hr, -, hrun⟩ := reserved_running (db.ok hok.db) ha hs
    exact absurd (.inl hrun) (settled r hr)

theorem commit_append {id : Ident} {log new : List Event} (h : Since (Event.IsCommit id) (Event.IsCommit id) log)
    (hnew : ∀ e ∈ new, ∀ db, e ≠ .dispatchCommitted id db) : Since (Event.IsCommit id) (Event.IsCommit id) (log ++ new) :=
  h.append (fun e he ⟨db, hdb⟩ => hnew e he db hdb)

theorem World.Fenced.committed_step (hf : w.Fenced) (h : w.Did host w') :
    ∀ row, w'.exec = .dispatched row → Since (Event.IsCommit row.id) (Event.IsCommit row.id) w'.log := by
  intro row hrow
  cases h with
  | client db exec log =>
    rw [exec] at hrow
    rw [log]
    exact hf.committed row hrow
  | login account_id operation_id db fresh session unqueued exec log =>
    rw [exec] at hrow
    rw [log]
    exact commit_append (hf.committed row hrow) (by simp)
  | confirm ids db nodup drafts queued exec log =>
    rw [exec] at hrow
    rw [log]
    exact commit_append (hf.committed row hrow) (by simp)
  | operate o db idle exec | claim j a db account_id session idle exec | settle _ a a' mid advance db job_id holding exec
  | invoke _ db dispatched exec | finishOperation _ db operating exec | crash db exec | recover db settled down exec =>
    rw [exec] at hrow
    cases hrow
  | dispatch row' a a' db job_id reserved dispatched account holding exec log =>
    rw [exec] at hrow
    cases hrow
    rw [log]
    exact .last ⟨_, rfl⟩

theorem World.Fenced.log_step (hok : w.OK host) (hf : w.Fenced) (h : w.Did host w') : Holds Event.Good w'.log := by
  have hok' : w'.db.OK host := h.chain.ok hok.db
  cases h with
  | client db exec log | operate o db idle exec log | claim j a db account_id session idle exec log
  | settle row a a' mid advance db job_id holding exec closed log | finishOperation row db operating exec log
  | crash db exec log | recover db settled down exec log =>
    rw [log]
    exact hf.log
  | login account_id operation_id db fresh session unqueued exec log =>
    rw [log]
    exact hf.log.snoc ⟨⟩
  | confirm ids db nodup drafts queued exec log =>
    rw [log]
    refine hf.log.append (fun pre e post he => ?_)
    have hm : e ∈ ids.map .confirmed := by
      rw [he]
      exact List.mem_append_right _ List.mem_cons_self
    obtain ⟨id, -, rfl⟩ := List.mem_map.mp hm
    exact ⟨⟩
  | dispatch row a a' db job_id reserved dispatched account holding exec log =>
    rw [log]
    refine hf.log.snoc ?_
    -- the account of the receipt is the account of the job
    obtain ⟨⟨k, hk, hkid, hkpay⟩, -⟩ := hok.exec row .reserved (by rw [holding]; rfl)
    have hacc : row.account_id = k.account_id := by
      rw [Job.account_id, Job.account_id, (Prod.mk.inj hkpay).2]
    obtain ⟨haid, -⟩ := receipt_known hok.db db.mem hk (by rw [hkid, job_id])
    obtain ⟨k', hk', el⟩ := (Move.advance db).extends.has hk
    obtain ⟨x, hx, hxid, hactive, hready, hsession⟩ := account
    have hxk : x.id = k'.account_id := by
      rw [hxid, hacc, Job.account_id, Job.account_id, (Prod.mk.inj (Job.lasting_payload el)).2]
    have hrev : a'.session_revision = a.session_revision :=
      congrArg (fun p : Ident × AttemptDefinition × Ident × RuntimeIdentity => p.2.2.1) db.lasting
    refine ⟨k', x, a', hk', by rw [Job.lasting_id el, hkid], hx, hxk, hactive, hready, db.mem_attempts.mpr (.inl rfl),
      by rw [db.job_id, job_id], dispatched, ?_, ?_⟩
    · rw [session_binding, hrev, hxid, hsession]
    · rcases hf.reserved a db.mem reserved with hc | hne
      · rwa [job_id, haid, ← hacc, ← hxid] at hc
      · rw [← db.world.session, haid, ← hacc] at hne
        exact absurd hsession hne
  | invoke row db dispatched exec log =>
    rw [log]
    exact hf.log.snoc (hf.committed row dispatched)

theorem World.Fenced.step (hok : w.OK host) (hf : w.Fenced) (h : w.Did host w') : w'.Fenced :=
  ⟨hf.queued_step hok h, hf.reserved_step hok h, hf.committed_step h, hf.log_step hok h⟩

/-! ## every run -/

theorem World.Fenced.initial : World.initial.Fenced := by
  have hjobs : ∀ r ∈ World.initial.db.jobs, r.state = .queued → Confirmed r.id r.content.account_id World.initial.log :=
    fun r hr => absurd hr (Table.not_mem_empty r)
  have hattempts : ∀ a ∈ World.initial.db.attempts, a.state = .reserved →
      Confirmed a.job_id a.account_id World.initial.log ∨
        World.initial.db.session a.account_id ≠ a.session_revision :=
    fun a ha => absurd ha (Table.not_mem_empty a)
  exact ⟨hjobs, hattempts, (fun _ h => nomatch h), .nil⟩

/-- **Session fencing of uploads.** -/
theorem fenced_reachable (h : w.Reachable host) {before after : List Event} {job_id : Ident}
    (hlog : w.log = before ++ .uploadInvoked job_id :: after) :
    ∃ pre mid db, before = pre ++ .dispatchCommitted job_id db :: mid ∧ (∀ d, .dispatchCommitted job_id d ∉ mid) ∧
      Authorized pre job_id db := by
  have hboth : w.OK host ∧ w.Fenced := by
    refine h.induct (I := fun w => w.OK host ∧ w.Fenced) ?_
      (fun _ _ _ _ hi hs => ⟨hi.1.step hs, hi.2.step hi.1 (hi.1.did hs)⟩)
    rintro s rfl
    exact ⟨ok_reachable (.init rfl), .initial⟩
  have hlogs := hboth.2.log
  obtain ⟨pre, e, mid, rfl, ⟨db, rfl⟩, hmid⟩ := hlogs before _ after hlog
  refine ⟨pre, mid, db, rfl, fun d hd => hmid _ hd ⟨d, rfl⟩, ?_⟩
  exact hlogs pre _ (mid ++ .uploadInvoked job_id :: after) (by rw [hlog, List.append_assoc, List.cons_append])

/-- the first upload was confirmed after the login -/
theorem fenced_first : ∃ (w : World) (before after : List Event), w.log = before ++ .uploadInvoked 5 :: after ∧
    ∃ pre mid db, before = pre ++ .dispatchCommitted 5 db :: mid ∧ (∀ d, .dispatchCommitted 5 d ∉ mid) ∧
      Authorized pre 5 db := by
  obtain ⟨w, hw, hs, -⟩ := failedUpload_run
  have hmem : (5 : Ident) ∈ invocations w.log := by
    rw [hs]
    exact List.mem_singleton_self _
  obtain ⟨e, he, hinv⟩ := List.mem_filterMap.mp hmem
  cases e <;> cases hinv
  obtain ⟨before, after, hlog⟩ := List.append_of_mem he
  exact ⟨w, before, after, hlog, fenced_reachable (World.reachable_run plainHost hw) hlog⟩

end
end OpenFlame.Upload
