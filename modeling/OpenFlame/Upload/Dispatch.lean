import OpenFlame.Upload.Calls
import OpenFlame.Upload.Service

/-!
# The scheduler's transactions as moves

* `claim_spec`              a queued operation starts, or a queued job with its receipt;
* `markUploadDispatch_spec` the receipt passes the dispatch boundary under the session it was reserved for;
* `finalizeUpload_spec`     a checked result moves the receipt and its job on;
* `recover_spec`            every open receipt is settled, and no job stays running or queued.
-/

set_option linter.all false

namespace OpenFlame.Upload
open Guard Relation

section
variable {host : Host} {env : Env} {db db' : DB} {j : Job} {a : Attempt}

/-! ## claiming -/

/-- the current session revision of an account -/
def DB.session (db : DB) (account_id : Ident) : Ident :=
  ((latestLogin db account_id).map Operation.id).getD account_id

theorem session_binding (db : DB) (account : Account) :
    (workflowAccountBinding db account).session_revision = db.session account.id := rfl

/-- the current session is the account's own id, or one of its logins -/
theorem DB.session_of (db : DB) (account_id : Ident) : db.SessionOf account_id (db.session account_id) := by
  intro hne
  unfold DB.session at hne ⊢
  cases hl : latestLogin db account_id with
  | none =>
    rw [hl] at hne
    exact absurd rfl hne
  | some o =>
    obtain ⟨ho, hp⟩ := Table.mem_filter.mp (List.mem_of_getLast? hl)
    simp only [Bool.and_eq_true, beq_iff_eq] at hp
    exact ⟨o, ho, rfl, hp.1, hp.2⟩

theorem reserveUploadAttempt_spec (hok : db.OK host) (hj : db.Has j) (hleaf : db.IsLeaf j) {attempt_id : Ident}
    (h : reserveUploadAttempt host env db j attempt_id = .ok (db', a)) :
    ∃ d : AttemptDefinition, ∃ runtime, a = d.reserved attempt_id (db.session j.account_id) runtime ∧
      d.job_id = j.id ∧ d.account_id = j.account_id ∧ db.Identified host j a ∧
      db.attempts.insert a = some db'.attempts ∧ db' = { db with attempts := db'.attempts } := by
  obtain ⟨d, x, hd, hdef, -, hxi, hacc, hpl, hjob⟩ :=
    attemptDefinition_ok hok.ledger hok.receipts.parentsEnded hj true (fun _ => hleaf)
  simp only [reserveUploadAttempt, attemptRuntimeIdentity, bind_eq_ok, require_eq_ok, fetch_eq_ok, pure_eq_ok] at h
  obtain ⟨dx, hdx, -, -, runtime, ⟨r, -, -, hvalid, rfl⟩, t, ht, heq⟩ := h
  rw [hd] at hdx
  cases hdx
  cases heq
  refine ⟨d, r, ?_, hjob, by rw [hacc, hxi], ⟨hdef, ?_, ?_⟩, ht, rfl⟩
  · rw [session_binding, hxi]
  · show db.SessionOf d.account_id _
    rw [hacc]
    exact db.session_of x.id
  · show r.isValid d.platform = true
    rw [hpl]
    exact hvalid

/-- what a claim did to the store -/
inductive ClaimSpec (host : Host) (db db' : DB) : Option Claimed → Prop where
  | idle (same : db' = db) : ClaimSpec host db db' none
  | operation (o : Operation) (mem : o ∈ db.operations) (queued : o.state = .queued) (move : Client host db db') :
      ClaimSpec host db db' (some (.operation o))
  | upload (j : Job) (a : Attempt) (reserve : Reserve host db db' j a) (account_id : a.account_id = j.account_id)
      (session : a.session_revision = db.session j.account_id) : ClaimSpec host db db' (some (.upload j))

theorem claim_spec (hok : db.OK host) {attempt_id : Ident} {out : Option Claimed}
    (h : claim host env db attempt_id = .ok (db', out)) : ClaimSpec host db db' out := by
  unfold claim at h
  split at h
  · next o ho =>
    simp only [bind_eq_ok, require_eq_ok, pure_eq_ok] at h
    obtain ⟨-, -, heq⟩ := h
    cases heq
    obtain ⟨hmem, hp⟩ := Table.find_some ho
    simp only [Bool.and_eq_true, beq_iff_eq] at hp
    exact .operation o hmem hp.1 (.world .refl .refl .refl (Table.map_of_rows rfl (fun _ => rfl)) rfl rfl rfl)
  · split at h
    · cases h
      exact .idle rfl
    · next r hr =>
      obtain ⟨hmem, hp⟩ := Table.find_some hr
      simp only [Bool.and_eq_true, beq_iff_eq] at hp
      simp only [bind_eq_ok, require_eq_ok, pure_eq_ok] at h
      obtain ⟨j, hj, ⟨d, a⟩, hres, -, -, heq⟩ := h
      cases heq
      obtain ⟨hhas, hid⟩ := getJob_has hj
      have hq : j.state = .queued := by rw [← hhas.row_state hmem hid.symm, hp.1.1]
      have hleaf : db.IsLeaf j := hok.receipts.isLeaf hok.ledger hhas (by rw [hq]; exact nofun) (by rw [hq]; exact nofun)
      obtain ⟨x, runtime, rfl, hjob, hacc, hi, hins, hd⟩ := reserveUploadAttempt_spec hok hhas hleaf hres
      rw [hd]
      refine .upload j _ ⟨⟨rfl, rfl, rfl, rfl⟩, rfl, hhas, hq, hjob, hi, hins, ?_, ⟨rfl, rfl, rfl, rfl, rfl, rfl, rfl, rfl⟩⟩
        hacc rfl
      -- the claimed row is queued, so the condition on the state selects it
      refine List.map_congr_left (fun s hs => ?_)
      by_cases e : s.id = j.id
      · have hsr : s = r := Table.eq_of_key hs hmem (by rw [e, hid])
        subst hsr
        rw [Table.upd_eq e, Table.upd_pos]
        simp [e, hp.1.1]
      · rw [Table.upd_ne e, Table.upd_neg]
        simp [e]

/-! ## the dispatch boundary -/

/-- a receipt that passed the boundary -/
def Attempt.dispatched (a : Attempt) (now : Time) : Attempt :=
  { a with state := .dispatchMayHaveStarted, dispatch_started_at := some now, revision := a.revision + 1 }

/-- the account may upload, and still has the session of the receipt -/
def DB.Authorizes (db : DB) (account_id session_revision : Ident) : Prop :=
  ∃ account ∈ db.accounts, account.id = account_id ∧ account.lifecycle_state = .active ∧
    account.auth_state = .ready ∧ db.session account_id = session_revision

theorem attemptStateIsValid_dispatched {k : Job} {now : Time} (hv : attemptStateIsValid j a = true)
    (hs : a.state = .reserved) (hk : k.state = .running) : attemptStateIsValid k (a.dispatched now) = true := by
  obtain ⟨-, hv⟩ := Bool.and_eq_true_iff.mp hv
  rw [hs] at hv
  simp only [Bool.and_eq_true, Option.isNone_iff_eq_none, beq_iff_eq] at hv
  obtain ⟨⟨⟨⟨⟨⟨⟨h1, h2⟩, h3⟩, -⟩, h5⟩, h6⟩, -⟩, h8⟩ := hv
  simp [attemptStateIsValid, hk, Attempt.dispatched, h1, h2, h3, h5, h6, uploadEvidenceIsValid]
  exact h8

/-- the condition of an update selects its one row -/
theorem Table.count_one {ρ κ : Type} {key : ρ → κ} {t : Table ρ key} {p : ρ → Bool} (h : t.count p = 1) :
    ∃ r ∈ t, p r = true := Table.count_pos.mp (by rw [h]; exact Nat.one_pos)

theorem markUploadDispatch_spec (hok : db.OK host) {job_id : Ident} {now : Time} {out : Bool}
    (h : markUploadDispatch host env db job_id now = .ok (db', out)) :
    ∃ j a, db.Has j ∧ j.id = job_id ∧ a ∈ db.attempts ∧ a.job_id = job_id ∧
      (out = false ∧ db' = db ∨ out = true ∧ a.state = .reserved ∧ Advance host db db' a (a.dispatched now) ∧
        db.Authorizes j.account_id a.session_revision) := by
  simp only [markUploadDispatch, bind_eq_ok, require_eq_ok, fetch_eq_ok] at h
  obtain ⟨j, hj, a, ha, -, hrun, h⟩ := h
  obtain ⟨hhas, hid⟩ := getJob_has hj
  obtain ⟨ha, hajob⟩ := Table.get_eq_some.mp ha
  refine ⟨j, a, hhas, hid, ha, hajob, ?_⟩
  split at h
  · cases h
    exact .inl ⟨rfl, rfl⟩
  · simp only [bind_eq_ok, require_eq_ok, fetch_eq_ok, pure_eq_ok] at h
    obtain ⟨_, -, account, haccount, -, ⟨hactive, hready, hsession⟩, _, -, -, -, -, hcount, heq⟩ := h
    cases heq
    obtain ⟨haccount, haid⟩ := Table.get_eq_some.mp haccount
    obtain ⟨b, hb, hp⟩ := Table.count_one hcount
    have hpk : ∀ b : Attempt, (b.job_id == job_id && b.state == .reserved && b.revision == 0) = true →
        b.job_id = a.job_id := by
      intro b hb
      simp only [Bool.and_eq_true, beq_iff_eq] at hb
      rw [hajob, hb.1.1]
    have hba : b = a := Table.eq_of_key hb ha (hpk b hp)
    subst hba
    have hres : b.state = .reserved := by
      simp only [Bool.and_eq_true, beq_iff_eq] at hp
      exact hp.1.2
    refine .inr ⟨rfl, hres, ?_, account, haccount, haid, hactive, hready, ?_⟩
    · refine Advance.of_update (f := fun b => b.dispatched now) (g := id) hhas ha (by rw [hid, hajob]) hp
        (fun b _ => hpk b) rfl ?_ rfl ⟨rfl, rfl, rfl, rfl⟩ rfl rfl ?_ (fun _ => rfl) (fun _ _ _ => rfl) ?_
      · rw [hres]
        exact ⟨⟩
      · rw [List.map_id]
      · intro r _ _ hst _ k _ hks _
        exact attemptStateIsValid_dispatched (hok.receipts.receipt ha hhas (by rw [hid, hajob])).2 hres
          (by rw [hks, id, hst, hrun])
    · rw [← hsession, session_binding, haid]

/-! ## results -/

/-- what the checks of a result let through -/
structure CheckedResult.Sound (platform : Platform) (mode : Mode) (invoked : Bool) (r : CheckedResult) : Prop where
  code : isSafeCode r.code = true
  evidence : uploadEvidenceIsValid platform mode (some r.status) r.evidence_kind = true
  early : invoked = false → (r.status = .failed ∨ r.status = .canceled) ∧ r.evidence_kind = none

/-- the result that stands in for one that fails the checks -/
theorem CheckedResult.fallback_sound (platform : Platform) (mode : Mode) (invoked : Bool) :
    CheckedResult.Sound platform mode invoked
      ⟨if invoked then .unknown else .failed, "backend_result_invalid", none⟩ := by
  have hcode : isSafeCode "backend_result_invalid" = true := by decide
  refine ⟨hcode, ?_, ?_⟩
  · cases invoked <;> rfl
  · rintro rfl
    exact ⟨.inl rfl, rfl⟩

theorem uploadResult_sound {platform : Platform} {mode : Mode} {invoked : Bool} {outcome : Outcome}
    (h : invoked = false → ∃ why : Abandon, outcome = why.outcome) :
    (uploadResult platform mode invoked outcome).Sound platform mode invoked := by
  have hfall := CheckedResult.fallback_sound platform mode invoked
  unfold uploadResult
  simp only
  split
  · exact hfall
  · next r hr =>
    split
    · exact hfall
    · next status hst =>
      split
      · next hc =>
        refine ⟨hc.2.1, hc.2.2, ?_⟩
        rintro rfl
        -- before the backend is called only the scheduler itself ends an upload
        obtain ⟨why, rfl⟩ := h rfl
        cases why <;> cases hr
        · have e : status = .canceled := (Option.some.inj hst).symm
          exact ⟨.inr e, rfl⟩
        · have e : status = .failed := (Option.some.inj hst).symm
          exact ⟨.inl e, rfl⟩
        · have e : status = .failed := (Option.some.inj hst).symm
          exact ⟨.inl e, rfl⟩
      · exact hfall

/-- the receipt of an execution that ended -/
def Attempt.finalized (a : Attempt) (result : CheckedResult) (state : JobState) (now : Time) : Attempt :=
  { a with
    state := if state = .unknown then .unknown else .responded, result_status := some result.status,
    result_code := some result.code, evidence_kind := result.evidence_kind, responded_at := some now,
    revision := a.revision + 1 }

/-- the receipt state in which an execution ends -/
def openState (invoked : Bool) : AttemptState := if invoked then .dispatchMayHaveStarted else .reserved

theorem attemptStateIsValid_finalized {k : Job} {now : Time} {invoked : Bool} {r : CheckedResult}
    (hv : attemptStateIsValid j a = true) (hs : a.state = openState invoked)
    (hr : r.Sound j.platform j.mode invoked) (hpay : k.payload = j.payload)
    (hks : k.state = uploadResultState r invoked j.mode) (hkc : k.code = r.code) :
    attemptStateIsValid k (a.finalized r (uploadResultState r invoked j.mode) now) = true := by
  have ht : k.target = j.target := (Prod.mk.inj hpay).2
  have hplat : k.platform = j.platform := by rw [Job.platform, Job.platform, ht]
  have hmode : k.mode = j.mode := by rw [Job.mode, Job.mode, ht]
  have hev := hr.evidence
  obtain ⟨-, hv⟩ := Bool.and_eq_true_iff.mp hv
  cases invoked with
  | false =>
    rw [hs] at hv
    simp only [openState, Bool.false_eq_true, if_false, Bool.and_eq_true, Option.isNone_iff_eq_none, beq_iff_eq] at hv
    obtain ⟨⟨⟨⟨⟨⟨⟨-, -⟩, -⟩, h4⟩, -⟩, h6⟩, -⟩, h8⟩ := hv
    obtain ⟨hst, hnone⟩ := hr.early rfl
    rw [hnone] at hev
    rcases hst with hst | hst <;>
      simp [attemptStateIsValid, Attempt.finalized, uploadResultState, hks, hkc, hst, hnone, h4, h6, hmode, hr.code,
        ResultStatus.jobState, uploadEvidenceIsValid] <;>
      exact h8
  | true =>
    rw [hs] at hv
    simp only [openState, if_true, Bool.and_eq_true, Option.isNone_iff_eq_none, beq_iff_eq] at hv
    obtain ⟨⟨⟨⟨⟨⟨⟨-, -⟩, -⟩, h4⟩, -⟩, h6⟩, -⟩, h8⟩ := hv
    cases hst : r.status <;> cases hm : j.mode <;> rw [hst, hm] at hev <;>
      simp [attemptStateIsValid, Attempt.finalized, uploadResultState, hks, hkc, hst, hm, h4, h6, hplat, hmode,
        hr.code, ResultStatus.jobState, hev, Attempt.rawUnknownResult, Attempt.resultIsAccounted] <;>
      exact h8

theorem finalizeUploadAttempt_spec (hok : db.OK host) (hj : db.Has j) {r : CheckedResult} {invoked : Bool}
    (hr : r.Sound j.platform j.mode invoked) {now : Time}
    (h : finalizeUploadAttempt db j.id r invoked (uploadResultState r invoked j.mode) now = .ok db') :
    ∃ a ∈ db.attempts, a.job_id = j.id ∧ a.state = openState invoked ∧
      Advance host db db' a (a.finalized r (uploadResultState r invoked j.mode) now) := by
  simp only [finalizeUploadAttempt, bind_eq_ok, require_eq_ok, fetch_eq_ok, pure_eq_ok] at h
  obtain ⟨a, ha, -, ⟨hs, hrev⟩, -, hcount, -, hjcount, rfl⟩ := h
  obtain ⟨ha, haid⟩ := Table.get_eq_some.mp ha
  refine ⟨a, ha, haid, hs, ?_⟩
  have hp : (a.job_id == j.id && a.id == a.id && a.state == (if invoked then .dispatchMayHaveStarted else .reserved) &&
      a.revision == (if invoked then 1 else 0)) = true := by
    simp [haid, hs, hrev]
  have hpk : ∀ b : Attempt, (b.job_id == j.id && b.id == a.id &&
      b.state == (if invoked then .dispatchMayHaveStarted else .reserved) &&
      b.revision == (if invoked then 1 else 0)) = true → b.job_id = a.job_id := by
    intro b hb
    simp only [Bool.and_eq_true, beq_iff_eq] at hb
    rw [haid, hb.1.1.1]
  obtain ⟨s, hs', hsp⟩ := Table.count_one hjcount
  simp only [Bool.and_eq_true, beq_iff_eq] at hsp
  have hrun : j.state = .running := by rw [← hj.row_state hs' hsp.1, hsp.2]
  have hv := (hok.receipts.receipt ha hj haid.symm).2
  refine Advance.of_update (f := fun b => b.finalized r (uploadResultState r invoked j.mode) now) hj ha haid.symm hp
    (fun b _ => hpk b) rfl ?_ rfl ⟨rfl, rfl, rfl, rfl⟩ rfl rfl rfl (fun s => upd_setResult_lasting s)
    (fun s _ hne => Table.upd_neg (by simp [← haid, hne])) ?_
  · show a.state.next (a.finalized r (uploadResultState r invoked j.mode) now).state
    have hfin : (a.finalized r (uploadResultState r invoked j.mode) now).state =
        if uploadResultState r invoked j.mode = .unknown then .unknown else .responded := rfl
    rw [hs, hfin]
    cases invoked with
    | true =>
      by_cases hu : uploadResultState r true j.mode = .unknown
      · rw [if_pos hu]
        exact ⟨⟩
      · rw [if_neg hu]
        exact ⟨⟩
    | false =>
      have hne : uploadResultState r false j.mode ≠ .unknown := by
        obtain ⟨e | e, -⟩ := hr.early rfl <;> simp [uploadResultState, e, ResultStatus.jobState]
      rw [if_neg hne]
      exact ⟨⟩
  · intro s hs hsid hst _ k hpay hks hkc
    have e : Table.upd (fun s => s.id == j.id && s.state == .running)
        (fun s => s.setResult (uploadResultState r invoked j.mode) r.code) s =
        s.setResult (uploadResultState r invoked j.mode) r.code :=
      Table.upd_pos (by rw [hst, hrun, hsid, haid]; simp)
    rw [e] at hks hkc
    exact attemptStateIsValid_finalized hv (by assumption) hr hpay hks hkc

/-- the end of an upload: the receipt moves on, and the account may lose its session -/
theorem finalizeUpload_spec (hok : db.OK host) (hj : db.Has j) {row : Job} (hid : j.id = row.id)
    (hpay : j.payload = row.payload) {outcome : Outcome} {invoked : Bool}
    (hout : invoked = false → ∃ why : Abandon, outcome = why.outcome) {now : Time}
    (h : finalizeUpload db row outcome invoked now = .ok db') :
    ∃ a ∈ db.attempts, a.job_id = row.id ∧ a.state = openState invoked ∧
      ∃ r : CheckedResult, ∃ state db₁, Advance host db db₁ a (a.finalized r state now) ∧ Clients host db₁ db' := by
  have ht : row.target = j.target := (Prod.mk.inj hpay).2.symm
  have hplat : row.platform = j.platform := by rw [Job.platform, Job.platform, ht]
  have hmode : row.mode = j.mode := by rw [Job.mode, Job.mode, ht]
  simp only [finalizeUpload, hplat, hmode, ← hid, bind_eq_ok] at h
  obtain ⟨db₁, h1, h⟩ := h
  obtain ⟨a, ha, haid, hs, hadv⟩ := finalizeUploadAttempt_spec hok hj (uploadResult_sound hout) h1
  refine ⟨a, ha, by rw [haid, hid], hs, _, _, db₁, hadv, ?_⟩
  split at h
  · cases h
    refine ReflTransGen.tail ?_ (revokeConfirmations_client _ _ _)
    exact .single (Client.accounts (fun _ => rfl))
  · cases h
    exact .refl

theorem finalizeOperation_clients (row : Operation) (outcome : Outcome) (stopped : Bool) :
    Clients host db (finalizeOperation db row outcome stopped) := by
  unfold finalizeOperation
  split
  · split
    · refine ReflTransGen.tail ?_ (setAccount_client _ _ _ _)
      exact .single (Client.operations (fun _ => rfl))
    · exact .refl
  · exact .refl

/-! ## recovery -/

/-- the states recovery looks for -/
def JobState.isInterrupted (s : JobState) : Prop := s = .running ∨ s = .queued

/-- the receipt of an interrupted job passes its checks -/
theorem interruptedReceipt_ok (hok : db.OK host) {r : JobRow} (hr : r ∈ db.jobs) (hs : r.state.isInterrupted)
    (ha : db.attempts.get r.id = some a) :
    interruptedReceipt host db r.id a.id = .ok a ∧
      ∃ j, db.Has j ∧ j.id = r.id ∧ j.state = .running ∧ attemptStateIsValid j a = true := by
  obtain ⟨j, hj, hid, -⟩ := hok.ledger.getRow hr
  obtain ⟨ha, haid⟩ := Table.get_eq_some.mp ha
  obtain ⟨hi, hv⟩ := hok.receipts.receipt ha hj (by rw [hid, haid])
  have hst : j.state = r.state := (hj.row_state hr hid.symm).symm
  have hrun : j.state = .running := by
    rcases hs with e | e
    · rw [hst, e]
    · exact absurd (by rw [hst, e]) (attemptStateIsValid_claimed hv).2
  have hleaf : db.IsLeaf j := hok.receipts.isLeaf hok.ledger hj (by rw [hrun]; exact nofun) (by rw [hrun]; exact nofun)
  refine ⟨?_, j, hj, hid, hrun, hv⟩
  have hget : getJob db r.id = .ok j := by
    rw [← hid]
    exact hj
  have hfind : db.attempts.find (fun b => b.id == a.id && b.job_id == r.id) = some a := by
    cases hf : db.attempts.find (fun b => b.id == a.id && b.job_id == r.id) with
    | none =>
      have := Table.find_none.mp hf a ha
      simp [haid] at this
    | some b =>
      obtain ⟨hb, hp⟩ := Table.find_some hf
      simp only [Bool.and_eq_true, beq_iff_eq] at hp
      rw [Table.eq_of_key hb ha (by rw [hp.2, haid])]
  simp only [interruptedReceipt, bind_eq_ok, fetch_eq_ok, pure_eq_ok, validateAttemptState, require_eq_ok]
  exact ⟨j, hget, a, hfind, ⟨⟩, validateAttemptIdentity_ok hok.ledger hok.receipts.parentsEnded hj hi true (fun _ => hleaf),
    ⟨⟩, hv, rfl⟩

/-- one interrupted job is settled, and nothing else is touched -/
structure Settles (host : Host) (db db' : DB) (id : Ident) : Prop where
  move : Move host db db'
  jobs : ∃ g : JobRow → JobRow, db'.jobs.rows = db.jobs.rows.map g ∧ (∀ r, (g r).id = r.id) ∧
    (∀ r ∈ db.jobs, r.id ≠ id → g r = r) ∧ ∀ r ∈ db.jobs, r.id = id → ¬ (g r).state.isInterrupted
  attempts : ∀ k, k ≠ id → db'.attempts.get k = db.attempts.get k

theorem interrupted_ne {id : Ident} {r : JobRow} (h : r.id ≠ id) :
    (r.id == id && (r.state == .running || r.state == .queued)) = false := by
  simp [h]

/-- the update of an interrupted job settles it -/
theorem setInterrupted_frame {id : Ident} {state : JobState} {code : Code} (hs : ¬ state.isInterrupted) :
    ∃ g : JobRow → JobRow, (db.setInterrupted id state code).jobs.rows = db.jobs.rows.map g ∧ (∀ r, (g r).id = r.id) ∧
      (∀ r ∈ db.jobs, r.id ≠ id → g r = r) ∧ ∀ r ∈ db.jobs, r.id = id → ¬ (g r).state.isInterrupted := by
  refine ⟨_, rfl, Table.upd_col JobRow.id (fun _ => rfl), fun r _ hne => Table.upd_neg (interrupted_ne hne), ?_⟩
  intro r _ hid
  by_cases hi : r.state.isInterrupted
  · rw [Table.upd_pos (by rcases hi with e | e <;> simp [hid, e])]
    exact hs
  · rw [Table.upd_neg]
    · exact hi
    · simpa [JobState.isInterrupted, hid] using hi

/-- an update of one receipt leaves those of other jobs alone -/
theorem get_update_other {p : Attempt → Bool} {f : Attempt → Attempt} (hf : ∀ b, (f b).job_id = b.job_id) {id k : Ident}
    (hp : ∀ b, p b = true → b.job_id = id) (hk : k ≠ id) :
    (db.attempts.update p f hf).get k = db.attempts.get k := by
  rw [Table.get_update]
  cases hg : db.attempts.get k with
  | none => rfl
  | some b =>
    obtain ⟨-, hb⟩ := Table.get_eq_some.mp hg
    have hneg : p b = false := by
      cases hpb : p b with
      | true => exact absurd (by rw [← hb, hp b hpb]) hk
      | false => rfl
    rw [Option.map_some, Table.upd_neg hneg]

/-- an open receipt and its running job are settled together -/
theorem receipt_settles (hj : db.Has j) (ha : a ∈ db.attempts) (hid : j.id = a.job_id) (hrun : j.state = .running)
    {p : Attempt → Bool} {f : Attempt → Attempt} {hf : ∀ b, (f b).job_id = b.job_id} {state : JobState} {code : Code}
    (hp : p a = true) (hpk : ∀ b, p b = true → b.job_id = a.job_id) (hl : (f a).lasting = a.lasting)
    (hnext : a.state.next (f a).state) (hrev : (f a).revision = a.revision + 1) (hs : ¬ state.isInterrupted)
    (hv : ∀ k : Job, k.payload = j.payload → k.state = state → k.code = code → attemptStateIsValid k (f a) = true) :
    Settles host db (DB.setInterrupted { db with attempts := db.attempts.update p f hf } a.job_id state code)
      a.job_id where
  move := by
    refine .advance (Advance.of_update (f := f) hj ha hid hp (fun b _ => hpk b) hl hnext hrev ⟨rfl, rfl, rfl, rfl⟩ rfl
      rfl rfl upd_setResult_lasting (fun s _ hne => Table.upd_neg (interrupted_ne hne)) ?_)
    intro s _ hsid hss _ k hpay hks hkc
    have e : Table.upd (fun s => s.id == a.job_id && (s.state == .running || s.state == .queued))
        (fun s => s.setResult state code) s = s.setResult state code :=
      Table.upd_pos (by rw [hss, hrun, hsid]; simp)
    rw [e] at hks hkc
    exact hv k hpay hks hkc
  jobs := setInterrupted_frame hs
  attempts := fun _ hk => get_update_other hf hpk hk

/-- a receipt that was interrupted after the boundary -/
def Attempt.interrupted (a : Attempt) : Attempt :=
  { a with
    state := .unknown, result_status := some .unknown, result_code := some "interrupted_result_unknown",
    evidence_kind := none, revision := a.revision + 1 }

theorem attemptStateIsValid_interrupted {k : Job} (hv : attemptStateIsValid j a = true)
    (hs : a.state = .dispatchMayHaveStarted) (hks : k.state = .unknown) (hkc : k.code = "interrupted_result_unknown") :
    attemptStateIsValid k a.interrupted = true := by
  have hcode : isSafeCode "interrupted_result_unknown" = true := by decide
  obtain ⟨-, hv⟩ := Bool.and_eq_true_iff.mp hv
  rw [hs] at hv
  simp only [Bool.and_eq_true, Option.isNone_iff_eq_none, beq_iff_eq] at hv
  obtain ⟨⟨⟨⟨⟨⟨⟨-, -⟩, -⟩, h4⟩, -⟩, h6⟩, -⟩, h8⟩ := hv
  simp [attemptStateIsValid, Attempt.interrupted, hks, hkc, h4, h6, hcode, uploadEvidenceIsValid,
    Attempt.rawUnknownResult, Attempt.resultIsAccounted]
  exact h8

/-- the result recovery writes to a receipt that was never dispatched -/
def notStarted : CheckedResult := ⟨.failed, "upload_dispatch_not_started", none⟩

theorem notStarted_sound (platform : Platform) (mode : Mode) : notStarted.Sound platform mode false :=
  ⟨by decide, rfl, fun _ => ⟨.inl rfl, rfl⟩⟩

/-- a job that was never claimed goes back to its draft -/
theorem restart_settles {r : JobRow} (hr : r ∈ db.jobs) (hs : r.state = .queued) :
    Settles host db { db with
      jobs := db.jobs.update (fun s => s.id == r.id && s.state == .queued)
        (fun s => s.setResult .draft "restart_confirmation_required") } r.id where
  move := .client (Client.update (setResult_lasting _ _) (fun s _ hp => by
    simp only [Bool.and_eq_true, beq_iff_eq] at hp
    exact .inr ⟨.inl ⟨.inr hp.2, .inl rfl⟩, nofun⟩))
  jobs := by
    refine ⟨_, rfl, Table.upd_col JobRow.id (fun _ => rfl), fun s _ hne => Table.upd_neg (by simp [hne]), ?_⟩
    intro s hm hid
    have e : s = r := Table.eq_of_key hm hr hid
    subst e
    rw [Table.upd_pos (by simp [hs])]
    exact fun h => by rcases h with h | h <;> cases h
  attempts := fun _ _ => rfl

theorem recoverJob_settles (hok : db.OK host) {r : JobRow} (hr : r ∈ db.jobs) (hs : r.state.isInterrupted) {now : Time}
    (h : recoverJob host now db (r, db.attempts.get r.id) = .ok db') : Settles host db db' r.id := by
  cases ha : db.attempts.get r.id with
  | none =>
    have hun := hok.receipts.unclaimed r hr ha
    have hq : r.state = .queued := by
      rcases hs with e | e
      · rw [e] at hun
        cases hun
      · exact e
    have hne : r.state ≠ .running := by
      rw [hq]
      exact nofun
    rw [ha] at h
    simp only [recoverJob, if_neg hne] at h
    cases h
    exact restart_settles hr hq
  | some a =>
    obtain ⟨hrec, j, hj, hid, hrun, hv⟩ := interruptedReceipt_ok hok hr hs ha
    obtain ⟨hamem, haid⟩ := Table.get_eq_some.mp ha
    rw [ha] at h
    simp only [recoverJob, hrec] at h
    rw [← haid] at h ⊢
    -- the receipt of a running job is open
    rcases (attemptStateIsValid_running_iff hv).mp hrun with hst | hst
    · rw [hst] at h
      simp only [bind_eq_ok, require_eq_ok, pure_eq_ok] at h
      obtain ⟨-, hcount, rfl⟩ := h
      obtain ⟨b, hb, hp⟩ := Table.count_one hcount
      have hpk : ∀ b : Attempt, (b.id == a.id && b.job_id == a.job_id && b.state == .reserved && b.revision == 0 &&
          b.dispatch_started_at.isNone && b.responded_at.isNone) = true → b.job_id = a.job_id := by
        intro b hb
        simp only [Bool.and_eq_true, beq_iff_eq] at hb
        exact hb.1.1.1.1.2
      rw [Table.eq_of_key hb hamem (hpk b hp)] at hp
      refine receipt_settles (f := fun b => b.finalized notStarted .failed now) hj hamem (by rw [hid, haid]) hrun hp hpk
        rfl (by rw [hst]; exact ⟨⟩) rfl (fun h => by rcases h with h | h <;> cases h) (fun k hpay hks hkc => ?_)
      exact attemptStateIsValid_finalized hv (show a.state = openState false from hst) (notStarted_sound _ _) hpay hks hkc
    · rw [hst] at h
      simp only [bind_eq_ok, require_eq_ok, pure_eq_ok] at h
      obtain ⟨-, hcount, rfl⟩ := h
      obtain ⟨b, hb, hp⟩ := Table.count_one hcount
      have hpk : ∀ b : Attempt, (b.id == a.id && b.job_id == a.job_id && b.state == .dispatchMayHaveStarted &&
          b.revision == 1 && b.dispatch_started_at.isSome && b.responded_at.isNone) = true → b.job_id = a.job_id := by
        intro b hb
        simp only [Bool.and_eq_true, beq_iff_eq] at hb
        exact hb.1.1.1.1.2
      rw [Table.eq_of_key hb hamem (hpk b hp)] at hp
      refine receipt_settles (f := fun b => b.interrupted) hj hamem (by rw [hid, haid]) hrun hp hpk
        rfl (by rw [hst]; exact ⟨⟩) rfl (fun h => by rcases h with h | h <;> cases h) (fun k _ hks hkc => ?_)
      exact attemptStateIsValid_interrupted hv hst hks hkc

/-- the loop: every listed job is settled, the others are not touched -/
theorem recoverJobs_spec {now : Time} : ∀ {rs : List JobRow} {db db' : DB}, db.OK host → (rs.map JobRow.id).Nodup →
    (∀ r ∈ rs, r ∈ db.jobs ∧ r.state.isInterrupted) →
    thread (recoverJob host now) db (rs.map (fun r => (r, db.attempts.get r.id))) = .ok db' →
    Chain host db db' ∧ ∀ r' ∈ db'.jobs, r'.state.isInterrupted → r' ∈ db.jobs ∧ r'.id ∉ rs.map JobRow.id := by
  intro rs
  induction rs with
  | nil =>
    intro db db' _ _ _ h
    cases h
    exact ⟨.refl, fun r hr _ => ⟨hr, List.not_mem_nil⟩⟩
  | cons r rs ih =>
    intro db db' hok hnd hrs h
    obtain ⟨hnot, hnd⟩ := List.nodup_cons.mp hnd
    obtain ⟨hr, hs⟩ := hrs r List.mem_cons_self
    simp only [List.map_cons, thread] at h
    cases h1 : recoverJob host now db (r, db.attempts.get r.id) with
    | error e => simp [h1] at h
    | ok db₁ =>
      have hset := recoverJob_settles hok hr hs h1
      obtain ⟨g, hrows, hgid, hoff, hon⟩ := hset.jobs
      have hne : ∀ x ∈ rs, x.id ≠ r.id := fun x hx e => hnot (List.mem_map.mpr ⟨x, hx, e⟩)
      have hitems : rs.map (fun x => (x, db.attempts.get x.id)) = rs.map (fun x => (x, db₁.attempts.get x.id)) :=
        List.map_congr_left (fun x hx => by rw [hset.attempts x.id (hne x hx)])
      rw [h1, hitems] at h
      obtain ⟨hchain, hkeep⟩ := ih (hok.move hset.move) hnd (fun x hx => by
        obtain ⟨hxm, hxs⟩ := hrs x (List.mem_cons_of_mem _ hx)
        refine ⟨?_, hxs⟩
        rw [← Table.mem_rows, hrows]
        exact List.mem_map.mpr ⟨x, hxm, hoff x hxm (hne x hx)⟩) h
      refine ⟨.head hset.move hchain, fun r' hr' hs' => ?_⟩
      obtain ⟨hr', hnot'⟩ := hkeep r' hr' hs'
      rw [← Table.mem_rows, hrows] at hr'
      obtain ⟨x, hx, rfl⟩ := List.mem_map.mp hr'
      by_cases e : x.id = r.id
      · exact absurd hs' (hon x hx e)
      · rw [hoff x hx e] at hnot' ⊢
        refine ⟨hx, fun hm => ?_⟩
        rcases List.mem_cons.mp hm with h | h
        · exact e h
        · exact hnot' h

/-- **Recovery settles every open receipt, and leaves no job running or queued.** -/
theorem recover_spec (hok : db.OK host) {now : Time} (h : recoverInterruptedRecords host db now = .ok db') :
    Chain host db db' ∧ ∀ r ∈ db'.jobs, ¬ r.state.isInterrupted := by
  simp only [recoverInterruptedRecords, bind_eq_ok, pure_eq_ok] at h
  obtain ⟨db₁, h1, rfl⟩ := h
  have hmem : ∀ r, r ∈ db.jobs.filter (fun r => r.state == .running || r.state == .queued) ↔
      r ∈ db.jobs ∧ r.state.isInterrupted := by
    intro r
    simp [JobState.isInterrupted]
  obtain ⟨hchain, hkeep⟩ := recoverJobs_spec hok ((List.nodup_map_iff_inj_on (db.jobs.nodup_filter _)).mpr
    (fun x hx y hy e => Table.eq_of_key ((hmem x).mp hx).1 ((hmem y).mp hy).1 e)) (fun r hr => (hmem r).mp hr) h1
  constructor
  · refine hchain.tail (.client (.world (.update rfl (fun _ => rfl)) .refl .refl (Table.map_of_rows rfl (fun _ => rfl))
      rfl rfl rfl))
  · intro r hr hs
    obtain ⟨hm, hnot⟩ := hkeep r hr hs
    exact hnot (List.mem_map.mpr ⟨r, (hmem r).mpr ⟨hm, hs⟩, rfl⟩)

end
end OpenFlame.Upload
