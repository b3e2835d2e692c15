import OpenFlame.Upload.Runs

/-!
# Upload safety

* `Chain.forward`            receipts only move forward;
* `World.Logged`             what the log says about receipts, over every step;
* `dispatchSafe_reachable`   **the backend is called at most once for a job, after the boundary, and never
                             while an earlier job of the lineage may still be published.**
-/

set_option linter.all false

namespace OpenFlame.Upload
open Guard Relation TransSys

section
variable {host : Host} {w w' : World} {l : Label} {db db' : DB}

/-! ## receipts move forward -/

/-- a receipt and what has become of it -/
def Attempt.Forward (a a' : Attempt) : Prop :=
  a' = a ∨ a'.lasting = a.lasting ∧ TransGen AttemptState.next a.state a'.state ∧ a.revision < a'.revision

theorem Attempt.Forward.lasting {a a' : Attempt} (h : a.Forward a') : a'.lasting = a.lasting := by
  rcases h with rfl | ⟨h, -⟩
  · rfl
  · exact h

theorem Attempt.Forward.job_id {a a' : Attempt} (h : a.Forward a') : a'.job_id = a.job_id :=
  congrArg (fun x : Ident × AttemptDefinition × Ident × RuntimeIdentity => x.2.1.job_id) h.lasting

theorem Attempt.Forward.trans {a b c : Attempt} (h : a.Forward b) (h' : b.Forward c) : a.Forward c := by
  rcases h with rfl | ⟨h1, h2, h3⟩
  · exact h'
  · rcases h' with rfl | ⟨k1, k2, k3⟩
    · exact .inr ⟨h1, h2, h3⟩
    · exact .inr ⟨k1.trans h1, h2.trans k2, by omega⟩

/-- no step leads back to a reservation -/
theorem AttemptState.next_ne_reserved {s s' : AttemptState} (h : s.next s') : s' ≠ .reserved := by
  rintro rfl
  cases s <;> exact h

theorem Attempt.Forward.not_reserved {a a' : Attempt} (h : a.Forward a') (ha : a.state ≠ .reserved) :
    a'.state ≠ .reserved := by
  rcases h with rfl | ⟨-, h, -⟩
  · exact ha
  · obtain ⟨s, -, hs⟩ := TransGen.tail'_iff.mp h
    exact AttemptState.next_ne_reserved hs

theorem Advance.forward {a a' : Attempt} (h : Advance host db db' a a') {x : Attempt} (hx : x ∈ db.attempts) :
    ∃ x' ∈ db'.attempts, x.Forward x' := by
  by_cases e : x.job_id = a.job_id
  · rw [Table.eq_of_key hx h.mem e]
    exact ⟨a', h.mem_attempts.mpr (.inl rfl), .inr ⟨h.lasting, .single h.next, by rw [h.revision]; omega⟩⟩
  · exact ⟨x, h.mem_attempts.mpr (.inr ⟨hx, e⟩), .inl rfl⟩

theorem Client.forward (h : Client host db db') {x : Attempt} (hx : x ∈ db.attempts) :
    ∃ x' ∈ db'.attempts, x.Forward x' := by
  cases h with
  | world _ _ _ _ _ _ attempts | operation _ _ _ _ _ _ _ _ attempts | jobs _ _ attempts | create _ attempts
  | tombstone _ attempts | successor _ _ attempts => exact ⟨x, by rw [attempts]; exact hx, .inl rfl⟩
  | reconcile h unknown => exact h.forward hx

theorem Move.forward (h : Move host db db') {x : Attempt} (hx : x ∈ db.attempts) :
    ∃ x' ∈ db'.attempts, x.Forward x' := by
  cases h with
  | client h => exact h.forward hx
  | queue h => exact ⟨x, by rw [h.attempts]; exact hx, .inl rfl⟩
  | reserve h => exact ⟨x, (Table.mem_insert h.attempts).mpr (.inl hx), .inl rfl⟩
  | advance h => exact h.forward hx

/-- **Receipts only move forward.** -/
theorem Chain.forward (h : Chain host db db') {x : Attempt} (hx : x ∈ db.attempts) :
    ∃ x' ∈ db'.attempts, x.Forward x' := by
  induction h with
  | refl => exact ⟨x, hx, .inl rfl⟩
  | tail _ hm ih =>
    obtain ⟨y, hy, hxy⟩ := ih
    obtain ⟨z, hz, hyz⟩ := hm.forward hy
    exact ⟨z, hz, hxy.trans hyz⟩

/-! ## invocations -/

def Event.invoked : Event → Option Ident
  | .uploadInvoked job_id => some job_id
  | _ => none

/-- the jobs the backend was called for, first one first -/
def invocations (log : List Event) : List Ident := log.filterMap Event.invoked

theorem invocations_append (log log' : List Event) : invocations (log ++ log') = invocations log ++ invocations log' :=
  List.filterMap_append

theorem invocations_confirmed (ids : List Ident) : invocations (ids.map .confirmed) = [] := by
  unfold invocations
  rw [List.filterMap_map]
  exact List.filterMap_eq_nil_iff.mpr (fun _ _ => rfl)

structure World.Logged (w : World) : Prop where
  dispatched : ∀ id ∈ invocations w.log, ∃ a ∈ w.db.attempts, a.job_id = id ∧ a.state ≠ .reserved
  pending : ∀ row, w.exec = .dispatched row → row.id ∉ invocations w.log
  once : (invocations w.log).Nodup

/-- the calls of the backend in one step -/
theorem World.Did.invocations (h : w.Did host w') : invocations w'.log = invocations w.log ∨
    ∃ row, invocations w'.log = invocations w.log ++ [row.id] ∧ w.exec = .dispatched row ∧ w'.db = w.db ∧
      w'.exec = .invoked row := by
  cases h with
  | client db exec log | operate o db idle exec log | claim j a db account_id session idle exec log
  | settle row a a' mid advance db job_id holding exec closed log | finishOperation row db operating exec log
  | crash db exec log | recover db settled down exec log => exact .inl (by rw [log])
  | login account_id operation_id db fresh session unqueued exec log =>
    left
    rw [log, invocations_append]
    exact List.append_nil _
  | confirm ids db nodup drafts queued exec log =>
    left
    rw [log, invocations_append, invocations_confirmed, List.append_nil]
  | dispatch row a a' db job_id reserved dispatched account holding exec log =>
    left
    rw [log, invocations_append]
    exact List.append_nil _
  | invoke row db dispatched exec log => exact .inr ⟨row, by rw [log, invocations_append]; rfl, dispatched, db, exec⟩

theorem World.Logged.step (hok : w.OK host) (hl : w.Logged) (h : w.Did host w') : w'.Logged := by
  have hkeep : ∀ id ∈ OpenFlame.Upload.invocations w.log, ∃ a ∈ w'.db.attempts, a.job_id = id ∧ a.state ≠ .reserved := by
    intro id hid
    obtain ⟨a, ha, haid, hs⟩ := hl.dispatched id hid
    obtain ⟨a', ha', hf⟩ := h.chain.forward ha
    exact ⟨a', ha', by rw [hf.job_id, haid], hf.not_reserved hs⟩
  rcases h.invocations with e | ⟨row, e, hx, hdb, hx'⟩
  · constructor
    · rw [e]
      exact hkeep
    · rw [e]
      intro row hrow
      cases h with
      | client db exec | login _ _ db _ _ _ exec | confirm ids db _ _ _ exec =>
        rw [exec] at hrow
        exact hl.pending row hrow
      | operate o db idle exec | claim j a db account_id session idle exec
      | settle _ a a' mid advance db job_id holding exec | invoke _ db dispatched exec
      | finishOperation _ db operating exec | crash db exec | recover db settled down exec =>
        rw [exec] at hrow
        cases hrow
      | dispatch row' a a' db job_id reserved dispatched account holding exec =>
        rw [exec] at hrow
        cases hrow
        intro hm
        obtain ⟨b, hb, hbid, hs⟩ := hl.dispatched row.id hm
        rw [Table.eq_of_key hb db.mem (by rw [hbid, job_id])] at hs
        exact hs reserved
    · rw [e]
      exact hl.once
  · constructor
    · rw [e]
      intro id hid
      rcases List.mem_append.mp hid with hid | hid
      · exact hkeep id hid
      · rw [List.mem_singleton] at hid
        subst hid
        obtain ⟨-, a, ha, haid, hs⟩ := hok.exec row .dispatchMayHaveStarted (by rw [hx]; rfl)
        exact ⟨a, by rw [hdb]; exact ha, haid, by rw [hs]; exact nofun⟩
    · rw [hx']
      exact fun _ hrow => by cases hrow
    · rw [e]
      exact List.nodup_append.mpr ⟨hl.once, List.nodup_singleton _, fun x hx1 y hy => by
        rw [List.mem_singleton] at hy
        rintro rfl
        rw [hy] at hx1
        exact hl.pending row hx hx1⟩

theorem logged_reachable (h : w.Reachable host) : w.Logged := by
  have hboth : w.OK host ∧ w.Logged := by
    refine h.induct (I := fun w => w.OK host ∧ w.Logged) ?_ (fun _ _ _ _ hi hs => ⟨hi.1.step hs, hi.2.step hi.1 (hi.1.did hs)⟩)
    rintro s rfl
    exact ⟨ok_reachable (.init rfl), ⟨(fun _ h => nomatch h), (fun _ h => nomatch h), List.nodup_nil⟩⟩
  exact hboth.2

/-! ## lineages -/

/-- every ancestor of a job has ended without being published -/
theorem ancestor_state (hok : db.OK host) {p j : Job} (h : TransGen db.Parent p j) :
    p.state = .failed ∨ p.state = .canceled := by
  obtain ⟨c, hpc, -⟩ := TransGen.head'_iff.mp h
  exact hok.receipts.parent_state hpc

structure DispatchSafe (host : Host) (w : World) : Prop where
  once : (invocations w.log).Nodup
  boundary : ∀ l w', w.Step host l w' → invocations w'.log = invocations w.log ∨
    ∃ id, invocations w'.log = invocations w.log ++ [id] ∧ w'.db = w.db ∧ w.db.HasReceipt id .dispatchMayHaveStarted
  retried : ∀ c ∈ w.db.jobs, ∀ p, c.retry_of = some p → ∃ a ∈ w.db.attempts, a.job_id = p ∧
    (a.state = .responded ∧ (a.result_status = some .failed ∨ a.result_status = some .canceled) ∨
      a.state = .reconciled ∧ a.reconciliation = some .notAccepted)
  lineage : ∀ p j, TransGen w.db.Parent p j → p.state = .failed ∨ p.state = .canceled

/-- **Upload dispatch safety.** -/
theorem dispatchSafe_reachable (h : w.Reachable host) : DispatchSafe host w where
  once := (logged_reachable h).once
  boundary := by
    have hok := ok_reachable h
    intro l w' hs
    rcases (hok.did hs).invocations with e | ⟨row, e, hx, hdb, -⟩
    · exact .inl e
    · exact .inr ⟨row.id, e, hdb, (hok.exec row _ (by rw [hx]; rfl)).2⟩
  retried := by
    intro c hc p hp
    obtain ⟨a, ha, haid, hr⟩ := (ok_reachable h).db.receipts.parents c hc p hp
    simp only [Attempt.isRetryable, Bool.or_eq_true, Bool.and_eq_true, beq_iff_eq] at hr
    exact ⟨a, ha, haid, hr.imp id (fun h => h.1)⟩
  lineage := fun _ _ hp => ancestor_state (ok_reachable h).db hp

end

/-! ## a run -/

/-- ASCII letters and digits, and the characters of the filler -/
def plainAlnum (c : Char) : Bool := isAlnumAscii c || "精彩内容分享视频".toList.contains c

theorem plainAlnum_not_space (c : Char) (h : plainAlnum c = true) : Text.isSpace c = false := by
  have hspace : 48 ≤ c.toNat ∧ c.toNat ≤ 122 ∨ 0x4E00 ≤ c.toNat → Text.isSpace c = false := by
    intro hr
    simp only [Text.isSpace, Bool.or_eq_false_iff, Bool.and_eq_false_iff, decide_eq_false_iff_not,
      beq_eq_false_iff_ne]
    omega
  have hle : ∀ {a b : Char}, a ≤ b → a.toNat ≤ b.toNat := fun h => h
  simp only [plainAlnum, isAlnumAscii, isLowerAscii, isDigitAscii, Bool.or_eq_true, Bool.and_eq_true,
    decide_eq_true_eq] at h
  rcases h with ((h | h) | h) | h
  · exact hspace (.inl ⟨Nat.le_trans (by decide) (hle h.1), Nat.le_trans (hle h.2) (by decide)⟩)
  · exact hspace (.inl ⟨Nat.le_trans (by decide) (hle h.1), Nat.le_trans (hle h.2) (by decide)⟩)
  · exact hspace (.inl ⟨Nat.le_trans (by decide) (hle h.1), Nat.le_trans (hle h.2) (by decide)⟩)
  · have hall : "精彩内容分享视频".toList.all (fun d => 0x4E00 ≤ d.toNat) = true := by decide
    exact hspace (.inr (of_decide_eq_true (List.all_eq_true.mp hall c (by simpa using h))))

def plainHost : Host where
  unicode := ⟨plainAlnum, plainAlnum_not_space, by decide, by decide, List.all_eq_true.mp (by decide)⟩
  sha256
    | .request .. => 1
    | .job .. => 2
    | .legacy .. => 3
    | .cancellation .. => 4

/-- every file is there, and the backend is ready -/
def plainEnv : Env where
  now := 1700000000
  ready := true
  source_file _ := none
  cover_file _ := none
  landscape_ratio _ := true
  portrait_ratio _ := true
  runtime := some
    ⟨"1.0.0+build.sha256.0123456789abcdef0123456789abcdef0123456789abcdef0123456789abcdef", "social-auto-upload",
      "0012d2c355f88f683cc38dde2a2db209e14091bc"⟩

/-- one video for one account -/
def plainIntent : UploadIntent where
  source_id := 4
  account_ids := [1]
  title := .str "a title".toList
  description := .str []
  tags := .list []
  category_id := .none
  mode := .str "publish".toList
  copyright := .none
  source_credit := .str []
  target_overrides := []

/-- an account logs in, and its first upload gets as far as the backend -/
def firstUpload : List Label :=
  [.recover 0, .addAccount .douyin (.str "name".toList) 1, .accountAction plainEnv 1 .login 2, .claim plainEnv 3,
    .finishOperation (.result ⟨"ready", "login_ready", none⟩) false, .importSource 4 0,
    .createJobs plainEnv plainIntent "request_1" none (fun i => 5 + i), .confirm plainEnv 5, .claim plainEnv 6,
    .markUploadDispatch plainEnv 0, .invokeUpload]

/-- the upload fails, and is retried -/
def failedUpload : List Label :=
  firstUpload ++ [.finishUpload (.result ⟨"failed", "upload_failed", none⟩) 1, .retry plainEnv 5 7]

set_option synthInstance.maxSize 256 in
/-- what is stored after it -/
theorem failedUpload_run : ∃ w, World.initial.run plainHost failedUpload = some w ∧ invocations w.log = [5] ∧
    w.db.jobs.rows.map (fun r => (r.id, r.retry_of)) = [(5, none), (7, some 5)] ∧
    w.db.attempts.rows.map Attempt.state = [.responded] ∧
    w.db.requests.rows.map (fun q => (q.id, q.job_ids)) = [("request_1", [5])] := by
  have hrun : (World.initial.run plainHost failedUpload).map (fun w => (invocations w.log,
      w.db.jobs.rows.map (fun r => (r.id, r.retry_of)), w.db.attempts.rows.map Attempt.state,
      w.db.requests.rows.map (fun q => (q.id, q.job_ids)))) =
        some ([5], [(5, none), (7, some 5)], [.responded], [("request_1", [5])]) := by decide +kernel
  obtain ⟨w, hw, hs⟩ := Option.map_eq_some_iff.mp hrun
  simp only [Prod.mk.injEq] at hs
  exact ⟨w, hw, hs⟩

/-- a lineage of two jobs, of which the first one was dispatched -/
theorem dispatchSafe_retried : ∃ w : World, (invocations w.log, w.db.jobs.rows.map (fun r => (r.id, r.retry_of))) =
    ([5], [(5, none), (7, some 5)]) ∧ DispatchSafe plainHost w := by
  obtain ⟨w, hw, hlog, hjobs, -⟩ := failedUpload_run
  exact ⟨w, by rw [hlog, hjobs], dispatchSafe_reachable (World.reachable_run plainHost hw)⟩

end OpenFlame.Upload
