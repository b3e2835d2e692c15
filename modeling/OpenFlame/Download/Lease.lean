import OpenFlame.Download.LeaseInv

/-!
# What a worker does with its lease

`heartbeat`, `transition`, `recordProbe` renew a lease and report progress.
`finishAttempt`, `finishCanceledLocked` end it.

`LeaseEnded` says what ending a lease does; every `finish..` transaction is shown to be one.
-/

set_option linter.all false

namespace OpenFlame.Download
open Guard

/-- `id = ? AND lease_token = ? AND lease_expires_at > ?` -/
def JobLease.holds (lease : JobLease) (now_text : Time) (j : Job) : Bool :=
  Job.leased lease.job_id lease.lease_token now_text j

/-- `.. AND status IN ('probing', 'downloading', 'postprocessing', 'verifying')` -/
def JobLease.holdsActive (lease : JobLease) (now_text : Time) (j : Job) : Bool :=
  lease.holds now_text j && j.status.isActive

theorem JobLease.holds_iff {lease : JobLease} {now : Time} {j : Job} :
    lease.holds now j = true ↔ j.id = lease.job_id ∧ j.lease_token = some lease.lease_token ∧
      ∃ e, j.lease_expires_at = some e ∧ now < e := by
  unfold holds Job.leased
  cases j.lease_expires_at <;> simp [and_assoc]

theorem JobLease.holdsActive_iff {lease : JobLease} {now : Time} {j : Job} :
    lease.holdsActive now j = true ↔ lease.holds now j = true ∧ j.status.isActive = true := by
  rw [holdsActive, Bool.and_eq_true]

/-! ## renewing -/

/-- `heartbeat` -/
def heartbeat (db : DB) (lease : JobLease) (now : Clock) (lease_seconds : Int) : Txn (DB × Bool) := do
  require (10 ≤ lease_seconds) (.valueError "lease_seconds must be at least 10")
  let now_text := utcText now
  let expires_text := utcText (now + seconds lease_seconds)
  let row ← fetch (db.jobs.find (lease.holdsActive now_text)) (.lostLease lease.job_id)
  return ({ db with
    jobs := db.jobs.update (lease.holdsActive now_text) (fun j =>
      { j with
        heartbeat_at := some now_text
        lease_expires_at := some expires_text
        updated_at := now_text }) },
    row.cancel_requested_at.isSome)

/-- `_transition_allowed` -/
def transitionAllowed (current target : JobStatus) : Bool :=
  current == target ||
    match current, target with
    | .probing, .downloading => true
    | .downloading, .postprocessing => true
    | .downloading, .verifying => true
    | .postprocessing, .verifying => true
    | _, _ => false

/-- `transition` -/
def transition (db : DB) (lease : JobLease) (status : JobStatus) (progress : ℚ) (now : Clock)
    (lease_seconds : Int) : Txn DB := do
  require (status.isActive = true) (.invalidTransition ("worker cannot transition directly to " ++ status.value))
  require (0 ≤ progress ∧ progress ≤ 1) (.valueError "progress must be between 0 and 1")
  require (10 ≤ lease_seconds) (.valueError "lease_seconds must be at least 10")
  let now_text := utcText now
  let expires_text := utcText (now + seconds lease_seconds)
  let current ← fetch (db.jobs.find (lease.holds now_text)) (.lostLease lease.job_id)
  require (current.status.isActive = true) (.lostLease lease.job_id)
  require (transitionAllowed current.status status = true)
    (.invalidTransition (current.status.value ++ " -> " ++ status.value))
  require (current.progress ≤ progress) (.invalidTransition "progress cannot decrease")
  require (db.jobs.count (lease.holds now_text) = 1) (.lostLease lease.job_id)
  return { db with
    jobs := db.jobs.update (lease.holds now_text) (fun j =>
      { j with
        status := status
        progress := progress
        heartbeat_at := some now_text
        lease_expires_at := some expires_text
        updated_at := now_text }) }

/-- `id = ? AND lease_token = ? AND status = 'running'` -/
def JobLease.attempts (lease : JobLease) (a : Attempt) : Bool :=
  a.id == lease.attempt_id && a.lease_token == lease.lease_token && a.status == .running

theorem JobLease.attempts_iff {lease : JobLease} {a : Attempt} : lease.attempts a = true ↔
    a.id = lease.attempt_id ∧ a.lease_token = lease.lease_token ∧ a.status = .running := by
  simp [attempts, and_assoc]

/-- `record_probe` (the sanitized title, author and date of the source are columns nothing reads) -/
def recordProbe (db : DB) (lease : JobLease) (expected_item_count : Nat)
    (discovery_snapshot_hash : String) (now : Clock) : Txn DB := do
  require (1 ≤ expected_item_count) (.valueError "probe must discover at least one item")
  let now_text := utcText now
  let job ← fetch (db.jobs.find (fun j => lease.holds now_text j && j.status == .probing))
    (.lostLease lease.job_id)
  require (db.attempts.count lease.attempts = 1) (.lostLease lease.job_id)
  return { db with
    inputs := db.inputs.update (fun i => i.id == job.input_record_id) (fun i =>
      { i with expected_item_count := some expected_item_count })
    attempts := db.attempts.update lease.attempts (fun a =>
      { a with
        discovered_item_count := some expected_item_count
        discovery_snapshot_hash := some discovery_snapshot_hash }) }

section
variable {may : Id → Id → Prop} {db db' : DB} {lease : JobLease} {now : Clock} {secs : Int}

theorem renewJobs_chain {X B : Set Id} {jobs} (h : db.jobs.Evolves Job.Renewed jobs) :
    Chain may ⟨db, X, B⟩ ⟨{ db with jobs }, X, B⟩ :=
  .single (Move.renew h (Table.Evolves.refl (fun a _ => ⟨.refl a, rfl⟩))
    (Table.Evolves.refl (fun i _ => .refl i)))

theorem heartbeat_chain {canceled : Bool} (h : heartbeat db lease now secs = .ok (db', canceled)) :
    Chain may db.settled db'.settled := by
  simp only [heartbeat, bind_eq_ok, require_eq_ok, fetch_eq_ok, pure_eq_ok, Prod.mk.injEq] at h
  obtain ⟨-, -, row, -, rfl, -⟩ := h
  refine renewJobs_chain (Table.Evolves.update_where (fun j _ => .refl j) (fun j _ _ => ?_))
  exact ⟨⟨rfl, rfl, rfl, rfl, rfl, rfl, rfl⟩, ⟨rfl, rfl⟩, .inl rfl, rfl, fun _ => rfl⟩

theorem transition_chain {status : JobStatus} {progress : ℚ}
    (h : transition db lease status progress now secs = .ok db') :
    Chain may db.settled db'.settled := by
  simp only [transition, bind_eq_ok, require_eq_ok, fetch_eq_ok, pure_eq_ok] at h
  obtain ⟨-, hstatus, -, -, -, -, current, hcur, -, hactive, -, -, -, -, -, hcount, rfl⟩ := h
  obtain ⟨hcmem, hcur⟩ := Table.find_some hcur
  refine renewJobs_chain (Table.Evolves.update_where (fun j _ => .refl j) (fun j hj hp => ?_))
  -- the row the update meets is the row that was read
  have hjc : j = current := by
    refine Table.eq_of_key hj hcmem ?_
    rw [(JobLease.holds_iff.mp hp).1, (JobLease.holds_iff.mp hcur).1]
  subst hjc
  exact ⟨⟨rfl, rfl, rfl, rfl, rfl, rfl, rfl⟩, ⟨rfl, rfl⟩, .inr ⟨hactive, hstatus⟩, rfl, fun _ => rfl⟩

theorem recordProbe_chain {n : Nat} {s : String} (h : recordProbe db lease n s now = .ok db') :
    Chain may db.settled db'.settled := by
  simp only [recordProbe, bind_eq_ok, require_eq_ok, fetch_eq_ok, pure_eq_ok] at h
  obtain ⟨-, -, job, -, -, -, rfl⟩ := h
  refine .single (Move.renew (Table.Evolves.refl (fun j _ => .refl j)) ?_ ?_)
  · exact Table.Evolves.update_where (fun a _ => ⟨.refl a, rfl⟩) (fun a _ _ => ⟨⟨rfl, rfl, rfl, rfl⟩, rfl⟩)
  · exact Table.Evolves.update_where (fun i _ => .refl i) (fun i _ _ => ⟨⟨rfl, rfl⟩, rfl, rfl, rfl, rfl⟩)

end

/-! ## ending -/

/-- `_finish_attempt` -/
def finishAttempt (db : DB) (lease : JobLease) (status : AttemptStatus) (now_text : Time)
    (error_code : Option ErrorCode) (diagnostic : Option String) (exit_code : Option Int) : Txn DB := do
  require (db.attempts.count lease.attempts = 1) (.lostLease lease.job_id)
  return { db with
    attempts := db.attempts.update lease.attempts (fun a =>
      { a with
        status := status
        finished_at := some now_text
        error_code := error_code
        diagnostic := diagnostic
        exit_code := exit_code }) }

/-- `_finish_canceled_locked` -/
def finishCanceledLocked (db : DB) (lease : JobLease) (now_text : Time) : Txn DB := do
  let db := releaseHalfOpenLocked db lease.job_id lease.lease_token now_text
  require (db.jobs.count (lease.holdsActive now_text) = 1) (.lostLease lease.job_id)
  let db := { db with
    jobs := db.jobs.update (lease.holdsActive now_text) (fun j =>
      { j with
        status := .canceled
        final_error_code := none
        lease_owner := none
        lease_token := none
        heartbeat_at := none
        lease_expires_at := none
        available_at := some now_text
        updated_at := now_text }) }
  let db ← finishAttempt db lease .canceled now_text none none none
  markInputAndRefreshBatch db lease.job_id .canceled none none now_text

/-- `id = ? AND lease_token = ? AND status = 'verifying' AND cancel_requested_at IS NULL
AND lease_expires_at > ?` -/
def JobLease.holdsVerified (lease : JobLease) (now_text : Time) (j : Job) : Bool :=
  lease.holds now_text j && j.status == .verifying && j.cancel_requested_at.isNone

/-- lease `(k, t)` ended with job status `st`; the chain starts at `db`, with the assets `media` of a
success already inserted -/
structure LeaseEnded (may : Id → Id → Prop) (db db' : DB) (k t : Id) (st : JobStatus) : Prop where
  chain : Chain may db.settled db'.settled
  job : ∃ j ∈ db.jobs, j.id = k ∧ j.status.isActive = true ∧ j.lease_token = some t ∧
    (st = .canceled ∨ j.cancel_requested_at = none)
  job' : ∃ j ∈ db'.jobs, j.id = k ∧ j.status = st
  closed : ∀ a ∈ db'.attempts, a.lease_token = t → a.status ≠ .running
  intents : ∀ i ∈ db'.intents, i ∈ db.intents

section
variable {may : Id → Id → Prop} {db db' : DB} {lease : JobLease} {now : Time}

theorem finishAttempt_spec {db₁ : DB} {st : AttemptStatus} {e : Option ErrorCode} {d : Option String}
    {x : Option Int} (h : finishAttempt db lease st now e d x = .ok db₁) (hst : st ≠ .running)
    (htokens : ∀ a ∈ db.attempts, ∀ b ∈ db.attempts, a.lease_token = b.lease_token → a = b) :
    ∃ attempts, db₁ = { db with attempts } ∧
      db.attempts.Evolves (Attempt.Closed lease.lease_token) attempts ∧
      ∃ a ∈ db.attempts, a.id = lease.attempt_id ∧ a.lease_token = lease.lease_token ∧
        a.status = .running := by
  simp only [finishAttempt, bind_eq_ok, require_eq_ok, pure_eq_ok] at h
  obtain ⟨-, hcount, rfl⟩ := h
  obtain ⟨a, ha, hid, hp, -⟩ := Table.rowcount_one hcount (fun r hr => (JobLease.attempts_iff.mp hr).1)
  obtain ⟨-, hat, hrun⟩ := JobLease.attempts_iff.mp hp
  refine ⟨_, rfl, Table.Evolves.update (fun b hb => ?_), a, ha, hid, hat, hrun⟩
  cases hpb : lease.attempts b with
  | true =>
    rw [Table.upd_pos hpb]
    exact ⟨⟨rfl, rfl, rfl, rfl⟩, .inr ⟨(JobLease.attempts_iff.mp hpb).2.1, hst⟩⟩
  | false =>
    rw [Table.upd_neg hpb]
    refine ⟨.refl b, .inl ⟨rfl, fun hrb hbt => ?_⟩⟩
    -- only one attempt carries the token, and that one was updated
    have hba := htokens b hb a ha (hbt.trans hat.symm)
    rw [hba, hp] at hpb
    cases hpb

theorem Closed.not_running {t : Id} {as as' : Table Attempt Attempt.id}
    (h : as.Evolves (Attempt.Closed t) as') :
    ∀ a ∈ as', a.lease_token = t → a.status ≠ .running := by
  intro a' ha' hat hrun
  obtain ⟨a, ha, hs, ⟨rfl, hne⟩ | ⟨-, hstop⟩⟩ := h.old ha'
  · exact hne hrun hat
  · exact hstop hrun

/-- ending a lease, then marking the job, with the circuit released and the assets registered -/
theorem leaseEnded_of_writes {j : Job} {t : Id} {st : JobStatus} (hterminal : st.isTerminal = true)
    (hj : j ∈ db.jobs) (hactive : j.status.isActive = true) (ht : j.lease_token = some t)
    (hcancel : st = .canceled ∨ j.cancel_requested_at = none)
    {jobs attempts circuits media jobAssets} (hjobs : db.jobs.Evolves (Only (Job.Ended st) j) jobs)
    (hattempts : db.attempts.Evolves (Attempt.Closed t) attempts)
    (hcircuits : Released db.circuits circuits (db.platformOf j) j.id t)
    (hmedia : ∀ m ∈ media, m ∈ db.media ∨
      st = .ready ∧ ∃ a ∈ db.attempts, may m.id a.id ∧ a.lease_token = t)
    {s₀ : InputStatus} {e₀ : Option ErrorCode} {m₀ : Option String} {n : Time}
    (h : markInputAndRefreshBatch { db with jobs, attempts, circuits, media, jobAssets } j.id s₀ e₀ m₀ n
      = .ok db') :
    LeaseEnded may db db' j.id t st ∧ db'.media = media := by
  obtain ⟨j', hj', hid, i, hi, hin, hchain, inputs, batches, rfl⟩ := markInput_chain may h
  obtain ⟨r, hr, ⟨rfl, he⟩ | ⟨hne, rfl⟩⟩ := hjobs.old hj'
  · have hside : Move may db.settled { db with jobAssets }.settled :=
      Move.side db.targets db.discoveries db.relations jobAssets db.credentials db.queue
    have hend : Move may { db with jobAssets }.settled
        ⟨{ db with jobs, attempts, circuits, media, jobAssets }, insert r.input_record_id ∅, ∅⟩ :=
      Move.endLease r t st hj hactive ht (.inr ⟨hterminal, rfl⟩) hcancel hjobs hattempts hcircuits hmedia
    have hmark := hchain (insert r.input_record_id ∅) ∅
      (by rw [hin, he.input]; exact Set.insert_subset rfl (Set.empty_subset _)) (Set.empty_subset _)
    exact ⟨⟨.head hside (.head hend hmark), ⟨r, hj, rfl, hactive, ht, hcancel⟩,
      ⟨j', hj', he.id, he.status⟩, Closed.not_running hattempts, fun _ hi => hi⟩, rfl⟩
  · exact absurd (Table.eq_of_key hr hj hid) hne

theorem LeaseEnded.forget {k t : Id} {st : JobStatus} {intents} (h : LeaseEnded may db db' k t st)
    (hi : ∀ i ∈ intents, i ∈ db'.intents) : LeaseEnded may db { db' with intents } k t st where
  chain := h.chain.tail (Move.intents (fun i hii => ⟨i, hi i hii, rfl, rfl, rfl, rfl⟩))
  job := h.job
  job' := h.job'
  closed := h.closed
  intents := fun i hii => h.intents i (hi i hii)

/-- the row an `UPDATE .. WHERE id = ? AND lease_token = ? ..` meets -/
theorem held_row (db : DB) {p : Job → Bool} (hcount : db.jobs.count p = 1)
    (hp : ∀ j, p j = true → lease.holds now j = true) :
    ∃ j ∈ db.jobs, j.id = lease.job_id ∧ j.lease_token = some lease.lease_token ∧ p j = true ∧
      ∀ s ∈ db.jobs, p s = true ↔ s.id = j.id := by
  obtain ⟨j, hj, hid, hpj, hone⟩ := Table.rowcount_one hcount
    (fun r hr => (JobLease.holds_iff.mp (hp r hr)).1)
  exact ⟨j, hj, hid, (JobLease.holds_iff.mp (hp j hpj)).2.1, hpj, hone⟩

theorem only_update {R : Job → Job → Prop} {p : Job → Bool} {f : Job → Job} {j : Job} {jobs}
    (hj : j ∈ db.jobs) (hone : ∀ s ∈ db.jobs, p s = true ↔ s.id = j.id)
    (hjobs : jobs.rows = db.jobs.rows.map (Table.upd p f)) (hR : R j (f j)) :
    db.jobs.Evolves (Only R j) jobs := by
  refine Table.Evolves.of_rows hjobs (fun r hr => ?_)
  by_cases h : r = j
  · subst h
    exact .inl ⟨rfl, by rw [Table.upd_pos ((hone r hr).mpr rfl)]; exact hR⟩
  · have hp : p r = false := by
      rw [Bool.eq_false_iff]
      exact fun hp => h (Table.eq_of_key hr hj ((hone r hr).mp hp))
    exact .inr ⟨h, Table.upd_neg hp⟩

/-- the rows other than the one that evolves -/
theorem only_others {R : Job → Job → Prop} {j : Job} {jobs} (h : db.jobs.Evolves (Only R j) jobs) :
    ∀ r ∈ db.jobs, r ≠ j → r ∈ jobs := by
  intro r hr hne
  obtain ⟨r', hr', ⟨he, -⟩ | ⟨-, rfl⟩⟩ := h.new hr
  · exact absurd he hne
  · exact hr'

/-- `_finish_canceled_locked` ends the lease with `canceled` -/
theorem finishCanceledLocked_spec (may : Id → Id → Prop) (h : finishCanceledLocked db lease now = .ok db')
    (hinv : db.LeaseOK) :
    LeaseEnded may db db' lease.job_id lease.lease_token .canceled ∧ db'.media = db.media ∧
      ∃ a ∈ db.attempts, a.id = lease.attempt_id ∧ a.lease_token = lease.lease_token ∧
        a.status = .running := by
  simp only [finishCanceledLocked, bind_eq_ok, require_eq_ok] at h
  obtain ⟨-, hcount, db₁, hfin, hmark⟩ := h
  have hcount : db.jobs.count (lease.holdsActive now) = 1 := hcount
  obtain ⟨j, hj, hid, ht, hp, hone⟩ := held_row db hcount (fun j hj => (JobLease.holdsActive_iff.mp hj).1)
  obtain ⟨attempts, rfl, hattempts, hrunning⟩ := finishAttempt_spec hfin (by decide) hinv.tokens
  rw [← hid] at hmark ⊢
  have hreleased := releaseHalfOpen_released db (db.platformOf j) j.id lease.lease_token now
  rw [← and_assoc]
  refine ⟨leaseEnded_of_writes rfl hj (JobLease.holdsActive_iff.mp hp).2 ht (.inl rfl) ?_ hattempts
    hreleased (fun m hm => .inl hm) hmark, hrunning⟩
  exact only_update hj hone rfl ⟨⟨rfl, rfl, rfl, rfl, rfl, rfl, rfl⟩, ⟨rfl, rfl⟩, rfl, rfl⟩

end

end OpenFlame.Download
