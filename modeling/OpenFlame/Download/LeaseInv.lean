import OpenFlame.Download.Moves

/-!
# The lease invariant

`LeaseInv jobs attempts`: a job is active exactly while it holds a lease token, a running attempt
carries that token and the generation of its job, and both attempt counters count attempt rows.

`LeaseInv.move`, `LeaseInv.regen`: **every move and every new generation keeps it.**
-/

set_option linter.all false

namespace OpenFlame.Download
open Table

structure LeaseInv (jobs : Table Job Job.id) (attempts : Table Attempt Attempt.id) : Prop where
  leased : ∀ j ∈ jobs, j.status.isActive = true ↔ j.lease_token.isSome = true
  running : ∀ j ∈ jobs, ∀ t, j.lease_token = some t → ∃ a ∈ attempts,
    a.job_id = j.id ∧ a.status = .running ∧ a.lease_token = t ∧ a.run_generation = j.run_generation
  owned : ∀ a ∈ attempts, a.status = .running →
    ∃ j ∈ jobs, j.id = a.job_id ∧ j.lease_token = some a.lease_token
  known : ∀ a ∈ attempts, ∃ j ∈ jobs, j.id = a.job_id ∧ a.run_generation ≤ j.run_generation
  tokens : ∀ a ∈ attempts, ∀ b ∈ attempts, a.lease_token = b.lease_token → a = b
  total : ∀ j ∈ jobs, j.attempt_count = attempts.count (fun a => a.job_id == j.id)
  current : ∀ j ∈ jobs, j.generation_attempt_count =
    attempts.count (fun a => a.job_id == j.id && a.run_generation == j.run_generation)
  bounded : ∀ j ∈ jobs, j.generation_attempt_count ≤ MAX_ATTEMPTS
  queued : ∀ j ∈ jobs, j.status = .queued → j.generation_attempt_count < MAX_ATTEMPTS

/-- the lease invariant of a store -/
abbrev DB.LeaseOK (db : DB) : Prop := LeaseInv db.jobs db.attempts

theorem LeaseInv.empty : LeaseInv ∅ ∅ := by
  constructor <;> intro r hr <;> exact absurd hr (not_mem_empty r)

section
variable {jobs jobs' : Table Job Job.id} {attempts attempts' : Table Attempt Attempt.id}

/-- a running attempt holds the token of the job it belongs to -/
theorem LeaseInv.running_job (h : LeaseInv jobs attempts) {a : Attempt} (ha : a ∈ attempts)
    (hr : a.status = .running) {j : Job} (hj : j ∈ jobs) (hid : j.id = a.job_id) :
    j.lease_token = some a.lease_token := by
  obtain ⟨j', hj', hid', ht⟩ := h.owned a ha hr
  rw [eq_of_key hj hj' (hid.trans hid'.symm)]
  exact ht

/-- the attempt with the token of a job is running and belongs to that job -/
theorem LeaseInv.of_token (h : LeaseInv jobs attempts) {j : Job} (hj : j ∈ jobs) {t : Id}
    (ht : j.lease_token = some t) {a : Attempt} (ha : a ∈ attempts) (hat : a.lease_token = t) :
    a.job_id = j.id ∧ a.status = .running ∧ a.run_generation = j.run_generation := by
  obtain ⟨b, hb, hjob, hr, hbt, hg⟩ := h.running j hj t ht
  rw [h.tokens a ha b hb (hat.trans hbt.symm)]
  exact ⟨hjob, hr, hg⟩

/-- two jobs never hold the same token -/
theorem LeaseInv.job_of_token (h : LeaseInv jobs attempts) {j r : Job} (hj : j ∈ jobs) (hr : r ∈ jobs)
    {t : Id} (hjt : j.lease_token = some t) (hrt : r.lease_token = some t) : r = j := by
  obtain ⟨a, ha, hjob, -, hat, -⟩ := h.running j hj t hjt
  have hown := (h.of_token hr hrt ha hat).1
  exact eq_of_key hr hj (hown.symm.trans hjob)

/-- rows that keep their identity and counters: only what leases say has to be checked again -/
theorem LeaseInv.evolve (h : LeaseInv jobs attempts) {R : Job → Job → Prop}
    {S : Attempt → Attempt → Prop} (hj : jobs.Evolves R jobs') (ha : attempts.Evolves S attempts')
    (hR : ∀ j j', R j j' → Job.Same j j' ∧ Job.SameCounts j j')
    (hS : ∀ a a', S a a' → Attempt.Same a a')
    (leased : ∀ j ∈ jobs', j.status.isActive = true ↔ j.lease_token.isSome = true)
    (running : ∀ j ∈ jobs', ∀ t, j.lease_token = some t → ∃ a ∈ attempts',
      a.job_id = j.id ∧ a.status = .running ∧ a.lease_token = t ∧ a.run_generation = j.run_generation)
    (owned : ∀ a ∈ attempts', a.status = .running →
      ∃ j ∈ jobs', j.id = a.job_id ∧ j.lease_token = some a.lease_token)
    (queued : ∀ j ∈ jobs', j.status = .queued → j.generation_attempt_count < MAX_ATTEMPTS) :
    LeaseInv jobs' attempts' where
  leased := leased
  running := running
  owned := owned
  known := by
    intro a' ha'
    obtain ⟨a, haa, hs⟩ := ha.old ha'
    have hsame := hS a a' hs
    obtain ⟨j, hjj, hid, hg⟩ := h.known a haa
    obtain ⟨j', hj', hr⟩ := hj.new hjj
    have hkeep := (hR j j' hr).1
    exact ⟨j', hj', by rw [hkeep.id, hid, hsame.job], by rw [hkeep.generation, hsame.generation]; exact hg⟩
  tokens := by
    intro a' ha' b' hb' ht
    obtain ⟨a, haa, hsa⟩ := ha.old ha'
    obtain ⟨b, hbb, hsb⟩ := ha.old hb'
    have ea := hS a a' hsa
    have eb := hS b b' hsb
    have hab : a = b := h.tokens a haa b hbb (by rw [← ea.token, ← eb.token]; exact ht)
    exact eq_of_key ha' hb' (by rw [ea.id, eb.id, hab])
  total := by
    intro j' hj'
    obtain ⟨j, hjj, hr⟩ := hj.old hj'
    obtain ⟨hsame, hcounts⟩ := hR j j' hr
    rw [hcounts.attempts, h.total j hjj]
    refine (ha.count (fun a a' hs => ?_)).symm
    rw [(hS a a' hs).job, hsame.id]
  current := by
    intro j' hj'
    obtain ⟨j, hjj, hr⟩ := hj.old hj'
    obtain ⟨hsame, hcounts⟩ := hR j j' hr
    rw [hcounts.current, h.current j hjj]
    refine (ha.count (fun a a' hs => ?_)).symm
    have e := hS a a' hs
    rw [e.job, e.generation, hsame.id, hsame.generation]
  bounded := by
    intro j' hj'
    obtain ⟨j, hjj, hr⟩ := hj.old hj'
    rw [(hR j j' hr).2.current]
    exact h.bounded j hjj
  queued := queued

theorem LeaseInv.renew (h : LeaseInv jobs attempts) (hj : jobs.Evolves Job.Renewed jobs')
    (ha : attempts.Evolves (fun a a' => Attempt.Same a a' ∧ a'.status = a.status) attempts') :
    LeaseInv jobs' attempts' := by
  refine h.evolve hj ha (fun _ _ hr => ⟨hr.toSame, hr.toSameCounts⟩) (fun _ _ hs => hs.1) ?_ ?_ ?_ ?_
  · intro j' hj'
    obtain ⟨j, hjj, hr⟩ := hj.old hj'
    rw [hr.token, ← h.leased j hjj]
    rcases hr.status with hs | ⟨hs, hs'⟩
    · rw [hs]
    · simp [hs, hs']
  · intro j' hj' t ht
    obtain ⟨j, hjj, hr⟩ := hj.old hj'
    obtain ⟨a, haa, hjob, hrun, hat, hg⟩ := h.running j hjj t (by rw [← hr.token]; exact ht)
    obtain ⟨a', ha', hs, hst⟩ := ha.new haa
    refine ⟨a', ha', ?_, by rw [hst, hrun], by rw [hs.token, hat], ?_⟩
    · rw [hs.job, hjob, hr.id]
    · rw [hs.generation, hg, hr.generation]
  · intro a' ha' hrun
    obtain ⟨a, haa, hs, hst⟩ := ha.old ha'
    obtain ⟨j, hjj, hid, ht⟩ := h.owned a haa (by rw [← hst]; exact hrun)
    obtain ⟨j', hj', hr⟩ := hj.new hjj
    exact ⟨j', hj', by rw [hr.id, hid, hs.job], by rw [hr.token, ht, hs.token]⟩
  · intro j' hj' hq
    obtain ⟨j, hjj, hr⟩ := hj.old hj'
    rw [hr.current]
    rcases hr.status with hs | ⟨-, hs'⟩
    · exact h.queued j hjj (by rw [← hs]; exact hq)
    · rw [hq] at hs'
      cases hs'

theorem LeaseInv.drop (h : LeaseInv jobs attempts) {k : Id}
    (hj : jobs.Evolves (fun r r' => r' = r ∨
      r.input_record_id = k ∧ r.status = .queued ∧ Job.Dropped r r') jobs') :
    LeaseInv jobs' attempts := by
  -- a dropped job held no token, so every token is where it was
  have htoken : ∀ j ∈ jobs, ∀ j', (j' = j ∨ j.input_record_id = k ∧ j.status = .queued ∧
      Job.Dropped j j') → j'.lease_token = j.lease_token := by
    rintro j hjj j' (rfl | ⟨-, hq, hd⟩)
    · rfl
    · have hnone : j.lease_token = none := by
        have hl := h.leased j hjj
        rw [hq] at hl
        simpa [JobStatus.isActive] using hl
      rcases hd.token with ht | ht
      · rw [ht, hnone]
      · exact ht
  refine h.evolve hj (Evolves.refl (fun a _ => Attempt.Same.refl a)) ?_ (fun _ _ hs => hs) ?_ ?_ ?_ ?_
  · rintro j j' (rfl | ⟨-, -, hd⟩)
    · exact ⟨.refl _, ⟨rfl, rfl⟩⟩
    · exact ⟨hd.toSame, hd.toSameCounts⟩
  · intro j' hj'
    obtain ⟨j, hjj, hr⟩ := hj.old hj'
    rw [htoken j hjj j' hr, ← h.leased j hjj]
    rcases hr with rfl | ⟨-, hq, hd⟩
    · rfl
    · rcases hd.status with hs | hs <;> simp [hq, hs, JobStatus.isActive]
  · intro j' hj' t ht
    obtain ⟨j, hjj, hr⟩ := hj.old hj'
    rw [htoken j hjj j' hr] at ht
    obtain ⟨a, ha, hjob, hrun, hat, hg⟩ := h.running j hjj t ht
    rcases hr with rfl | ⟨-, -, hd⟩
    · exact ⟨a, ha, hjob, hrun, hat, hg⟩
    · exact ⟨a, ha, by rw [hjob, hd.id], hrun, hat, by rw [hg, hd.generation]⟩
  · intro a ha hrun
    obtain ⟨j, hjj, hid, ht⟩ := h.owned a ha hrun
    obtain ⟨j', hj', hr⟩ := hj.new hjj
    refine ⟨j', hj', ?_, by rw [htoken j hjj j' hr, ht]⟩
    rcases hr with rfl | ⟨-, -, hd⟩
    · exact hid
    · rw [hd.id, hid]
  · intro j' hj' hq
    obtain ⟨j, hjj, hr⟩ := hj.old hj'
    rcases hr with rfl | ⟨-, -, hd⟩
    · exact h.queued _ hjj hq
    · rcases hd.status with hs | hs <;> rw [hs] at hq <;> cases hq

theorem LeaseInv.endLease (h : LeaseInv jobs attempts) {j : Job} {t : Id} {st : JobStatus}
    (hjj : j ∈ jobs) (ht : j.lease_token = some t)
    (hst : st = .queued ∧ j.generation_attempt_count < MAX_ATTEMPTS ∨ st.isTerminal = true)
    (hj : jobs.Evolves (Only (Job.Ended st) j) jobs')
    (ha : attempts.Evolves (Attempt.Closed t) attempts') :
    LeaseInv jobs' attempts' := by
  have hinactive : st.isActive = false := by
    rcases hst with ⟨rfl, -⟩ | hst
    · rfl
    · cases st <;> first | rfl | cases hst
  refine h.evolve hj ha ?_ (fun _ _ hs => hs.1) ?_ ?_ ?_ ?_
  · rintro r r' (⟨rfl, he⟩ | ⟨-, rfl⟩)
    · exact ⟨he.toSame, he.toSameCounts⟩
    · exact ⟨.refl _, ⟨rfl, rfl⟩⟩
  · intro r' hr'
    obtain ⟨r, hrr, hr⟩ := hj.old hr'
    rcases hr with ⟨rfl, he⟩ | ⟨-, rfl⟩
    · simp [he.status, he.token, hinactive]
    · exact h.leased _ hrr
  · intro r' hr' u hu
    obtain ⟨r, hrr, hr⟩ := hj.old hr'
    rcases hr with ⟨rfl, he⟩ | ⟨hne, rfl⟩
    · rw [he.token] at hu
      cases hu
    · obtain ⟨a, haa, hjob, hrun, hat, hg⟩ := h.running _ hrr u hu
      obtain ⟨a', ha', hs, hcase⟩ := ha.new haa
      rcases hcase with ⟨rfl, -⟩ | ⟨hclosed, -⟩
      · exact ⟨a', ha', hjob, hrun, hat, hg⟩
      · exact absurd (h.job_of_token hjj hrr ht (by rw [hu, ← hat, hclosed])) hne
  · intro a' ha' hrun
    obtain ⟨a, haa, hs, hcase⟩ := ha.old ha'
    rcases hcase with ⟨rfl, hne⟩ | ⟨-, hstop⟩
    · obtain ⟨r, hrr, hid, hrt⟩ := h.owned _ haa hrun
      obtain ⟨r', hr', hr⟩ := hj.new hrr
      rcases hr with ⟨rfl, -⟩ | ⟨-, rfl⟩
      · exact absurd (Option.some.inj (hrt.symm.trans ht)) (hne hrun)
      · exact ⟨_, hr', hid, hrt⟩
    · exact absurd hrun hstop
  · intro r' hr' hq
    obtain ⟨r, hrr, hr⟩ := hj.old hr'
    rcases hr with ⟨rfl, he⟩ | ⟨-, rfl⟩
    · rw [he.current]
      rcases hst with ⟨-, hlt⟩ | hst
      · exact hlt
      · rw [← he.status, hq] at hst
        cases hst
    · exact h.queued _ hrr hq

theorem LeaseInv.claim (h : LeaseInv jobs attempts) {j : Job} {a : Attempt} (hjj : j ∈ jobs)
    (hcount : j.generation_attempt_count < MAX_ATTEMPTS)
    (hfresh : ∀ b ∈ attempts, b.lease_token ≠ a.lease_token)
    (hj : jobs.Evolves (Only (Job.Claimed a.lease_token) j) jobs')
    (ha : attempts.insert a = some attempts') (hjob : a.job_id = j.id) (hrunning : a.status = .running)
    (hgeneration : a.run_generation = j.run_generation) (hqueued : j.status = .queued) :
    LeaseInv jobs' attempts' := by
  have hnone : j.lease_token = none := by
    have hl := h.leased j hjj
    rw [hqueued] at hl
    simpa [JobStatus.isActive] using hl
  have hid : ∀ r r', Only (Job.Claimed a.lease_token) j r r' → r'.id = r.id := by
    rintro r r' (⟨rfl, hc⟩ | ⟨-, rfl⟩)
    · exact hc.id
    · rfl
  have hother : ∀ r ∈ jobs, r ≠ j → (a.job_id == r.id) = false := by
    intro r hr hne
    rw [beq_eq_false_iff_ne, hjob]
    exact fun e => hne (eq_of_key hr hjj e.symm)
  constructor
  case leased =>
    intro r' hr'
    obtain ⟨r, hrr, ⟨rfl, hc⟩ | ⟨-, rfl⟩⟩ := hj.old hr'
    · simp [hc.status, hc.token, JobStatus.isActive]
    · exact h.leased _ hrr
  case running =>
    intro r' hr' t ht
    obtain ⟨r, hrr, ⟨rfl, hc⟩ | ⟨-, rfl⟩⟩ := hj.old hr'
    · rw [hc.token] at ht
      refine ⟨a, (mem_insert ha).mpr (.inr rfl), ?_, hrunning, Option.some.inj ht, ?_⟩
      · rw [hjob, hc.id]
      · rw [hgeneration, hc.generation]
    · obtain ⟨b, hb, hb'⟩ := h.running _ hrr t ht
      exact ⟨b, (mem_insert ha).mpr (.inl hb), hb'⟩
  case owned =>
    intro b hb hrun
    rcases (mem_insert ha).mp hb with hb | rfl
    · obtain ⟨r, hrr, hrid, hrt⟩ := h.owned b hb hrun
      obtain ⟨r', hr', ⟨rfl, -⟩ | ⟨-, rfl⟩⟩ := hj.new hrr
      · rw [hnone] at hrt
        cases hrt
      · exact ⟨_, hr', hrid, hrt⟩
    · obtain ⟨r', hr', ⟨-, hc⟩ | ⟨hne, -⟩⟩ := hj.new hjj
      · exact ⟨r', hr', by rw [hc.id, hjob], hc.token⟩
      · exact absurd rfl hne
  case known =>
    intro b hb
    rcases (mem_insert ha).mp hb with hb | rfl
    · obtain ⟨r, hrr, hrid, hg⟩ := h.known b hb
      obtain ⟨r', hr', ⟨rfl, hc⟩ | ⟨-, rfl⟩⟩ := hj.new hrr
      · exact ⟨r', hr', by rw [hc.id, hrid], by rw [hc.generation]; exact hg⟩
      · exact ⟨_, hr', hrid, hg⟩
    · obtain ⟨r', hr', ⟨-, hc⟩ | ⟨hne, -⟩⟩ := hj.new hjj
      · exact ⟨r', hr', by rw [hc.id, hjob], by rw [hc.generation, hgeneration]⟩
      · exact absurd rfl hne
  case tokens =>
    intro b hb c hc e
    rcases (mem_insert ha).mp hb with hb | rfl <;> rcases (mem_insert ha).mp hc with hc | rfl
    · exact h.tokens b hb c hc e
    · exact absurd e (hfresh b hb)
    · exact absurd e.symm (hfresh c hc)
    · rfl
  case total =>
    intro r' hr'
    rw [count_insert ha]
    obtain ⟨r, hrr, ⟨rfl, hc⟩ | ⟨hne, rfl⟩⟩ := hj.old hr'
    · rw [hc.attempts, h.total _ hrr, hc.id]
      simp [hjob]
    · rw [h.total _ hrr, hother _ hrr hne]
      simp
  case current =>
    intro r' hr'
    rw [count_insert ha]
    obtain ⟨r, hrr, ⟨rfl, hc⟩ | ⟨hne, rfl⟩⟩ := hj.old hr'
    · rw [hc.current, h.current _ hrr, hc.id, hc.generation]
      simp [hjob, hgeneration]
    · rw [h.current _ hrr, hother _ hrr hne]
      simp
  case bounded =>
    intro r' hr'
    obtain ⟨r, hrr, ⟨rfl, hc⟩ | ⟨-, rfl⟩⟩ := hj.old hr'
    · rw [hc.current]
      exact hcount
    · exact h.bounded _ hrr
  case queued =>
    intro r' hr' hq
    obtain ⟨r, hrr, ⟨rfl, hc⟩ | ⟨-, rfl⟩⟩ := hj.old hr'
    · rw [hc.status] at hq
      cases hq
    · exact h.queued _ hrr hq

/-- a job row that no attempt can know yet -/
theorem LeaseInv.newJob (h : LeaseInv jobs attempts) {j : Job} (hj : jobs.insert j = some jobs')
    (hst : j.status = .queued ∨ j.status = .ready) (ht : j.lease_token = none)
    (ha : j.attempt_count = 0) (hg : j.generation_attempt_count = 0) : LeaseInv jobs' attempts := by
  have hnone : ∀ a ∈ attempts, (a.job_id == j.id) = false := by
    intro a haa
    obtain ⟨r, hr, hid, -⟩ := h.known a haa
    rw [beq_eq_false_iff_ne, ← hid]
    exact insert_fresh hj r hr
  have hinactive : j.status.isActive = false := by rcases hst with hs | hs <;> rw [hs] <;> rfl
  constructor
  case tokens => exact h.tokens
  case leased =>
    intro r hr
    rcases (mem_insert hj).mp hr with hr | rfl
    · exact h.leased r hr
    · simp [hinactive, ht]
  case running =>
    intro r hr t hrt
    rcases (mem_insert hj).mp hr with hr | rfl
    · exact h.running r hr t hrt
    · rw [ht] at hrt
      cases hrt
  case owned =>
    intro a haa hrun
    obtain ⟨r, hr, h'⟩ := h.owned a haa hrun
    exact ⟨r, (mem_insert hj).mpr (.inl hr), h'⟩
  case known =>
    intro a haa
    obtain ⟨r, hr, h'⟩ := h.known a haa
    exact ⟨r, (mem_insert hj).mpr (.inl hr), h'⟩
  case total =>
    intro r hr
    rcases (mem_insert hj).mp hr with hr | rfl
    · exact h.total r hr
    · rw [ha, eq_comm, count_eq_zero]
      exact hnone
  case current =>
    intro r hr
    rcases (mem_insert hj).mp hr with hr | rfl
    · exact h.current r hr
    · rw [hg, eq_comm, count_eq_zero]
      intro a haa
      rw [hnone a haa, Bool.false_and]
  case bounded =>
    intro r hr
    rcases (mem_insert hj).mp hr with hr | rfl
    · exact h.bounded r hr
    · rw [hg]
      exact Nat.zero_le _
  case queued =>
    intro r hr hq
    rcases (mem_insert hj).mp hr with hr | rfl
    · exact h.queued r hr hq
    · rw [hg]
      decide

theorem LeaseInv.requeue (h : LeaseInv jobs attempts) {j : Job} (hjj : j ∈ jobs)
    (hterminal : j.status.isTerminal = true) (hj : jobs.Evolves (Only Job.Requeued j) jobs') :
    LeaseInv jobs' attempts := by
  have hnone : j.lease_token = none := by
    have hl := h.leased j hjj
    have hinactive : j.status.isActive = false := by
      revert hterminal
      cases j.status <;> simp [JobStatus.isTerminal, JobStatus.isActive]
    rw [hinactive] at hl
    simpa using hl
  constructor
  case tokens => exact h.tokens
  case leased =>
    intro r' hr'
    obtain ⟨r, hrr, ⟨rfl, hc⟩ | ⟨-, rfl⟩⟩ := hj.old hr'
    · simp [hc.status, hc.token, JobStatus.isActive]
    · exact h.leased _ hrr
  case running =>
    intro r' hr' t ht
    obtain ⟨r, hrr, ⟨rfl, hc⟩ | ⟨-, rfl⟩⟩ := hj.old hr'
    · rw [hc.token] at ht
      cases ht
    · exact h.running _ hrr t ht
  case owned =>
    intro a ha hrun
    obtain ⟨r, hrr, hid, ht⟩ := h.owned a ha hrun
    obtain ⟨r', hr', ⟨rfl, -⟩ | ⟨-, rfl⟩⟩ := hj.new hrr
    · rw [hnone] at ht
      cases ht
    · exact ⟨_, hr', hid, ht⟩
  case known =>
    intro a ha
    obtain ⟨r, hrr, hid, hg⟩ := h.known a ha
    obtain ⟨r', hr', ⟨rfl, hc⟩ | ⟨-, rfl⟩⟩ := hj.new hrr
    · exact ⟨r', hr', by rw [hc.id, hid], by rw [hc.generation]; omega⟩
    · exact ⟨_, hr', hid, hg⟩
  case total =>
    intro r' hr'
    obtain ⟨r, hrr, ⟨rfl, hc⟩ | ⟨-, rfl⟩⟩ := hj.old hr'
    · rw [hc.attempts, hc.id]
      exact h.total _ hrr
    · exact h.total _ hrr
  case current =>
    intro r' hr'
    obtain ⟨r, hrr, ⟨rfl, hc⟩ | ⟨-, rfl⟩⟩ := hj.old hr'
    · -- the attempts of the job belong to the generations up to the old one
      rw [hc.current, eq_comm, count_eq_zero]
      intro a ha
      rw [Bool.and_eq_false_iff]
      by_cases hid : a.job_id = r'.id
      · right
        obtain ⟨q, hq, hqid, hg⟩ := h.known a ha
        have hqr : q = r := eq_of_key hq hrr (by rw [hqid, hid, hc.id])
        subst hqr
        rw [beq_eq_false_iff_ne, hc.generation]
        omega
      · exact .inl (beq_eq_false_iff_ne.mpr hid)
    · exact h.current _ hrr
  case bounded =>
    intro r' hr'
    obtain ⟨r, hrr, ⟨rfl, hc⟩ | ⟨-, rfl⟩⟩ := hj.old hr'
    · rw [hc.current]
      exact Nat.zero_le _
    · exact h.bounded _ hrr
  case queued =>
    intro r' hr' hq
    obtain ⟨r, hrr, ⟨rfl, hc⟩ | ⟨-, rfl⟩⟩ := hj.old hr'
    · rw [hc.current]
      decide
    · exact h.queued _ hrr hq

end

/-- **Every move keeps the lease invariant.** -/
theorem LeaseInv.move {may : Id → Id → Prop} {s s' : Snap} (h : s.db.LeaseOK) (hm : Move may s s') :
    s'.db.LeaseOK := by
  cases hm with
  | renew hj ha _ => exact h.renew hj ha
  | claim j p a hjj hq hcount _ _ _ _ hfresh hj ha hjob hrun hg _ =>
    exact h.claim hjj hcount hfresh hj ha hjob hrun hg hq
  | endLease j t st hjj _ ht hst _ hj ha _ _ =>
    exact h.endLease hjj ht (hst.imp (fun e => ⟨e.1, e.2.1⟩) (fun e => e.1)) hj ha
  | drop k hj => exact h.drop hj
  | newJob j i hins hst ht ha hg _ _ _ _ => exact h.newJob hins hst ht ha hg
  | side | circuit | intents | record | source | link | newInput | newBatch | setInput | setBatch
    | settleInput | settleBatch => exact h

theorem LeaseInv.chain {may : Id → Id → Prop} {s s' : Snap} (h : s.db.LeaseOK) (hc : Chain may s s') :
    s'.db.LeaseOK := by
  induction hc with
  | refl => exact h
  | tail _ hm ih => exact ih.move hm

theorem LeaseInv.regen {s s' : Snap} {k : Id} (h : s.db.LeaseOK) (hr : Regen k s s') : s'.db.LeaseOK := by
  cases hr with
  | mk j i hjj hterminal _ _ _ hj _ => exact h.requeue hjj hterminal hj

end OpenFlame.Download
