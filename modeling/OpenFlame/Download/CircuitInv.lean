import OpenFlame.Download.LeaseInv

/-!
# The circuit invariant

`CircuitInv jobs sources circuits`: at most `MAX_ACTIVE_JOBS` jobs are active, at most one for each
platform; next to an active job the circuit of its platform is closed or its own probe; a half-open
circuit is held by an active job, and every other circuit is parked.

`CircuitInv.move`, `CircuitInv.regen`: **every move and every new generation keeps it.**
-/

set_option linter.all false

namespace OpenFlame.Download
open Table

structure CircuitInv (jobs : Table Job Job.id) (sources : Table SourceItem SourceItem.id)
    (circuits : Table Circuit Circuit.platform) : Prop where
  sourced : ∀ j ∈ jobs, ∃ s ∈ sources, s.id = j.source_item_id
  few : jobs.count (fun j => j.status.isActive) ≤ MAX_ACTIVE_JOBS
  alone : ∀ j ∈ jobs, ∀ r ∈ jobs, j.status.isActive = true → r.status.isActive = true →
    platformIn sources j = platformIn sources r → j = r
  admitted : ∀ j ∈ jobs, j.status.isActive = true → ∀ c ∈ circuits,
    some c.platform = platformIn sources j →
      c.state = .closed ∨ ∃ t, j.lease_token = some t ∧ c.heldBy j.id t = true
  probed : ∀ c ∈ circuits, c.state = .halfOpen → ∃ j ∈ jobs, j.status.isActive = true ∧
    platformIn sources j = some c.platform ∧ ∃ t, j.lease_token = some t ∧ c.heldBy j.id t = true
  manual : ∀ c ∈ circuits, c.requires_manual_reset = true → c.state = .opened
  cooldown : ∀ c ∈ circuits, c.state = .opened → c.requires_manual_reset = false →
    c.cooldown_until.isSome = true

abbrev DB.CircuitOK (db : DB) : Prop := CircuitInv db.jobs db.sources db.circuits

theorem CircuitInv.empty : CircuitInv ∅ ∅ ∅ where
  sourced := fun j hj => absurd hj (not_mem_empty j)
  few := Nat.zero_le _
  alone := fun j hj => absurd hj (not_mem_empty j)
  admitted := fun j hj => absurd hj (not_mem_empty j)
  probed := fun c hc => absurd hc (not_mem_empty c)
  manual := fun c hc => absurd hc (not_mem_empty c)
  cooldown := fun c hc => absurd hc (not_mem_empty c)

theorem platformIn_congr (sources : Table SourceItem SourceItem.id) {j r : Job}
    (h : j.source_item_id = r.source_item_id) : platformIn sources j = platformIn sources r := by
  rw [platformIn, platformIn, h]

theorem platformIn_insert {sources sources' : Table SourceItem SourceItem.id} {s : SourceItem}
    (h : sources.insert s = some sources') {j : Job} (hj : ∃ r ∈ sources, r.id = j.source_item_id) :
    platformIn sources' j = platformIn sources j := by
  obtain ⟨r, hr, hid⟩ := hj
  have hne : ¬ s.id = j.source_item_id := fun e => insert_fresh h r hr (hid.trans e.symm)
  rw [platformIn, get_insert h, if_neg hne, platformIn]

theorem Circuit.heldBy_iff {c : Circuit} {k t : Id} : c.heldBy k t = true ↔
    c.state = .halfOpen ∧ c.probe_job_id = some k ∧ c.probe_lease_token = some t := by
  simp [heldBy, and_assoc]

section
variable {jobs jobs' : Table Job Job.id} {sources : Table SourceItem SourceItem.id}
  {circuits circuits' : Table Circuit Circuit.platform}

/-- what circuits can tell about an active job -/
def Job.SameLease (j j' : Job) : Prop :=
  j'.id = j.id ∧ j'.source_item_id = j.source_item_id ∧ j'.lease_token = j.lease_token

/-- the active jobs and their leases are the same ones -/
theorem CircuitInv.sameActive (h : CircuitInv jobs sources circuits)
    (hsourced : ∀ j ∈ jobs', ∃ s ∈ sources, s.id = j.source_item_id)
    (hcount : jobs'.count (fun j => j.status.isActive) ≤ jobs.count (fun j => j.status.isActive))
    (hold : ∀ j' ∈ jobs', j'.status.isActive = true →
      ∃ j ∈ jobs, j.status.isActive = true ∧ Job.SameLease j j')
    (hnew : ∀ j ∈ jobs, j.status.isActive = true →
      ∃ j' ∈ jobs', j'.status.isActive = true ∧ Job.SameLease j j') :
    CircuitInv jobs' sources circuits where
  sourced := hsourced
  few := Nat.le_trans hcount h.few
  alone := by
    intro j' hj' r' hr' hja hra e
    obtain ⟨j, hj, hjact, hjid, hjs, -⟩ := hold j' hj' hja
    obtain ⟨r, hr, hract, hrid, hrs, -⟩ := hold r' hr' hra
    rw [platformIn_congr sources hjs, platformIn_congr sources hrs] at e
    have hjr : j = r := h.alone j hj r hr hjact hract e
    exact eq_of_key hj' hr' (by rw [hjid, hrid, hjr])
  admitted := by
    intro j' hj' hja c hc e
    obtain ⟨j, hj, hjact, hjid, hjs, hjt⟩ := hold j' hj' hja
    rw [platformIn_congr sources hjs] at e
    rw [hjid, hjt]
    exact h.admitted j hj hjact c hc e
  probed := by
    intro c hc hhalf
    obtain ⟨j, hj, hjact, hp, hheld⟩ := h.probed c hc hhalf
    obtain ⟨j', hj', hja, hjid, hjs, hjt⟩ := hnew j hj hjact
    refine ⟨j', hj', hja, ?_, ?_⟩
    · rw [platformIn_congr sources hjs, hp]
    · rw [hjid, hjt]
      exact hheld
  manual := h.manual
  cooldown := h.cooldown

theorem CircuitInv.renew (h : CircuitInv jobs sources circuits)
    (hj : jobs.Evolves Job.Renewed jobs') : CircuitInv jobs' sources circuits := by
  have hact : ∀ j j', Job.Renewed j j' → j'.status.isActive = j.status.isActive := by
    intro j j' hr
    rcases hr.status with hs | ⟨hs, hs'⟩
    · rw [hs]
    · rw [hs, hs']
  refine h.sameActive ?_ ?_ ?_ ?_
  · intro j' hj'
    obtain ⟨j, hjj, hr⟩ := hj.old hj'
    rw [hr.source]
    exact h.sourced j hjj
  · exact hj.count_le (fun r s hr hs => by rw [← hact r s hr]; exact hs)
  · intro j' hj' ha
    obtain ⟨j, hjj, hr⟩ := hj.old hj'
    exact ⟨j, hjj, by rw [← hact j j' hr]; exact ha, hr.id, hr.source, hr.token⟩
  · intro j hjj ha
    obtain ⟨j', hj', hr⟩ := hj.new hjj
    exact ⟨j', hj', by rw [hact j j' hr]; exact ha, hr.id, hr.source, hr.token⟩

/-- rows that were and are inactive, or did not change -/
theorem CircuitInv.idle (h : CircuitInv jobs sources circuits) {R : Job → Job → Prop}
    (hj : jobs.Evolves R jobs')
    (hR : ∀ r r', R r r' → r' = r ∨ r.status.isActive = false ∧ r'.status.isActive = false ∧
      r'.source_item_id = r.source_item_id) : CircuitInv jobs' sources circuits := by
  refine h.sameActive ?_ ?_ ?_ ?_
  · intro j' hj'
    obtain ⟨j, hjj, hr⟩ := hj.old hj'
    rcases hR j j' hr with rfl | ⟨-, -, hs⟩
    · exact h.sourced _ hjj
    · rw [hs]
      exact h.sourced j hjj
  · refine hj.count_le (fun r s hr hs => ?_)
    rcases hR r s hr with rfl | ⟨-, hs', -⟩
    · exact hs
    · rw [hs'] at hs
      cases hs
  · intro j' hj' ha
    obtain ⟨j, hjj, hr⟩ := hj.old hj'
    rcases hR j j' hr with rfl | ⟨-, hs', -⟩
    · exact ⟨_, hjj, ha, rfl, rfl, rfl⟩
    · rw [hs'] at ha
      cases ha
  · intro j hjj ha
    obtain ⟨j', hj', hr⟩ := hj.new hjj
    rcases hR j j' hr with rfl | ⟨hs, -, -⟩
    · exact ⟨_, hj', ha, rfl, rfl, rfl⟩
    · rw [hs] at ha
      cases ha

theorem CircuitInv.newJob (h : CircuitInv jobs sources circuits) {j : Job}
    (hj : jobs.insert j = some jobs') (hst : j.status = .queued ∨ j.status = .ready)
    (hs : ∃ s ∈ sources, s.id = j.source_item_id) : CircuitInv jobs' sources circuits := by
  have hinactive : j.status.isActive = false := by rcases hst with hs | hs <;> rw [hs] <;> rfl
  refine h.sameActive ?_ ?_ ?_ ?_
  · intro r hr
    rcases (mem_insert hj).mp hr with hr | rfl
    · exact h.sourced r hr
    · exact hs
  · rw [count_insert hj, hinactive]
    exact Nat.le_refl _
  · intro r hr ha
    rcases (mem_insert hj).mp hr with hr | rfl
    · exact ⟨r, hr, ha, rfl, rfl, rfl⟩
    · rw [hinactive] at ha
      cases ha
  · intro r hr ha
    exact ⟨r, (mem_insert hj).mpr (.inl hr), ha, rfl, rfl, rfl⟩

theorem CircuitInv.source (h : CircuitInv jobs sources circuits) {s : SourceItem}
    {sources' : Table SourceItem SourceItem.id} (hs : sources.insert s = some sources') :
    CircuitInv jobs sources' circuits := by
  have hp : ∀ j ∈ jobs, platformIn sources' j = platformIn sources j :=
    fun j hj => platformIn_insert hs (h.sourced j hj)
  constructor
  case sourced =>
    intro j hj
    obtain ⟨r, hr, hid⟩ := h.sourced j hj
    exact ⟨r, (mem_insert hs).mpr (.inl hr), hid⟩
  case few => exact h.few
  case alone =>
    intro j hj r hr hja hra e
    rw [hp j hj, hp r hr] at e
    exact h.alone j hj r hr hja hra e
  case admitted =>
    intro j hj hja c hc e
    rw [hp j hj] at e
    exact h.admitted j hj hja c hc e
  case probed =>
    intro c hc hhalf
    obtain ⟨j, hj, hja, hpj, hheld⟩ := h.probed c hc hhalf
    exact ⟨j, hj, hja, by rw [hp j hj, hpj], hheld⟩
  case manual => exact h.manual
  case cooldown => exact h.cooldown

theorem CircuitInv.circuit (h : CircuitInv jobs sources circuits)
    (hc : ∀ c ∈ circuits', c ∈ circuits ∨ c.state = .closed ∧ c.Parked) :
    CircuitInv jobs sources circuits' := by
  constructor
  case sourced => exact h.sourced
  case few => exact h.few
  case alone => exact h.alone
  case admitted =>
    intro j hj hja c hcc e
    rcases hc c hcc with hcc | ⟨hclosed, -⟩
    · exact h.admitted j hj hja c hcc e
    · exact .inl hclosed
  case probed =>
    intro c hcc hhalf
    rcases hc c hcc with hcc | ⟨-, hpark⟩
    · exact h.probed c hcc hhalf
    · exact absurd hhalf hpark.1
  case manual =>
    intro c hcc
    rcases hc c hcc with hcc | ⟨-, hpark⟩
    · exact h.manual c hcc
    · exact hpark.2.1
  case cooldown =>
    intro c hcc
    rcases hc c hcc with hcc | ⟨-, hpark⟩
    · exact h.cooldown c hcc
    · exact hpark.2.2

theorem CircuitInv.claim (h : CircuitInv jobs sources circuits) {j : Job} {p : Platform} {t : Id}
    (hjj : j ∈ jobs) (hp : platformIn sources j = some p) (hqueued : j.status = .queued)
    (hfew : jobs.count (fun r => r.status.isActive) < MAX_ACTIVE_JOBS)
    (halone : ∀ r ∈ jobs, r.status.isActive = true → platformIn sources r ≠ some p)
    (hj : jobs.Evolves (Only (Job.Claimed t) j) jobs')
    (hc : ∀ c ∈ circuits', c ∈ circuits ∧ (c.platform ≠ p ∨ c.state = .closed) ∨
      c.platform = p ∧ c.heldBy j.id t = true ∧ c.requires_manual_reset = false) :
    CircuitInv jobs' sources circuits' := by
  have hsource : ∀ r r', Only (Job.Claimed t) j r r' →
      platformIn sources r' = platformIn sources r := by
    rintro r r' (⟨rfl, hc⟩ | ⟨-, rfl⟩)
    · exact platformIn_congr sources hc.source
    · rfl
  constructor
  case sourced =>
    intro r' hr'
    obtain ⟨r, hrr, ⟨rfl, hc⟩ | ⟨-, rfl⟩⟩ := hj.old hr'
    · rw [hc.source]
      exact h.sourced _ hrr
    · exact h.sourced _ hrr
  case few =>
    -- the new active rows are the old ones and `j`
    have h1 : jobs'.count (fun r => r.status.isActive) ≤
        jobs.count (fun r => r.status.isActive || r.id == j.id) := by
      refine hj.count_le ?_
      rintro r r' (⟨rfl, -⟩ | ⟨-, rfl⟩) hr
      · simp
      · simp [hr]
    have h2 := jobs.count_or_le (fun r => r.status.isActive) (fun r => r.id == j.id)
    have h3 : jobs.count (fun r => r.id == j.id) ≤ 1 :=
      count_le_one (fun r _ s _ hr hs => by rw [beq_iff_eq.mp hr, beq_iff_eq.mp hs])
    omega
  case alone =>
    intro r' hr' s' hs' hra hsa e
    obtain ⟨r, hrr, hr⟩ := hj.old hr'
    obtain ⟨s, hss, hs⟩ := hj.old hs'
    rw [hsource r r' hr, hsource s s' hs] at e
    rcases hr with ⟨rfl, hrc⟩ | ⟨-, rfl⟩ <;> rcases hs with ⟨rfl, hsc⟩ | ⟨-, rfl⟩
    · exact eq_of_key hr' hs' (by rw [hrc.id, hsc.id])
    · exact absurd (e.symm.trans hp) (halone _ hss hsa)
    · exact absurd (e.trans hp) (halone _ hrr hra)
    · exact h.alone _ hrr _ hss hra hsa e
  case admitted =>
    intro r' hr' hra c hcc e
    obtain ⟨r, hrr, hr⟩ := hj.old hr'
    rw [hsource r r' hr] at e
    rcases hr with ⟨rfl, hrc⟩ | ⟨-, rfl⟩
    · rcases hc c hcc with ⟨-, hne | hclosed⟩ | ⟨-, hheld, -⟩
      · exact absurd (Option.some.inj (e.trans hp)) hne
      · exact .inl hclosed
      · exact .inr ⟨t, hrc.token, by rw [hrc.id]; exact hheld⟩
    · rcases hc c hcc with ⟨hcc, -⟩ | ⟨hcp, -, -⟩
      · exact h.admitted _ hrr hra c hcc e
      · exact absurd (by rw [← e, hcp]) (halone _ hrr hra)
  case probed =>
    intro c hcc hhalf
    rcases hc c hcc with ⟨hcc, -⟩ | ⟨hcp, hheld, -⟩
    · obtain ⟨r, hrr, hra, hrp, hheld⟩ := h.probed c hcc hhalf
      obtain ⟨r', hr', hr⟩ := hj.new hrr
      refine ⟨r', hr', ?_, by rw [hsource r r' hr, hrp], ?_⟩ <;>
        rcases hr with ⟨rfl, -⟩ | ⟨-, rfl⟩
      · rw [hqueued] at hra
        cases hra
      · exact hra
      · rw [hqueued] at hra
        cases hra
      · exact hheld
    · obtain ⟨r', hr', ⟨-, hrc⟩ | ⟨hne, -⟩⟩ := hj.new hjj
      · refine ⟨r', hr', by rw [hrc.status]; rfl, ?_, t, hrc.token, by rw [hrc.id]; exact hheld⟩
        rw [platformIn_congr sources hrc.source, hp, hcp]
      · exact absurd rfl hne
  case manual =>
    intro c hcc hm
    rcases hc c hcc with ⟨hcc, -⟩ | ⟨-, -, hno⟩
    · exact h.manual c hcc hm
    · rw [hno] at hm
      cases hm
  case cooldown =>
    intro c hcc hopen hm
    rcases hc c hcc with ⟨hcc, -⟩ | ⟨-, hheld, -⟩
    · exact h.cooldown c hcc hopen hm
    · rw [(Circuit.heldBy_iff.mp hheld).1] at hopen
      cases hopen

theorem CircuitInv.endLease (h : CircuitInv jobs sources circuits) {j : Job} {t : Id} {st : JobStatus}
    (hjj : j ∈ jobs) (hactive : j.status.isActive = true) (ht : j.lease_token = some t)
    (hst : st.isActive = false) (hj : jobs.Evolves (Only (Job.Ended st) j) jobs')
    (hc : Released circuits circuits' (platformIn sources j) j.id t) :
    CircuitInv jobs' sources circuits' := by
  have hsource : ∀ r r', Only (Job.Ended st) j r r' →
      platformIn sources r' = platformIn sources r := by
    rintro r r' (⟨rfl, he⟩ | ⟨-, rfl⟩)
    · exact platformIn_congr sources he.source
    · rfl
  -- the active jobs left are the old ones other than `j`
  have hold : ∀ r' ∈ jobs', r'.status.isActive = true → r' ∈ jobs ∧ r' ≠ j := by
    intro r' hr' ha
    obtain ⟨r, hrr, ⟨rfl, he⟩ | ⟨hne, rfl⟩⟩ := hj.old hr'
    · rw [he.status, hst] at ha
      cases ha
    · exact ⟨hrr, hne⟩
  -- a circuit that changed was the one of the platform of `j`
  have hparked : ∀ c ∈ circuits', c ∈ circuits ∧
      (some c.platform ≠ platformIn sources j ∨ c.heldBy j.id t = false) ∨
        c.Parked ∧ some c.platform = platformIn sources j := by
    intro c hcc
    rcases hc.row c hcc with hkeep | ⟨hpark, hp | ⟨c₀, hc₀, hplat, hheld⟩⟩
    · exact .inl hkeep
    · exact .inr ⟨hpark, hp⟩
    · obtain ⟨hhalf, hprobe, -⟩ := Circuit.heldBy_iff.mp hheld
      obtain ⟨r, hrr, hra, hrp, u, -, hrheld⟩ := h.probed c₀ hc₀ hhalf
      have hrj : r.id = j.id := by
        rw [(Circuit.heldBy_iff.mp hrheld).2.1] at hprobe
        exact Option.some.inj hprobe
      rw [eq_of_key hrr hjj hrj] at hrp
      exact .inr ⟨hpark, by rw [hrp, hplat]⟩
  constructor
  case sourced =>
    intro r' hr'
    obtain ⟨r, hrr, ⟨rfl, he⟩ | ⟨-, rfl⟩⟩ := hj.old hr'
    · rw [he.source]
      exact h.sourced _ hrr
    · exact h.sourced _ hrr
  case few =>
    refine Nat.le_trans (hj.count_le ?_) h.few
    rintro r r' (⟨rfl, -⟩ | ⟨-, rfl⟩) hr
    · exact hactive
    · exact hr
  case alone =>
    intro r hr s hs hra hsa e
    exact h.alone r (hold r hr hra).1 s (hold s hs hsa).1 hra hsa e
  case admitted =>
    intro r hr hra c hcc e
    obtain ⟨hrr, hne⟩ := hold r hr hra
    rcases hparked c hcc with ⟨hcc, -⟩ | ⟨-, hp⟩
    · exact h.admitted r hrr hra c hcc e
    · exact absurd (h.alone r hrr j hjj hra hactive (e.symm.trans hp)) hne
  case probed =>
    intro c hcc hhalf
    rcases hparked c hcc with ⟨hcc, hfree⟩ | ⟨hpark, -⟩
    · obtain ⟨r, hrr, hra, hrp, u, hu, hheld⟩ := h.probed c hcc hhalf
      have hne : r ≠ j := by
        rintro rfl
        rw [ht] at hu
        cases hu
        rcases hfree with hfree | hfree
        · exact hfree hrp.symm
        · rw [hfree] at hheld
          cases hheld
      obtain ⟨r', hr', ⟨e, -⟩ | ⟨-, rfl⟩⟩ := hj.new hrr
      · exact absurd e hne
      · exact ⟨_, hr', hra, hrp, u, hu, hheld⟩
    · exact absurd hhalf hpark.1
  case manual =>
    intro c hcc
    rcases hparked c hcc with ⟨hcc, -⟩ | ⟨hpark, -⟩
    · exact h.manual c hcc
    · exact hpark.2.1
  case cooldown =>
    intro c hcc
    rcases hparked c hcc with ⟨hcc, -⟩ | ⟨hpark, -⟩
    · exact h.cooldown c hcc
    · exact hpark.2.2

end

theorem JobStatus.terminal_inactive {s : JobStatus} (h : s.isTerminal = true) : s.isActive = false := by
  revert h
  cases s <;> simp [isTerminal, isActive]

/-- **Every move keeps the circuit invariant.** -/
theorem CircuitInv.move {may : Id → Id → Prop} {s s' : Snap} (h : s.db.CircuitOK) (hm : Move may s s') :
    s'.db.CircuitOK := by
  cases hm with
  | renew hj _ _ => exact h.renew hj
  | claim j p a hjj hq _ hp _ hfew halone _ hj _ _ _ _ hc =>
    exact h.claim hjj hp hq hfew halone hj hc
  | endLease j t st hjj hact ht hst _ hj _ hc _ =>
    refine h.endLease hjj hact ht ?_ hj hc
    rcases hst with ⟨rfl, -⟩ | ⟨hst, -⟩
    · rfl
    · exact JobStatus.terminal_inactive hst
  | drop k hj =>
    refine h.idle hj ?_
    rintro r r' (rfl | ⟨-, hq, hd⟩)
    · exact .inl rfl
    · refine .inr ⟨by rw [hq]; rfl, ?_, hd.source⟩
      rcases hd.status with hs | hs <;> rw [hs] <;> rfl
  | circuit hc => exact h.circuit hc
  | source s hs => exact h.source hs
  | newJob j i hins hst _ _ _ hs _ _ _ => exact h.newJob hins hst hs
  | side | intents | record | link | newInput | newBatch | setInput | setBatch | settleInput
    | settleBatch => exact h

theorem CircuitInv.chain {may : Id → Id → Prop} {s s' : Snap} (h : s.db.CircuitOK)
    (hc : Chain may s s') : s'.db.CircuitOK := by
  induction hc with
  | refl => exact h
  | tail _ hm ih => exact ih.move hm

theorem CircuitInv.regen {s s' : Snap} {k : Id} (h : s.db.CircuitOK) (hr : Regen k s s') : s'.db.CircuitOK := by
  cases hr with
  | mk j i hjj hterminal _ _ _ hj _ =>
    refine h.idle hj ?_
    rintro r r' (⟨rfl, hq⟩ | ⟨-, rfl⟩)
    · exact .inr ⟨JobStatus.terminal_inactive hterminal, by rw [hq.status]; rfl, hq.source⟩
    · exact .inl rfl

end OpenFlame.Download
