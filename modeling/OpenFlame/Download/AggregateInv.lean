import OpenFlame.Download.LeaseInv

/-!
# The aggregate invariant

`AggInv s`: in the snapshot `s` every input that is not stale has the aggregate status of its scoped
jobs, and every batch that is not pending has the counters and the status of its inputs.

`DB.scopedJobs_eq`   a scope lies within the jobs of its own input
`SameClass`          all a scope can tell about a job; related scopes have one aggregate
`AggInv.move`, `AggInv.regen`: **every move and every new generation keeps it.**
-/

set_option linter.all false

namespace OpenFlame.Download
open Table

/-! ## scopes -/

/-- the same row to every aggregate: queued and active are one class -/
structure SameClass (j j' : Job) : Prop extends Job.Same j j' where
  status : j'.status = j.status ∨ j.status.isLive = true ∧ j'.status.isLive = true

theorem SameClass.refl (j : Job) : SameClass j j := ⟨.refl j, .inl rfl⟩

/-- the scope of input `i` among the jobs `own` of that input -/
def scopeWithin (own : List Job) (links : Table RelationJob RelationJob.key) (i : InputRecord) :
    List Job :=
  match i.active_discovery_id with
  | some d => own.filter (fun j => links.any (RelationJob.activeFor i d j))
  | none =>
    match leastBy Job.createdBefore (own.filter (fun j =>
      j.job_kind == .discover && j.run_generation == i.active_run_generation)) with
    | some d => [d]
    | none => own

def DB.jobsOf (db : DB) (i : InputRecord) : List Job := db.jobs.filter (fun j => j.input_record_id == i.id)

/-- links stay within their input -/
def DB.Linked (db : DB) : Prop :=
  ∀ l ∈ db.links, ∃ j ∈ db.jobs, j.id = l.job_id ∧ j.input_record_id = l.input_record_id

theorem RelationJob.activeFor_iff {i : InputRecord} {d : Id} {j : Job} {l : RelationJob} :
    l.activeFor i d j = true ↔ l.job_id = j.id ∧ l.input_record_id = i.id ∧ l.discovery_id = d ∧
      l.run_generation = i.active_run_generation := by
  simp [activeFor, and_assoc]

theorem DB.scopedJobs_eq {db : DB} (h : db.Linked) (i : InputRecord) :
    db.scopedJobs i = scopeWithin (db.jobsOf i) db.links i := by
  unfold DB.scopedJobs scopeWithin DB.jobsOf Table.filter
  cases hd : i.active_discovery_id with
  | none =>
    have e : db.jobs.rows.filter (fun j => j.input_record_id == i.id && j.job_kind == .discover &&
        j.run_generation == i.active_run_generation) =
        db.jobs.rows.filter (fun j => (j.job_kind == .discover &&
          j.run_generation == i.active_run_generation) && j.input_record_id == i.id) :=
      List.filter_congr (fun j _ => by rw [Bool.and_assoc, Bool.and_comm])
    rw [List.filter_filter, e]
    all_goals rfl
  | some d =>
    dsimp only
    rw [List.filter_filter]
    refine List.filter_congr (fun j hj => ?_)
    rw [Bool.eq_iff_iff, Bool.and_eq_true]
    constructor
    · intro hany
      refine ⟨hany, ?_⟩
      obtain ⟨l, hl, hact⟩ := any_eq_true.mp hany
      obtain ⟨hjob, hin, -, -⟩ := RelationJob.activeFor_iff.mp hact
      obtain ⟨r, hr, hid, hrin⟩ := h l hl
      rw [eq_of_key (show j ∈ db.jobs from hj) hr (by rw [hid, hjob]), hrin, hin]
      exact beq_self_eq_true i.id
    · exact fun hboth => hboth.1

theorem leastBy_forall₂ {R : Job → Job → Prop} (before : Job → Job → Bool)
    (hb : ∀ r r' s s', R r r' → R s s' → before r s = before r' s') {rs rs' : List Job}
    (h : List.Forall₂ R rs rs') : Option.Rel R (leastBy before rs) (leastBy before rs') := by
  induction h with
  | nil => exact .none
  | @cons r r' rs rs' hr _ ih =>
    unfold leastBy
    cases hl : leastBy before rs with
    | none =>
      rw [hl] at ih
      cases hl' : leastBy before rs' with
      | none => exact .some hr
      | some s' => rw [hl'] at ih; cases ih
    | some s =>
      rw [hl] at ih
      cases hl' : leastBy before rs' with
      | none => rw [hl'] at ih; cases ih
      | some s' =>
        rw [hl'] at ih
        cases ih with
        | some hs =>
          simp only [hb s s' r r' hs hr]
          by_cases hlt : before s' r' = true
          · simpa [hlt] using hs
          · simpa [hlt] using hr

theorem forall₂_filter {R : Job → Job → Prop} {p q : Job → Bool} (hpq : ∀ r r', R r r' → p r = q r')
    {rs rs' : List Job} (h : List.Forall₂ R rs rs') : List.Forall₂ R (rs.filter p) (rs'.filter q) := by
  induction h with
  | nil => exact .nil
  | @cons r r' _ _ hr _ ih =>
    rw [List.filter_cons, List.filter_cons, hpq r r' hr]
    by_cases hq : q r' = true
    · simpa [hq] using ⟨hr, ih⟩
    · simpa [hq] using ih

/-- related jobs, the same links: related scopes -/
theorem scopeWithin_forall₂ {own own' : List Job} {links links' : Table RelationJob RelationJob.key}
    {i i' : InputRecord} (h : List.Forall₂ SameClass own own')
    (hlinks : ∀ d j, links'.any (RelationJob.activeFor i' d j) = links.any (RelationJob.activeFor i d j))
    (hd : i'.active_discovery_id = i.active_discovery_id)
    (hg : i'.active_run_generation = i.active_run_generation) :
    List.Forall₂ SameClass (scopeWithin own links i) (scopeWithin own' links' i') := by
  unfold scopeWithin
  rw [hd, hg]
  cases i.active_discovery_id with
  | some d =>
    refine forall₂_filter (fun r r' hr => ?_) h
    rw [hlinks]
    have e : RelationJob.activeFor i d r = RelationJob.activeFor i d r' := by
      funext l
      simp only [RelationJob.activeFor, hr.id]
    rw [e]
  | none =>
    have hdisc := forall₂_filter (p := fun j => j.job_kind == .discover &&
        j.run_generation == i.active_run_generation)
      (q := fun j => j.job_kind == .discover && j.run_generation == i.active_run_generation)
      (fun r r' hr => by rw [hr.kind, hr.generation]) h
    have hleast := leastBy_forall₂ Job.createdBefore
      (fun r r' s s' hr hs => by
        simp only [Job.createdBefore, hr.created, hr.id, hs.created, hs.id]) hdisc
    revert hleast
    generalize leastBy Job.createdBefore (own.filter _) = a
    generalize leastBy Job.createdBefore (own'.filter _) = b
    intro hleast
    cases hleast with
    | none => exact h
    | some hr => exact .cons hr .nil

theorem statusCount_forall₂ {p : JobStatus → Bool} (hp : ∀ s s', s.isLive = true → s'.isLive = true →
      p s = p s') {js js' : List Job} (h : List.Forall₂ SameClass js js') :
    statusCount js' p = statusCount js p := by
  unfold statusCount
  induction h with
  | nil => rfl
  | @cons j j' _ _ hj _ ih =>
    rw [List.countP_cons, List.countP_cons, ih]
    have e : p j'.status = p j.status := by
      rcases hj.status with hs | ⟨hs, hs'⟩
      · rw [hs]
      · exact hp _ _ hs' hs
    rw [e]

/-- **Related scopes have one aggregate.** -/
theorem aggregateInputStatus_forall₂ {js js' : List Job} (h : List.Forall₂ SameClass js js') :
    aggregateInputStatus js' = aggregateInputStatus js := by
  have hlive := statusCount_forall₂ (p := JobStatus.isLive) (fun s s' hs hs' => by rw [hs, hs']) h
  have hterm : ∀ t : JobStatus, t.isLive = false →
      statusCount js' (· == t) = statusCount js (· == t) := by
    intro t ht
    refine statusCount_forall₂ (fun s s' hs hs' => ?_) h
    have hne : ∀ s : JobStatus, s.isLive = true → (s == t) = false := by
      intro s hs
      rw [beq_eq_false_iff_ne]
      rintro rfl
      rw [ht] at hs
      cases hs
    rw [hne s hs, hne s' hs']
  have hnil : js' = [] ↔ js = [] := by
    rw [← List.length_eq_zero_iff, ← List.length_eq_zero_iff, h.length_eq]
  simp only [aggregateInputStatus, hlive, hterm .ready rfl, hterm .failed rfl, hterm .canceled rfl, hnil,
    h.length_eq]

/-! ## the invariant -/

structure AggInv (s : Snap) : Prop where
  linked : s.db.Linked
  owned : ∀ j ∈ s.db.jobs, ∃ i ∈ s.db.inputs, i.id = j.input_record_id
  contained : ∀ i ∈ s.db.inputs, ∃ b ∈ s.db.batches, b.id = i.batch_id
  inputs : ∀ i ∈ s.db.inputs, i.id ∉ s.stale → s.db.InputOK i
  batches : ∀ b ∈ s.db.batches, b.id ∉ s.pending → s.db.BatchOK b

theorem AggInv.initial : AggInv DB.initial.settled where
  linked := fun l hl => absurd hl (not_mem_empty l)
  owned := fun j hj => absurd hj (not_mem_empty j)
  contained := fun i hi => absurd hi (not_mem_empty i)
  inputs := fun i hi => absurd hi (not_mem_empty i)
  batches := fun b hb => absurd hb (not_mem_empty b)

theorem mem_jobsOf {db : DB} {i : InputRecord} {j : Job} :
    j ∈ db.jobsOf i ↔ j ∈ db.jobs ∧ j.input_record_id = i.id := by
  simp [DB.jobsOf]

theorem InputOK_congr {db db' : DB} {i i' : InputRecord} (hl : db.Linked) (hl' : db'.Linked)
    (hjobs : List.Forall₂ SameClass (db.jobsOf i) (db'.jobsOf i'))
    (hlinks : ∀ d j, db'.links.any (RelationJob.activeFor i' d j) =
      db.links.any (RelationJob.activeFor i d j)) (hi : InputRecord.Kept i i') (h : db.InputOK i) :
    db'.InputOK i' := by
  intro hown
  have hne : db.jobsOf i ≠ [] := by
    obtain ⟨j', hj', hin⟩ := hown
    intro hnil
    rw [hnil] at hjobs
    have hmem : j' ∈ db'.jobsOf i' := mem_jobsOf.mpr ⟨hj', hin⟩
    rw [List.forall₂_nil_left_iff.mp hjobs] at hmem
    cases hmem
  obtain ⟨j, hj⟩ := List.exists_mem_of_ne_nil _ hne
  rw [hi.status, ← h ⟨j, mem_jobsOf.mp hj⟩, DB.scopedJobs_eq hl, DB.scopedJobs_eq hl']
  exact aggregateInputStatus_forall₂ (scopeWithin_forall₂ hjobs hlinks hi.discovery hi.generation)

theorem DB.inputCount_congr {db db' : DB} {Q : InputRecord → InputRecord → Prop}
    (h : db.inputs.Evolves Q db'.inputs) {b : Id}
    (hQ : ∀ i i', Q i i' → i'.batch_id = i.batch_id ∧ (i.batch_id = b → i'.status = i.status))
    (s : InputStatus) : db'.inputCount b s = db.inputCount b s := by
  refine h.count (fun i i' hq => ?_)
  obtain ⟨hb, hs⟩ := hQ i i' hq
  rw [hb]
  by_cases hib : i.batch_id = b
  · rw [hs hib]
  · have hne : (i.batch_id == b) = false := beq_eq_false_iff_ne.mpr hib
    simp only [hne, Bool.false_and]

theorem DB.inputTotal_congr {db db' : DB} {Q : InputRecord → InputRecord → Prop}
    (h : db.inputs.Evolves Q db'.inputs) (hQ : ∀ i i', Q i i' → i'.batch_id = i.batch_id) (b : Id) :
    db'.inputTotal b = db.inputTotal b :=
  h.count (fun i i' hq => by rw [hQ i i' hq])

theorem BatchOK_congr {db db' : DB} {b : Batch}
    (hcount : ∀ s, db'.inputCount b.id s = db.inputCount b.id s)
    (htotal : db'.inputTotal b.id = db.inputTotal b.id) (h : db.BatchOK b) : db'.BatchOK b := by
  have hfun : db'.inputCount b.id = db.inputCount b.id := funext hcount
  unfold DB.BatchOK
  rw [hfun, htotal]
  exact h

/-- job and input rows that keep their identity: what changed is stale or pending -/
theorem AggInv.evolve {s : Snap} (h : AggInv s) {jobs inputs} {R : Job → Job → Prop}
    {Q : InputRecord → InputRecord → Prop} {X B : Set Id}
    (hj : s.db.jobs.Evolves R jobs) (hi : s.db.inputs.Evolves Q inputs) (hX : s.stale ⊆ X)
    (hB : s.pending ⊆ B)
    (hR : ∀ r r', R r r' → r'.id = r.id ∧ r'.input_record_id = r.input_record_id ∧
      (r.input_record_id ∉ X → SameClass r r'))
    (hQ : ∀ i i', Q i i' → InputRecord.Same i i' ∧ (i.id ∉ X → InputRecord.Kept i i') ∧
      (i.batch_id ∉ B → i'.status = i.status))
    {db' : DB} (hjobs : db'.jobs = jobs) (hinputs : db'.inputs = inputs) (hlinks : db'.links = s.db.links)
    (hbatches : db'.batches = s.db.batches) : AggInv ⟨db', X, B⟩ := by
  have hlinked : db'.Linked := by
    intro l hl
    rw [hlinks] at hl
    obtain ⟨j, hjj, hid, hin⟩ := h.linked l hl
    obtain ⟨j', hj', hr⟩ := hj.new hjj
    obtain ⟨hrid, hrin, -⟩ := hR j j' hr
    exact ⟨j', by rw [hjobs]; exact hj', by rw [hrid, hid], by rw [hrin, hin]⟩
  refine ⟨hlinked, ?_, ?_, ?_, ?_⟩
  · intro j' hj'
    rw [hjobs] at hj'
    obtain ⟨j, hjj, hr⟩ := hj.old hj'
    obtain ⟨i, hii, hid⟩ := h.owned j hjj
    obtain ⟨i', hi', hq⟩ := hi.new hii
    refine ⟨i', by rw [hinputs]; exact hi', ?_⟩
    rw [(hQ i i' hq).1.id, hid, (hR j j' hr).2.1]
  · intro i' hi'
    rw [hinputs] at hi'
    obtain ⟨i, hii, hq⟩ := hi.old hi'
    rw [hbatches, (hQ i i' hq).1.batch]
    exact h.contained i hii
  · intro i' hi' hfresh
    have hi'' := hi'
    rw [hinputs] at hi''
    obtain ⟨i, hii, hq⟩ := hi.old hi''
    obtain ⟨hsame, hkept, -⟩ := hQ i i' hq
    have hiX : i.id ∉ X := by rw [← hsame.id]; exact hfresh
    refine InputOK_congr h.linked hlinked ?_ (fun d j => ?_) (hkept hiX) (h.inputs i hii (fun e => hiX (hX e)))
    · -- the jobs of this input moved within their class
      have hfilter : List.Forall₂ R (s.db.jobsOf i) (db'.jobsOf i') := by
        unfold DB.jobsOf
        rw [hjobs]
        exact forall₂_filter (fun r r' hr => by rw [(hR r r' hr).2.1, hsame.id]) hj
      have hmem : ∀ r ∈ s.db.jobsOf i, r.input_record_id = i.id := fun r hr => (mem_jobsOf.mp hr).2
      revert hfilter hmem
      generalize s.db.jobsOf i = own, db'.jobsOf i' = own'
      intro hfilter hmem
      induction hfilter with
      | nil => exact .nil
      | @cons r r' _ _ hr _ ih =>
        have hrX : r.input_record_id ∉ X := by rw [hmem r (List.mem_cons_self ..)]; exact hiX
        exact .cons ((hR r r' hr).2.2 hrX) (ih (fun q hq => hmem q (List.mem_cons_of_mem _ hq)))
    · have e : RelationJob.activeFor i' d j = RelationJob.activeFor i d j := by
        funext l
        simp only [RelationJob.activeFor, hsame.id, (hkept hiX).generation]
      rw [hlinks, e]
  · intro b hb hfresh
    have hb' : b ∈ s.db.batches := by
      have hb := hb
      rw [hbatches] at hb
      exact hb
    have hev : s.db.inputs.Evolves Q db'.inputs := by rw [hinputs]; exact hi
    refine BatchOK_congr (fun st => ?_) ?_ (h.batches b hb' (fun e => hfresh (hB e)))
    · refine DB.inputCount_congr hev (fun i i' hq => ⟨(hQ i i' hq).1.batch, fun hib => ?_⟩) st
      exact (hQ i i' hq).2.2 (by rw [hib]; exact hfresh)
    · exact DB.inputTotal_congr hev (fun i i' hq => (hQ i i' hq).1.batch) b.id

theorem AggInv.newJob {db : DB} {X B : Set Id} (h : AggInv ⟨db, X, B⟩) {j : Job} {jobs}
    (hj : db.jobs.insert j = some jobs) (hi : ∃ i ∈ db.inputs, i.id = j.input_record_id) :
    AggInv ⟨{ db with jobs }, insert j.input_record_id X, B⟩ := by
  have hlinked : DB.Linked { db with jobs } := by
    intro l hl
    obtain ⟨r, hr, h'⟩ := h.linked l hl
    exact ⟨r, (mem_insert hj).mpr (.inl hr), h'⟩
  refine ⟨hlinked, ?_, h.contained, ?_, h.batches⟩
  · intro r hr
    rcases (mem_insert hj).mp hr with hr | rfl
    · exact h.owned r hr
    · exact hi
  · intro i hii hfresh
    rw [Set.mem_insert_iff, not_or] at hfresh
    have hown : ({ db with jobs } : DB).jobsOf i = db.jobsOf i := by
      show jobs.rows.filter _ = db.jobs.rows.filter _
      rw [insert_rows hj, List.filter_append]
      simp [Ne.symm hfresh.1]
    refine InputOK_congr h.linked hlinked ?_ (fun _ _ => rfl) (.refl i) (h.inputs i hii hfresh.2)
    rw [hown]
    exact List.forall₂_same.mpr (fun r _ => .refl r)

theorem AggInv.link {db : DB} {X B : Set Id} (h : AggInv ⟨db, X, B⟩) {l : RelationJob} {links}
    (hl : db.links.insert l = some links)
    (hj : ∃ j ∈ db.jobs, j.id = l.job_id ∧ j.input_record_id = l.input_record_id) :
    AggInv ⟨{ db with links }, insert l.input_record_id X, B⟩ := by
  have hlinked : DB.Linked { db with links } := by
    intro m hm
    rcases (mem_insert hl).mp hm with hm | rfl
    · exact h.linked m hm
    · exact hj
  refine ⟨hlinked, h.owned, h.contained, ?_, h.batches⟩
  intro i hii hfresh
  rw [Set.mem_insert_iff, not_or] at hfresh
  refine InputOK_congr h.linked hlinked ?_ (fun d j => ?_) (.refl i) (h.inputs i hii hfresh.2)
  · exact List.forall₂_same.mpr (fun r _ => .refl r)
  · show links.rows.any _ = db.links.rows.any _
    rw [insert_rows hl, List.any_append]
    simp [RelationJob.activeFor, Ne.symm hfresh.1]

theorem AggInv.newInput {db : DB} {X B : Set Id} (h : AggInv ⟨db, X, B⟩) {i : InputRecord} {inputs}
    (hi : db.inputs.insert i = some inputs) (hb : ∃ b ∈ db.batches, b.id = i.batch_id) :
    AggInv ⟨{ db with inputs }, X, insert i.batch_id B⟩ := by
  refine ⟨h.linked, ?_, ?_, ?_, ?_⟩
  · intro j hj
    obtain ⟨k, hk, hid⟩ := h.owned j hj
    exact ⟨k, (mem_insert hi).mpr (.inl hk), hid⟩
  · intro k hk
    rcases (mem_insert hi).mp hk with hk | rfl
    · exact h.contained k hk
    · exact hb
  · intro k hk hfresh
    rcases (mem_insert hi).mp hk with hk | rfl
    · exact h.inputs k hk hfresh
    · -- no job can name an input that was not there
      rintro ⟨j, hj, hin⟩
      obtain ⟨q, hq, hid⟩ := h.owned j hj
      exact absurd (hid.trans hin) (insert_fresh hi q hq)
  · intro b hb hfresh
    rw [Set.mem_insert_iff, not_or] at hfresh
    have hne : (i.batch_id == b.id) = false := beq_eq_false_iff_ne.mpr (Ne.symm hfresh.1)
    refine BatchOK_congr (fun st => ?_) ?_ (h.batches b hb hfresh.2)
    · show inputs.count _ = db.inputs.count _
      rw [count_insert hi]
      simp [hne]
    · show inputs.count _ = db.inputs.count _
      rw [count_insert hi]
      simp [hne]

theorem JobStatus.active_live {s : JobStatus} (h : s.isActive = true) : s.isLive = true := by
  rw [isLive, h, Bool.or_true]

theorem Job.Renewed.sameClass {j j' : Job} (h : Job.Renewed j j') : SameClass j j' where
  toSame := h.toSame
  status := h.status.imp_right (fun e => ⟨JobStatus.active_live e.1, JobStatus.active_live e.2⟩)

/-- **Every move keeps the aggregate invariant.** -/
theorem AggInv.move {may : Id → Id → Prop} {s s' : Snap} (h : AggInv s) (hm : Move may s s') :
    AggInv s' := by
  have hkeep : ∀ (X B : Set Id) (i i' : InputRecord), i = i' →
      InputRecord.Same i i' ∧ (i.id ∉ X → InputRecord.Kept i i') ∧ (i.batch_id ∉ B → i'.status = i.status) := by
    rintro X B i _ rfl
    exact ⟨⟨rfl, rfl⟩, fun _ => .refl i, fun _ => rfl⟩
  have hsame : s.db.inputs.Evolves Eq s.db.inputs := Evolves.refl (fun _ _ => rfl)
  cases hm with
  | side | circuit | intents | record | source =>
    exact ⟨h.linked, h.owned, h.contained, h.inputs, h.batches⟩
  | renew hj _ hi =>
    refine h.evolve hj hi subset_rfl subset_rfl (fun r r' hr => ?_) (fun i i' hk => ?_) rfl rfl rfl rfl
    · exact ⟨hr.id, hr.input, fun _ => hr.sameClass⟩
    · exact ⟨hk.toSame, fun _ => hk, fun _ => hk.status⟩
  | claim j p a _ hq _ _ _ _ _ _ hj _ _ _ _ _ =>
    refine h.evolve hj hsame subset_rfl subset_rfl ?_ (hkeep _ _) rfl rfl rfl rfl
    rintro r r' (⟨rfl, hc⟩ | ⟨-, rfl⟩)
    · exact ⟨hc.id, hc.input, fun _ => ⟨hc.toSame, .inr ⟨by rw [hq]; rfl, by rw [hc.status]; rfl⟩⟩⟩
    · exact ⟨rfl, rfl, fun _ => .refl _⟩
  | endLease j t st _ hact _ hst _ hj _ _ _ =>
    refine h.evolve hj hsame ?_ subset_rfl ?_ (hkeep _ _) rfl rfl rfl rfl
    · rcases hst with ⟨-, -, rfl⟩ | ⟨-, rfl⟩
      · exact subset_rfl
      · exact Set.subset_insert ..
    · rintro r r' (⟨rfl, he⟩ | ⟨-, rfl⟩)
      · refine ⟨he.id, he.input, fun hfresh => ?_⟩
        rcases hst with ⟨rfl, -, -⟩ | ⟨-, rfl⟩
        · exact ⟨he.toSame, .inr ⟨JobStatus.active_live hact, by rw [he.status]; rfl⟩⟩
        · exact absurd (Set.mem_insert ..) hfresh
      · exact ⟨rfl, rfl, fun _ => .refl _⟩
  | drop k hj =>
    refine h.evolve hj hsame (Set.subset_insert ..) subset_rfl ?_ (hkeep _ _) rfl rfl rfl rfl
    rintro r r' (rfl | ⟨rfl, -, hd⟩)
    · exact ⟨rfl, rfl, fun _ => .refl _⟩
    · exact ⟨hd.id, hd.input, fun hfresh => absurd (Set.mem_insert ..) hfresh⟩
  | newJob j i hj _ _ _ _ _ hi hin _ => exact h.newJob hj ⟨i, hi, hin⟩
  | link l hl hj => exact h.link hl hj
  | newInput i hi hb => exact h.newInput hi hb
  | newBatch b hb =>
    refine ⟨h.linked, h.owned, fun i hi => ?_, h.inputs, fun c hc hfresh => ?_⟩
    · obtain ⟨c, hc, hid⟩ := h.contained i hi
      exact ⟨c, (mem_insert hb).mpr (.inl hc), hid⟩
    rw [Set.mem_insert_iff, not_or] at hfresh
    rcases (mem_insert hb).mp hc with hc | rfl
    · exact h.batches c hc hfresh.2
    · exact absurd rfl hfresh.1
  | setInput i hii hi =>
    refine h.evolve (Evolves.refl (fun r _ => (rfl : r = r))) hi (Set.subset_insert ..)
      (Set.subset_insert ..) ?_ ?_ rfl rfl rfl rfl
    · rintro r _ rfl
      exact ⟨rfl, rfl, fun _ => .refl r⟩
    · rintro r r' (rfl | ⟨rfl, hs, -⟩)
      · exact hkeep _ _ _ _ rfl
      · exact ⟨hs, fun hfresh => absurd (Set.mem_insert ..) hfresh,
          fun hfresh => absurd (Set.mem_insert ..) hfresh⟩
  | setBatch k hb =>
    refine ⟨h.linked, h.owned, fun i hi => ?_, h.inputs, fun c' hc' hfresh => ?_⟩
    · obtain ⟨c, hc, hid⟩ := h.contained i hi
      obtain ⟨c', hc', rfl | ⟨-, hid'⟩⟩ := hb.new hc
      · exact ⟨_, hc', hid⟩
      · exact ⟨c', hc', hid'.trans hid⟩
    rw [Set.mem_insert_iff, not_or] at hfresh
    obtain ⟨c, hc, rfl | ⟨hk, hid⟩⟩ := hb.old hc'
    · exact h.batches _ hc hfresh.2
    · exact absurd (hid.trans hk) hfresh.1
  | settleInput k hk =>
    refine ⟨h.linked, h.owned, h.contained, fun i hi hfresh => ?_, h.batches⟩
    by_cases hik : i.id = k
    · exact hk i hi hik
    · exact h.inputs i hi (fun hX => hfresh ⟨hX, hik⟩)
  | settleBatch k hk =>
    refine ⟨h.linked, h.owned, h.contained, h.inputs, fun b hb hfresh => ?_⟩
    by_cases hbk : b.id = k
    · exact hk b hb hbk
    · exact h.batches b hb (fun hB => hfresh ⟨hB, hbk⟩)

theorem AggInv.chain {may : Id → Id → Prop} {s s' : Snap} (h : AggInv s) (hc : Chain may s s') :
    AggInv s' := by
  induction hc with
  | refl => exact h
  | tail _ hm ih => exact ih.move hm

theorem AggInv.regen {s s' : Snap} {k : Id} (h : AggInv s) (hr : Regen k s s') : AggInv s' := by
  cases hr with
  | mk j i _ _ _ hin _ hj hi =>
    refine h.evolve hj hi (Set.subset_insert ..) (Set.subset_insert ..) ?_ ?_ rfl rfl rfl rfl
    · rintro r r' (⟨rfl, hq⟩ | ⟨-, rfl⟩)
      · refine ⟨hq.id, hq.input, fun hfresh => ?_⟩
        rw [← hin] at hfresh
        exact absurd (Set.mem_insert ..) hfresh
      · exact ⟨rfl, rfl, fun _ => .refl _⟩
    · rintro r r' (rfl | ⟨rfl, hs⟩)
      · exact ⟨⟨rfl, rfl⟩, fun _ => .refl _, fun _ => rfl⟩
      · exact ⟨hs, fun hfresh => absurd (Set.mem_insert ..) hfresh,
          fun hfresh => absurd (Set.mem_insert ..) hfresh⟩

end OpenFlame.Download
