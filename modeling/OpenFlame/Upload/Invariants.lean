import OpenFlame.Upload.Moves

/-!
# The invariants of the upload store survive every move

* `attemptStateIsValid_congr`, `attemptStateIsValid_running`   what the validity of a receipt reads;
* `LedgerOK.move`, `ReceiptsOK.move`, `Chain.ok`              **every chain of moves keeps both.**
-/

set_option linter.all false

namespace OpenFlame.Upload
open Guard Relation

section
variable {host : Host} {db db' : DB} {a a' : Attempt} {j j' : Job}

/-! ## the ledger -/

theorem LedgerOK.client (h : db.LedgerOK host) (hm : Client host db db') : db'.LedgerOK host := by
  have he := hm.extends
  cases hm with
  | world accounts sources assets operations jobs requests attempts => exact h.keep he (by rw [jobs]) requests
  | operation o fresh operations accounts sources assets jobs requests attempts =>
    exact h.keep he (by rw [jobs]) requests
  | jobs world requests attempts g rows lasting can => exact h.keep he (map_lasting rows lasting) requests
  | create world attempts new rows q request draft ids key jobs rooted covers =>
    have hmem : ∀ r' ∈ db'.jobs, r' ∈ db.jobs ∨ r' ∈ new := by
      intro r' hr'
      rw [← Table.mem_rows, rows] at hr'
      exact List.mem_append.mp hr'
    have hold : ∀ r ∈ db.jobs, r ∈ db'.jobs := by
      intro r hr
      rw [← Table.mem_rows, rows]
      exact List.mem_append_left _ hr
    have hnew : ∀ r ∈ new, r ∈ db'.jobs := by
      intro r hr
      rw [← Table.mem_rows, rows]
      exact List.mem_append_right _ hr
    have hq : q ∈ db'.requests := (Table.mem_insert request).mpr (.inr rfl)
    have hjob : ∀ r ∈ new, ∃ a ∈ db'.accounts, ∃ s ∈ db'.sources, a.id = r.content.account_id ∧
        s.id = r.source_id := by
      intro r hr
      have hrid : r.id ∈ jobs.map Job.id := by
        rw [rooted.ids, ids]
        exact List.mem_map_of_mem hr
      obtain ⟨j, hj, hjid⟩ := List.mem_map.mp hrid
      obtain ⟨s, hs, x, hx, y, hy, hxs, hys, rfl⟩ := DB.has_iff.mp (rooted.has j hj)
      have e : s = r := Table.eq_of_key hs (hnew r hr) hjid
      subst e
      exact ⟨x, hx, y, hy, hxs, hys⟩
    have hfresh : ∀ r ∈ db.jobs, ∀ s ∈ new, r.id ≠ s.id := by
      intro r hr s hs e
      have hnd := db'.jobs.keys
      rw [rows, List.map_append] at hnd
      exact (List.nodup_append.mp hnd).2.2 r.id (List.mem_map_of_mem hr) s.id (List.mem_map_of_mem hs) e
    refine h.grow he ?_ ?_ ?_
    · intro r' hr'
      rcases hmem r' hr' with hr | hr
      · exact .inl ⟨r', hr, rfl⟩
      · obtain ⟨x, hx, y, hy, hxs, hys⟩ := hjob r' hr
        refine .inr ⟨⟨x, hx, hxs⟩, ⟨y, hy, hys⟩, ?_, ?_, ?_⟩
        · intro id hid
          obtain ⟨z, hz, hzid⟩ := covers r' hr id hid
          exact ⟨z, world.assets ▸ hz, hzid⟩
        · intro p hp
          rw [(draft r' hr).2] at hp
          cases hp
        · intro _
          exact ⟨q, hq, by rw [ids]; exact List.mem_map_of_mem hr⟩
    · intro c hc d hd p hcp hdp
      rcases hmem c hc with hc | hc
      · rcases hmem d hd with hd | hd
        · exact h.children c hc d hd p hcp hdp
        · rw [(draft d hd).2] at hdp
          cases hdp
      · rw [(draft c hc).2] at hcp
        cases hcp
    · intro q' hq'
      rcases (Table.mem_insert request).mp hq' with hq' | rfl
      · exact .inl hq'
      · refine .inr ⟨key, fun _ => ⟨jobs, rooted⟩, ?_⟩
        intro q'' hq'' id hm hm'
        rcases (Table.mem_insert request).mp hq'' with hq'' | rfl
        · obtain ⟨jobs'', hr''⟩ := h.rooted q'' hq'' (List.ne_nil_of_mem hm')
          rw [← hr''.ids] at hm'
          obtain ⟨j, hj, rfl⟩ := List.mem_map.mp hm'
          obtain ⟨r, hr, hrid, -⟩ := (hr''.has j hj).row
          rw [ids] at hm
          obtain ⟨s, hs, hsid⟩ := List.mem_map.mp hm
          exact absurd (by rw [hrid, hsid]) (hfresh r hr s hs)
        · rfl
  | tombstone world attempts jobs q request empty key =>
    refine h.grow he (fun r' hr' => .inl ⟨r', jobs ▸ hr', rfl⟩) ?_ ?_
    · rw [jobs]
      exact h.children
    · intro q' hq'
      rcases (Table.mem_insert request).mp hq' with hq' | rfl
      · exact .inl hq'
      · refine .inr ⟨key, fun hne => absurd empty hne, ?_⟩
        intro q'' _ id hm
        rw [empty] at hm
        cases hm
  | successor world requests attempts p row mem leaf insert source content parent draft x receipt job_id retryable =>
    have hp' : p ∈ db'.jobs := (Table.mem_insert insert).mpr (.inl mem)
    refine h.grow he ?_ ?_ (fun q hq => .inl (requests ▸ hq))
    · intro r' hr'
      rcases (Table.mem_insert insert).mp hr' with hr' | rfl
      · exact .inl ⟨r', hr', rfl⟩
      · right
        refine ⟨?_, ?_, ?_, ?_, ?_⟩
        · rw [world.accounts, content]
          exact h.accounts p mem
        · rw [world.sources, source]
          exact h.sources p mem
        · rw [world.assets, content]
          exact h.covers p mem
        · intro p' hpp
          rw [parent] at hpp
          cases hpp
          refine ⟨p, hp', rfl, source.symm, content.symm, ?_⟩
          rw [he.rank mem, Table.rank_insert insert]
          exact Table.rank_lt mem
        · intro hnone
          rw [parent] at hnone
          cases hnone
    · intro c hc d hd p' hcp hdp
      rcases (Table.mem_insert insert).mp hc with hc | rfl
      · rcases (Table.mem_insert insert).mp hd with hd | rfl
        · exact h.children c hc d hd p' hcp hdp
        · rw [parent] at hdp
          cases hdp
          exact absurd hcp (leaf c hc)
      · rcases (Table.mem_insert insert).mp hd with hd | rfl
        · rw [parent] at hcp
          cases hcp
          exact absurd hdp (leaf d hd)
        · rfl
  | reconcile ha unknown =>
    obtain ⟨g, hrows, hg, -⟩ := ha.jobs
    exact h.keep he (map_lasting hrows hg) ha.requests

theorem LedgerOK.move (h : db.LedgerOK host) (hm : Move host db db') : db'.LedgerOK host := by
  have he := hm.extends
  cases hm with
  | client hc => exact LedgerOK.client h hc
  | queue hq => exact h.keep he (map_lasting hq.jobs upd_setResult_lasting) hq.requests
  | reserve hr => exact h.keep he (map_lasting hr.jobs upd_setResult_lasting) hr.requests
  | advance ha =>
    obtain ⟨g, hrows, hg, -⟩ := ha.jobs
    exact h.keep he (map_lasting hrows hg) ha.requests

/-! ## what the validity of a receipt reads -/

theorem attemptStateIsValid_congr (hpay : j'.payload = j.payload) (hstate : j'.state = j.state)
    (hcode : j'.code = j.code) : attemptStateIsValid j' a = attemptStateIsValid j a := by
  have ht : j'.target = j.target := (Prod.mk.inj hpay).2
  unfold attemptStateIsValid
  rw [show j'.platform = j.platform by rw [Job.platform, Job.platform, ht],
    show j'.mode = j.mode by rw [Job.mode, Job.mode, ht], hstate, hcode]

/-- the job of a receipt is not waiting for a claim -/
theorem attemptStateIsValid_claimed (hv : attemptStateIsValid j a = true) :
    j.state ≠ .draft ∧ j.state ≠ .queued := by
  obtain ⟨-, hv⟩ := Bool.and_eq_true_iff.mp hv
  cases hs : a.state with
  | reserved | dispatchMayHaveStarted =>
    rw [hs] at hv
    simp only [Bool.and_eq_true, beq_iff_eq] at hv
    rw [hv.1.2]
    exact ⟨nofun, nofun⟩
  | responded =>
    rw [hs] at hv
    simp only [Bool.and_eq_true, beq_iff_eq] at hv
    have hstate := hv.1.1.2
    cases hst : a.result_status with
    | none =>
      rw [hst] at hstate
      cases hstate
    | some s =>
      rw [hst, Option.map_some] at hstate
      rw [Option.some.inj hstate]
      cases s <;> exact ⟨nofun, nofun⟩
  | unknown =>
    rw [hs] at hv
    simp only [Bool.and_eq_true, beq_iff_eq] at hv
    rw [hv.1.1.2]
    exact ⟨nofun, nofun⟩
  | reconciled =>
    rw [hs] at hv
    simp only [Bool.and_eq_true, Option.any_eq_true, beq_iff_eq] at hv
    obtain ⟨c, -, -, hres⟩ := hv.1.1.1.2
    have hstate : j.state = c.jobResult.1 := congrArg Prod.fst hres
    rw [hstate]
    cases c <;> exact ⟨nofun, nofun⟩

/-- a receipt belongs to a running job iff it is open -/
theorem attemptStateIsValid_running_iff (hv : attemptStateIsValid j a = true) :
    j.state = .running ↔ a.state = .reserved ∨ a.state = .dispatchMayHaveStarted := by
  obtain ⟨-, hv⟩ := Bool.and_eq_true_iff.mp hv
  cases hs : a.state with
  | reserved | dispatchMayHaveStarted =>
    rw [hs] at hv
    simp only [Bool.and_eq_true, beq_iff_eq] at hv
    simp [hv.1.2]
  | responded =>
    rw [hs] at hv
    simp only [Bool.and_eq_true, beq_iff_eq] at hv
    have hstate := hv.1.1.2
    cases hst : a.result_status with
    | none =>
      rw [hst] at hstate
      cases hstate
    | some s =>
      rw [hst, Option.map_some] at hstate
      rw [Option.some.inj hstate]
      cases s <;> simp [ResultStatus.jobState]
  | unknown =>
    rw [hs] at hv
    simp only [Bool.and_eq_true, beq_iff_eq] at hv
    simp [hv.1.1.2]
  | reconciled =>
    rw [hs] at hv
    simp only [Bool.and_eq_true, Option.any_eq_true, beq_iff_eq] at hv
    obtain ⟨c, -, -, hres⟩ := hv.1.1.1.2
    have hstate : j.state = c.jobResult.1 := congrArg Prod.fst hres
    rw [hstate]
    cases c <;> simp [Reconciliation.jobResult]

/-- the code of a running job is free -/
theorem attemptStateIsValid_running (hv : attemptStateIsValid j a = true) (hrun : j.state = .running)
    (hpay : j'.payload = j.payload) (hrun' : j'.state = .running) : attemptStateIsValid j' a = true := by
  have hs := (attemptStateIsValid_running_iff hv).mp hrun
  have ht : j'.target = j.target := (Prod.mk.inj hpay).2
  unfold attemptStateIsValid at hv ⊢
  rw [show j'.platform = j.platform by rw [Job.platform, Job.platform, ht],
    show j'.mode = j.mode by rw [Job.mode, Job.mode, ht], hrun']
  rw [hrun] at hv
  rcases hs with hs | hs <;> rw [hs] at hv ⊢ <;> exact hv

/-! ## receipts -/

/-- the receipts of a store whose attempts are the same -/
theorem ReceiptsOK.sameAttempts (h : db.ReceiptsOK host) (he : db.Extends db') (hatt : db'.attempts = db.attempts)
    (hrow : ∀ r' ∈ db'.jobs,
      (∃ r ∈ db.jobs, r'.lasting = r.lasting ∧ (r'.state = r.state ∧ r'.code = r.code ∨ r.state.CanMove r'.state)) ∨
      r'.state.isUnclaimed = true ∧ db.attempts.get r'.id = none ∧
        ∀ p, r'.retry_of = some p → ∃ a ∈ db.attempts, a.job_id = p ∧ a.isRetryable = true) :
    db'.ReceiptsOK host where
  receipts := by
    intro x hx
    rw [hatt] at hx
    obtain ⟨k, hk, hkid, hi, hv⟩ := h.receipts x hx
    obtain ⟨k', hk', el⟩ := he.has hk
    have hid' : k'.id = k.id := Job.lasting_id el
    refine ⟨k', hk', by rw [hid', hkid], hi.mono he hk hk' hid' rfl, ?_⟩
    obtain ⟨r', hr', hrid, -, -, hst', hco', -⟩ := hk'.row
    rcases hrow r' hr' with ⟨r, hr, hl, hcase⟩ | ⟨-, hnone, -⟩
    · obtain ⟨s, hs, hsid, -, -, hst, hco, -⟩ := hk.row
      have e : r = s := Table.eq_of_key hr hs (by rw [← (JobRow.lasting_inj hl).1, hrid, hid', hsid])
      subst e
      rcases hcase with ⟨e1, e2⟩ | hcan
      · rw [attemptStateIsValid_congr (Job.lasting_payload el) (by rw [← hst', ← hst, e1]) (by rw [← hco', ← hco, e2])]
        exact hv
      · rcases hcan with ⟨hdq, -⟩ | ⟨hrun, hrun'⟩
        · have hnot := attemptStateIsValid_claimed hv
          rw [← hst] at hnot
          rcases hdq with e | e
          · exact absurd e hnot.1
          · exact absurd e hnot.2
        · exact attemptStateIsValid_running hv (by rw [← hst, hrun]) (Job.lasting_payload el) (by rw [← hst', hrun'])
    · rw [hrid, hid', hkid] at hnone
      exact absurd rfl (Table.get_eq_none.mp hnone x hx)
  unclaimed := by
    intro r' hr' hnone
    rw [hatt] at hnone
    rcases hrow r' hr' with ⟨r, hr, hl, hcase⟩ | ⟨hun, -⟩
    · have hold := h.unclaimed r hr (by rw [← (JobRow.lasting_inj hl).1]; exact hnone)
      rcases hcase with ⟨e1, -⟩ | hcan
      · rw [e1]
        exact hold
      · rcases hcan with ⟨-, e | e | e⟩ | ⟨e, -⟩
        · rw [e]; rfl
        · rw [e]; rfl
        · rw [e]; rfl
        · rw [e] at hold
          cases hold
    · exact hun
  parents := by
    intro c' hc' p hp
    rw [hatt]
    rcases hrow c' hc' with ⟨c, hc, hl, -⟩ | ⟨-, -, hpar⟩
    · exact h.parents c hc p (by rw [← (JobRow.lasting_inj hl).2.2.2, hp])
    · exact hpar p hp

/-- a job whose row and account did not change -/
theorem DB.SameWorld.has (h : db.SameWorld db') (hj : db.Has j) (hrow : ∀ r ∈ db.jobs, r.id = j.id → r ∈ db'.jobs) :
    db'.Has j := by
  obtain ⟨r, hr, x, hx, s, hs, hrx, hrs, rfl⟩ := DB.has_iff.mp hj
  exact DB.has_iff.mpr ⟨r, hrow r hr rfl, x, h.accounts ▸ hx, s, h.sources ▸ hs, hrx, hrs, rfl⟩

theorem ReceiptsOK.advance (h : db.ReceiptsOK host) (hm : Advance host db db' a a') : db'.ReceiptsOK host := by
  have he := hm.extends
  obtain ⟨g, hg, hgl, hgr⟩ := hm.jobs
  have hjob : a'.job_id = a.job_id := hm.job_id
  have hkeep : ∀ x ∈ db.attempts, x.job_id ≠ a.job_id → x ∈ db'.attempts :=
    fun x hx hne => hm.mem_attempts.mpr (.inr ⟨hx, hne⟩)
  have ha' : a' ∈ db'.attempts := hm.mem_attempts.mpr (.inl rfl)
  have hrows : ∀ r ∈ db.jobs, r.id ≠ a.job_id → r ∈ db'.jobs := by
    intro r hr hne
    rw [← Table.mem_rows, hg]
    exact List.mem_map.mpr ⟨r, hr, hgr r hr hne⟩
  constructor
  case receipts =>
    intro x' hx'
    rcases hm.mem_attempts.mp hx' with rfl | ⟨hx, hne⟩
    · obtain ⟨j, hj, hid, hi, -⟩ := h.receipts a hm.mem
      obtain ⟨j', hj', el⟩ := he.has hj
      have hid' : j'.id = j.id := Job.lasting_id el
      exact ⟨j', hj', by rw [hid', hid, hjob], hi.mono he hj hj' hid' hm.lasting,
        hm.valid j' hj' (by rw [hid', hid])⟩
    · obtain ⟨j, hj, hid, hi, hv⟩ := h.receipts x' hx
      have hj' : db'.Has j := hm.world.has hj (fun r hr e => hrows r hr (by rw [e, hid]; exact hne))
      exact ⟨j, hj', hid, hi.mono he hj hj' rfl rfl, hv⟩
  case unclaimed =>
    intro r' hr' hnone
    rw [← Table.mem_rows, hg] at hr'
    obtain ⟨r, hr, rfl⟩ := List.mem_map.mp hr'
    have hid : (g r).id = r.id := (JobRow.lasting_inj (hgl r)).1
    rw [hid] at hnone
    have hne : r.id ≠ a.job_id := by
      intro e
      rw [e, ← hjob] at hnone
      exact Table.get_eq_none.mp hnone a' ha' rfl
    rw [hgr r hr hne]
    refine h.unclaimed r hr (Table.get_eq_none.mpr (fun x hx e => ?_))
    exact Table.get_eq_none.mp hnone x (hkeep x hx (by rw [e]; exact hne)) e
  case parents =>
    intro c' hc' p hp
    rw [← Table.mem_rows, hg] at hc'
    obtain ⟨c, hc, rfl⟩ := List.mem_map.mp hc'
    obtain ⟨x, hx, hxid, hretry⟩ := h.parents c hc p (by rw [← (JobRow.lasting_inj (hgl c)).2.2.2, hp])
    have hne : x.job_id ≠ a.job_id := by
      intro e
      have hxa : x = a := Table.eq_of_key hx hm.mem e
      subst hxa
      have hnext := hm.next
      simp only [Attempt.isRetryable, Bool.or_eq_true, Bool.and_eq_true, beq_iff_eq] at hretry
      rcases hretry with ⟨hs, -⟩ | ⟨⟨hs, -⟩, -⟩ <;> rw [hs] at hnext <;> exact hnext
    exact ⟨x, hkeep x hx hne, hxid, hretry⟩

/-- a receipt that was just reserved fits the job that starts to run -/
theorem attemptStateIsValid_reserved (hrun : j.state = .running) (hs : a.state = .reserved)
    (h1 : a.result_status = none) (h2 : a.result_code = none) (h3 : a.evidence_kind = none)
    (h4 : a.dispatch_started_at = none) (h5 : a.responded_at = none) (h6 : a.revision = 0)
    (h7 : a.noReconciliation = true) : attemptStateIsValid j a = true := by
  simp [attemptStateIsValid, hrun, hs, h1, h2, h3, h4, h5, h6, h7, uploadEvidenceIsValid]

theorem ReceiptsOK.reserve (h : db.ReceiptsOK host) (hm : Reserve host db db' j a) : db'.ReceiptsOK host := by
  have he := hm.extends
  obtain ⟨h0, h1, h2, h3, h4, h5, h6, h7⟩ := hm.reserved
  have hatt : ∀ x' ∈ db'.attempts, x' ∈ db.attempts ∨ x' = a := fun x' hx' => (Table.mem_insert hm.attempts).mp hx'
  have hfresh : ∀ x ∈ db.attempts, x.job_id ≠ j.id := by
    intro x hx
    rw [← hm.job_id]
    exact Table.insert_fresh hm.attempts x hx
  have hrows : ∀ r ∈ db.jobs, r.id ≠ j.id → r ∈ db'.jobs := by
    intro r hr hne
    rw [← Table.mem_rows, hm.jobs]
    exact List.mem_map.mpr ⟨r, hr, Table.upd_ne hne⟩
  have hrow : ∀ r' ∈ db'.jobs, r' ∈ db.jobs ∧ r'.id ≠ j.id ∨ ∃ r ∈ db.jobs, r.id = j.id ∧ r' = r.setResult .running "" := by
    intro r' hr'
    rw [← Table.mem_rows, hm.jobs] at hr'
    obtain ⟨r, hr, rfl⟩ := List.mem_map.mp hr'
    by_cases e : r.id = j.id
    · rw [Table.upd_eq e]
      exact .inr ⟨r, hr, e, rfl⟩
    · rw [Table.upd_ne e]
      exact .inl ⟨hr, e⟩
  constructor
  case receipts =>
    intro x' hx'
    rcases hatt x' hx' with hx | rfl
    · obtain ⟨k, hk, hid, hi, hv⟩ := h.receipts x' hx
      have hne : k.id ≠ j.id := by
        rw [hid]
        exact hfresh x' hx
      have hk' : db'.Has k := hm.world.has hk (fun r hr e => hrows r hr (by rw [e]; exact hne))
      exact ⟨k, hk', hid, hi.mono he hk hk' rfl rfl, hv⟩
    · obtain ⟨k, hk, el⟩ := he.has hm.has
      have hkid : k.id = j.id := Job.lasting_id el
      refine ⟨k, hk, by rw [hkid, hm.job_id], hm.identified.mono he hm.has hk hkid rfl, ?_⟩
      obtain ⟨r', hr', hrid, -, -, hst, -⟩ := hk.row
      have hrun : k.state = .running := by
        rcases hrow r' hr' with ⟨-, hne⟩ | ⟨r, -, -, rfl⟩
        · exact absurd (by rw [hrid, hkid]) hne
        · exact hst.symm
      exact attemptStateIsValid_reserved hrun h0 h1 h2 h3 h4 h5 h6 h7
  case unclaimed =>
    intro r' hr' hnone
    rcases hrow r' hr' with ⟨hr, hne⟩ | ⟨r, hr, hid, rfl⟩
    · refine h.unclaimed r' hr (Table.get_eq_none.mpr (fun x hx e => ?_))
      exact Table.get_eq_none.mp hnone x ((Table.mem_insert hm.attempts).mpr (.inl hx)) e
    · have := Table.get_eq_none.mp hnone a ((Table.mem_insert hm.attempts).mpr (.inr rfl))
      exact absurd (by rw [hm.job_id]; exact hid.symm) this
  case parents =>
    intro c' hc' p hp
    have hc : ∃ c ∈ db.jobs, c.retry_of = c'.retry_of := by
      rcases hrow c' hc' with ⟨hc, -⟩ | ⟨c, hc, -, rfl⟩
      · exact ⟨c', hc, rfl⟩
      · exact ⟨c, hc, rfl⟩
    obtain ⟨c, hc, e⟩ := hc
    obtain ⟨x, hx, hxid, hretry⟩ := h.parents c hc p (by rw [e, hp])
    exact ⟨x, (Table.mem_insert hm.attempts).mpr (.inl hx), hxid, hretry⟩

theorem ReceiptsOK.client (h : db.ReceiptsOK host) (hm : Client host db db') :
    db'.ReceiptsOK host := by
  have he := hm.extends
  have hrec : ∀ x ∈ db.attempts, ∃ r ∈ db.jobs, r.id = x.job_id := by
    intro x hx
    obtain ⟨k, hk, hid, -⟩ := h.receipts x hx
    obtain ⟨r, hr, hrid, -⟩ := hk.row
    exact ⟨r, hr, by rw [hrid, hid]⟩
  cases hm with
  | world accounts sources assets operations jobs requests attempts =>
    exact ReceiptsOK.sameAttempts h he attempts (fun r' hr' => .inl ⟨r', jobs ▸ hr', rfl, .inl ⟨rfl, rfl⟩⟩)
  | operation o fresh operations accounts sources assets jobs requests attempts =>
    exact ReceiptsOK.sameAttempts h he attempts (fun r' hr' => .inl ⟨r', jobs ▸ hr', rfl, .inl ⟨rfl, rfl⟩⟩)
  | jobs world requests attempts g rows lasting can =>
    refine ReceiptsOK.sameAttempts h he attempts (fun r' hr' => ?_)
    rw [← Table.mem_rows, rows] at hr'
    obtain ⟨r, hr, rfl⟩ := List.mem_map.mp hr'
    refine .inl ⟨r, hr, lasting r, ?_⟩
    rcases can r hr with e | ⟨hc, -⟩
    · rw [e]
      exact .inl ⟨rfl, rfl⟩
    · exact .inr hc
  | create world attempts new rows q request draft ids key jobs rooted covers =>
    refine ReceiptsOK.sameAttempts h he attempts (fun r' hr' => ?_)
    rw [← Table.mem_rows, rows] at hr'
    rcases List.mem_append.mp hr' with hr | hr
    · exact .inl ⟨r', hr, rfl, .inl ⟨rfl, rfl⟩⟩
    · obtain ⟨hd, hn⟩ := draft r' hr
      refine .inr ⟨by rw [hd]; rfl, Table.get_eq_none.mpr (fun x hx e => ?_), ?_⟩
      · obtain ⟨r, hr0, hrid⟩ := hrec x hx
        have hnd := db'.jobs.keys
        rw [rows, List.map_append] at hnd
        exact (List.nodup_append.mp hnd).2.2 r.id (List.mem_map_of_mem hr0) r'.id (List.mem_map_of_mem hr)
          (by rw [hrid, e])
      · intro p hp
        rw [hn] at hp
        cases hp
  | tombstone world attempts jobs q request empty key =>
    exact ReceiptsOK.sameAttempts h he attempts (fun r' hr' => .inl ⟨r', jobs ▸ hr', rfl, .inl ⟨rfl, rfl⟩⟩)
  | successor world requests attempts p row mem leaf insert source content parent draft x receipt job_id retryable =>
    refine ReceiptsOK.sameAttempts h he attempts (fun r' hr' => ?_)
    rcases (Table.mem_insert insert).mp hr' with hr | rfl
    · exact .inl ⟨r', hr, rfl, .inl ⟨rfl, rfl⟩⟩
    · refine .inr ⟨by rw [draft]; rfl, Table.get_eq_none.mpr (fun y hy e => ?_), ?_⟩
      · obtain ⟨r, hr0, hrid⟩ := hrec y hy
        exact Table.insert_fresh insert r hr0 (by rw [hrid, e])
      · intro p' hp'
        rw [parent] at hp'
        cases hp'
        exact ⟨x, receipt, job_id, retryable⟩
  | reconcile ha unknown => exact ReceiptsOK.advance h ha

theorem ReceiptsOK.queue (h : db.ReceiptsOK host) {id : Ident} (hm : Queue db db' id) : db'.ReceiptsOK host := by
  refine ReceiptsOK.sameAttempts h hm.extends hm.attempts (fun r' hr' => ?_)
  obtain ⟨r, hr, rfl⟩ := Table.exists_of_rows hr' hm.jobs
  refine .inl ⟨r, hr, upd_setResult_lasting r, ?_⟩
  by_cases e : r.id = id
  · rw [Table.upd_eq e]
    exact .inr (.inl ⟨.inl (hm.draft r hr e), .inr (.inl rfl)⟩)
  · rw [Table.upd_ne e]
    exact .inl ⟨rfl, rfl⟩

/-! ## the store -/

/-- both invariants -/
structure DB.OK (host : Host) (db : DB) : Prop where
  ledger : db.LedgerOK host
  receipts : db.ReceiptsOK host

theorem DB.OK.move (h : db.OK host) (hm : Move host db db') : db'.OK host := by
  refine ⟨LedgerOK.move h.ledger hm, ?_⟩
  cases hm with
  | client hc => exact ReceiptsOK.client h.receipts hc
  | queue hq => exact ReceiptsOK.queue h.receipts hq
  | reserve hr => exact ReceiptsOK.reserve h.receipts hr
  | advance ha => exact ReceiptsOK.advance h.receipts ha

theorem Chain.ok (hc : Chain host db db') (h : db.OK host) : db'.OK host := by
  induction hc with
  | refl => exact h
  | tail _ hm ih => exact ih.move hm

theorem DB.OK.initial : DB.initial.OK host where
  ledger := by constructor <;> simp [DB.initial]
  receipts := by constructor <;> simp [DB.initial]

end
end OpenFlame.Upload
