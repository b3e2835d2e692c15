import OpenFlame.Download.Assets

/-!
# Cancel wins

`DB.Flagged db k t`     job `k` is active under token `t` and its cancellation was requested
`Closing k t α`         attempt `α` works on such a lease, or stopped
`DB.InputFlagged db k`  the cancellation of input `k` was requested

A flagged lease ends canceled and registers nothing; a flagged input gets no job.  Each is shown of a
move, then of a chain, then of a transaction.

`cancelWins_reachable`: **what was asked to stop stops.**
-/

set_option linter.all false

namespace OpenFlame.Download
open Guard TransSys

def DB.Flagged (db : DB) (k t : Id) : Prop :=
  ∃ j ∈ db.jobs, j.id = k ∧ j.status.isActive = true ∧ j.lease_token = some t ∧
    j.cancel_requested_at.isSome = true

def DB.CanceledJob (db : DB) (k : Id) : Prop := ∃ j ∈ db.jobs, j.id = k ∧ j.status = .canceled

/-- the attempt that holds token `t` of job `k`, while the lease is flagged, and once it stopped -/
structure Closing (k t α : Id) (db : DB) : Prop where
  attempt : ∃ x ∈ db.attempts, x.id = α ∧ x.job_id = k ∧ x.lease_token = t
  standing : db.Flagged k t ∨ ∃ x ∈ db.attempts, x.id = α ∧ x.status ≠ .running

def DB.InputFlagged (db : DB) (k : Id) : Prop :=
  ∃ i ∈ db.inputs, i.id = k ∧ i.cancel_requested_at.isSome = true

section
variable {may : Id → Id → Prop} {s s' : Snap} {k t α : Id}

/-! ## the job -/

theorem flagged_move (hm : Move may s s') (h : s.db.Flagged k t) :
    s'.db.Flagged k t ∨ s'.db.CanceledJob k := by
  obtain ⟨j, hj, hid, hactive, ht, hflag⟩ := h
  cases hm with
  | renew hjobs _ _ =>
    obtain ⟨j', hj', hr⟩ := hjobs.new hj
    have hactive' : j'.status.isActive = true := by
      rcases hr.status with hs | ⟨-, hs⟩
      · rw [hs, hactive]
      · exact hs
    exact .inl ⟨j', hj', hr.id.trans hid, hactive', hr.token.trans ht, by rw [hr.cancel hflag, hflag]⟩
  | claim j₀ p a _ hq _ _ _ _ _ _ hjobs _ _ _ _ _ =>
    obtain ⟨j', hj', ⟨rfl, -⟩ | ⟨-, rfl⟩⟩ := hjobs.new hj
    · rw [hq] at hactive
      cases hactive
    · exact .inl ⟨_, hj', hid, hactive, ht, hflag⟩
  | endLease j₀ t₀ st _ _ _ _ hcancel hjobs _ _ _ =>
    obtain ⟨j', hj', ⟨rfl, he⟩ | ⟨-, rfl⟩⟩ := hjobs.new hj
    · rcases hcancel with rfl | hnone
      · exact .inr ⟨j', hj', he.id.trans hid, he.status⟩
      · rw [hnone] at hflag
        cases hflag
    · exact .inl ⟨_, hj', hid, hactive, ht, hflag⟩
  | drop k₀ hjobs =>
    obtain ⟨j', hj', rfl | ⟨-, hq, -⟩⟩ := hjobs.new hj
    · exact .inl ⟨_, hj', hid, hactive, ht, hflag⟩
    · rw [hq] at hactive
      cases hactive
  | newJob j₀ i hins _ _ _ _ _ _ _ _ =>
    exact .inl ⟨j, (Table.mem_insert hins).mpr (.inl hj), hid, hactive, ht, hflag⟩
  | side | circuit | intents | record | source | link | newInput | newBatch | setInput | setBatch
    | settleInput | settleBatch => exact .inl ⟨j, hj, hid, hactive, ht, hflag⟩

theorem canceled_move (hm : Move may s s') (h : s.db.CanceledJob k) : s'.db.CanceledJob k := by
  obtain ⟨j, hj, hid, hst⟩ := h
  cases hm with
  | renew hjobs _ _ =>
    obtain ⟨j', hj', hr⟩ := hjobs.new hj
    rcases hr.status with hs | ⟨hs, -⟩
    · exact ⟨j', hj', hr.id.trans hid, hs.trans hst⟩
    · rw [hst] at hs
      cases hs
  | claim j₀ p a _ hq _ _ _ _ _ _ hjobs _ _ _ _ _ =>
    obtain ⟨j', hj', ⟨rfl, -⟩ | ⟨-, rfl⟩⟩ := hjobs.new hj
    · rw [hq] at hst
      cases hst
    · exact ⟨_, hj', hid, hst⟩
  | endLease j₀ t₀ st _ hactive _ _ _ hjobs _ _ _ =>
    obtain ⟨j', hj', ⟨rfl, -⟩ | ⟨-, rfl⟩⟩ := hjobs.new hj
    · rw [hst] at hactive
      cases hactive
    · exact ⟨_, hj', hid, hst⟩
  | drop k₀ hjobs =>
    obtain ⟨j', hj', rfl | ⟨-, hq, -⟩⟩ := hjobs.new hj
    · exact ⟨_, hj', hid, hst⟩
    · rw [hq] at hst
      cases hst
  | newJob j₀ i hins _ _ _ _ _ _ _ _ => exact ⟨j, (Table.mem_insert hins).mpr (.inl hj), hid, hst⟩
  | side | circuit | intents | record | source | link | newInput | newBatch | setInput | setBatch
    | settleInput | settleBatch => exact ⟨j, hj, hid, hst⟩

theorem flagged_chain (hc : Chain may s s') (h : s.db.Flagged k t) :
    s'.db.Flagged k t ∨ s'.db.CanceledJob k := by
  induction hc with
  | refl => exact .inl h
  | tail _ hm ih => exact ih.elim (flagged_move hm) (fun hc => .inr (canceled_move hm hc))

/-- only finished jobs start a new generation -/
theorem flagged_regen {k' : Id} (hr : Regen k' s s') (h : s.db.Flagged k t) : s'.db.Flagged k t := by
  obtain ⟨j, hj, hid, hactive, ht, hflag⟩ := h
  cases hr with
  | mk j₀ i _ hterminal _ _ _ hjobs _ =>
    obtain ⟨j', hj', ⟨rfl, -⟩ | ⟨-, rfl⟩⟩ := hjobs.new hj
    · rw [JobStatus.terminal_inactive hterminal] at hactive
      cases hactive
    · exact ⟨_, hj', hid, hactive, ht, hflag⟩

theorem flagged_tx {l : Label} {db db' : DB} (htx : Tx may l db db') (h : db.Flagged k t) :
    db'.Flagged k t ∨ db'.CanceledJob k := by
  rcases htx with hc | ⟨k', -, s, hr, hc⟩ | ⟨-, gate, rfl⟩
  · exact flagged_chain hc h
  · exact flagged_chain hc (flagged_regen hr h)
  · exact .inl h

/-! ## its attempt -/

/-- a flagged lease publishes nothing -/
theorem flagged_media (hinv : s.db.LeaseOK) (hm : Move may s s') (h : s.db.Flagged k t) {x : Attempt}
    (hx : x ∈ s.db.attempts) (hxt : x.lease_token = t) :
    ∀ m ∈ s'.db.media, m ∈ s.db.media ∨ ∃ β, β ≠ x.id ∧ may m.id β := by
  obtain ⟨j, hj, -, -, ht, hflag⟩ := h
  cases hm with
  | endLease j₀ t₀ st hj₀ _ ht₀ _ hcancel _ _ _ hmedia =>
    intro m hm
    rcases hmedia m hm with hm | ⟨rfl, a, ha, hmay, hat⟩
    · exact .inl hm
    · refine .inr ⟨a.id, fun hid => ?_, hmay⟩
      -- the publisher would hold the flagged lease
      have hax : a = x := Table.eq_of_key ha hx hid
      have hjj : j = j₀ := hinv.job_of_token hj₀ hj ht₀ (by rw [ht, ← hxt, ← hax, hat])
      rcases hcancel with hst | hnone
      · cases hst
      · rw [← hjj] at hnone
        rw [hnone] at hflag
        cases hflag
  | renew | claim | drop | newJob | side | circuit | intents | record | source | link | newInput | newBatch
    | setInput | setBatch | settleInput | settleBatch => exact fun m hm => .inl hm

theorem closing_move (hinv : s.db.LeaseOK) (hm : Move may s s') (h : Closing k t α s.db) :
    Closing k t α s'.db ∧ ∀ m ∈ s'.db.media, m ∈ s.db.media ∨ ∃ β, β ≠ α ∧ may m.id β := by
  have hstep := AssetStep.of_move hinv hm
  obtain ⟨x, hx, rfl, rfl, rfl⟩ := h.attempt
  obtain ⟨x', hx', hstop⟩ := hstep.attempts x hx
  have hinv' := LeaseInv.move hinv hm
  have hattempt : ∃ y ∈ s'.db.attempts, y.id = x.id ∧ y.job_id = x.job_id ∧ y.lease_token = x.lease_token :=
    ⟨x', hx', hstop.id, hstop.job, hstop.token⟩
  rcases h.standing with hflag | ⟨y, hy, hyid, hystop⟩
  · refine ⟨⟨hattempt, ?_⟩, flagged_media hinv hm hflag hx rfl⟩
    rcases flagged_move hm hflag with hflag | ⟨j, hj, hid, hst⟩
    · exact .inl hflag
    · -- the job is canceled, so it holds no token and its attempt stopped
      refine .inr ⟨x', hx', hstop.id, fun hrun => ?_⟩
      have ht := hinv'.running_job hx' hrun hj (hid.trans hstop.job.symm)
      have hactive := (hinv'.leased j hj).mpr (by rw [ht]; rfl)
      rw [hst] at hactive
      cases hactive
  · obtain rfl : y = x := Table.eq_of_key hy hx hyid
    refine ⟨⟨hattempt, .inr ⟨x', hx', hstop.id, fun hrun => hystop (hstop.running hrun)⟩⟩, fun m hm => ?_⟩
    rcases hstep.media m hm with hm | ⟨a, ha, -, -, hmay, hrun, -, -⟩
    · exact .inl hm
    · refine .inr ⟨a.id, fun hid => ?_, hmay⟩
      rw [Table.eq_of_key ha hy hid] at hrun
      exact hystop hrun

theorem closing_chain (hinv : s.db.LeaseOK) (hc : Chain may s s') (h : Closing k t α s.db) :
    Closing k t α s'.db ∧ ∀ m ∈ s'.db.media, m ∈ s.db.media ∨ ∃ β, β ≠ α ∧ may m.id β := by
  induction hc with
  | refl => exact ⟨h, fun m hm => .inl hm⟩
  | tail hc hm ih =>
    obtain ⟨hclosing, hmedia⟩ := ih
    obtain ⟨hclosing', hmedia'⟩ := closing_move (LeaseInv.chain hinv hc) hm hclosing
    exact ⟨hclosing', fun m hm => (hmedia' m hm).elim (hmedia m) .inr⟩

theorem closing_tx {l : Label} {db db' : DB} (hinv : db.LeaseOK) (htx : Tx may l db db')
    (h : Closing k t α db) :
    Closing k t α db' ∧ ∀ m ∈ db'.media, m ∈ db.media ∨ ∃ β, β ≠ α ∧ may m.id β := by
  rcases htx with hc | ⟨k', -, s, hr, hc⟩ | ⟨-, gate, rfl⟩
  · exact closing_chain hinv hc h
  · have hsame : s.db.attempts = db.attempts ∧ s.db.media = db.media := by
      cases hr
      exact ⟨rfl, rfl⟩
    have h' : Closing k t α s.db := by
      refine ⟨by rw [hsame.1]; exact h.attempt, ?_⟩
      rw [hsame.1]
      exact h.standing.imp_left (flagged_regen hr)
    obtain ⟨hclosing, hmedia⟩ := closing_chain (LeaseInv.regen hinv hr) hc h'
    rw [hsame.2] at hmedia
    exact ⟨hclosing, hmedia⟩
  · exact ⟨⟨h.attempt, h.standing⟩, fun m hm => .inl hm⟩

/-! ## the input -/

theorem inputFlagged_move (hm : Move may s s') (h : s.db.InputFlagged k) :
    s'.db.InputFlagged k ∧ ∀ j' ∈ s'.db.jobs, j'.input_record_id = k → ∃ j ∈ s.db.jobs,
      j.id = j'.id ∧ j.input_record_id = k := by
  obtain ⟨i, hi, hid, hflag⟩ := h
  have hkept : ∀ {R : Job → Job → Prop} {jobs}, s.db.jobs.Evolves R jobs → (∀ r r', R r r' →
      r'.id = r.id ∧ r'.input_record_id = r.input_record_id) → ∀ j' ∈ jobs, j'.input_record_id = k →
        ∃ j ∈ s.db.jobs, j.id = j'.id ∧ j.input_record_id = k := by
    intro R jobs hev hR j' hj' hin
    obtain ⟨j, hj, hr⟩ := hev.old hj'
    exact ⟨j, hj, (hR j j' hr).1.symm, (hR j j' hr).2.symm.trans hin⟩
  cases hm with
  | renew hjobs _ hinputs =>
    obtain ⟨i', hi', hr⟩ := hinputs.new hi
    exact ⟨⟨i', hi', hr.id.trans hid, by rw [hr.cancel, hflag]⟩, hkept hjobs (fun _ _ hr => ⟨hr.id, hr.input⟩)⟩
  | claim _ _ _ _ _ _ _ _ _ _ _ hjobs _ _ _ _ _ =>
    refine ⟨⟨i, hi, hid, hflag⟩, hkept hjobs (fun r r' hr => ?_)⟩
    rcases hr with ⟨rfl, he⟩ | ⟨-, rfl⟩
    · exact ⟨he.id, he.input⟩
    · exact ⟨rfl, rfl⟩
  | endLease _ _ _ _ _ _ _ _ hjobs _ _ _ =>
    refine ⟨⟨i, hi, hid, hflag⟩, hkept hjobs (fun r r' hr => ?_)⟩
    rcases hr with ⟨rfl, he⟩ | ⟨-, rfl⟩
    · exact ⟨he.id, he.input⟩
    · exact ⟨rfl, rfl⟩
  | drop _ hjobs =>
    refine ⟨⟨i, hi, hid, hflag⟩, hkept hjobs (fun r r' hr => ?_)⟩
    rcases hr with rfl | ⟨-, -, he⟩
    · exact ⟨rfl, rfl⟩
    · exact ⟨he.id, he.input⟩
  | newJob j₀ i₀ hins _ _ _ _ _ hi₀ hinput hcancel =>
    refine ⟨⟨i, hi, hid, hflag⟩, fun j' hj' hin => ?_⟩
    rcases (Table.mem_insert hins).mp hj' with hj' | rfl
    · exact ⟨j', hj', rfl, hin⟩
    · -- a job is created for an input only while its cancellation was not requested
      rw [Table.eq_of_key hi hi₀ (hid.trans (hin.symm.trans hinput.symm)), hcancel] at hflag
      cases hflag
  | setInput i₀ hi₀ hinputs =>
    refine ⟨?_, fun j' hj' hin => ⟨j', hj', rfl, hin⟩⟩
    obtain ⟨i', hi', rfl | ⟨-, hsame, hkeep⟩⟩ := hinputs.new hi
    · exact ⟨_, hi', hid, hflag⟩
    · exact ⟨i', hi', hsame.id.trans hid, hkeep hflag⟩
  | newInput i₀ hins _ =>
    exact ⟨⟨i, (Table.mem_insert hins).mpr (.inl hi), hid, hflag⟩, fun j' hj' hin => ⟨j', hj', rfl, hin⟩⟩
  | side | circuit | intents | record | source | link | newBatch | setBatch | settleInput | settleBatch =>
    exact ⟨⟨i, hi, hid, hflag⟩, fun j' hj' hin => ⟨j', hj', rfl, hin⟩⟩

theorem inputFlagged_chain (hc : Chain may s s') (h : s.db.InputFlagged k) :
    s'.db.InputFlagged k ∧ ∀ j' ∈ s'.db.jobs, j'.input_record_id = k → ∃ j ∈ s.db.jobs,
      j.id = j'.id ∧ j.input_record_id = k := by
  induction hc with
  | refl => exact ⟨h, fun j' hj' hin => ⟨j', hj', rfl, hin⟩⟩
  | tail _ hm ih =>
    obtain ⟨hflag, hold⟩ := ih
    obtain ⟨hflag', hold'⟩ := inputFlagged_move hm hflag
    refine ⟨hflag', fun j' hj' hin => ?_⟩
    obtain ⟨r, hr, hrid, hrin⟩ := hold' j' hj' hin
    obtain ⟨j, hj, hjid, hjin⟩ := hold r hr hrin
    exact ⟨j, hj, hjid.trans hrid, hjin⟩

/-- only the input of the new generation is touched -/
theorem inputFlagged_regen {k' : Id} (hr : Regen k' s s') (hne : k' ≠ k) (h : s.db.InputFlagged k) :
    s'.db.InputFlagged k ∧ ∀ j' ∈ s'.db.jobs, j'.input_record_id = k → ∃ j ∈ s.db.jobs,
      j.id = j'.id ∧ j.input_record_id = k := by
  obtain ⟨i, hi, hid, hflag⟩ := h
  cases hr with
  | mk j₀ i₀ _ _ hi₀ _ hk hjobs hinputs =>
    constructor
    · obtain ⟨i', hi', rfl | ⟨rfl, -⟩⟩ := hinputs.new hi
      · exact ⟨_, hi', hid, hflag⟩
      · exact absurd (hk.symm.trans hid) hne
    · intro j' hj' hin
      obtain ⟨j, hj, ⟨rfl, he⟩ | ⟨-, rfl⟩⟩ := hjobs.old hj'
      · exact ⟨_, hj, he.id.symm, he.input.symm.trans hin⟩
      · exact ⟨_, hj, rfl, hin⟩

/-- a transaction gives a flagged input no job, unless it starts a new generation of it -/
theorem inputFlagged_tx {l : Label} {db db' : DB} (htx : Tx may l db db') (h : db.InputFlagged k) :
    (db'.InputFlagged k ∧ ∀ j' ∈ db'.jobs, j'.input_record_id = k → ∃ j ∈ db.jobs,
      j.id = j'.id ∧ j.input_record_id = k) ∨ l.restarts db k := by
  rcases htx with hc | ⟨k', hl, s, hr, hc⟩ | ⟨-, gate, rfl⟩
  · exact .inl (inputFlagged_chain hc h)
  · by_cases hk : k' = k
    · exact .inr (hk ▸ hl)
    · obtain ⟨hflag, hold⟩ := inputFlagged_regen hr hk h
      obtain ⟨hflag', hold'⟩ := inputFlagged_chain hc hflag
      refine .inl ⟨hflag', fun j' hj' hin => ?_⟩
      obtain ⟨r, hr, hrid, hrin⟩ := hold' j' hj' hin
      obtain ⟨j, hj, hjid, hjin⟩ := hold r hr hrin
      exact ⟨j, hj, hjid.trans hrid, hjin⟩
  · exact .inl ⟨h, fun j' hj' hin => ⟨j', hj', rfl, hin⟩⟩

end

/-! ## runs -/

section
variable {codec : GraphCodec} {w w' : World}

/-- what is staged in a step was staged before or is a new asset -/
theorem World.staged_step {l : Label} (hs : w.Step codec l w') :
    ∀ x ∈ w'.staged, x ∈ w.staged ∨ ∀ y ∈ w.staged, y.1 ≠ x.1 := by
  intro x hx
  rcases World.apply_cases hs.2 with heq | ⟨a, α, rfl, rfl⟩ | ⟨lease, op, r, -, -, rfl⟩ |
    ⟨lease, op, calls, r, -, -, rfl⟩ | ⟨req, st, -, -, rfl⟩ | ⟨claim, -, rfl⟩
  · rw [heq] at hx
    exact .inl hx
  · rcases List.mem_cons.mp hx with rfl | hx
    · exact .inr hs.1
    · exact .inl hx
  · exact .inl hx
  · exact .inl hx
  · exact .inl hx
  · exact .inl hx

/-- no asset that attempt `α` staged is registered -/
def World.Unpublished (w : World) (α : Id) : Prop := ∀ m ∈ w.db.media, (m.id, α) ∉ w.staged

theorem World.unpublished_step {l : Label} {k t α : Id} (hr : w.Reachable codec) (hs : w.Step codec l w')
    (h : Closing k t α w.db ∧ w.Unpublished α) : Closing k t α w'.db ∧ w'.Unpublished α := by
  have hok := World.ok_reach hr
  have hassets := World.assets_reach hr
  obtain ⟨hclosing, hmedia⟩ := closing_tx hok.lease (World.apply_tx hok hs) h.1
  refine ⟨hclosing, fun m hm hst => ?_⟩
  rcases hmedia m hm with hm | ⟨β, hne, hmay⟩
  · obtain ⟨a, -, hsta, -⟩ := hassets.inv.registered m hm
    rcases World.staged_step hs _ hst with hst | hnew
    · exact h.2 m hm hst
    · exact hnew _ hsta rfl
  · rcases World.staged_step hs _ hst with hst | hnew
    · exact hne (hassets.once _ _ _ hmay.1 hst)
    · exact hnew _ hmay.1 rfl

/-- what happens to lease `t` of job `k` once its cancellation was requested -/
structure CancelOutcome (codec : GraphCodec) (w : World) (k t : Id) : Prop where
  /-- the lease stays as it is up to a step that cancels the job -/
  exit : ∀ ls w', Run (World.Step codec) w ls w' → w'.db.Flagged k t ∨
    ∃ ls₁ l ls₂ w₁ w₂, ls = ls₁ ++ l :: ls₂ ∧
      Run (fun a l b => a.db.Flagged k t ∧ a.Step codec l b) w ls₁ w₁ ∧ w₁.db.Flagged k t ∧
      w₁.Step codec l w₂ ∧ w₂.db.CanceledJob k ∧ Run (World.Step codec) w₂ ls₂ w'
  assets : ∀ a ∈ w.db.attempts, a.lease_token = t → ∀ ls w', Run (World.Step codec) w ls w' →
    w'.Unpublished a.id

/-- the jobs of input `k` in a later world existed before, unless a new generation of it was started -/
def NoNewChild (codec : GraphCodec) (w : World) (k : Id) : Prop :=
  ∀ ls w', Run (World.Step codec) w ls w' →
    (∀ j' ∈ w'.db.jobs, j'.input_record_id = k → ∃ j ∈ w.db.jobs, j.id = j'.id) ∨
    ∃ ls₁ l ls₂ w₁ w₂, ls = ls₁ ++ l :: ls₂ ∧ Run (World.Step codec) w ls₁ w₁ ∧ l.restarts w₁.db k ∧
      w₁.Step codec l w₂ ∧ Run (World.Step codec) w₂ ls₂ w'

structure CancelWins (codec : GraphCodec) (w : World) : Prop where
  jobs : ∀ j ∈ w.db.jobs, j.status.isActive = true → j.cancel_requested_at ≠ none →
    ∃ t, j.lease_token = some t ∧ CancelOutcome codec w j.id t
  inputs : ∀ i ∈ w.db.inputs, i.cancel_requested_at ≠ none → NoNewChild codec w i.id
  /-- `request_cancel_input` flags its input; a duplicate, which it leaves alone, owns no job -/
  requests : ∀ k now w', w.Step codec (.requestCancelInput k now) w' → ∀ i ∈ w.db.inputs, i.id = k →
    w'.db.InputFlagged k ∨ i.status = .duplicate ∧ ∀ j ∈ w'.db.jobs, j.input_record_id ≠ k

theorem cancelOutcome_of_flagged (h : w.Reachable codec) {k t : Id} (hflag : w.db.Flagged k t) :
    CancelOutcome codec w k t where
  exit := by
    intro ls w' hrun
    by_cases hend : w'.db.Flagged k t
    · exact .inl hend
    · refine .inr ?_
      obtain ⟨ls₁, l, ls₂, w₁, w₂, hls, hrun₁, hflag₁, hstep, hcanceled, hrun₂⟩ :=
        Run.unless (I := World.Reachable codec) (P := fun w => w.db.Flagged k t)
          (Q := fun _ _ w => w.db.CanceledJob k) (fun _ _ _ hr hs => .step hr hs)
          (fun _ _ _ hr hp hs => flagged_tx (World.apply_tx (World.ok_reach hr) hs) hp) hrun h hflag hend
      exact ⟨ls₁, l, ls₂, w₁, w₂, hls, hrun₁, hflag₁, hstep, hcanceled, hrun₂⟩
  assets := by
    intro a ha hat ls w' hrun
    have hok := World.ok_reach h
    have hassets := World.assets_reach h
    have hflagged := hflag
    obtain ⟨j, hj, hid, -, ht, -⟩ := hflagged
    obtain ⟨hown, hrunning, -⟩ := hok.lease.of_token hj ht ha hat
    have hstart : Closing k t a.id w.db ∧ w.Unpublished a.id := by
      refine ⟨⟨⟨a, ha, rfl, hown.trans hid, hat⟩, .inl hflag⟩, fun m hm hst => ?_⟩
      exact hassets.inv.unregistered hassets.once ha hrunning hst m hm rfl
    exact (Run.induct (I := World.Reachable codec)
      (J := fun w => Closing k t a.id w.db ∧ w.Unpublished a.id) (fun _ _ _ hr hs => .step hr hs)
      (fun _ _ _ hr hp hs => World.unpublished_step hr hs hp) hrun h hstart).2

theorem noNewChild_of_flagged (h : w.Reachable codec) {k : Id} (hflag : w.db.InputFlagged k) :
    NoNewChild codec w k := by
  intro ls w' hrun
  by_cases hend : w'.db.InputFlagged k ∧ ∀ j' ∈ w'.db.jobs, j'.input_record_id = k → ∃ j ∈ w.db.jobs,
      j.id = j'.id
  · exact .inl hend.2
  · refine .inr ?_
    obtain ⟨ls₁, l, ls₂, w₁, w₂, hls, hrun₁, -, hstep, hrestart, hrun₂⟩ :=
      Run.unless (I := World.Reachable codec)
        (P := fun v => v.db.InputFlagged k ∧ ∀ j' ∈ v.db.jobs, j'.input_record_id = k → ∃ j ∈ w.db.jobs,
          j.id = j'.id)
        (Q := fun v l _ => l.restarts v.db k) (fun _ _ _ hr hs => .step hr hs)
        (fun v l v' hr hp hs => by
          refine (inputFlagged_tx (World.apply_tx (World.ok_reach hr) hs) hp.1).imp_left (fun hnew => ?_)
          refine ⟨hnew.1, fun j' hj' hin => ?_⟩
          obtain ⟨r, hr, hrid, hrin⟩ := hnew.2 j' hj' hin
          obtain ⟨j, hj, hjid⟩ := hp.2 r hr hrin
          exact ⟨j, hj, hjid.trans hrid⟩)
        hrun h ⟨hflag, fun j' hj' _ => ⟨j', hj', rfl⟩⟩ hend
    refine ⟨ls₁, l, ls₂, w₁, w₂, hls, ?_, hrestart, hstep, hrun₂⟩
    exact hrun₁.weaken (fun _ _ _ hs => hs.2)

theorem aggregate_ne_duplicate {jobs : List Job} : aggregateInputStatus jobs ≠ some .duplicate := by
  unfold aggregateInputStatus
  dsimp only
  repeat' split
  all_goals nofun

/-- a duplicate owns no job -/
theorem duplicate_no_job (h : w.Reachable codec) {i : InputRecord} (hi : i ∈ w.db.inputs)
    (hdup : i.status = .duplicate) : ∀ j ∈ w.db.jobs, j.input_record_id ≠ i.id := by
  intro j hj hin
  have hagg := (World.ok_reach h).aggregate.inputs i hi (Set.notMem_empty _) ⟨j, hj, hin⟩
  rw [hdup] at hagg
  exact aggregate_ne_duplicate hagg

/-- **Cancel wins.** -/
theorem cancelWins_reachable (h : w.Reachable codec) : CancelWins codec w where
  jobs := by
    intro j hj hactive hflag
    obtain ⟨t, ht⟩ := Option.isSome_iff_exists.mp (((World.ok_reach h).lease.leased j hj).mp hactive)
    exact ⟨t, ht, cancelOutcome_of_flagged h
      ⟨j, hj, rfl, hactive, ht, Option.isSome_iff_ne_none.mpr hflag⟩⟩
  inputs := fun i hi hflag =>
    noNewChild_of_flagged h ⟨i, hi, rfl, Option.isSome_iff_ne_none.mpr hflag⟩
  requests := by
    intro k now w' hs i hi hid
    obtain ⟨-, happly⟩ := hs
    simp only [World.apply, bind_eq_ok, pure_eq_ok] at happly
    obtain ⟨⟨db, st⟩, hdb, rfl⟩ := happly
    rcases requestCancelInput_spec w.may hdb with ⟨heq, hdup⟩ | ⟨i', hi', hid', hchain⟩
    · refine .inr ⟨hdup i hi hid, ?_⟩
      show ∀ j ∈ db.jobs, _
      rw [show db = w.db from heq, ← hid]
      exact duplicate_no_job h hi (hdup i hi hid)
    · obtain ⟨r, hr, hrid, -, hrflag⟩ := cancelInput_row hi' hid' (utcText now)
      exact .inl (inputFlagged_chain hchain ⟨r, hr, hrid, hrflag⟩).1

/-- a cancellation that arrived while the job was being downloaded -/
theorem cancelWins_requested : ∃ w : World,
    w.db.jobs.rows.map (fun j => (j.status, j.cancel_requested_at)) = [(.downloading, some 0)] ∧
      CancelWins plainCodec w := by
  have hrun : (World.initial.run plainCodec [.createBatch oneVideo, .claimNext (anyClaim 0 11 21),
      .transition (videoLease 11 21) .downloading 0 0 60, .requestCancelInput 1 0]).map
      (fun w => w.db.jobs.rows.map (fun j => (j.status, j.cancel_requested_at))) =
        some [(.downloading, some 0)] := by decide +kernel
  obtain ⟨w, hw, hs⟩ := Option.map_eq_some_iff.mp hrun
  exact ⟨w, hs, cancelWins_reachable (World.reachable_run plainCodec hw)⟩

end

end OpenFlame.Download
