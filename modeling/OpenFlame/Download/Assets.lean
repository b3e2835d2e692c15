import OpenFlame.Download.Safety

/-!
# Assets: announced, published, cleaned up

`AssetStep may db db'`   what a transaction can do to attempts, intents, tokens and assets
`AssetInv`               an intent belongs to the attempt that staged its asset and, while the job is
                         leased, to its current lease; a registered asset belongs to an attempt that
                         ended; an asset that cleanup was called for, or may still be called for, is not
                         registered and belongs to a `Dead` attempt

An attempt that stopped never runs again, and only a running one publishes: so what is dead stays
unregistered.

`publicationSafe_reachable`: **recovery never undoes a publication.**
-/

set_option linter.all false

namespace OpenFlame.Download
open Guard TransSys

/-! ## what a transaction does to assets -/

structure AssetStep (may : Id → Id → Prop) (db db' : DB) : Prop where
  attempts : ∀ a ∈ db.attempts, ∃ a' ∈ db'.attempts, Attempt.Stops a a'
  intents : ∀ i' ∈ db'.intents, (∃ i ∈ db.intents, Intent.Same i i') ∨
    may i'.asset_id i'.attempt_id ∧
      (∃ a ∈ db'.attempts, a.id = i'.attempt_id ∧ a.job_id = i'.job_id ∧ a.lease_token = i'.lease_token) ∧
      ∃ j ∈ db'.jobs, j.id = i'.job_id ∧ j.lease_token = some i'.lease_token
  tokens : ∀ j' ∈ db'.jobs, ∀ t, j'.lease_token = some t →
    (∃ j ∈ db.jobs, j.id = j'.id ∧ j.lease_token = some t) ∨ ∀ i' ∈ db'.intents, i'.job_id ≠ j'.id
  media : ∀ m ∈ db'.media, m ∈ db.media ∨ ∃ a ∈ db.attempts, ∃ a' ∈ db'.attempts,
    may m.id a.id ∧ a.status = .running ∧ a'.id = a.id ∧ a'.status ≠ .running

section
variable {may : Id → Id → Prop}

/-- a transaction that leaves the four tables alone -/
theorem AssetStep.same {db db' : DB} (ha : db'.attempts = db.attempts) (hi : db'.intents = db.intents)
    (hj : db'.jobs = db.jobs) (hm : db'.media = db.media) : AssetStep may db db' where
  attempts := fun a haa => ⟨a, ha ▸ haa, .refl a⟩
  intents := fun i hii => .inl ⟨i, hi ▸ hii, rfl, rfl, rfl, rfl⟩
  tokens := fun j hjj _ ht => .inl ⟨j, hj ▸ hjj, rfl, ht⟩
  media := fun _ hmm => .inl (hm ▸ hmm)

/-- jobs evolve without gaining a token, attempts only stop -/
theorem AssetStep.evolve {db db' : DB} {R : Job → Job → Prop} (hj : db.jobs.Evolves R db'.jobs)
    (hR : ∀ j j', R j j' → j'.id = j.id ∧ (j'.lease_token = none ∨ j'.lease_token = j.lease_token))
    (ha : db.attempts.Evolves Attempt.Stops db'.attempts) (hi : db'.intents = db.intents)
    (hm : db'.media = db.media) : AssetStep may db db' where
  attempts := fun a haa => ha.new haa
  intents := fun i hii => .inl ⟨i, hi ▸ hii, rfl, rfl, rfl, rfl⟩
  tokens := by
    intro j' hj' t ht
    obtain ⟨j, hjj, hr⟩ := hj.old hj'
    obtain ⟨hid, hnone | hsame⟩ := hR j j' hr
    · rw [hnone] at ht
      cases ht
    · exact .inl ⟨j, hjj, hid.symm, hsame.symm.trans ht⟩
  media := fun m hmm => .inl (hm ▸ hmm)

theorem AssetStep.attemptsRefl (attempts : Table Attempt Attempt.id) :
    attempts.Evolves Attempt.Stops attempts := Table.Evolves.refl (fun a _ => .refl a)

/-- **one move** -/
theorem AssetStep.of_move {s s' : Snap} (hinv : s.db.LeaseOK) (hm : Move may s s') :
    AssetStep may s.db s'.db := by
  cases hm with
  | renew hj ha hi =>
    exact .evolve hj (fun _ _ hr => ⟨hr.id, .inr hr.token⟩)
      (ha.mono (fun _ _ h => ⟨h.1, fun hr => h.2 ▸ hr⟩)) rfl rfl
  | @claim db X B jobs attempts circuits j p a hj hq hc hp hintents hfew halone hfresh hjobs hins hjob hrun hg hcirc =>
    constructor
    case attempts => exact fun b hb => ⟨b, (Table.mem_insert hins).mpr (.inl hb), .refl b⟩
    case intents => exact fun i hi => .inl ⟨i, hi, rfl, rfl, rfl, rfl⟩
    case tokens =>
      intro r' hr' t ht
      obtain ⟨r, hr, ⟨rfl, he⟩ | ⟨-, rfl⟩⟩ := hjobs.old hr'
      · exact .inr (fun i hi => by rw [he.id]; exact hintents i hi)
      · exact .inl ⟨_, hr, rfl, ht⟩
    case media => exact fun m hm => .inl hm
  | @endLease db X X' B jobs attempts circuits media j t st hj hactive ht hst hcancel hjobs hattempts hcirc hmedia =>
    constructor
    case attempts =>
      intro a ha
      obtain ⟨a', ha', hclosed⟩ := hattempts.new ha
      exact ⟨a', ha', hclosed.stops⟩
    case intents => exact fun i hi => .inl ⟨i, hi, rfl, rfl, rfl, rfl⟩
    case tokens =>
      intro r' hr' u hu
      obtain ⟨r, hr, ⟨rfl, he⟩ | ⟨-, rfl⟩⟩ := hjobs.old hr'
      · rw [he.token] at hu
        cases hu
      · exact .inl ⟨_, hr, rfl, hu⟩
    case media =>
      intro m hm
      rcases hmedia m hm with hm | ⟨-, a, ha, hmay, hat⟩
      · exact .inl hm
      · -- the publishing attempt held the token of the job, and gave it up
        obtain ⟨a', ha', hclosed⟩ := hattempts.new ha
        refine .inr ⟨a, ha, a', ha', hmay, (hinv.of_token hj ht ha hat).2.1, hclosed.1.id, ?_⟩
        exact Closed.not_running hattempts a' ha' (hclosed.1.token.trans hat)
  | drop k hj =>
    refine .evolve hj (fun r r' hr => ?_) (AssetStep.attemptsRefl _) rfl rfl
    rcases hr with rfl | ⟨-, -, hd⟩
    · exact ⟨rfl, .inr rfl⟩
    · exact ⟨hd.id, hd.token⟩
  | intents h =>
    exact ⟨fun a ha => ⟨a, ha, .refl a⟩, fun i hi => .inl (h i hi), fun j hj t ht => .inl ⟨j, hj, rfl, ht⟩,
      fun m hm => .inl hm⟩
  | record i j a hins hj hjob ht ha hattempt hrun howned hat hmay =>
    refine ⟨fun a ha => ⟨a, ha, .refl a⟩, fun i' hi' => ?_, fun j hj t ht => .inl ⟨j, hj, rfl, ht⟩,
      fun m hm => .inl hm⟩
    rcases (Table.mem_insert hins).mp hi' with hi' | rfl
    · exact .inl ⟨i', hi', rfl, rfl, rfl, rfl⟩
    · exact .inr ⟨hmay, ⟨a, ha, hattempt, howned.trans hjob, hat⟩, j, hj, hjob, ht⟩
  | newJob j i hins hst ht _ _ _ _ _ _ =>
    refine ⟨fun a ha => ⟨a, ha, .refl a⟩, fun i hi => .inl ⟨i, hi, rfl, rfl, rfl, rfl⟩, fun r hr t hrt => ?_,
      fun m hm => .inl hm⟩
    rcases (Table.mem_insert hins).mp hr with hr | rfl
    · exact .inl ⟨r, hr, rfl, hrt⟩
    · rw [ht] at hrt
      cases hrt
  | side | circuit | source | link | newInput | newBatch | setInput | setBatch | settleInput
    | settleBatch => exact .same rfl rfl rfl rfl

theorem AssetStep.of_regen {s s' : Snap} {k : Id} (hr : Regen k s s') : AssetStep may s.db s'.db := by
  cases hr with
  | mk j i hj hterminal hi hinput hk hjobs hinputs =>
    refine .evolve hjobs (fun r r' hr => ?_) (AssetStep.attemptsRefl _) rfl rfl
    rcases hr with ⟨rfl, he⟩ | ⟨-, rfl⟩
    · exact ⟨he.id, .inl he.token⟩
    · exact ⟨rfl, .inr rfl⟩

/-- attempts persist through a chain, and only stop -/
theorem attempts_chain {s s' : Snap} (hinv : s.db.LeaseOK) (hc : Chain may s s') :
    ∀ a ∈ s.db.attempts, ∃ a' ∈ s'.db.attempts, Attempt.Stops a a' := by
  induction hc with
  | refl => exact fun a ha => ⟨a, ha, .refl a⟩
  | tail hc hm ih =>
    intro a ha
    obtain ⟨b, hb, hab⟩ := ih a ha
    obtain ⟨c, hcc, hbc⟩ := (AssetStep.of_move (LeaseInv.chain hinv hc) hm).attempts b hb
    exact ⟨c, hcc, hab.trans hbc⟩

end

/-! ## the invariant -/

/-- attempt `α` cannot publish any more -/
def Dead (aborted : Id → Prop) (db : DB) (α : Id) : Prop :=
  aborted α ∨ ∃ x ∈ db.attempts, x.id = α ∧ x.status ≠ .running

structure AssetInv (staged : Id → Id → Prop) (aborted : Id → Prop) (gone : Id → Id → Prop) (db : DB) :
    Prop where
  intents : ∀ i ∈ db.intents, staged i.asset_id i.attempt_id ∧ ∃ a ∈ db.attempts,
    a.id = i.attempt_id ∧ a.job_id = i.job_id ∧ a.lease_token = i.lease_token
  current : ∀ i ∈ db.intents, ∀ j ∈ db.jobs, j.id = i.job_id → ∀ t, j.lease_token = some t → i.lease_token = t
  registered : ∀ m ∈ db.media, ∃ a ∈ db.attempts, staged m.id a.id ∧ a.status ≠ .running
  gone : ∀ a α, gone a α → staged a α ∧ (∀ m ∈ db.media, m.id ≠ a) ∧ Dead aborted db α

section
variable {staged gone : Id → Id → Prop} {aborted : Id → Prop} {db db' : DB}

theorem AssetInv.initial : AssetInv staged aborted (fun _ _ => False) DB.initial where
  intents := fun i hi => absurd hi (Table.not_mem_empty i)
  current := fun i hi => absurd hi (Table.not_mem_empty i)
  registered := fun m hm => absurd hm (Table.not_mem_empty m)
  gone := fun _ _ h => h.elim

theorem Dead.mono {aborted' : Id → Prop} (ha : ∀ α, aborted α → aborted' α)
    (hx : ∀ x ∈ db.attempts, ∃ x' ∈ db'.attempts, Attempt.Stops x x') {α : Id} (h : Dead aborted db α) :
    Dead aborted' db' α := by
  rcases h with h | ⟨x, hxm, hid, hstop⟩
  · exact .inl (ha α h)
  · obtain ⟨x', hx', hs⟩ := hx x hxm
    exact .inr ⟨x', hx', hs.id.trans hid, fun hr => hstop (hs.running hr)⟩

/-- **a transaction keeps it** -/
theorem AssetInv.step (h : AssetInv staged aborted gone db)
    (hone : ∀ a α β, staged a α → staged a β → α = β)
    (hs : AssetStep (fun a α => staged a α ∧ ¬ aborted α) db db') : AssetInv staged aborted gone db' where
  intents := by
    intro i' hi'
    rcases hs.intents i' hi' with ⟨i, hi, hsame⟩ | ⟨hmay, hattempt, -⟩
    · obtain ⟨hst, a, ha, hid, hjob, hat⟩ := h.intents i hi
      obtain ⟨a', ha', hstop⟩ := hs.attempts a ha
      rw [hsame.asset, hsame.attempt, hsame.job, hsame.token]
      exact ⟨hst, a', ha', hstop.id.trans hid, hstop.job.trans hjob, hstop.token.trans hat⟩
    · exact ⟨hmay.1, hattempt⟩
  current := by
    intro i' hi' j' hj' hid t ht
    rcases hs.intents i' hi' with ⟨i, hi, hsame⟩ | ⟨-, -, r, hr, hrid, hrt⟩
    · rcases hs.tokens j' hj' t ht with ⟨j, hj, hjid, hjt⟩ | hnone
      · rw [hsame.token]
        exact h.current i hi j hj (by rw [hjid, hid, hsame.job]) t hjt
      · exact absurd hid.symm (hnone i' hi')
    · -- a new intent carries the token of its job
      rw [Table.eq_of_key hr hj' (hrid.trans hid.symm), ht] at hrt
      exact (Option.some.inj hrt).symm
  registered := by
    intro m hm
    rcases hs.media m hm with hm | ⟨a, -, a', ha', hmay, -, hid, hstop⟩
    · obtain ⟨a, ha, hst, hstop⟩ := h.registered m hm
      obtain ⟨a', ha', hstops⟩ := hs.attempts a ha
      exact ⟨a', ha', by rw [hstops.id]; exact hst, fun hr => hstop (hstops.running hr)⟩
    · exact ⟨a', ha', by rw [hid]; exact hmay.1, hstop⟩
  gone := by
    intro a α hg
    obtain ⟨hst, hfree, hdead⟩ := h.gone a α hg
    refine ⟨hst, fun m hm hma => ?_, hdead.mono (fun _ h => h) hs.attempts⟩
    rcases hs.media m hm with hm | ⟨x, hx, -, -, hmay, hrun, -, -⟩
    · exact hfree m hm hma
    · -- a dead attempt does not publish
      have hxα : x.id = α := hone a x.id α (hma ▸ hmay.1) hst
      rcases hdead with hab | ⟨y, hy, hyid, hystop⟩
      · exact hmay.2 (hxα ▸ hab)
      · rw [Table.eq_of_key hy hx (hyid.trans hxα.symm)] at hystop
        exact hystop hrun

theorem AssetInv.chain {s s' : Snap} (h : AssetInv staged aborted gone s.db)
    (hone : ∀ a α β, staged a α → staged a β → α = β) (hinv : s.db.LeaseOK)
    (hc : Chain (fun a α => staged a α ∧ ¬ aborted α) s s') : AssetInv staged aborted gone s'.db := by
  induction hc with
  | refl => exact h
  | tail hc hm ih => exact ih.step hone (.of_move (LeaseInv.chain hinv hc) hm)

theorem AssetInv.mono {staged' : Id → Id → Prop} {aborted' : Id → Prop} (h : AssetInv staged aborted gone db)
    (hst : ∀ a α, staged a α → staged' a α) (hab : ∀ α, aborted α → aborted' α) :
    AssetInv staged' aborted' gone db where
  intents := fun i hi => ⟨hst _ _ (h.intents i hi).1, (h.intents i hi).2⟩
  current := h.current
  registered := fun m hm => (h.registered m hm).imp (fun _ ha => ⟨ha.1, hst _ _ ha.2.1, ha.2.2⟩)
  gone := fun a α hg => ⟨hst _ _ (h.gone a α hg).1, (h.gone a α hg).2.1,
    (h.gone a α hg).2.2.mono hab (fun x hx => ⟨x, hx, .refl x⟩)⟩

/-- more assets may be cleaned up -/
theorem AssetInv.more {gone' : Id → Id → Prop} (h : AssetInv staged aborted gone db)
    (hg : ∀ a α, gone' a α → gone a α ∨
      staged a α ∧ (∀ m ∈ db.media, m.id ≠ a) ∧ Dead aborted db α) : AssetInv staged aborted gone' db :=
  ⟨h.intents, h.current, h.registered, fun a α hg' => (hg a α hg').elim (h.gone a α) id⟩

/-- an asset of a running attempt is not registered -/
theorem AssetInv.unregistered (h : AssetInv staged aborted gone db)
    (hone : ∀ a α β, staged a α → staged a β → α = β) {x : Attempt} (hx : x ∈ db.attempts)
    (hrun : x.status = .running) {a : Id} (hst : staged a x.id) : ∀ m ∈ db.media, m.id ≠ a := by
  rintro m hm rfl
  obtain ⟨y, hy, hsty, hstop⟩ := h.registered m hm
  rw [Table.eq_of_key hy hx (hone _ _ _ hsty hst)] at hstop
  exact hstop hrun

end

/-! ## worlds -/

/-- cleanup was called for asset `a` of attempt `α`, or may be called by a recovery -/
def World.gone (w : World) (a α : Id) : Prop :=
  (a, α) ∈ w.removed ∨ ∃ c ∈ w.claims, c.asset_id = a ∧ c.attempt_id = α

structure World.AssetsOK (w : World) : Prop where
  once : ∀ a α β, (a, α) ∈ w.staged → (a, β) ∈ w.staged → α = β
  inv : AssetInv (fun a α => (a, α) ∈ w.staged) (· ∈ w.aborted) w.gone w.db

section
variable {codec : GraphCodec} {w w' : World} {l : Label}

/-- what a step does outside the store -/
theorem World.apply_cases (h : w.apply codec l = .ok w') :
    w' = { w with db := w'.db } ∨
    (∃ a α, l = .stageFile a α ∧ w' = { w with staged := (a, α) :: w.staged }) ∨
    (∃ lease op r, l = .finish lease op ∧ op.run w.db lease = .ok r ∧
      w' = { w with db := r.db, removed := w.removed ++ r.removed }) ∨
    (∃ lease op calls r, l = .finishAborted lease op calls ∧ op.run w.db lease = .ok r ∧
      w' = { w with
        removed := w.removed ++ r.removed.take calls
        aborted := lease.attempt_id :: w.aborted }) ∨
    (∃ req st, l = .prepareAssetIntentRecovery req ∧
      Download.prepareAssetIntentRecovery w.db req = .ok st ∧
      w' = { w with db := st.db, claims := w.claims ++ st.claims }) ∨
    ∃ claim, l = .removePendingAsset claim ∧
      w' = { w with removed := w.removed ++ [(claim.asset_id, claim.attempt_id)] } := by
  cases l with
  | stageFile a α =>
    cases h
    exact .inr (.inl ⟨a, α, rfl, rfl⟩)
  | finish lease op =>
    simp only [World.apply, bind_eq_ok, pure_eq_ok] at h
    obtain ⟨r, hr, rfl⟩ := h
    exact .inr (.inr (.inl ⟨lease, op, r, rfl, hr, rfl⟩))
  | finishAborted lease op calls =>
    simp only [World.apply, bind_eq_ok, pure_eq_ok] at h
    obtain ⟨r, hr, rfl⟩ := h
    exact .inr (.inr (.inr (.inl ⟨lease, op, calls, r, rfl, hr, rfl⟩)))
  | prepareAssetIntentRecovery req =>
    simp only [World.apply, bind_eq_ok, pure_eq_ok] at h
    obtain ⟨st, hst, rfl⟩ := h
    exact .inr (.inr (.inr (.inr (.inl ⟨req, st, rfl, hst, rfl⟩))))
  | removePendingAsset claim =>
    cases h
    exact .inr (.inr (.inr (.inr (.inr ⟨claim, rfl, rfl⟩))))
  | releaseAssetIntentRecoveryClaims claims | pauseQueue reason now | resumeQueue now =>
    cases h
    exact .inl rfl
  | createBatch | claimNext | heartbeat | transition | recordProbe | commitDiscovery
    | recordAssetCommitIntent | completeAssetIntentRecoveryClaim | requestCancel | requestCancelInput
    | requestRetry | requestRediscover | resetPlatformCircuit | register | assign | clearAssignment
    | disable | prepareClaimGate | activateClaimGate | stopClaimGate =>
    simp only [World.apply, bind_eq_ok, pure_eq_ok] at h
    obtain ⟨_, _, rfl⟩ := h
    exact .inl rfl

theorem AssetInv.tx {gone : Id → Id → Prop} {db db' : DB}
    (h : AssetInv (fun a α => (a, α) ∈ w.staged) (· ∈ w.aborted) gone db)
    (hone : ∀ a α β, (a, α) ∈ w.staged → (a, β) ∈ w.staged → α = β) (hinv : db.LeaseOK)
    (ht : Tx w.may l db db') : AssetInv (fun a α => (a, α) ∈ w.staged) (· ∈ w.aborted) gone db' := by
  rcases ht with hc | ⟨k, -, s, hr, hc⟩ | ⟨-, gate, rfl⟩
  · exact h.chain hone hinv hc
  · exact (h.step hone (.of_regen hr)).chain hone (LeaseInv.regen hinv hr) hc
  · exact h.step hone (.same rfl rfl rfl rfl)

/-- the calls of a `finish..` transaction are for assets of its own attempt, which is running -/
theorem World.AssetsOK.removed (h : w.AssetsOK) {may : Id → Id → Prop} {lease : JobLease} {r : Finish}
    (hfin : Finished may w.db lease r) {x : Id × Id} (hx : x ∈ r.removed) :
    x.2 = lease.attempt_id ∧ (x.1, x.2) ∈ w.staged ∧ ∀ m ∈ w.db.media, m.id ≠ x.1 := by
  obtain ⟨-, hat, i, hi, hid, hann⟩ := hfin.removed x hx
  obtain ⟨y, hy, hyid, -, hrun⟩ := hfin.attempt
  obtain ⟨-, hiat, -⟩ := JobLease.announced_iff.mp hann
  have hst : (x.1, lease.attempt_id) ∈ w.staged := by
    have hst := (h.inv.intents i hi).1
    rw [hid, hiat] at hst
    exact hst
  refine ⟨hat, by rw [hat]; exact hst, h.inv.unregistered h.once hy hrun ?_⟩
  rw [hyid]
  exact hst

/-- **every step keeps it** -/
theorem World.assets_step (hok : w.db.OK) (h : w.AssetsOK) (hs : w.Step codec l w') : w'.AssetsOK := by
  have htx := World.apply_tx hok hs
  have hinv := h.inv.tx h.once hok.lease htx
  obtain ⟨hallow, happly⟩ := hs
  rcases World.apply_cases happly with heq | ⟨a, α, rfl, rfl⟩ | ⟨lease, op, r, rfl, hr, rfl⟩ |
    ⟨lease, op, calls, r, rfl, hr, rfl⟩ | ⟨req, st, rfl, hst, rfl⟩ | ⟨claim, rfl, rfl⟩
  · rw [heq]
    exact ⟨h.once, hinv⟩
  · refine ⟨?_, hinv.mono (fun _ _ hmem => List.mem_cons_of_mem _ hmem) (fun _ hα => hα)⟩
    intro b β γ hβ hγ
    rcases List.mem_cons.mp hβ with hβ | hβ <;> rcases List.mem_cons.mp hγ with hγ | hγ
    · cases hβ
      cases hγ
      rfl
    · cases hβ
      exact absurd rfl (hallow _ hγ)
    · cases hγ
      exact absurd rfl (hallow _ hβ)
    · exact h.once b β γ hβ hγ
  · -- the attempt stopped when its lease ended
    have hfin := FinishOp.run_spec w.may hok.lease hallow hr
    refine ⟨h.once, hinv.more (fun a α hg => ?_)⟩
    rcases hg with hg | hg
    · rcases List.mem_append.mp hg with hg | hg
      · exact .inl (.inl hg)
      · obtain ⟨hat, hst, hfree⟩ := h.removed hfin hg
        obtain ⟨y, hy, hyid, hyt, -⟩ := hfin.attempt
        obtain ⟨y', hy', hstop⟩ := attempts_chain hok.lease hfin.ended.chain y hy
        refine .inr ⟨hst, ?_, .inr ⟨y', hy', ?_, hfin.ended.closed y' hy' (hstop.token.trans hyt)⟩⟩
        · show ∀ m ∈ r.db.media, _
          rw [(hfin.removed _ hg).1]
          exact hfree
        · rw [hstop.id, hyid]
          exact hat.symm
    · exact .inl (.inr hg)
  · -- the transaction rolled back, but its worker is gone
    have hfin := FinishOp.run_spec (fun _ _ => True) hok.lease (fun _ _ => trivial) hr
    have hinv : AssetInv (fun a α => (a, α) ∈ w.staged) (· ∈ lease.attempt_id :: w.aborted) w.gone w.db :=
      hinv.mono (fun _ _ hst => hst) (fun _ hα => List.mem_cons_of_mem _ hα)
    refine ⟨h.once, hinv.more (fun a α hg => ?_)⟩
    rcases hg with hg | hg
    · rcases List.mem_append.mp hg with hg | hg
      · exact .inl (.inl hg)
      · obtain ⟨hat, hst, hfree⟩ := h.removed hfin (List.mem_of_mem_take hg)
        refine .inr ⟨hst, hfree, .inl ?_⟩
        show α ∈ lease.attempt_id :: w.aborted
        rw [show α = lease.attempt_id from hat]
        exact List.mem_cons_self
    · exact .inl (.inr hg)
  · -- a claim is handed out for an attempt that was fenced
    have hprep := prepareAssetIntentRecovery_spec w.may hok.lease hok.circuit hst
    refine ⟨h.once, hinv.more (fun a α hg => ?_)⟩
    rcases hg with hg | ⟨c, hc, rfl, rfl⟩
    · exact .inl (.inl hg)
    · rcases List.mem_append.mp hc with hc | hc
      · exact .inl (.inr ⟨c, hc, rfl, rfl⟩)
      · obtain ⟨i, hi, hia, hiat, hfree, hstopped⟩ := hprep.claims c hc
        obtain ⟨hst, x, hx, hxid, hxjob, hxt⟩ := h.inv.intents i hi
        obtain ⟨x', hx', hstop⟩ := hprep.attempts.new hx
        refine .inr ⟨by rw [← hia, ← hiat]; exact hst, ?_, .inr ⟨x', hx', ?_, ?_⟩⟩
        · show ∀ m ∈ st.db.media, _
          rw [hprep.media]
          exact hfree
        · rw [hstop.id, hxid, hiat]
        · exact hstopped x' hx' (hstop.job.trans hxjob) (hstop.token.trans hxt)
  · refine ⟨h.once, hinv.more (fun a α hg => .inl ?_)⟩
    rcases hg with hg | hg
    · rcases List.mem_append.mp hg with hg | hg
      · exact .inl hg
      · cases List.mem_singleton.mp hg
        exact .inr ⟨claim, hallow, rfl, rfl⟩
    · exact .inr hg

theorem World.assets_reach (h : w.Reachable codec) : w.AssetsOK := by
  refine h.induct ?_ (fun _ _ _ hr ha hs => World.assets_step (World.ok_reach hr) ha hs)
  rintro _ rfl
  refine ⟨fun _ _ _ hmem => absurd hmem List.not_mem_nil, AssetInv.initial.more ?_⟩
  rintro a α (hg | ⟨c, hc, -⟩)
  · exact absurd hg List.not_mem_nil
  · exact absurd hc List.not_mem_nil

/-! ## publication -/

def World.registered (w : World) (a : Id) : Prop := ∃ m ∈ w.db.media, m.id = a

end

end OpenFlame.Download
