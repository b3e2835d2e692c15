import OpenFlame.Upload.Ledger

/-!
# Receipts: their identity and their state

`DB.Defines host db j root q a d`   `d` is what `attemptDefinition` rebuilds for job `j` with root `root`,
                                    owner `q` and account `a`;
`DB.Identified host db j r`         receipt `r` still is what it was written as;
`DB.ReceiptsOK host db`             every receipt is identified and fits its job, a job without one has
                                    not been claimed, and a job with a child has one that allows it.

* `attemptDefinition_ok`, `validateAttemptIdentity_ok`   the checks of the source succeed;
* `DB.Defines.mono`, `DB.Identified.mono`                and keep doing so while the store grows.
-/

set_option linter.all false

namespace OpenFlame.Upload
open Guard Relation

theorem eq_singleton_of_nodup {α : Type*} {l : List α} {a : α} (hnd : l.Nodup) (ha : a ∈ l)
    (h : ∀ b ∈ l, b = a) : l = [a] := by
  match l, hnd, ha, h with
  | [b], _, _, h => rw [h b (List.mem_singleton_self _)]
  | b :: c :: rest, hnd, _, h =>
    have hb := h b (by simp)
    have hc := h c (by simp)
    rw [hb, hc] at hnd
    simp at hnd

section
variable {host : Host} {db db' : DB} {j j' root : Job}

/-! ## the owner of a root -/

theorem attemptRequestOwner_ok (h : db.LedgerOK host) (hroot : db.Has root) (hnone : root.retry_of = none) :
    ∃ q ∈ db.requests, root.id ∈ q.job_ids ∧ attemptRequestOwner host db root = .ok q := by
  obtain ⟨r, hr, hid, -, -, -, -, hof⟩ := hroot.row
  obtain ⟨q, hq, hmem⟩ := h.owned r hr (by rw [hof, hnone])
  rw [hid] at hmem
  have hne : q.job_ids ≠ [] := List.ne_nil_of_mem hmem
  obtain ⟨jobs, hrooted⟩ := h.rooted q hq hne
  have hrows : db.requests.filter (fun q => q.job_ids.contains root.id) = [q] := by
    apply eq_singleton_of_nodup (db.requests.nodup_filter _)
    · exact Table.mem_filter.mpr ⟨hq, by simpa using hmem⟩
    · intro q' hq'
      obtain ⟨hq', hmem'⟩ := Table.mem_filter.mp hq'
      exact h.owner q' hq' q hq root.id (by simpa using hmem') hmem
  refine ⟨q, hq, hmem, ?_⟩
  have hids : (jobs.map Job.id).contains root.id = true := by
    rw [hrooted.ids]
    simpa using hmem
  simp only [attemptRequestOwner, hrows, bind_eq_ok, each_cons_eq_ok, recast_eq_ok]
  refine ⟨[jobs], ⟨jobs, [], requestJobsFromRow_ok h hq hrooted, rfl, rfl⟩, ?_⟩
  simp only [List.zip_cons_cons, List.zip_nil_right, List.filter_cons, hids, if_true, List.filter_nil, List.map_cons,
    List.map_nil, pure_eq_ok]

/-! ## the definition of an attempt -/

/-- the cover id and digest of a slot -/
def DB.CoverIs (db : DB) (id : Option Ident) (c : Option Ident × Option Digest) : Prop :=
  id = none ∧ c = (none, none) ∨ ∃ a ∈ db.assets, id = some a.id ∧ c = (some a.id, some a.sha256)

theorem attemptCoverIdentity_eq_ok {id : Option Ident} {c : Option Ident × Option Digest} :
    attemptCoverIdentity db id = .ok c ↔ db.CoverIs id c := by
  cases id with
  | none =>
    constructor
    · intro h
      cases h
      exact .inl ⟨rfl, rfl⟩
    · rintro (⟨-, rfl⟩ | ⟨a, -, h, -⟩)
      · rfl
      · cases h
  | some i =>
    simp only [attemptCoverIdentity, bind_eq_ok, fetch_eq_ok, pure_eq_ok, Table.get_eq_some, DB.CoverIs,
      reduceCtorEq, false_and, false_or, Option.some.injEq]
    constructor
    · rintro ⟨a, ⟨ha, rfl⟩, rfl⟩
      exact ⟨a, ha, rfl, rfl⟩
    · rintro ⟨a, ha, rfl, rfl⟩
      exact ⟨a, ⟨ha, rfl⟩, rfl⟩

theorem DB.CoverIs.mono (h : db.Extends db') {id : Option Ident} {c : Option Ident × Option Digest}
    (hc : db.CoverIs id c) : db'.CoverIs id c := by
  rcases hc with hc | ⟨a, ha, rfl, rfl⟩
  · exact .inl hc
  · obtain ⟨a', ha', e1, e2⟩ := h.asset ha
    exact .inr ⟨a', ha', by rw [e1], by rw [e1, e2]⟩

/-- the definition of an attempt, from the rows it is rebuilt from -/
def definitionOf (host : Host) (j root : Job) (q : Request) (a : Account) (s : Source)
    (landscape portrait : Option Ident × Option Digest) : AttemptDefinition where
  job_id := j.id
  root_job_id := root.id
  request_id := q.id
  request_digest := q.digest
  request_digest_version := q.digest_version
  job_digest := uploadJobDefinitionDigest host j
  account_id := a.id
  platform := a.platform
  source_id := s.id
  source_sha256 := s.sha256
  cover_landscape_asset_id := landscape.1
  cover_landscape_sha256 := landscape.2
  cover_portrait_asset_id := portrait.1
  cover_portrait_sha256 := portrait.2

/-- the rows that define an attempt of `j` -/
structure DB.Defines (host : Host) (db : DB) (j : Job) (d : AttemptDefinition) : Prop where
  rows : ∃ root q a s landscape portrait, ReflTransGen db.Parent root j ∧ db.Has root ∧ root.retry_of = none ∧
    q ∈ db.requests ∧ root.id ∈ q.job_ids ∧ a ∈ db.accounts ∧ a.id = j.account_id ∧ a.platform = j.platform ∧
    s ∈ db.sources ∧ s.id = j.source_id ∧ db.CoverIs j.target.cover_landscape_asset_id landscape ∧
    db.CoverIs j.target.cover_portrait_asset_id portrait ∧ d = definitionOf host j root q a s landscape portrait

theorem DB.Extends.parent (h : db.Extends db') {p c : Job} (hp : db.Parent p c) {p' c' : Job} (hp' : db'.Has p')
    (hc' : db'.Has c') (ep : p'.id = p.id) (ec : c'.id = c.id) : db'.Parent p' c' := by
  refine ⟨hp', hc', ?_⟩
  rw [Job.lasting_retry_of (h.has_eq hp.2.1 hc' ec), ep]
  exact hp.2.2

theorem DB.Extends.path (h : db.Extends db') (hr : db.Has root) (hp : ReflTransGen db.Parent root j) :
    ∀ {j' : Job}, db'.Has j' → j'.id = j.id → ∃ root', db'.Has root' ∧ root'.lasting = root.lasting ∧
      ReflTransGen db'.Parent root' j' := by
  induction hp with
  | refl =>
    intro j' hj' hid
    exact ⟨j', hj', h.has_eq hr hj' hid, .refl⟩
  | @tail b c hpath hbc ih =>
    intro c' hc' hid
    obtain ⟨b', hb', eb⟩ := h.has hbc.1
    obtain ⟨root', hroot', er, hpath'⟩ := ih hb' (Job.lasting_id eb)
    exact ⟨root', hroot', er, hpath'.tail (h.parent hbc hb' hc' (Job.lasting_id eb) hid)⟩

/-- **The definition of an attempt does not change while the store grows.** -/
theorem DB.Defines.mono (h : db.Extends db') (hj : db.Has j) (hj' : db'.Has j') (hid : j'.id = j.id)
    {d : AttemptDefinition} (hd : db.Defines host j d) : db'.Defines host j' d := by
  obtain ⟨root, q, a, s, l, p, hpath, hroot, hnone, hq, hmem, ha, hai, hap, hs, hsi, hl, hp, rfl⟩ := hd.rows
  have el := h.has_eq hj hj' hid
  obtain ⟨hsrc, htgt⟩ := Prod.mk.inj (Job.lasting_payload el)
  obtain ⟨root', hroot', er, hpath'⟩ := h.path hroot hpath hj' hid
  obtain ⟨a', ha', ea, eap⟩ := h.account ha
  obtain ⟨s', hs', es, eh⟩ := h.source hs
  refine ⟨root', q, a', s', l, p, hpath', hroot', ?_, h.request hq, ?_, ha', ?_, ?_, hs', ?_, ?_, ?_, ?_⟩
  · rw [Job.lasting_retry_of er, hnone]
  · rw [Job.lasting_id er]
    exact hmem
  · rw [ea, hai, Job.account_id, Job.account_id, htgt]
  · rw [eap, hap, Job.platform, Job.platform, htgt]
  · rw [es, hsi, hsrc]
  · rw [htgt]
    exact hl.mono h
  · rw [htgt]
    exact hp.mono h
  · simp only [definitionOf, hid, Job.lasting_id er, ea, eap, es, eh,
      uploadJobDefinitionDigest_congr host (Job.lasting_payload el)]

/-- the leaf a line ends in -/
def DB.IsLeaf (db : DB) (j : Job) : Prop := successors db j.id = []

theorem DB.Line.leaf_eq {l : List Job} (h : db.LedgerOK host) (hl : db.Line root l) (hj : j ∈ l)
    (hleaf : db.IsLeaf j) : l.getLast?.map Job.id = some j.id := by
  obtain ⟨l', hl', hsuf⟩ := hl.suffix hj
  have hsing : l' = [j] := hl'.unique h (.leaf (hl.mem_has hj) hleaf)
  obtain ⟨pre, hpre⟩ := hsuf
  rw [← hpre, hsing, List.getLast?_append]
  rfl

/-- `_attempt_definition_in` succeeds on every job, and on a leaf also when it asks for one -/
theorem attemptDefinition_ok (h : db.LedgerOK host) (he : db.ParentsEnded) (hj : db.Has j) (leaf : Bool)
    (hleaf : leaf = true → db.IsLeaf j) :
    ∃ d a, attemptDefinition host db j leaf = .ok (d, a) ∧ db.Defines host j d ∧ a ∈ db.accounts ∧
      a.id = j.account_id ∧ d.account_id = a.id ∧ d.platform = j.platform ∧ d.job_id = j.id := by
  obtain ⟨root, l, hline, hroot, hnone, hl, hmem⟩ := attemptLineage_ok h he hj
  obtain ⟨q, hq, hqm, howner⟩ := attemptRequestOwner_ok h hroot hnone
  obtain ⟨a, ha, hai, hap⟩ := hj.account
  obtain ⟨s, hs, hsi⟩ := hj.source
  obtain ⟨r, hr, -, -, hcon, -⟩ := hj.row
  have hcover : ∀ id, (j.target.cover_landscape_asset_id = some id ∨ j.target.cover_portrait_asset_id = some id) →
      ∃ x ∈ db.assets, x.id = id := by
    intro id hid
    rw [show j.target.cover_landscape_asset_id = r.content.cover_landscape_asset_id by rw [hcon],
      show j.target.cover_portrait_asset_id = r.content.cover_portrait_asset_id by rw [hcon]] at hid
    exact h.covers r hr id hid
  have hslot : ∀ o : Option Ident, (∀ id, o = some id → ∃ x ∈ db.assets, x.id = id) → ∃ c, db.CoverIs o c := by
    intro o ho
    cases o with
    | none => exact ⟨_, .inl ⟨rfl, rfl⟩⟩
    | some id =>
      obtain ⟨x, hx, rfl⟩ := ho id rfl
      exact ⟨_, .inr ⟨x, hx, rfl, rfl⟩⟩
  obtain ⟨cl, hcl⟩ := hslot j.target.cover_landscape_asset_id (fun id hid => hcover id (.inl hid))
  obtain ⟨cp, hcp⟩ := hslot j.target.cover_portrait_asset_id (fun id hid => hcover id (.inr hid))
  refine ⟨definitionOf host j root q a s cl cp, a, ?_, ⟨root, q, a, s, cl, cp, DB.Line.path hl hmem, hroot, hnone,
    hq, hqm, ha, hai, hap, hs, hsi, hcl, hcp, rfl⟩, ha, hai, rfl, hap, rfl⟩
  simp only [attemptDefinition, bind_eq_ok, require_eq_ok, fetch_eq_ok, pure_eq_ok, attemptCoverIdentity_eq_ok]
  exact ⟨(root, l), hline, ⟨⟩, fun hb => hl.leaf_eq h hmem (hleaf hb), q, howner, a,
    Table.get_eq_some.mpr ⟨ha, hai⟩, s, Table.get_eq_some.mpr ⟨hs, hsi⟩, ⟨⟩, hap, cl, hcl, cp, hcp, rfl⟩

/-- the definition of an attempt is unique -/
theorem DB.Defines.unique (h : db.LedgerOK host) {d d' : AttemptDefinition}
    (hd : db.Defines host j d) (hd' : db.Defines host j d') : d = d' := by
  obtain ⟨root, q, a, s, l, p, hpath, hroot, hnone, hq, hmem, ha, hai, hap, hs, hsi, hl, hp, rfl⟩ := hd.rows
  obtain ⟨root', q', a', s', l', p', hpath', hroot', hnone', hq', hmem', ha', hai', hap', hs', hsi', hl', hp',
    rfl⟩ := hd'.rows
  have er : root = root' := DB.root_unique hpath hpath' hnone hnone'
  subst er
  have eq : q = q' := h.owner q hq q' hq' root.id hmem hmem'
  have ea : a = a' := Table.eq_of_key ha ha' (by rw [hai, hai'])
  have es : s = s' := Table.eq_of_key hs hs' (by rw [hsi, hsi'])
  have hc : ∀ {o : Option Ident} {c c' : Option Ident × Option Digest}, db.CoverIs o c → db.CoverIs o c' → c = c' := by
    intro o c c' h1 h2
    rw [← attemptCoverIdentity_eq_ok] at h1 h2
    rw [h1] at h2
    exact Except.ok.inj h2
  rw [eq, ea, es, hc hl hl', hc hp hp']

/-! ## the identity of a receipt -/

/-- the login generation of a receipt is one of its account's -/
def DB.SessionOf (db : DB) (account_id session_revision : Ident) : Prop :=
  session_revision ≠ account_id →
    ∃ o ∈ db.operations, o.id = session_revision ∧ o.account_id = account_id ∧ o.action = .login

structure DB.Identified (host : Host) (db : DB) (j : Job) (a : Attempt) : Prop where
  defines : db.Defines host j a.definition
  session : db.SessionOf a.account_id a.session_revision
  runtime : a.runtime.isValid a.platform = true

theorem DB.SessionOf.mono (h : db.Extends db') {account_id session_revision : Ident}
    (hs : db.SessionOf account_id session_revision) : db'.SessionOf account_id session_revision := by
  intro hne
  obtain ⟨o, ho, e1, e2, e3⟩ := hs hne
  obtain ⟨o', ho', f1, f2, f3⟩ := h.operation ho
  exact ⟨o', ho', by rw [f1, e1], by rw [f2, e2], by rw [f3, e3]⟩

theorem DB.Identified.mono (h : db.Extends db') (hj : db.Has j) (hj' : db'.Has j') (hid : j'.id = j.id)
    {a a' : Attempt} (ha : a'.lasting = a.lasting) (hi : db.Identified host j a) : db'.Identified host j' a' := by
  obtain ⟨-, e2⟩ := Prod.mk.inj ha
  obtain ⟨e2, e3⟩ := Prod.mk.inj e2
  obtain ⟨e3, e4⟩ := Prod.mk.inj e3
  have eacc : a'.account_id = a.account_id := congrArg AttemptDefinition.account_id e2
  have epl : a'.platform = a.platform := congrArg AttemptDefinition.platform e2
  refine ⟨?_, ?_, ?_⟩
  · rw [e2]
    exact hi.defines.mono h hj hj' hid
  · rw [eacc, e3]
    exact hi.session.mono h
  · rw [e4, epl]
    exact hi.runtime

/-- `_validate_attempt_identity_in` succeeds on an identified receipt -/
theorem validateAttemptIdentity_ok (h : db.LedgerOK host) (he : db.ParentsEnded) (hj : db.Has j) {a : Attempt}
    (hi : db.Identified host j a) (leaf : Bool) (hleaf : leaf = true → db.IsLeaf j) :
    validateAttemptIdentity host db j a leaf = .ok ⟨⟩ := by
  obtain ⟨d, x, hd, hdef, hx, hxi, hacc, hpl, -⟩ := attemptDefinition_ok h he hj leaf hleaf
  have e : a.definition = d := DB.Defines.unique h hi.defines hdef
  have eacc : a.account_id = x.id := (congrArg AttemptDefinition.account_id e).trans hacc
  simp only [validateAttemptIdentity, bind_eq_ok, require_eq_ok]
  refine ⟨(d, x), hd, ⟨⟩, e, ⟨⟩, ?_, hi.runtime⟩
  intro hne
  have hne' : a.session_revision ≠ a.account_id := by
    rw [eacc]
    exact hne
  obtain ⟨o, ho, e1, e2, e3⟩ := hi.session hne'
  exact ⟨o, Table.get_eq_some.mpr ⟨ho, e1⟩, by rw [e2, eacc], e3⟩

/-! ## the receipts of a store -/

/-- a job that was never claimed is in one of these -/
def JobState.isUnclaimed : JobState → Bool
  | .draft | .queued | .canceled => true
  | _ => false

/-- a receipt that allows a successor belongs to a failed or canceled job -/
theorem isRetryable_state {a : Attempt} (hv : attemptStateIsValid j a = true) (hr : a.isRetryable = true) :
    j.state = .failed ∨ j.state = .canceled := by
  obtain ⟨-, hv⟩ := Bool.and_eq_true_iff.mp hv
  simp only [Attempt.isRetryable, Bool.or_eq_true, Bool.and_eq_true, beq_iff_eq] at hr
  rcases hr with ⟨hs, hst⟩ | ⟨⟨hs, hc⟩, -⟩
  · rw [hs] at hv
    simp only [Bool.and_eq_true, beq_iff_eq] at hv
    have hstate := hv.1.1.2
    rcases hst with e | e <;> rw [e] at hstate
    · exact .inl (Option.some.inj hstate)
    · exact .inr (Option.some.inj hstate)
  · rw [hs] at hv
    simp only [hc, Option.any_some, Bool.and_eq_true, beq_iff_eq, Reconciliation.jobResult, Prod.mk.injEq] at hv
    exact .inl hv.1.1.1.2.2.1

structure DB.ReceiptsOK (host : Host) (db : DB) : Prop where
  receipts : ∀ a ∈ db.attempts, ∃ j, db.Has j ∧ j.id = a.job_id ∧ db.Identified host j a ∧
    attemptStateIsValid j a = true
  unclaimed : ∀ r ∈ db.jobs, db.attempts.get r.id = none → r.state.isUnclaimed = true
  parents : ∀ c ∈ db.jobs, ∀ p, c.retry_of = some p → ∃ a ∈ db.attempts, a.job_id = p ∧ a.isRetryable = true

namespace DB.ReceiptsOK

/-- the job of a receipt -/
theorem receipt (h : db.ReceiptsOK host) {a : Attempt} (ha : a ∈ db.attempts) (hj : db.Has j)
    (hid : j.id = a.job_id) : db.Identified host j a ∧ attemptStateIsValid j a = true := by
  obtain ⟨k, hk, hkid, hi, hv⟩ := h.receipts a ha
  rw [hj.unique hk (by rw [hid, hkid])]
  exact ⟨hi, hv⟩

theorem parent_state (h : db.ReceiptsOK host) {p c : Job} (hp : db.Parent p c) :
    p.state = .failed ∨ p.state = .canceled := by
  obtain ⟨r, hr, -, -, -, -, -, hof⟩ := hp.2.1.row
  obtain ⟨a, ha, hid, hretry⟩ := h.parents r hr p.id (by rw [hof, hp.2.2])
  exact isRetryable_state (h.receipt ha hp.1 hid.symm).2 hretry

theorem parentsEnded (h : db.ReceiptsOK host) : db.ParentsEnded := by
  intro p c hp
  rcases h.parent_state hp with e | e <;> rw [e] <;> rfl

/-- a job that has not ended is a leaf -/
theorem isLeaf (h : db.ReceiptsOK host) (hL : db.LedgerOK host) (hj : db.Has j) (hf : j.state ≠ .failed)
    (hc : j.state ≠ .canceled) : db.IsLeaf j := by
  rcases hL.successors_cases hj with hs | ⟨r, k, -, -, hp⟩
  · exact hs
  · rcases h.parent_state hp with e | e
    · exact absurd e hf
    · exact absurd e hc

end DB.ReceiptsOK
end
end OpenFlame.Upload
