import OpenFlame.Upload.Replay

/-!
# Stable request keys

`DigestStable`   the row of a request: its digest, recomputed from its roots and from the request
`KeySettled`     the row of a key, in any later world: what creation and cancellation answer

* `requestPreimage_eq_iff`   two requests are hashed alike iff they have one source and the same targets;
* `createJobs_replay`, `createJobs_row`   creation under a key that is taken;
* `digestStable_reachable`   no digest drifts from its jobs;
* `keyExclusive_reachable`   a key is a request or a tombstone, once and for all.
-/

set_option linter.all false

namespace OpenFlame.Upload
open Guard Relation TransSys

/-! ## the request a digest stands for -/

/-- the mapping that is hashed determines the target -/
theorem Target.entry_inj {t t' : Target} (h : sortKeys t.entry.2 = sortKeys t'.entry.2) : t = t' := by
  have hperm : t.entry.2.Perm t'.entry.2 :=
    (List.mergeSort_perm _ _).symm.trans ((List.Perm.of_eq h).trans (List.mergeSort_perm _ _))
  have hmem : ∀ e ∈ t.entry.2, e ∈ t'.entry.2 := fun e he => hperm.subset he
  simp only [Target.entry, List.mem_cons, List.not_mem_nil, or_false, forall_eq_or_imp, forall_eq, Prod.mk.injEq,
    true_and, false_and, reduceCtorEq, false_or, Cell.ident.injEq, Cell.platform.injEq, Cell.text.injEq,
    Cell.texts.injEq, Cell.int.injEq, Cell.mode.injEq, Cell.options.injEq, Cell.ofIdent_injective.eq_iff,
    Cell.ofInt_injective.eq_iff] at hmem
  obtain ⟨⟨_, _, _, _, _, _, _, _, _, _, _, _, _⟩, _⟩ := t
  obtain ⟨⟨_, _, _, _, _, _, _, _, _, _, _, _, _⟩, _⟩ := t'
  simp only at hmem
  obtain ⟨rfl, rfl, rfl, rfl, rfl, rfl, rfl, rfl, rfl, rfl, rfl, rfl, rfl, rfl⟩ := hmem
  rfl

/-- the targets of a request, in the order in which they are hashed -/
def sortTargets (ts : List Target) : List Target := ts.mergeSort (fun a b => a.account_id ≤ b.account_id)

theorem requestPreimage_targets (source_id : Ident) (ts : List Target) :
    requestPreimage source_id (ts.map Target.entry) =
      .request source_id ((sortTargets ts).map (fun t => sortKeys t.entry.2)) := by
  unfold requestPreimage sortTargets
  rw [← List.map_mergeSort (r := fun a b : Target => decide (a.account_id ≤ b.account_id)) (fun a _ b _ => rfl),
    List.map_map]
  rfl

/-- **Two requests are hashed alike iff they have one source and the same targets.** -/
theorem requestPreimage_eq_iff {s s' : Ident} {ts ts' : List Target} (hnd : (ts.map (fun t => t.account_id)).Nodup) :
    requestPreimage s (ts.map Target.entry) = requestPreimage s' (ts'.map Target.entry) ↔ s = s' ∧ ts.Perm ts' := by
  rw [requestPreimage_targets, requestPreimage_targets, Preimage.request.injEq]
  refine and_congr_right (fun _ => ⟨fun h => ?_, fun h => ?_⟩)
  · have hsort : sortTargets ts = sortTargets ts' := List.map_injective_iff.mpr (fun _ _ => Target.entry_inj) h
    exact (List.mergeSort_perm _ _).symm.trans ((List.Perm.of_eq hsort).trans (List.mergeSort_perm _ _))
  · have hsorted : ∀ l : List Target, (sortTargets l).Pairwise (fun a b => a.account_id ≤ b.account_id) := by
      intro l
      unfold sortTargets
      refine (List.pairwise_mergeSort ?_ ?_ l).imp (fun h => of_decide_eq_true h)
      · intro a b c hab hbc
        simp only [decide_eq_true_eq] at hab hbc ⊢
        exact Nat.le_trans hab hbc
      · intro a b
        simp only [Bool.or_eq_true, decide_eq_true_eq]
        exact Nat.le_total _ _
    have e : sortTargets ts = sortTargets ts' := by
      have hperm : (sortTargets ts).Perm ts := List.mergeSort_perm _ _
      refine List.Perm.eq_of_pairwise ?_ (hsorted ts) (hsorted ts')
        (hperm.trans (h.trans (List.mergeSort_perm _ _).symm))
      -- no account comes twice, so the order is total on the targets
      intro a b ha hb hab hba
      have hb' : b ∈ ts := h.symm.subset ((List.mergeSort_perm _ _).subset hb)
      exact List.inj_on_of_nodup_map hnd (hperm.subset ha) hb' (Nat.le_antisymm hab hba)
    rw [e]

section
variable {host : Host} {env : Env} {db db' : DB} {intent : UploadIntent} {key : String} {accounts : List Account}
  {overrides : List (Ident × TargetOverride)} {bindings : Option (List AccountBinding)} {new_id : Nat → Ident}
  {title description credit : Text} {tags : List Text} {targets : List Target} {q : Request} {roots : List Job}

/-! ## one request, read by creation and by the workflow -/

/-- which code a failure would have had makes no difference -/
theorem overrideMap_code {ids : List Ident} {c c' : Code} : ∀ {os : List TargetOverride}
    {seen r : List (Ident × TargetOverride)}, overrideMap ids c seen os = .ok r → overrideMap ids c' seen os = .ok r := by
  intro os
  induction os with
  | nil => exact fun h => h
  | cons o os ih =>
    intro seen r h
    simp only [overrideMap, bind_eq_ok, require_eq_ok] at h ⊢
    obtain ⟨_, h1, id, hid, _, h2, h⟩ := h
    exact ⟨⟨⟩, h1, id, hid, ⟨⟩, h2, ih h⟩

theorem each_account_code {ids : List Ident} {c c' : Code}
    (h : each (fun id => fetch (db.accounts.get id) c) ids = .ok accounts) :
    each (fun id => fetch (db.accounts.get id) c') ids = .ok accounts :=
  each_eq_ok_of_forall₂ ((each_forall₂ h).imp (fun _ _ e => fetch_eq_ok.mpr (fetch_eq_ok.mp e)))

/-- what a creation hashes is what the workflow hashes -/
theorem CreateParts.identity
    (hp : CreateParts db intent key bindings title description credit overrides accounts)
    (htags : normalizeUploadTags intent.tags = .ok tags)
    (ht : normalizeTargets host env db accounts (intent.base title description tags credit) overrides unverified =
      .ok targets) :
    workflowRequestIdentity host env db intent =
      .ok (targets, requestDigest host intent.source_id (targets.map Target.entry)) := by
  simp only [workflowRequestIdentity, workflowRequestTargets, bind_eq_ok, require_eq_ok, recast_eq_ok, pure_eq_ok]
  exact ⟨targets, ⟨⟨⟩, hp.count, title, hp.titleOk, description, hp.descriptionOk, tags, htags, credit, hp.creditOk,
    ⟨⟩, hp.scalars, ⟨⟩, hp.atMost, overrides, overrideMap_code hp.overridesOk, accounts, each_account_code hp.accountsOk,
    ht⟩, rfl⟩

/-- the session bindings of a call are those of its accounts -/
def DB.BindingsHold (db : DB) (account_ids : List Ident) (bindings : Option (List AccountBinding)) : Prop :=
  ∃ accounts, each (fun id => fetch (db.accounts.get id) "account_not_found") account_ids = .ok accounts ∧
    validateWorkflowAccountBindings db accounts bindings account_ids true = .ok ⟨⟩

/-- a request that the workflow can read passes the checks of a creation -/
theorem identity_parts {d : Digest} (h : workflowRequestIdentity host env db intent = .ok (targets, d))
    (hkey : isRequestId key = true) (hb : db.BindingsHold intent.account_ids bindings) :
    d = requestDigest host intent.source_id (targets.map Target.entry) ∧ ∃ title description credit overrides accounts,
      CreateParts db intent key bindings title description credit overrides accounts ∧
      ∃ tags, normalizeUploadTags intent.tags = .ok tags ∧ normalizeTargets host env db accounts
        (intent.base title description tags credit) overrides unverified = .ok targets := by
  simp only [workflowRequestIdentity, workflowRequestTargets, bind_eq_ok, require_eq_ok, recast_eq_ok, pure_eq_ok] at h
  obtain ⟨ts, ⟨_, hcount, title, htitle, description, hdescription, tags, htags, credit, hcredit, _, hscalars, _, hmost,
    overrides, hoverrides, accounts, haccounts, ht⟩, heq⟩ := h
  cases heq
  obtain ⟨accounts', haccounts', hbindings⟩ := hb
  have e : each (fun id => fetch (db.accounts.get id) "account_not_found") intent.account_ids = .ok accounts :=
    each_account_code haccounts
  rw [haccounts'] at e
  cases e
  exact ⟨rfl, title, description, credit, overrides, accounts, ⟨hcount, htitle, hdescription, hcredit, hscalars, hkey,
    hmost, overrideMap_code hoverrides, haccounts', hbindings⟩, tags, htags, ht⟩

/-- a creation under a key that is taken goes on to compare digests -/
theorem CreateParts.replay (hp : CreateParts db intent key bindings title description credit overrides accounts)
    (hq : db.requests.get key = some q) (hne : q.job_ids ≠ []) :
    createJobs host env db intent key bindings new_id = (do
      return (db, ← replayRequest host env db q accounts intent title description (normalizeUploadTags intent.tags)
        credit overrides)) := by
  simp only [createJobs, require_pos hp.count, hp.titleOk, hp.descriptionOk, hp.creditOk, require_pos hp.scalars,
    require_pos hp.keyOk, require_pos hp.atMost, hp.overridesOk, hq, hp.accountsOk, hp.bindingsOk, ok_bind]
  rw [require_pos (fun row hrow => by cases hrow; exact hne), ok_bind]

/-- **Creation under a key that is taken** answers with its roots, or with a conflict. -/
theorem createJobs_replay (hq : db.requests.get key = some q) (hne : q.job_ids ≠ []) (hv : q.digest_version = .v2)
    (hkey : isRequestId key = true) {d : Digest} (hid : workflowRequestIdentity host env db intent = .ok (targets, d))
    (hb : db.BindingsHold intent.account_ids bindings) (hroots : each (getJob db) q.job_ids = .ok roots) :
    createJobs host env db intent key bindings new_id =
      if q.digest = d then .ok (db, roots) else .error "idempotency_conflict" := by
  obtain ⟨rfl, title, description, credit, overrides, accounts, hp, tags, htags, ht⟩ := identity_parts hid hkey hb
  rw [hp.replay hq hne]
  simp only [replayRequest, hv, htags, ok_bind, ht]
  split
  · next he =>
    rw [require_pos he, ok_bind, hroots]
    rfl
  · next he =>
    rw [require_neg he]
    rfl

theorem replayRequest_got {tags : Except Code (List Text)} {jobs : List Job}
    (h : replayRequest host env db q accounts intent title description tags credit overrides = .ok jobs) :
    each (getJob db) q.job_ids = .ok jobs := by
  cases hv : q.digest_version with
  | v1 =>
    cases tags with
    | ok tags =>
      simp only [replayRequest, hv, bind_eq_ok, require_eq_ok] at h
      obtain ⟨_, -, _, -, _, -, h⟩ := h
      exact h
    | error e =>
      simp only [replayRequest, hv, bind_eq_ok, require_eq_ok] at h
      obtain ⟨_, -, _, -, _, -, h⟩ := h
      exact h
  | v2 =>
    simp only [replayRequest, hv, bind_eq_ok, require_eq_ok] at h
    obtain ⟨_, -, _, -, _, -, h⟩ := h
    exact h

/-- whatever a creation is asked for, under a key that is taken it creates nothing -/
theorem createJobs_row {jobs : List Job} (hq : db.requests.get key = some q)
    (h : createJobs host env db intent key bindings new_id = .ok (db', jobs)) :
    q.job_ids ≠ [] ∧ db' = db ∧ each (getJob db) q.job_ids = .ok jobs := by
  obtain ⟨title, description, credit, overrides, accounts, hp, ⟨q', hq', hne, rfl, hr⟩ | ⟨hnone, -⟩⟩ :=
    createJobs_spec h
  · rw [hq] at hq'
    cases hq'
    exact ⟨hne, rfl, replayRequest_got hr⟩
  · rw [hq] at hnone
    cases hnone

/-- the row behind a creation that returned, and the request it was created for -/
theorem createJobs_request (hok : db.OK host) {jobs : List Job}
    (h : createJobs host env db intent key bindings new_id = .ok (db', jobs)) :
    ∃ q targets, db'.requests.get key = some q ∧ q.digest_version = .v2 ∧ q.job_ids ≠ [] ∧
      each (getJob db') q.job_ids = .ok jobs ∧ isRequestId key = true ∧
      workflowRequestIdentity host env db' intent = .ok (targets, q.digest) := by
  obtain ⟨title, description, credit, overrides, accounts, hp, hcase⟩ := createJobs_spec h
  obtain ⟨hmem, hnd, hlen⟩ := hp.mem
  rcases hcase with ⟨q, hq, hne, rfl, hr⟩ | ⟨-, tags, targets, q, htags, hc⟩
  · have hv := (hok.ledger.keys q (Table.get_eq_some.mp hq).1).2
    have hgot := replayRequest_got hr
    simp only [replayRequest, hv, bind_eq_ok, require_eq_ok] at hr
    obtain ⟨tags, htags, targets, ht, -, hdig, -⟩ := hr
    refine ⟨q, targets, hq, hv, hne, hgot, hp.keyOk, ?_⟩
    rw [hdig]
    exact hp.identity htags ht
  · have hroot := hc.rooted hmem hnd hlen
    have hne : q.job_ids ≠ [] := List.ne_nil_of_length_pos hroot.count.1
    have ht : normalizeTargets host env db accounts (intent.base title description tags credit) overrides unverified =
        .ok targets :=
      each_eq_ok_of_forall₂ ((each_forall₂ hc.made).imp
        (fun a t hat => normalizeTarget_unverified rfl rfl rfl (createTarget_spec hat).2.2.1))
    refine ⟨q, targets, Table.get_eq_some.mpr ⟨(Table.mem_insert hc.request).mpr (.inr rfl), hc.key⟩, hc.version, hne,
      hc.got, hp.keyOk, ?_⟩
    have hchain : Chain host db db' := (createJobs_clients h).chain
    rw [hc.digest]
    exact workflowRequestIdentity_later hchain.extends (hp.identity htags ht)

/-- a request that can be read is one whose accounts are there -/
theorem bindingsHold_none {d : Digest} (h : workflowRequestIdentity host env db intent = .ok (targets, d)) :
    db.BindingsHold intent.account_ids none := by
  simp only [workflowRequestIdentity, workflowRequestTargets, bind_eq_ok, require_eq_ok, recast_eq_ok] at h
  obtain ⟨_, ⟨_, -, _, -, _, -, _, -, _, -, _, -, _, -, _, -, accounts, haccounts, -⟩, -⟩ := h
  exact ⟨accounts, each_account_code haccounts, rfl⟩

/-! ## digests do not drift -/

/-- the row of a request in one world: its digest is that of its roots, of a replay, and of the workflow -/
structure DigestStable (host : Host) (intent : UploadIntent) (key : String) (q : Request) (w : World) : Prop where
  stored : w.db.requests.get key = some q
  fromJobs : ∃ roots, each (getJob w.db) q.job_ids = .ok roots ∧
    workflowRequestDigestFromJobs host roots = .ok q.digest ∧ requestJobsFromRow host w.db q none = .ok roots
  identity : ∀ env, ∃ targets, workflowRequestIdentity host env w.db intent = .ok (targets, q.digest)
  unbound : w.db.BindingsHold intent.account_ids none
  replay : ∀ env bindings new_id, w.db.BindingsHold intent.account_ids bindings →
    ∃ roots, createJobs host env w.db intent key bindings new_id = .ok (w.db, roots) ∧
      each (getJob w.db) q.job_ids = .ok roots

/-- a row, in every later store -/
theorem row_later (he : db.Extends db') (h : db.requests.get key = some q) : db'.requests.get key = some q := by
  obtain ⟨hq, hid⟩ := Table.get_eq_some.mp h
  exact Table.get_eq_some.mpr ⟨he.request hq, hid⟩

/-- **The digest of a request never drifts from its jobs**, nor from the request it was computed for. -/
theorem digestStable_reachable {w w₁ : World} (h : w.Reachable host)
    (hs : w.Step host (.createJobs env intent key bindings new_id) w₁) :
    ∃ q jobs, createJobs host env w.db intent key bindings new_id = .ok (w₁.db, jobs) ∧
      jobs.map Job.id = q.job_ids ∧ ∀ ls w₂, Run (World.Step host) w₁ ls w₂ → DigestStable host intent key q w₂ := by
  have hw := ok_reachable h
  have hw₁ := hw.step hs
  obtain ⟨-, happly⟩ := hs
  simp only [World.apply, bind_eq_ok, pure_eq_ok] at happly
  obtain ⟨⟨db₁, jobs⟩, hc, rfl⟩ := happly
  obtain ⟨q, targets, hq, hv, hne, hgot, hkey, hid⟩ := createJobs_request hw.db hc
  refine ⟨q, jobs, hc, (each_getJob_ids hgot).1, fun ls w₂ hr => ?_⟩
  have hchain := run_chain hw₁ hr
  have hok := Chain.ok hchain hw₁.db
  have hq₂ := row_later hchain.extends hq
  have hid₂ : ∀ env, workflowRequestIdentity host env w₂.db intent = .ok (targets, q.digest) :=
    fun env => workflowRequestIdentity_later hchain.extends hid
  have hmem := (Table.get_eq_some.mp hq₂).1
  obtain ⟨roots, hroots⟩ := hok.ledger.rooted q hmem hne
  refine ⟨hq₂, ⟨roots, hroots.got, hroots.digest, requestJobsFromRow_ok hok.ledger hmem hroots⟩,
    fun env => ⟨targets, hid₂ env⟩, bindingsHold_none (hid₂ env), fun env bindings new_id hb => ⟨roots, ?_, hroots.got⟩⟩
  rw [createJobs_replay hq₂ hne hv hkey (hid₂ env) hb hroots.got, if_pos rfl]

/-- the request of the upload that fails is created in its seventh step -/
theorem failedUpload_created : ∃ w w₁ w₂, World.initial.run plainHost (failedUpload.take 6) = some w ∧
    w.Step plainHost (.createJobs plainEnv plainIntent "request_1" none (fun i => 5 + i)) w₁ ∧
    Run (World.Step plainHost) w₁ (failedUpload.drop 7) w₂ ∧
    w₂.db.jobs.rows.map (fun r => (r.id, r.retry_of)) = [(5, none), (7, some 5)] ∧
    w₂.db.requests.rows.map Request.job_ids = [[5]] := by
  obtain ⟨w₂, hw₂, -, hjobs, -, hrequests⟩ := failedUpload_run
  have hcut : failedUpload = failedUpload.take 6 ++
      ([.createJobs plainEnv plainIntent "request_1" none (fun i => 5 + i)] ++ failedUpload.drop 7) := rfl
  rw [hcut, World.run_append] at hw₂
  obtain ⟨w, hw, hrest⟩ := Option.bind_eq_some_iff.mp hw₂
  rw [World.run_append] at hrest
  obtain ⟨w₁, hw₁, hrest⟩ := Option.bind_eq_some_iff.mp hrest
  have hids := congrArg (List.map Prod.snd) hrequests
  rw [List.map_map] at hids
  cases World.run_eq_some plainHost hw₁ with
  | cons hstep hnil =>
    cases hnil
    exact ⟨w, w₁, w₂, hw, hstep, World.run_eq_some plainHost hrest, hjobs, hids⟩

/-- the digest of a request whose job failed and was retried -/
theorem digestStable_retried : ∃ w : World, ∃ q, (w.db.jobs.rows.map (fun r => (r.id, r.retry_of)),
    w.db.requests.rows.map Request.job_ids) = ([(5, none), (7, some 5)], [[5]]) ∧
    DigestStable plainHost plainIntent "request_1" q w := by
  obtain ⟨w, w₁, w₂, hw, hstep, hrest, hjobs, hids⟩ := failedUpload_created
  obtain ⟨q, -, -, -, hstable⟩ := digestStable_reachable (World.reachable_run plainHost hw) hstep
  exact ⟨w₂, q, by rw [hjobs, hids], hstable _ _ hrest⟩

/-! ## a key is a request or a tombstone -/

/-- the request `(source_id, targets)` is the one these roots were created for, in some order of its accounts -/
structure SameRequest (roots : List Job) (source_id : Ident) (targets : List Target) : Prop where
  source : ∀ j ∈ roots, j.source_id = source_id
  targets : targets.Perm (roots.map Job.target)

/-- SHA-256 does not collide on the request of these roots and another one -/
def NoCollision (host : Host) (roots : List Job) (source_id : Ident) (targets : List Target) : Prop :=
  ∀ s, (∀ j ∈ roots, j.source_id = s) →
    requestDigest host s (roots.map Job.entry) = requestDigest host source_id (targets.map Target.entry) →
    requestPreimage s (roots.map Job.entry) = requestPreimage source_id (targets.map Target.entry)

/-- what creation and cancellation answer for a request that can be read, under a key with these roots -/
structure KeyAnswers (host : Host) (key : String) (roots : List Job) (db : DB) (env : Env) (intent : UploadIntent)
    (targets : List Target) : Prop where
  same : ∀ bindings new_id, db.BindingsHold intent.account_ids bindings → SameRequest roots intent.source_id targets →
    createJobs host env db intent key bindings new_id = .ok (db, roots)
  conflict : ∀ bindings new_id, db.BindingsHold intent.account_ids bindings →
    ¬ SameRequest roots intent.source_id targets → NoCollision host roots intent.source_id targets →
    createJobs host env db intent key bindings new_id = .error "idempotency_conflict"
  claimed : (∀ j ∈ roots, j.source_id = intent.source_id) → targets = roots.map Job.target →
    claimWorkflowRequestForCancellation host env db key intent = .ok (db, some roots)
  mismatch : ¬ SameRequest roots intent.source_id targets → NoCollision host roots intent.source_id targets →
    claimWorkflowRequestForCancellation host env db key intent = .error "upload_request_mismatch"

/-- the row of a key in one world: nothing is created under the key, and what is read back are its roots -/
structure KeySettled (host : Host) (key : String) (q : Request) (w : World) : Prop where
  stored : w.db.requests.get key = some q
  creates : ∀ env intent bindings new_id db' jobs,
    createJobs host env w.db intent key bindings new_id = .ok (db', jobs) →
      q.job_ids ≠ [] ∧ db' = w.db ∧ jobs.map Job.id = q.job_ids
  cancels : ∀ db' r, (claimOrReadWorkflowCancellation host w.db key = .ok (db', r) ∨
    ∃ env intent, claimWorkflowRequestForCancellation host env w.db key intent = .ok (db', r)) →
      db' = w.db ∧ (r.getD []).map Job.id = q.job_ids
  roots : q.job_ids ≠ [] → ∃ roots, roots.map Job.id = q.job_ids ∧ (∀ j ∈ roots, w.db.Has j) ∧
    claimOrReadWorkflowCancellation host w.db key = .ok (w.db, some roots) ∧
    ∀ env intent targets d, workflowRequestIdentity host env w.db intent = .ok (targets, d) →
      KeyAnswers host key roots w.db env intent targets

/-- the roots of a row share a source, and the row has the digest of their request -/
theorem DB.Rooted.request (h : db.Rooted host q roots) : ∃ s, (∀ j ∈ roots, j.source_id = s) ∧
    q.digest = requestDigest host s (roots.map Job.entry) ∧ (roots.map Job.account_id).Nodup := by
  have hd := h.digest
  cases roots with
  | nil => cases hd
  | cons first rest =>
    simp only [workflowRequestDigestFromJobs, bind_eq_ok, require_eq_ok, pure_eq_ok] at hd
    obtain ⟨_, hnd, _, hsrc, hd⟩ := hd
    exact ⟨first.source_id, hsrc, hd.symm, hnd⟩

/-- two requests have one digest iff they are the same -/
theorem sameRequest_iff {s : Ident} (hne : roots ≠ []) (hsrc : ∀ j ∈ roots, j.source_id = s)
    (hnd : (roots.map Job.account_id).Nodup) {source_id : Ident} :
    requestPreimage s (roots.map Job.entry) = requestPreimage source_id (targets.map Target.entry) ↔
      SameRequest roots source_id targets := by
  have hent : roots.map Job.entry = (roots.map Job.target).map Target.entry := by
    rw [List.map_map]
    rfl
  have hacc : ((roots.map Job.target).map (fun t => t.account_id)).Nodup := by
    rw [List.map_map]
    exact hnd
  rw [hent, requestPreimage_eq_iff hacc]
  constructor
  · rintro ⟨rfl, hperm⟩
    exact ⟨hsrc, hperm.symm⟩
  · intro h
    obtain ⟨j, hj⟩ := List.exists_mem_of_ne_nil _ hne
    exact ⟨by rw [← hsrc j hj, h.source j hj], h.targets.symm⟩

/-- reading roots back against the request they were created for -/
theorem requestJobsFromRow_expected (hL : db.LedgerOK host) (hq : q ∈ db.requests) (hr : db.Rooted host q roots)
    {source_id : Ident} (hsrc : ∀ j ∈ roots, j.source_id = source_id) (ht : targets = roots.map Job.target) :
    requestJobsFromRow host db q (some (source_id, targets)) = .ok roots := by
  obtain ⟨hkey, hver⟩ := hL.keys q hq
  obtain ⟨h1, h20, hnd⟩ := hr.count
  simp only [requestJobsFromRow, hver, bind_eq_ok, require_eq_ok, recast_eq_ok, pure_eq_ok]
  refine ⟨⟨⟩, ⟨hkey, h1, h20, hnd⟩, roots, hr.got, ⟨⟩, hr.roots, q.digest, hr.digest, ⟨⟩, rfl, ⟨⟩, ?_, rfl⟩
  rw [ht, List.forall₂_map_right_iff, List.forall₂_same]
  intro j hj
  simp [Job.isTarget, hsrc j hj]

theorem keyAnswers (hL : db.LedgerOK host) (hq : db.requests.get key = some q) (hne : q.job_ids ≠ [])
    (hr : db.Rooted host q roots) {d : Digest} (hid : workflowRequestIdentity host env db intent = .ok (targets, d)) :
    KeyAnswers host key roots db env intent targets := by
  obtain ⟨hmem, rfl⟩ := Table.get_eq_some.mp hq
  obtain ⟨hkey, hv⟩ := hL.keys q hmem
  obtain ⟨s, hsrc, hdig, hnd⟩ := hr.request
  have hroots : roots ≠ [] := by
    rintro rfl
    exact hne hr.ids.symm
  obtain ⟨hd, -⟩ := identity_parts hid hkey (bindingsHold_none hid)
  have hsame : SameRequest roots intent.source_id targets → q.digest = d := by
    intro h
    rw [hdig, hd, requestDigest, requestDigest, (sameRequest_iff hroots hsrc hnd).mpr h]
  have hdiff : ¬ SameRequest roots intent.source_id targets → NoCollision host roots intent.source_id targets →
      q.digest ≠ d := by
    intro h hc e
    rw [hdig, hd] at e
    exact h ((sameRequest_iff hroots hsrc hnd).mp (hc s hsrc e))
  constructor
  case same =>
    intro bindings new_id hb h
    rw [createJobs_replay hq hne hv hkey hid hb hr.got, if_pos (hsame h)]
  case conflict =>
    intro bindings new_id hb h hc
    rw [createJobs_replay hq hne hv hkey hid hb hr.got, if_neg (hdiff h hc)]
  case claimed =>
    intro hs ht
    have h := hsame ⟨hs, by rw [ht]⟩
    rw [claimWorkflowRequestForCancellation, require_pos hkey, ok_bind, hid, ok_bind, hq]
    show (require _ _ >>= _) = _
    rw [require_pos ⟨hv, h⟩, ok_bind, if_neg hne, requestJobsFromRow_expected hL hmem hr hs ht]
    rfl
  case mismatch =>
    intro h hc
    rw [claimWorkflowRequestForCancellation, require_pos hkey, ok_bind, hid, ok_bind, hq]
    show (require _ _ >>= _) = _
    rw [require_neg (fun e => hdiff h hc e.2)]
    rfl

theorem claimOrRead_row (hq : db.requests.get key = some q) {r : Option (List Job)}
    (h : claimOrReadWorkflowCancellation host db key = .ok (db', r)) :
    db' = db ∧ (r.getD []).map Job.id = q.job_ids := by
  simp only [claimOrReadWorkflowCancellation, hq, bind_eq_ok, require_eq_ok] at h
  obtain ⟨-, -, -, -, h⟩ := h
  split at h
  · next he =>
    simp only [bind_eq_ok, require_eq_ok, pure_eq_ok] at h
    obtain ⟨-, -, heq⟩ := h
    cases heq
    exact ⟨rfl, he.symm⟩
  · simp only [bind_eq_ok, pure_eq_ok] at h
    obtain ⟨jobs, hjobs, heq⟩ := h
    cases heq
    exact ⟨rfl, (each_getJob_ids (requestJobsFromRow_has hjobs)).1⟩

theorem claimWorkflow_row (hq : db.requests.get key = some q) {r : Option (List Job)}
    (h : claimWorkflowRequestForCancellation host env db key intent = .ok (db', r)) :
    db' = db ∧ (r.getD []).map Job.id = q.job_ids := by
  simp only [claimWorkflowRequestForCancellation, hq, bind_eq_ok, require_eq_ok] at h
  obtain ⟨-, -, _, -, -, -, h⟩ := h
  split at h
  · next he =>
    cases h
    exact ⟨rfl, he.symm⟩
  · simp only [bind_eq_ok, pure_eq_ok] at h
    obtain ⟨jobs, hjobs, heq⟩ := h
    cases heq
    exact ⟨rfl, (each_getJob_ids (requestJobsFromRow_has hjobs)).1⟩

theorem keySettled {w : World} (hok : w.db.OK host) (hq : w.db.requests.get key = some q) :
    KeySettled host key q w where
  stored := hq
  creates := by
    intro env intent bindings new_id db' jobs h
    obtain ⟨hne, rfl, hgot⟩ := createJobs_row hq h
    exact ⟨hne, rfl, (each_getJob_ids hgot).1⟩
  cancels := by
    rintro db' r (h | ⟨env, intent, h⟩)
    · exact claimOrRead_row hq h
    · exact claimWorkflow_row hq h
  roots := by
    intro hne
    have hmem := (Table.get_eq_some.mp hq).1
    obtain ⟨roots, hr⟩ := hok.ledger.rooted q hmem hne
    refine ⟨roots, hr.ids, hr.has, ?_, fun env intent targets d hid => keyAnswers hok.ledger hq hne hr hid⟩
    obtain ⟨hkey, hv⟩ := hok.ledger.keys q hmem
    rw [(Table.get_eq_some.mp hq).2] at hkey
    rw [claimOrReadWorkflowCancellation, require_pos hkey, ok_bind, hq]
    show (require _ _ >>= _) = _
    rw [require_pos hv, ok_bind, if_neg hne, requestJobsFromRow_ok hok.ledger hmem hr]
    rfl

/-- a stable key in one world, and in every world after it -/
structure KeyExclusive (host : Host) (key : String) (w : World) : Prop where
  created : ∀ env intent bindings new_id w', w.Step host (.createJobs env intent key bindings new_id) w' →
    ∃ q jobs, createJobs host env w.db intent key bindings new_id = .ok (w'.db, jobs) ∧
      w'.db.requests.get key = some q ∧ q.job_ids = jobs.map Job.id ∧ jobs ≠ []
  stopped : ∀ w', w.db.requests.get key = none → (w.Step host (.claimOrReadWorkflowCancellation key) w' ∨
    ∃ env intent, w.Step host (.claimWorkflowRequestForCancellation env key intent) w') →
      ∃ q, w'.db.requests.get key = some q ∧ q.job_ids = []
  settled : ∀ q, w.db.requests.get key = some q → ∀ ls w', Run (World.Step host) w ls w' → KeySettled host key q w'

theorem insertTombstone_get {digest : Digest} (h : insertTombstone db key digest = .ok db') :
    ∃ q, db'.requests.get key = some q ∧ q.job_ids = [] := by
  simp only [insertTombstone, bind_eq_ok, fetch_eq_ok, pure_eq_ok] at h
  obtain ⟨t, ht, rfl⟩ := h
  exact ⟨_, Table.get_eq_some.mpr ⟨(Table.mem_insert ht).mpr (.inr rfl), rfl⟩, rfl⟩

/-- **A key is a request with roots or a tombstone, from its first row on.** -/
theorem keyExclusive_reachable {w : World} (h : w.Reachable host) (key : String) : KeyExclusive host key w := by
  have hw := ok_reachable h
  constructor
  case created =>
    intro env intent bindings new_id w' hs
    obtain ⟨-, happly⟩ := hs
    simp only [World.apply, bind_eq_ok, pure_eq_ok] at happly
    obtain ⟨⟨db', jobs⟩, hc, rfl⟩ := happly
    obtain ⟨q, targets, hq, -, hne, hgot, -, -⟩ := createJobs_request hw.db hc
    have hids := (each_getJob_ids hgot).1
    exact ⟨q, jobs, hc, hq, hids.symm, fun e => hne (by rw [← hids, e]; rfl)⟩
  case stopped =>
    rintro w' hnone (hs | ⟨env, intent, hs⟩)
    · obtain ⟨-, happly⟩ := hs
      simp only [World.apply, claimOrReadWorkflowCancellation, hnone, bind_eq_ok, pure_eq_ok] at happly
      obtain ⟨_, ⟨-, -, d, hd, rfl⟩, rfl⟩ := happly
      exact insertTombstone_get hd
    · obtain ⟨-, happly⟩ := hs
      simp only [World.apply, claimWorkflowRequestForCancellation, hnone, bind_eq_ok, pure_eq_ok] at happly
      obtain ⟨_, ⟨-, -, _, -, d, hd, rfl⟩, rfl⟩ := happly
      exact insertTombstone_get hd
  case settled =>
    intro q hq ls w' hr
    have hchain := run_chain hw hr
    exact keySettled (Chain.ok hchain hw.db) (row_later hchain.extends hq)

/-- the key of a request that was created, dispatched and retried -/
theorem keyExclusive_retried : ∃ w : World, w.db.requests.rows.map (fun q => (q.id, q.job_ids)) = [("request_1", [5])] ∧
    KeyExclusive plainHost "request_1" w := by
  obtain ⟨w, hw, -, -, -, hs⟩ := failedUpload_run
  exact ⟨w, hs, keyExclusive_reachable (World.reachable_run plainHost hw) "request_1"⟩

/-- the code of a call that failed -/
def failure {α : Type} (x : Except Code α) : Option Code :=
  match x with
  | .ok _ => none
  | .error e => some e

theorem failure_eq_some {α : Type} {x : Except Code α} {e : Code} : failure x = some e ↔ x = .error e := by
  cases x <;> simp [failure]

theorem toOption_eq_some {α : Type} {x : Except Code α} {a : α} : x.toOption = some a ↔ x = .ok a := by
  cases x <;> simp [Except.toOption]

/-- one video for two accounts -/
def pairIntent : UploadIntent := { plainIntent with account_ids := [1, 8] }

def swappedIntent : UploadIntent := { plainIntent with account_ids := [8, 1] }

/-- the sessions of the two accounts -/
def pairBindings : List AccountBinding := [⟨1, .douyin, 2⟩, ⟨8, .douyin, 8⟩]

/-- two accounts, of which one has logged in, and a video -/
def pairSetup : List Label :=
  firstUpload.take 6 ++ [.addAccount .douyin (.str "other".toList) 8]

/-- the request for both, and another login of the first account -/
def pairCreate : Label := .createJobs plainEnv pairIntent "request_1" (some pairBindings) (fun i => 5 + i)

/-- **A key that is taken does not answer every equal request**: the very call that created the request fails after
another login, and a cancellation that names its accounts in another order fails too, though a creation that does so
returns the roots. -/
theorem keyExclusive_refused : ∃ w w₁ w₂ : World, w.Reachable plainHost ∧ w.Step plainHost pairCreate w₁ ∧
    w₁.Step plainHost (.accountAction plainEnv 1 .login 9) w₂ ∧
    createJobs plainHost plainEnv w₂.db pairIntent "request_1" (some pairBindings) (fun i => 10 + i) =
      .error "account_session_changed" ∧
    claimWorkflowRequestForCancellation plainHost plainEnv w₂.db "request_1" swappedIntent =
      .error "upload_request_mismatch" ∧
    ∃ roots, roots.map Job.id = [5, 6] ∧ createJobs plainHost plainEnv w₂.db swappedIntent "request_1" none
      (fun i => 10 + i) = .ok (w₂.db, roots) := by
  have hrun : ((World.initial.run plainHost pairSetup).bind (fun w => (w.run plainHost [pairCreate]).bind (fun w₁ =>
      w₁.run plainHost [.accountAction plainEnv 1 .login 9]))).map (fun w₂ =>
        (failure (createJobs plainHost plainEnv w₂.db pairIntent "request_1" (some pairBindings) (fun i => 10 + i)),
          failure (claimWorkflowRequestForCancellation plainHost plainEnv w₂.db "request_1" swappedIntent),
          (createJobs plainHost plainEnv w₂.db swappedIntent "request_1" none (fun i => 10 + i)).toOption.map (fun out => out.2.map Job.id),
          (w₂.db.requests.get "request_1").isSome)) =
      some (some "account_session_changed", some "upload_request_mismatch", some [5, 6], true) := by decide +kernel
  obtain ⟨w₂, hw, hs⟩ := Option.map_eq_some_iff.mp hrun
  obtain ⟨w, hw, hbind⟩ := Option.bind_eq_some_iff.mp hw
  obtain ⟨w₁, hw₁, hw₂⟩ := Option.bind_eq_some_iff.mp hbind
  simp only [Prod.mk.injEq, failure_eq_some] at hs
  obtain ⟨h1, h2, h3, h4⟩ := hs
  obtain ⟨q, hq⟩ := Option.isSome_iff_exists.mp h4
  obtain ⟨⟨db', roots⟩, hout, hids⟩ := Option.map_eq_some_iff.mp h3
  have hroots := toOption_eq_some.mp hout
  obtain ⟨-, rfl, -⟩ := createJobs_row hq hroots
  cases World.run_eq_some plainHost hw₁ with
  | cons hstep hnil =>
    cases hnil
    cases World.run_eq_some plainHost hw₂ with
    | cons hstep' hnil =>
      cases hnil
      exact ⟨w, w₁, w₂, World.reachable_run plainHost hw, hstep, hstep', h1, h2, roots, hids, hroots⟩

end

end OpenFlame.Upload
