import OpenFlame.Upload.Invariants
import OpenFlame.Upload.Normalize

/-!
# Creating a request

* `createRequest_spec`   a request that was created: its targets, its row, and the drafts that carry
                         the targets;
* `createRequest_client`   is one client move;
* `createJobs_spec`      `createJobs` either answers from a ledger row, or creates a request;
* `insertTombstone_client` and the two cancellations of a stable key.
-/

set_option linter.all false

namespace OpenFlame.Upload
open Guard Relation

section
variable {host : Host} {env : Env} {db db' : DB} {intent : UploadIntent} {accounts : List Account} {key : String}
  {new_id : Nat → Ident} {overrides : List (Ident × TargetOverride)}

theorem insertRoots_spec {source_id : Ident} : ∀ {items : List (Target × Ident)} {db db' : DB},
    thread (insertRoot source_id) db items = .ok db' →
    db.SameWorld db' ∧ db'.requests = db.requests ∧ db'.attempts = db.attempts ∧
      db'.jobs.rows = db.jobs.rows ++ items.map (rootRow source_id) := by
  intro items
  induction items with
  | nil =>
    intro db db' h
    cases h
    exact ⟨⟨rfl, rfl, rfl, rfl⟩, rfl, rfl, by simp⟩
  | cons item items ih =>
    intro db db' h
    cases hi : insertRoot source_id db item with
    | error e => simp [thread, hi] at h
    | ok d =>
      simp only [thread, hi] at h
      obtain ⟨hw, hr, ha, hj⟩ := ih h
      simp only [insertRoot, bind_eq_ok, fetch_eq_ok, pure_eq_ok] at hi
      obtain ⟨t, ht, rfl⟩ := hi
      refine ⟨⟨hw.accounts, hw.sources, hw.assets, hw.operations⟩, hr, ha, ?_⟩
      rw [hj, Table.insert_rows ht, List.map_cons, List.append_assoc, List.singleton_append]

/-- a list built from another element by element, through a relation that fixes a column -/
theorem map_eq_of_forall₂ {α β γ : Type*} {R : α → β → Prop} {f : α → γ} {g : β → γ} {l : List α} {m : List β}
    (h : List.Forall₂ R l m) (hfg : ∀ a ∈ l, ∀ b, R a b → g b = f a) : m.map g = l.map f := by
  induction h with
  | nil => rfl
  | @cons a b l m hab _ ih =>
    rw [List.map_cons, List.map_cons, hfg a List.mem_cons_self b hab,
      ih (fun x hx => hfg x (List.mem_cons_of_mem _ hx))]

/-- the accounts that a call looked up -/
theorem each_account {e : Code} {ids : List Ident}
    (h : each (fun id => fetch (db.accounts.get id) e) ids = .ok accounts) :
    accounts.map Account.id = ids ∧ ∀ a ∈ accounts, a ∈ db.accounts := by
  have hall := each_forall₂ h
  clear h
  induction hall with
  | nil => exact ⟨rfl, by simp⟩
  | cons hx _ ih =>
    obtain ⟨hm, hid⟩ := Table.get_eq_some.mp (fetch_eq_ok.mp hx)
    refine ⟨by rw [List.map_cons, hid, ih.1], ?_⟩
    intro a ha
    rcases List.mem_cons.mp ha with rfl | ha
    · exact hm
    · exact ih.2 a ha

/-- what a creation leaves behind -/
structure Created (host : Host) (env : Env) (db db' : DB) (source_id : Ident) (base : RawTarget)
    (overrides : List (Ident × TargetOverride)) (accounts : List Account) (key : String) (targets : List Target)
    (q : Request) (jobs : List Job) : Prop where
  world : db.SameWorld db'
  attempts : db'.attempts = db.attempts
  rows : db'.jobs.rows = db.jobs.rows ++ (targets.zip q.job_ids).map (rootRow source_id)
  request : db.requests.insert q = some db'.requests
  key : q.id = key
  version : q.digest_version = .v2
  digest : q.digest = requestDigest host source_id (targets.map Target.entry)
  count : q.job_ids.length = targets.length
  made : each (createTarget host env db base overrides) accounts = .ok targets
  got : each (getJob db') q.job_ids = .ok jobs

theorem createRequest_spec {title description : Text} {tags : List Text} {credit : Text} {jobs : List Job}
    (h : createRequest host env db accounts intent title description tags credit overrides key new_id = .ok (db', jobs)) :
    ∃ targets q, Created host env db db' intent.source_id (intent.base title description tags credit) overrides accounts
      key targets q jobs := by
  simp only [createRequest, bind_eq_ok, fetch_eq_ok, pure_eq_ok] at h
  obtain ⟨source, -, _, -, targets, htargets, d, hd, t, ht, js, hjs, heq⟩ := h
  cases heq
  obtain ⟨hw, hr, ha, hj⟩ := insertRoots_spec hd
  rw [hr] at ht
  exact ⟨targets, _, ⟨hw.accounts, hw.sources, hw.assets, hw.operations⟩, ha, hj, ht, rfl, rfl, rfl, by simp, htargets,
    hjs⟩

namespace Created
variable {source_id : Ident} {base : RawTarget} {targets : List Target} {q : Request} {jobs : List Job}

/-- the targets name the accounts, in order -/
theorem accounts_eq (h : Created host env db db' source_id base overrides accounts key targets q jobs) :
    targets.map (fun t => (t.account_id, t.platform)) = accounts.map (fun a => (a.id, a.platform)) := by
  refine map_eq_of_forall₂ (each_forall₂ h.made) (fun a _ t ht => ?_)
  obtain ⟨e1, e2, -⟩ := createTarget_spec ht
  rw [e1, e2]

/-- **The drafts carry the targets.** -/
theorem jobs_eq (h : Created host env db db' source_id base overrides accounts key targets q jobs)
    (hacc : ∀ a ∈ accounts, a ∈ db.accounts) :
    jobs.map Job.target = targets ∧ jobs.map Job.id = q.job_ids ∧
      ∀ j ∈ jobs, j.source_id = source_id ∧ j.retry_of = none ∧ j.state = .draft := by
  have hitems : (targets.zip q.job_ids).map Prod.snd = q.job_ids := List.map_snd_zip (by rw [h.count])
  have htargets : (targets.zip q.job_ids).map Prod.fst = targets := List.map_fst_zip (by rw [h.count])
  have hall : List.Forall₂ (fun (item : Target × Ident) j => getJob db' item.2 = .ok j) (targets.zip q.job_ids) jobs := by
    have := each_forall₂ h.got
    rw [← hitems] at this
    exact List.forall₂_map_left_iff.mp this
  -- the job of an item is its draft, and the platform is the one of the target's account
  have hjob : ∀ item ∈ targets.zip q.job_ids, ∀ j, getJob db' item.2 = .ok j →
      j = (rootRow source_id item).view item.1.platform := by
    intro item hitem j hj
    obtain ⟨r, hr, a, ha, s, -, hrid, hra, -, rfl⟩ := getJob_eq_ok.mp hj
    have hrow : rootRow source_id item ∈ db'.jobs := by
      rw [← Table.mem_rows, h.rows]
      exact List.mem_append_right _ (List.mem_map_of_mem hitem)
    have e : r = rootRow source_id item := Table.eq_of_key hr hrow hrid
    subst e
    have hmem : (item.1.account_id, item.1.platform) ∈ accounts.map (fun a => (a.id, a.platform)) := by
      rw [← h.accounts_eq]
      exact List.mem_map_of_mem (f := fun t : Target => (t.account_id, t.platform)) (List.of_mem_zip hitem).1
    obtain ⟨b, hb, hbe⟩ := List.mem_map.mp hmem
    obtain ⟨hbid, hbp⟩ := Prod.mk.inj hbe
    rw [h.world.accounts] at ha
    have eab : a = b := Table.eq_of_key ha (hacc b hb) (by rw [hra, hbid]; rfl)
    rw [eab, hbp]
  refine ⟨?_, ?_, ?_⟩
  · have e := map_eq_of_forall₂ (f := Prod.fst) (g := Job.target) hall
      (fun item hitem j hj => by rw [hjob item hitem j hj]; rfl)
    rw [e, htargets]
  · have e := map_eq_of_forall₂ (f := Prod.snd) (g := Job.id) hall
      (fun item hitem j hj => by rw [hjob item hitem j hj]; rfl)
    rw [e, hitems]
  · intro j hj
    obtain ⟨i, hi, rfl⟩ := List.mem_iff_getElem.mp hj
    have hlen : i < (targets.zip q.job_ids).length := by
      rw [hall.length_eq]
      exact hi
    have hgot := hall.get hlen hi
    simp only [List.get_eq_getElem] at hgot
    rw [hjob _ (List.getElem_mem hlen) _ hgot]
    exact ⟨rfl, rfl, rfl⟩

/-- the roots recompute the digest of the row -/
theorem digest_eq (h : Created host env db db' source_id base overrides accounts key targets q jobs)
    (hacc : ∀ a ∈ accounts, a ∈ db.accounts) (hnd : (accounts.map Account.id).Nodup) (hne : accounts ≠ []) :
    workflowRequestDigestFromJobs host jobs = .ok q.digest := by
  obtain ⟨htarget, -, hjobs⟩ := h.jobs_eq hacc
  have hids : jobs.map Job.account_id = accounts.map Account.id := by
    have e1 : jobs.map Job.account_id = targets.map (fun t => t.account_id) := by
      rw [← htarget, List.map_map]
      rfl
    have e2 := congrArg (List.map Prod.fst) h.accounts_eq
    rw [List.map_map, List.map_map] at e2
    rw [e1]
    exact e2
  have hentry : jobs.map Job.entry = targets.map Target.entry := by
    rw [← htarget, List.map_map]
    rfl
  cases hj : jobs with
  | nil =>
    rw [hj, List.map_nil] at hids
    exact absurd (List.map_eq_nil_iff.mp hids.symm) hne
  | cons j js =>
    have hsrc : ∀ x ∈ j :: js, x.source_id = source_id := fun x hx => (hjobs x (hj ▸ hx)).1
    have hj0 := hsrc j List.mem_cons_self
    simp only [workflowRequestDigestFromJobs, bind_eq_ok, require_eq_ok, pure_eq_ok]
    rw [← hj, hids, hentry, hj0, h.digest]
    exact ⟨⟨⟩, hnd, ⟨⟩, fun x hx => by rw [hsrc x (hj ▸ hx)], rfl⟩

theorem rooted (h : Created host env db db' source_id base overrides accounts key targets q jobs)
    (hacc : ∀ a ∈ accounts, a ∈ db.accounts) (hnd : (accounts.map Account.id).Nodup)
    (hlen : 1 ≤ accounts.length ∧ accounts.length ≤ 20) : db'.Rooted host q jobs := by
  have hcount : q.job_ids.length = accounts.length := by
    rw [h.count, (each_forall₂ h.made).length_eq]
  have hne : accounts ≠ [] := by
    rintro rfl
    simp at hlen
  refine ⟨h.got, fun j hj => ((h.jobs_eq hacc).2.2 j hj).2.1, ⟨by omega, by omega, ?_⟩, h.digest_eq hacc hnd hne⟩
  have hk := db'.jobs.keys
  rw [h.rows, List.map_append, List.map_map] at hk
  have e : (targets.zip q.job_ids).map (JobRow.id ∘ rootRow source_id) = q.job_ids :=
    List.map_snd_zip (by rw [h.count])
  rw [e] at hk
  exact (List.nodup_append.mp hk).2.1

theorem client (h : Created host env db db' source_id base overrides accounts key targets q jobs)
    (hkey : isRequestId key = true) (hacc : ∀ a ∈ accounts, a ∈ db.accounts) (hnd : (accounts.map Account.id).Nodup)
    (hlen : 1 ≤ accounts.length ∧ accounts.length ≤ 20) : Client host db db' := by
  refine .create h.world h.attempts _ h.rows q h.request ?_ ?_ ⟨by rw [h.key]; exact hkey, h.version⟩ jobs
    (h.rooted hacc hnd hlen) ?_
  · intro r hr
    obtain ⟨item, -, rfl⟩ := List.mem_map.mp hr
    exact ⟨rfl, rfl⟩
  · rw [List.map_map]
    exact (List.map_snd_zip (by rw [h.count])).symm
  · intro r hr id hid
    obtain ⟨item, hitem, rfl⟩ := List.mem_map.mp hr
    have ht := (List.of_mem_zip hitem).1
    obtain ⟨i, hi, hget⟩ := List.mem_iff_getElem.mp ht
    have hall := each_forall₂ h.made
    have hlen' : i < accounts.length := by
      rw [hall.length_eq]
      exact hi
    have hmade := hall.get hlen' hi
    simp only [List.get_eq_getElem] at hmade
    rw [hget] at hmade
    exact (createTarget_spec hmade).2.2.2 id hid

end Created

/-! ## the calls -/

/-- the checks that come before the transaction, and the accounts it reads -/
structure CreateParts (db : DB) (intent : UploadIntent) (key : String) (bindings : Option (List AccountBinding))
    (title description credit : Text) (overrides : List (Ident × TargetOverride)) (accounts : List Account) :
    Prop where
  count : 1 ≤ intent.account_ids.length ∧ intent.account_ids.length ≤ 20 ∧ intent.account_ids.Nodup
  titleOk : normalizeUploadText intent.title 100 true = .ok title
  descriptionOk : normalizeUploadText intent.description 2000 false = .ok description
  creditOk : normalizeUploadText intent.source_credit 200 false = .ok credit
  scalars : intent.scalarsValid = true
  keyOk : isRequestId key = true
  atMost : intent.target_overrides.length ≤ intent.account_ids.length
  overridesOk : overrideMap intent.account_ids "invalid_target_override" [] intent.target_overrides = .ok overrides
  accountsOk : each (fun id => fetch (db.accounts.get id) "account_not_found") intent.account_ids = .ok accounts
  bindingsOk : validateWorkflowAccountBindings db accounts bindings intent.account_ids true = .ok ⟨⟩

theorem CreateParts.mem {bindings : Option (List AccountBinding)} {title description credit : Text}
    (h : CreateParts db intent key bindings title description credit overrides accounts) :
    (∀ a ∈ accounts, a ∈ db.accounts) ∧ (accounts.map Account.id).Nodup ∧
      1 ≤ accounts.length ∧ accounts.length ≤ 20 := by
  obtain ⟨hids, hmem⟩ := each_account h.accountsOk
  obtain ⟨h1, h20, hnd⟩ := h.count
  have hlen : accounts.length = intent.account_ids.length := by rw [← hids, List.length_map]
  exact ⟨hmem, by rw [hids]; exact hnd, by omega, by omega⟩

/-- **A creation answers from the row of its key, or creates the request.** -/
theorem createJobs_spec {bindings : Option (List AccountBinding)} {jobs : List Job}
    (h : createJobs host env db intent key bindings new_id = .ok (db', jobs)) :
    ∃ title description credit overrides accounts,
      CreateParts db intent key bindings title description credit overrides accounts ∧
      ((∃ q, db.requests.get key = some q ∧ q.job_ids ≠ [] ∧ db' = db ∧ replayRequest host env db q accounts intent
          title description (normalizeUploadTags intent.tags) credit overrides = .ok jobs) ∨
        db.requests.get key = none ∧ ∃ tags targets q, normalizeUploadTags intent.tags = .ok tags ∧
          Created host env db db' intent.source_id (intent.base title description tags credit) overrides accounts key
            targets q jobs) := by
  simp only [createJobs, bind_eq_ok, require_eq_ok] at h
  obtain ⟨-, hcount, title, htitle, description, hdescription, credit, hcredit, -, hscalars, -, hkey, -, hmost,
    overrides, hoverrides, -, hprior, accounts, haccounts, _, hbindings, h⟩ := h
  refine ⟨title, description, credit, overrides, accounts, ⟨hcount, htitle, hdescription, hcredit, hscalars, hkey, hmost,
    hoverrides, haccounts, hbindings⟩, ?_⟩
  cases hq : db.requests.get key with
  | some q =>
    simp only [hq, bind_eq_ok, pure_eq_ok] at h
    obtain ⟨js, hjs, heq⟩ := h
    cases heq
    exact .inl ⟨q, rfl, hprior q hq, rfl, hjs⟩
  | none =>
    simp only [hq, bind_eq_ok] at h
    obtain ⟨tags, htags, h⟩ := h
    obtain ⟨targets, q, hc⟩ := createRequest_spec h
    exact .inr ⟨rfl, tags, targets, q, htags, hc⟩

theorem createJobs_clients {bindings : Option (List AccountBinding)} {jobs : List Job}
    (h : createJobs host env db intent key bindings new_id = .ok (db', jobs)) : Clients host db db' := by
  obtain ⟨title, description, credit, overrides, accounts, hp, hcase⟩ := createJobs_spec h
  obtain ⟨hmem, hnd, hlen⟩ := hp.mem
  rcases hcase with ⟨q, -, -, rfl, -⟩ | ⟨-, tags, targets, q, -, hc⟩
  · exact .refl
  · exact .single (hc.client hp.keyOk hmem hnd hlen)

theorem insertTombstone_client {digest : Digest} (hkey : isRequestId key = true)
    (h : insertTombstone db key digest = .ok db') : Client host db db' := by
  simp only [insertTombstone, bind_eq_ok, fetch_eq_ok, pure_eq_ok] at h
  obtain ⟨t, ht, rfl⟩ := h
  exact .tombstone ⟨rfl, rfl, rfl, rfl⟩ rfl rfl _ ht rfl ⟨hkey, rfl⟩

theorem claimOrReadWorkflowCancellation_clients {roots : Option (List Job)}
    (h : claimOrReadWorkflowCancellation host db key = .ok (db', roots)) : Clients host db db' := by
  simp only [claimOrReadWorkflowCancellation, bind_eq_ok, require_eq_ok] at h
  obtain ⟨-, hkey, h⟩ := h
  cases hq : db.requests.get key with
  | none =>
    simp only [hq, bind_eq_ok, pure_eq_ok] at h
    obtain ⟨d, hd, heq⟩ := h
    cases heq
    exact .single (insertTombstone_client hkey hd)
  | some row =>
    simp only [hq, bind_eq_ok, require_eq_ok] at h
    obtain ⟨-, -, h⟩ := h
    split at h
    · simp only [bind_eq_ok, require_eq_ok, pure_eq_ok] at h
      obtain ⟨-, -, heq⟩ := h
      cases heq
      exact .refl
    · simp only [bind_eq_ok, pure_eq_ok] at h
      obtain ⟨_, -, heq⟩ := h
      cases heq
      exact .refl

theorem claimWorkflowRequestForCancellation_clients {roots : Option (List Job)}
    (h : claimWorkflowRequestForCancellation host env db key intent = .ok (db', roots)) : Clients host db db' := by
  simp only [claimWorkflowRequestForCancellation, bind_eq_ok, require_eq_ok] at h
  obtain ⟨-, hkey, identity, -, h⟩ := h
  cases hq : db.requests.get key with
  | none =>
    simp only [hq, bind_eq_ok, pure_eq_ok] at h
    obtain ⟨d, hd, heq⟩ := h
    cases heq
    exact .single (insertTombstone_client hkey hd)
  | some row =>
    simp only [hq, bind_eq_ok, require_eq_ok] at h
    obtain ⟨-, -, h⟩ := h
    split at h
    · cases h
      exact .refl
    · simp only [bind_eq_ok, pure_eq_ok] at h
      obtain ⟨_, -, heq⟩ := h
      cases heq
      exact .refl

end
end OpenFlame.Upload
