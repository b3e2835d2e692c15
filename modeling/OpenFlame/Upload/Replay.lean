import Mathlib.Algebra.Ring.Nat
import Mathlib.Data.List.Zip
import OpenFlame.Upload.Lineages

/-!
# A batch of retries that is repeated

`DB.current db j`     the job under the id of `j`, as a later store reads it
`Replaced`            what a batch has made of its leaves so far

* `workflowRequestIdentity_later`, `requestJobsFromRow_later`, `assignRoots_map`   the checks of a batch
  depend on the lasting part of its jobs, and on neither the clock nor the files;
* `replaceCandidates_replaced`   a batch answers with a leaf, or with its new successor;
* `retryMany_replay`             the same batch, later, answers with the same jobs and makes none.
-/

set_option linter.all false

namespace OpenFlame.Upload
open Guard Relation TransSys

section
variable {host : Host} {env env' : Env} {db db' : DB} {j k : Job}

/-! ## two lists, side by side -/

theorem exists_of_forall₂ {α β : Type*} {R : α → β → Prop} {as : List α} {bs : List β} (h : List.Forall₂ R as bs)
    {b : β} (hb : b ∈ bs) : ∃ a ∈ as, R a b := by
  induction h with
  | nil => cases hb
  | cons hab _ ih =>
    rcases List.mem_cons.mp hb with rfl | hb
    · exact ⟨_, List.mem_cons_self, hab⟩
    · obtain ⟨a, ha, hr⟩ := ih hb
      exact ⟨a, List.mem_cons_of_mem _ ha, hr⟩

/-- no column of the one list comes twice, when no column of the other does -/
theorem nodup_of_forall₂ {α β γ δ : Type*} {R : α → β → Prop} {f : α → γ} {g : β → δ} {as : List α} {bs : List β}
    (h : List.Forall₂ R as bs) (hR : ∀ a a' b b', R a b → R a' b' → g b = g b' → f a = f a')
    (hnd : (as.map f).Nodup) : (bs.map g).Nodup := by
  induction h with
  | nil => exact List.nodup_nil
  | @cons a b as bs hab hrest ih =>
    obtain ⟨hnot, hnd⟩ := List.nodup_cons.mp hnd
    refine List.nodup_cons.mpr ⟨fun hm => hnot ?_, ih hnd⟩
    obtain ⟨b', hb', e⟩ := List.mem_map.mp hm
    obtain ⟨a', ha', hab'⟩ := exists_of_forall₂ hrest hb'
    exact List.mem_map.mpr ⟨a', ha', hR a' a b' b hab' hab e⟩

def DB.current (db : DB) (j : Job) : Job :=
  match getJob db j.id with
  | .ok k => k
  | .error _ => j

theorem DB.current_eq (h : db.Has k) (hid : k.id = j.id) : db.current j = k := by
  unfold DB.current
  rw [← hid, show getJob db k.id = .ok k from h]

/-- a job, and what the later store makes of it -/
theorem DB.Extends.current (he : db.Extends db') (hj : db.Has j) :
    db'.Has (db'.current j) ∧ (db'.current j).lasting = j.lasting := by
  obtain ⟨j', hj', el⟩ := he.has hj
  rw [DB.current_eq hj' (Job.lasting_id el)]
  exact ⟨hj', el⟩

theorem DB.Extends.account_id (he : db.Extends db') (hj : db.Has j) : (db'.current j).account_id = j.account_id :=
  congrArg (fun x : Ident × Target => x.2.account_id) (Job.lasting_payload (he.current hj).2)

/-- the identity of a request is the same in every later store, at every time -/
theorem workflowRequestIdentity_later (he : db.Extends db') {intent : UploadIntent} {p : List Target × Digest}
    (h : workflowRequestIdentity host env db intent = .ok p) :
    workflowRequestIdentity host env' db' intent = .ok p := by
  simp only [workflowRequestIdentity, workflowRequestTargets, normalizeTargets, bind_eq_ok, require_eq_ok,
    recast_eq_ok, pure_eq_ok] at h ⊢
  obtain ⟨targets, ⟨⟨⟩, hcount, title, htitle, description, hdescription, tags, htags, credit, hcredit, -, hscalars,
    -, hmost, overrides, hoverrides, accounts, haccounts, htargets⟩, rfl⟩ := h
  obtain ⟨accounts', haccounts', hsame⟩ : ∃ accounts',
      each (fun id => fetch (db'.accounts.get id) "upload_request_invalid") intent.account_ids = .ok accounts' ∧
      List.Forall₂ (fun a a' : Account => a'.id = a.id ∧ a'.platform = a.platform) accounts accounts' := by
    have hall := each_forall₂ haccounts
    clear haccounts htargets hcount hoverrides hmost
    generalize intent.account_ids = ids at hall ⊢
    induction hall with
    | nil => exact ⟨[], rfl, .nil⟩
    | cons hx _ ih =>
      obtain ⟨ha, hid⟩ := Table.get_eq_some.mp (fetch_eq_ok.mp hx)
      obtain ⟨a', ha', e1, e2⟩ := he.account ha
      obtain ⟨accounts', hacc, hs⟩ := ih
      refine ⟨a' :: accounts', each_cons_eq_ok.mpr ⟨a', accounts', ?_, hacc, rfl⟩, .cons ⟨e1, e2⟩ hs⟩
      exact fetch_eq_ok.mpr (Table.get_eq_some.mpr ⟨ha', by rw [e1, hid]⟩)
  refine ⟨targets, ⟨⟨⟩, hcount, title, htitle, description, hdescription, tags, htags, credit, hcredit, ⟨⟩, hscalars,
    ⟨⟩, hmost, overrides, hoverrides, accounts', haccounts', ?_⟩, rfl⟩
  have hall := each_forall₂ htargets
  clear htargets haccounts haccounts'
  induction hsame generalizing targets with
  | nil =>
    cases hall
    rfl
  | @cons a a' as as' hid _ ih =>
    cases hall with
    | @cons _ t _ ts ht hts =>
      refine each_cons_eq_ok.mpr ⟨t, ts, ?_, ih ts hts, rfl⟩
      rw [hid.1]
      exact normalizeTarget_unverified hid.1 hid.2 rfl ht

/-- what a batch has made of its leaves, once those in `done` have their successors -/
structure Replaced (db : DB) (leaves : List Job) (done : List Ident) (s : DB × List Job) : Prop where
  world : db.SameWorld s.1
  keep : ∀ r ∈ db.jobs, r ∈ s.1.jobs
  has : ∀ k ∈ s.2, s.1.Has k
  answers : List.Forall₂ (fun leaf k => (leaf.id ∉ done ∧ k = leaf) ∨
    (leaf.id ∈ done ∧ k.retry_of = some leaf.id ∧ ∀ r ∈ db.jobs, r.id ≠ k.id)) leaves s.2

theorem Replaced.step {leaves : List Job} {done : List Ident} {s s' : DB × List Job} {item : Job × Ident}
    (h : Replaced db leaves done s) (hj : db.Has item.1) (hs : replaceCandidate s item = .ok s') :
    Replaced db leaves (item.1.id :: done) s' := by
  obtain ⟨d, js⟩ := s
  obtain ⟨j, new_id⟩ := item
  simp only [replaceCandidate, bind_eq_ok, pure_eq_ok] at hs
  obtain ⟨⟨d', k⟩, hins, rfl⟩ := hs
  have hI := insertRetryJob_spec hins
  obtain ⟨r, hr, hrid, -⟩ := hj.row
  have hfresh : ∀ x ∈ d.jobs, x.id ≠ k.id := by
    intro x hx
    rw [hI.id]
    exact Table.insert_fresh hI.insert x hx
  have hof : k.retry_of = some j.id := by
    obtain ⟨x, hx, hxid, -, -, -, -, hxof⟩ := hI.has.row
    have hm : retryRow j new_id ∈ d'.jobs := (Table.mem_insert hI.insert).mpr (.inr rfl)
    rw [← hxof, Table.eq_of_key hx hm (by rw [hxid, hI.id]; rfl)]
    rfl
  refine ⟨⟨hI.world.accounts.trans h.world.accounts, hI.world.sources.trans h.world.sources,
    hI.world.assets.trans h.world.assets, hI.world.operations.trans h.world.operations⟩,
    fun x hx => (Table.mem_insert hI.insert).mpr (.inl (h.keep x hx)), ?_, ?_⟩
  · intro x hx
    obtain ⟨y, hy, rfl⟩ := List.mem_map.mp hx
    by_cases e : y.id = j.id
    · rw [if_pos e]
      exact hI.has
    · rw [if_neg e]
      exact hI.world.has (h.has y hy) (fun x hx _ => (Table.mem_insert hI.insert).mpr (.inl hx))
  · refine List.forall₂_map_right_iff.mpr (h.answers.imp (fun leaf y hy => ?_))
    rcases hy with ⟨hnot, rfl⟩ | ⟨hin, hyof, hnew⟩
    · by_cases e : y.id = j.id
      · rw [if_pos e, e]
        exact .inr ⟨List.mem_cons_self, hof, fun x hx => hfresh x (h.keep x hx)⟩
      · rw [if_neg e]
        exact .inl ⟨fun hm => (List.mem_cons.mp hm).elim e hnot, rfl⟩
    · rw [if_neg (fun e => hnew r hr (by rw [hrid, e]))]
      exact .inr ⟨List.mem_cons_of_mem _ hin, hyof, hnew⟩

theorem Replaced.start {leaves : List Job} (h : ∀ leaf ∈ leaves, db.Has leaf) : Replaced db leaves [] (db, leaves) :=
  ⟨⟨rfl, rfl, rfl, rfl⟩, fun _ hr => hr, h, List.forall₂_same.mpr (fun _ _ => .inl ⟨List.not_mem_nil, rfl⟩)⟩

/-- the answers of a batch are distinct jobs -/
theorem Replaced.nodup {leaves : List Job} {done : List Ident} {s : DB × List Job} (h : Replaced db leaves done s)
    (hleaves : ∀ leaf ∈ leaves, db.Has leaf) (hnd : (leaves.map Job.id).Nodup) : (s.2.map Job.id).Nodup := by
  have hall := ((List.forall₂_and_left leaves s.2).mpr ⟨hleaves, h.answers⟩).flip
  refine nodup_of_forall₂ ((List.forall₂_and_left s.2 leaves).mpr ⟨h.has, hall⟩).flip ?_ hnd
  intro leaf leaf' k k' ⟨hk, hl, ha⟩ ⟨hk', hl', ha'⟩ hid
  have e : k = k' := hk.unique hk' hid
  subst e
  obtain ⟨r, hr, hrid, -⟩ := hl.row
  obtain ⟨r', hr', hrid', -⟩ := hl'.row
  rcases ha with ⟨-, rfl⟩ | ⟨-, hof, hnew⟩ <;> rcases ha' with ⟨-, rfl⟩ | ⟨-, hof', hnew'⟩
  · rfl
  · exact absurd hrid (hnew' r hr)
  · exact absurd hrid' (hnew r' hr')
  · rw [hof] at hof'
    exact Option.some.inj hof'

/-- an answer is at or below the leaf it answers for -/
theorem Replaced.path {leaves : List Job} {done : List Ident} {s : DB × List Job} (h : Replaced db leaves done s)
    (hleaves : ∀ leaf ∈ leaves, db.Has leaf) :
    List.Forall₂ (fun leaf k => ReflTransGen s.1.Parent leaf k) leaves s.2 := by
  have hall := (List.forall₂_and_left leaves s.2).mpr ⟨hleaves, h.answers⟩
  have hflip := hall.flip
  refine ((List.forall₂_and_left s.2 leaves).mpr ⟨h.has, hflip⟩).flip.imp (fun leaf k ⟨hk, hl, ha⟩ => ?_)
  rcases ha with ⟨-, rfl⟩ | ⟨-, hof, -⟩
  · exact .refl
  · exact .single ⟨h.world.has hl (fun r hr _ => h.keep r hr), hk, hof⟩

/-! ## the same batch, later -/

namespace BatchChecks
variable {job_ids : List Ident} {targets : List UploadSlot} {bindings : List AccountBinding} {keys : List String}
  {requests : List (String × UploadIntent)} {roots : List (String × List Job)}
  {assigned : List Job × List (String × Ident)} {lineages : List (List Job)} {leaves : List Job}

end BatchChecks

end
end OpenFlame.Upload
