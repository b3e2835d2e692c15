import OpenFlame.Upload.Creation

/-!
# The client calls as moves

Each call that returns is a chain of client moves (`cancelCurrentJobs_clients`, `retry_clients`,
`retryMany_clients`, `reconcileUnknown_clients`, and the account, source and cover calls), or of
confirmations (`confirm_queues`, `confirmMany_queues`).
-/

set_option linter.all false

namespace OpenFlame.Upload
open Guard Relation

section
variable {host : Host} {env : Env} {db db' : DB}

/-! ## updates -/

/-- an update of jobs that are not dispatched -/
theorem Client.update {p : JobRow → Bool} {f : JobRow → JobRow} {hf : ∀ r, (f r).id = r.id}
    (hl : ∀ r, (f r).lasting = r.lasting)
    (hcan : ∀ r ∈ db.jobs, p r = true → f r = r ∨ r.state.CanMove (f r).state ∧ (f r).state ≠ .queued) :
    Client host db { db with jobs := db.jobs.update p f hf } := by
  refine .jobs ⟨rfl, rfl, rfl, rfl⟩ rfl rfl (Table.upd p f) rfl (Table.upd_col JobRow.lasting hl) (fun r hr => ?_)
  cases hp : p r with
  | true =>
    rw [Table.upd_pos hp]
    exact hcan r hr hp
  | false => exact .inl (Table.upd_neg hp)

theorem setResult_lasting (state : JobState) (code : Code) (r : JobRow) :
    (r.setResult state code).lasting = r.lasting := rfl

theorem revokeConfirmations_client (db : DB) (account_id : Ident) (code : Code) :
    Client host db (db.revokeConfirmations account_id code) := by
  refine Client.update (setResult_lasting _ _) (fun r _ hp => .inr ⟨.inl ⟨.inr ?_, .inl rfl⟩, nofun⟩)
  simp only [Bool.and_eq_true, beq_iff_eq] at hp
  exact hp.2

/-- an update of accounts that keeps their platforms -/
theorem Client.accounts {p : Account → Bool} {f : Account → Account} {hf : ∀ a, (f a).id = a.id}
    (hl : ∀ a, (f a).lasting = a.lasting) :
    Client host db { db with accounts := db.accounts.update p f hf } :=
  .world (.update rfl hl) .refl .refl rfl rfl rfl rfl

theorem Client.operations {p : Operation → Bool} {f : Operation → Operation} {hf : ∀ o, (f o).id = o.id}
    (hl : ∀ o, (f o).lasting = o.lasting) :
    Client host db { db with operations := db.operations.update p f hf } :=
  .world .refl .refl .refl (Table.map_of_rows rfl hl) rfl rfl rfl

theorem setAccount_client (db : DB) (account_id : Ident) (auth_state : AuthState) (code : Code) :
    Client host db (db.setAccount account_id auth_state code) := Client.accounts (fun _ => rfl)

/-! ## accounts, sources and covers -/

theorem addAccount_clients {platform : Platform} {name : Raw} {id : Ident}
    (h : addAccount db platform name id = .ok db') : Clients host db db' := by
  simp only [addAccount, bind_eq_ok, require_eq_ok, fetch_eq_ok, pure_eq_ok] at h
  obtain ⟨_, -, -, -, t, ht, rfl⟩ := h
  exact .single (.world (.insert ht) .refl .refl rfl rfl rfl rfl)

theorem disconnectAccount_clients {account_id : Ident} (h : disconnectAccount db account_id = .ok db') :
    Clients host db db' := by
  simp only [disconnectAccount, bind_eq_ok, require_eq_ok, pure_eq_ok] at h
  obtain ⟨_, -, -, -, rfl⟩ := h
  have h1 : Client host db { db with
      operations := db.operations.update (fun o => o.account_id == account_id && o.state.isOpen)
        (fun o => { o with state := .canceled, code := "account_disconnected" }) } :=
    Client.operations (fun _ => rfl)
  refine ReflTransGen.head h1 (ReflTransGen.head
    (revokeConfirmations_client _ account_id "account_disconnected_confirmation_revoked") ?_)
  exact .single (Client.accounts (fun _ => rfl))

theorem scrubAccount_clients (account_id : Ident) (removed : Bool) :
    Clients host db (scrubAccount db account_id removed) := .single (Client.accounts (fun _ => rfl))

theorem accountAction_clients {account_id : Ident} {action : Action} {operation_id : Ident}
    (hfresh : db.Fresh operation_id) (h : accountAction env db account_id action operation_id = .ok db') : Clients host db db' := by
  simp only [accountAction, bind_eq_ok, require_eq_ok, fetch_eq_ok] at h
  obtain ⟨-, -, account, -, -, -, -, -, t, ht, h⟩ := h
  have h1 : Client host db { db with operations := t } :=
    .operation _ hfresh ht rfl rfl rfl rfl rfl rfl
  refine ReflTransGen.head h1 (ReflTransGen.head (setAccount_client _ account_id .checking "") ?_)
  split at h
  · cases h
    exact .single (revokeConfirmations_client _ _ _)
  · cases h
    exact .refl

theorem cancelOperation_clients {operation_id : Ident} (h : cancelOperation db operation_id = .ok db') :
    Clients host db db' := by
  simp only [cancelOperation, bind_eq_ok] at h
  obtain ⟨row, -, h⟩ := h
  split at h
  · cases h
    have h1 : Client host db { db with
        operations := db.operations.update (fun o => o.id == operation_id)
          (fun o => { o with state := .canceled, code := "canceled" }) } :=
      Client.operations (fun _ => rfl)
    exact ReflTransGen.head h1 (.single (setAccount_client _ row.account_id .unchecked "canceled"))
  · cases h
    exact .single (Client.operations (fun _ => rfl))
  · cases h
    exact .refl

theorem importSource_clients {id : Ident} {sha256 : Digest} (h : importSource db id sha256 = .ok db') :
    Clients host db db' := by
  simp only [importSource, bind_eq_ok, fetch_eq_ok, pure_eq_ok] at h
  obtain ⟨t, ht, rfl⟩ := h
  exact .single (.world .refl (.insert ht) .refl rfl rfl rfl rfl)

theorem importCover_clients {id : Ident} {sha256 : Digest} {width height : Nat}
    (h : importCover db id sha256 width height = .ok db') : Clients host db db' := by
  simp only [importCover, bind_eq_ok, fetch_eq_ok, pure_eq_ok] at h
  obtain ⟨t, ht, rfl⟩ := h
  exact .single (.world .refl .refl (.insert ht) rfl rfl rfl rfl)

theorem setSourceMedia_clients (id : Ident) (state : MediaState) : Clients host db (setSourceMedia db id state) :=
  .single (.world .refl (.update rfl (fun _ => rfl)) .refl rfl rfl rfl rfl)

theorem setCoverMedia_clients (id : Ident) (state : MediaState) : Clients host db (setCoverMedia db id state) :=
  .single (.world .refl .refl (.update rfl (fun _ => rfl)) rfl rfl rfl rfl)

/-! ## confirmation -/

theorem DB.Has.row_state {j : Job} (hj : db.Has j) {r : JobRow} (hr : r ∈ db.jobs) (hid : r.id = j.id) :
    r.state = j.state := by
  obtain ⟨s, hs, hsid, -, -, hst, -⟩ := hj.row
  rw [Table.eq_of_key hr hs (by rw [hid, hsid]), hst]

/-- `confirm` changes nothing, or queues the draft it was asked to -/
theorem confirm_spec {job_id : Ident} {j' : Job} (h : confirm host env db job_id = .ok (db', j')) :
    ∃ j, db.Has j ∧ j.id = job_id ∧ (j.state.isConfirmed = true ∧ db' = db ∨
      j.state = .draft ∧ validateConfirmation host env db j = .ok ⟨⟩ ∧ db' = db.setJob job_id .queued "") := by
  simp only [confirm, bind_eq_ok] at h
  obtain ⟨j, hj, h⟩ := h
  obtain ⟨hhas, hid⟩ := getJob_has hj
  refine ⟨j, hhas, hid, ?_⟩
  split at h
  · next hc =>
    cases h
    exact .inl ⟨hc, rfl⟩
  · simp only [bind_eq_ok, pure_eq_ok] at h
    obtain ⟨_, hv, k, -, heq⟩ := h
    cases heq
    refine .inr ⟨?_, hv, rfl⟩
    simp only [validateConfirmation, bind_eq_ok, require_eq_ok] at hv
    exact hv.choose_spec.1

theorem setJob_queue {id : Ident} (h : ∀ r ∈ db.jobs, r.id = id → r.state = .draft) :
    Queue db (db.setJob id .queued "") id :=
  ⟨⟨rfl, rfl, rfl, rfl⟩, rfl, rfl, rfl, h⟩

/-- confirmations, one after the other -/
abbrev Queues : DB → DB → Prop := ReflTransGen (fun db db' => ∃ id, Queue db db' id)

theorem Queues.chain (h : Queues db db') : Chain host db db' :=
  ReflTransGen.mono (fun _ _ ⟨_, hq⟩ => Move.queue hq) _ _ h

theorem confirm_queues {job_id : Ident} {j' : Job} (h : confirm host env db job_id = .ok (db', j')) :
    Queues db db' := by
  obtain ⟨j, hj, hid, ⟨-, rfl⟩ | ⟨hs, -, rfl⟩⟩ := confirm_spec h
  · exact .refl
  · exact .single ⟨job_id, setJob_queue (fun r hr hrid => by rw [hj.row_state hr (by rw [hrid, hid]), hs])⟩

/-- `confirmMany` queues the drafts among its jobs -/
theorem confirmMany_spec {job_ids : List Ident} {bindings : Option (List AccountBinding)} {out : List Job}
    (h : confirmMany host env db job_ids bindings = .ok (db', out)) :
    ∃ jobs, job_ids.Nodup ∧ each (getJob db) job_ids = .ok jobs ∧
      (∀ j ∈ jobs.filter (fun j => j.state == .draft), validateConfirmation host env db j = .ok ⟨⟩) ∧
      db' = (jobs.filter (fun j => j.state == .draft)).foldl (fun d j => d.setJob j.id .queued "") db := by
  simp only [confirmMany, bind_eq_ok, require_eq_ok, pure_eq_ok] at h
  obtain ⟨-, ⟨-, -, hnd⟩, jobs, hjobs, accounts, -, -, -, -, -, us, hus, js, -, heq⟩ := h
  cases heq
  refine ⟨jobs, hnd, hjobs, fun j hj => ?_, rfl⟩
  obtain ⟨u, -, hu⟩ := each_result hus j hj
  exact hu

theorem setJobs_queues : ∀ {jobs : List Job} {db : DB}, (jobs.map Job.id).Nodup →
    (∀ j ∈ jobs, ∀ r ∈ db.jobs, r.id = j.id → r.state = .draft) →
    Queues db (jobs.foldl (fun d j => d.setJob j.id .queued "") db) := by
  intro jobs
  induction jobs with
  | nil => intro db _ _; exact .refl
  | cons j js ih =>
    intro db hnd h
    obtain ⟨hnot, hnd⟩ := List.nodup_cons.mp hnd
    refine ReflTransGen.head ⟨j.id, setJob_queue (h j List.mem_cons_self)⟩ (ih hnd (fun k hk r hr hrid => ?_))
    obtain ⟨s, hs, rfl⟩ := Table.exists_of_rows hr rfl
    by_cases e : s.id = j.id
    · rw [Table.upd_eq e] at hrid
      exact absurd (List.mem_map.mpr ⟨k, hk, by rw [← hrid]; exact e⟩) hnot
    · rw [Table.upd_ne e] at hrid ⊢
      exact h k (List.mem_cons_of_mem _ hk) s hs hrid

theorem confirmMany_queues {job_ids : List Ident} {bindings : Option (List AccountBinding)} {out : List Job}
    (h : confirmMany host env db job_ids bindings = .ok (db', out)) : Queues db db' := by
  obtain ⟨jobs, hnd, hjobs, -, rfl⟩ := confirmMany_spec h
  refine setJobs_queues ?_ (fun j hj r hr hrid => ?_)
  · rw [← (each_getJob_ids hjobs).1] at hnd
    exact hnd.sublist (List.filter_sublist.map Job.id)
  · obtain ⟨hj, hs⟩ := List.mem_filter.mp hj
    rw [((each_getJob_ids hjobs).2 j hj).row_state hr hrid]
    simpa using hs

/-! ## cancellation -/

theorem cancelRow_lasting (r : JobRow) : (cancelRow r).lasting = r.lasting := by
  unfold cancelRow
  cases r.state <;> rfl

theorem cancelRow_can (r : JobRow) :
    cancelRow r = r ∨ r.state.CanMove (cancelRow r).state ∧ (cancelRow r).state ≠ .queued := by
  unfold cancelRow
  cases hs : r.state with
  | draft => exact .inr ⟨.inl ⟨.inl rfl, .inr (.inr rfl)⟩, nofun⟩
  | queued => exact .inr ⟨.inl ⟨.inr rfl, .inr (.inr rfl)⟩, nofun⟩
  | running => exact .inr ⟨.inr ⟨rfl, rfl⟩, nofun⟩
  | submitted | draftSaved | failed | unknown | canceled => exact .inl rfl

/-- a cancellation that returned: its checks, and the rows it rewrites -/
theorem cancelCurrentJobs_spec {job_ids : List Ident} {targets : Option (List UploadSlot)}
    {bindings : Option (List AccountBinding)} {out : List Job}
    (h : cancelCurrentJobs db job_ids targets bindings = .ok (db', out)) :
    ∃ jobs, each (getJob db) job_ids = .ok jobs ∧ (targets ≠ none → ∀ j ∈ jobs, successors db j.id = []) ∧
      db.SameWorld db' ∧ db'.requests = db.requests ∧ db'.attempts = db.attempts ∧
      db'.jobs.rows = db.jobs.rows.map (Table.upd (fun r => job_ids.contains r.id) cancelRow) ∧
      each (getJob db') job_ids = .ok out := by
  cases targets with
  | none =>
    cases bindings with
    | none =>
      simp only [cancelCurrentJobs, bind_eq_ok, pure_eq_ok] at h
      obtain ⟨jobs, hjobs, js, hjs, heq⟩ := h
      cases heq
      exact ⟨jobs, hjobs, fun hne => absurd rfl hne, ⟨rfl, rfl, rfl, rfl⟩, rfl, rfl, rfl, hjs⟩
    | some bindings =>
      simp only [cancelCurrentJobs, bind_eq_ok, pure_eq_ok] at h
      obtain ⟨jobs, hjobs, _, -, _, -, js, hjs, heq⟩ := h
      cases heq
      exact ⟨jobs, hjobs, fun hne => absurd rfl hne, ⟨rfl, rfl, rfl, rfl⟩, rfl, rfl, rfl, hjs⟩
  | some slots =>
    cases bindings with
    | none =>
      simp only [cancelCurrentJobs, bind_eq_ok, require_eq_ok, pure_eq_ok] at h
      obtain ⟨jobs, hjobs, -, -, -, hleaf, js, hjs, heq⟩ := h
      cases heq
      exact ⟨jobs, hjobs, fun _ => hleaf, ⟨rfl, rfl, rfl, rfl⟩, rfl, rfl, rfl, hjs⟩
    | some bindings =>
      simp only [cancelCurrentJobs, bind_eq_ok, require_eq_ok, pure_eq_ok] at h
      obtain ⟨jobs, hjobs, -, -, -, hleaf, _, -, _, -, js, hjs, heq⟩ := h
      cases heq
      exact ⟨jobs, hjobs, fun _ => hleaf, ⟨rfl, rfl, rfl, rfl⟩, rfl, rfl, rfl, hjs⟩

theorem cancelCurrentJobs_clients {job_ids : List Ident} {targets : Option (List UploadSlot)}
    {bindings : Option (List AccountBinding)} {out : List Job}
    (h : cancelCurrentJobs db job_ids targets bindings = .ok (db', out)) : Clients host db db' := by
  obtain ⟨jobs, -, -, hw, hq, ha, hrows, -⟩ := cancelCurrentJobs_spec h
  refine .single (.jobs hw hq ha _ hrows (Table.upd_col JobRow.lasting cancelRow_lasting) (fun r _ => ?_))
  cases hp : job_ids.contains r.id with
  | true =>
    have e : Table.upd (fun r => job_ids.contains r.id) cancelRow r = cancelRow r := Table.upd_pos hp
    rw [e]
    exact cancelRow_can r
  | false => exact .inl (Table.upd_neg hp)

theorem cancel_clients {job_id : Ident} {out : List Job} (h : cancel db job_id = .ok (db', out)) :
    Clients host db db' := cancelCurrentJobs_clients h

theorem cancelMany_clients {job_ids : List Ident} {targets : Option (List UploadSlot)}
    {bindings : Option (List AccountBinding)} {out : List Job}
    (h : cancelMany db job_ids targets bindings = .ok (db', out)) : Clients host db db' := by
  simp only [cancelMany, bind_eq_ok] at h
  obtain ⟨batch, -, h⟩ := h
  exact cancelCurrentJobs_clients h

/-! ## retry -/

/-- a job that may get a successor -/
structure DB.Retryable (db : DB) (j : Job) : Prop where
  has : db.Has j
  leaf : db.IsLeaf j
  receipt : ∃ a ∈ db.attempts, a.job_id = j.id ∧ a.isRetryable = true

/-- the insertion of a successor -/
structure Inserted (db db' : DB) (j : Job) (new_id : Ident) (k : Job) : Prop where
  world : db.SameWorld db'
  requests : db'.requests = db.requests
  attempts : db'.attempts = db.attempts
  insert : db.jobs.insert (retryRow j new_id) = some db'.jobs
  has : db'.Has k
  id : k.id = new_id

theorem insertRetryJob_spec {j k : Job} {new_id : Ident} (h : insertRetryJob db j new_id = .ok (db', k)) :
    Inserted db db' j new_id k := by
  simp only [insertRetryJob, bind_eq_ok, fetch_eq_ok, pure_eq_ok] at h
  obtain ⟨t, ht, k', hk, heq⟩ := h
  cases heq
  obtain ⟨hhas, hid⟩ := getJob_has hk
  exact ⟨⟨rfl, rfl, rfl, rfl⟩, rfl, rfl, ht, hhas, hid⟩

theorem Inserted.client {j k : Job} {new_id : Ident} (h : Inserted db db' j new_id k) (hr : db.Retryable j) :
    Client host db db' := by
  obtain ⟨p, hp, hpid, hsrc, hcon, -⟩ := hr.has.row
  obtain ⟨a, ha, haid, hretry⟩ := hr.receipt
  refine .successor h.world h.requests h.attempts p (retryRow j new_id) hp (fun c hc e => ?_) h.insert ?_ ?_ ?_ rfl a ha
    (by rw [haid, hpid]) hretry
  · have hm : c ∈ successors db j.id := mem_successors.mpr ⟨hc, by rw [e, hpid]⟩
    rw [hr.leaf] at hm
    cases hm
  · exact hsrc.symm
  · exact hcon.symm
  · rw [hpid]
    rfl

/-- another job stays retryable -/
theorem Inserted.retryable {j k : Job} {new_id : Ident} (h : Inserted db db' j new_id k) {x : Job}
    (hx : db.Retryable x) (hne : x.id ≠ j.id) : db'.Retryable x := by
  have hold : ∀ r ∈ db.jobs, r ∈ db'.jobs := fun r hr => (Table.mem_insert h.insert).mpr (.inl hr)
  refine ⟨h.world.has hx.has (fun r hr _ => hold r hr), ?_, by rw [h.attempts]; exact hx.receipt⟩
  have hnone : ∀ c, c ∉ successors db' x.id := by
    intro c hc
    obtain ⟨hc, hof⟩ := mem_successors.mp hc
    rcases (Table.mem_insert h.insert).mp hc with hc | rfl
    · have hm := mem_successors.mpr ⟨hc, hof⟩
      rw [hx.leaf] at hm
      cases hm
    · exact hne (Option.some.inj hof).symm
  exact List.eq_nil_iff_forall_not_mem.mpr hnone

theorem validateRetryJob_receipt {j : Job} (h : validateRetryJob host env db j = .ok ⟨⟩) :
    ∃ a ∈ db.attempts, a.job_id = j.id ∧ a.isRetryable = true := by
  simp only [validateRetryJob, bind_eq_ok, fetch_eq_ok, require_eq_ok, Table.get_eq_some] at h
  obtain ⟨_, -, a, ⟨ha, hid⟩, _, -, _, -, hretry⟩ := h
  exact ⟨a, ha, hid, hretry⟩

theorem latestRetryJob_eq_ok (h : db.OK host) {j leaf : Job} (hj : db.Has j) :
    latestRetryJob db j = .ok leaf ↔ ∃ l, db.Line j l ∧ l.getLast? = some leaf := by
  simp only [latestRetryJob, bind_eq_ok, fetch_eq_ok, retryLineage_eq_ok h.ledger h.receipts.parentsEnded hj]

/-- a line that ends where it starts -/
theorem DB.Line.isLeaf {j : Job} {l : List Job} (hl : db.Line j l) {leaf : Job}
    (hlast : l.getLast? = some leaf) (hid : leaf.id = j.id) : db.IsLeaf j := by
  obtain ⟨leaf', hlast', hmem, hs⟩ := hl.getLast
  rw [hlast] at hlast'
  cases hlast'
  have e : leaf = j := (hl.mem_has hmem).unique hl.has hid
  rw [← e]
  exact hs

/-- `retry` answers with the leaf of the lineage, or makes one -/
theorem retry_spec (hok : db.OK host) {job_id new_id : Ident} {k : Job}
    (h : retry host env db job_id new_id = .ok (db', k)) :
    ∃ j, db.Has j ∧ j.id = job_id ∧ ((db' = db ∧ k.id ≠ job_id ∧ ∃ l, db.Line j l ∧ l.getLast? = some k) ∨
      db.Retryable j ∧ Inserted db db' j new_id k) := by
  simp only [retry, bind_eq_ok, require_eq_ok] at h
  obtain ⟨j, hj, -, -, -, -, leaf, hleaf, h⟩ := h
  obtain ⟨hhas, hid⟩ := getJob_has hj
  obtain ⟨l, hl, hlast⟩ := (latestRetryJob_eq_ok hok hhas).mp hleaf
  refine ⟨j, hhas, hid, ?_⟩
  split at h
  · next hne =>
    cases h
    exact .inl ⟨rfl, hne, l, hl, hlast⟩
  · next he =>
    simp only [bind_eq_ok] at h
    obtain ⟨_, hv, h⟩ := h
    have he : leaf.id = j.id := by
      rw [hid]
      exact not_not.mp he
    exact .inr ⟨⟨hhas, hl.isLeaf hlast he, validateRetryJob_receipt hv⟩, insertRetryJob_spec h⟩

theorem retry_clients (hok : db.OK host) {job_id new_id : Ident} {k : Job}
    (h : retry host env db job_id new_id = .ok (db', k)) : Clients host db db' := by
  obtain ⟨j, -, -, ⟨rfl, -⟩ | ⟨hr, hi⟩⟩ := retry_spec hok h
  · exact .refl
  · exact .single (hi.client hr)

theorem replaceCandidates_clients : ∀ {items : List (Job × Ident)} {s s' : DB × List Job},
    thread replaceCandidate s items = .ok s' → (∀ item ∈ items, s.1.Retryable item.1) →
    (items.map (fun item => item.1.id)).Nodup → Clients host s.1 s'.1 := by
  intro items
  induction items with
  | nil =>
    intro s s' h _ _
    cases h
    exact .refl
  | cons item items ih =>
    intro s s' h hr hnd
    cases hi : replaceCandidate s item with
    | error e => simp [thread, hi] at h
    | ok s₁ =>
      simp only [thread, hi] at h
      simp only [replaceCandidate, bind_eq_ok, pure_eq_ok] at hi
      obtain ⟨⟨d, k⟩, hins, rfl⟩ := hi
      have hI := insertRetryJob_spec hins
      obtain ⟨hnot, hnd⟩ := List.nodup_cons.mp hnd
      refine ReflTransGen.head (hI.client (hr item List.mem_cons_self)) (ih h (fun x hx => ?_) hnd)
      refine hI.retryable (hr x (List.mem_cons_of_mem _ hx)) (fun e => hnot ?_)
      exact List.mem_map.mpr ⟨x, hx, e⟩

/-- the jobs of a request that is read back -/
theorem requestJobsFromRow_has {q : Request} {expected : Option (Ident × List Target)} {jobs : List Job}
    (h : requestJobsFromRow host db q expected = .ok jobs) : each (getJob db) q.job_ids = .ok jobs := by
  cases hv : q.digest_version <;> cases he : expected <;>
    simp only [requestJobsFromRow, hv, he, bind_eq_ok, require_eq_ok, recast_eq_ok, pure_eq_ok] at h
  · obtain ⟨_, -, js, hjs, -, -, _, -, -, -, rfl⟩ := h
    exact hjs
  · obtain ⟨_, -, js, hjs, -, -, _, -, -, -, -, -, rfl⟩ := h
    exact hjs
  · obtain ⟨_, -, js, hjs, -, -, _, -, -, -, rfl⟩ := h
    exact hjs
  · obtain ⟨_, -, js, hjs, -, -, _, -, -, -, -, -, rfl⟩ := h
    exact hjs

theorem expectedRequestRoots_has {requests : List (String × UploadIntent)} {key : String} {e : String × List Job}
    (h : expectedRequestRoots host env db requests key = .ok e) : ∀ j ∈ e.2, db.Has j := by
  simp only [expectedRequestRoots, bind_eq_ok, pure_eq_ok] at h
  obtain ⟨q, -, intent, -, identity, -, _, -, jobs, hjobs, rfl⟩ := h
  exact (each_getJob_ids (requestJobsFromRow_has hjobs)).2

/-- every root that is assigned comes from a request -/
theorem assignRoots_mem {roots : List (String × List Job)} : ∀ {items : List (String × UploadSlot)}
    {used : List (String × Ident)} {out : List Job × List (String × Ident)},
    assignRoots roots items used = .ok out → ∀ j ∈ out.1, ∃ e ∈ roots, j ∈ e.2 := by
  intro items
  induction items with
  | nil =>
    intro used out h j hj
    cases h
    cases hj
  | cons item items ih =>
    obtain ⟨key, slot⟩ := item
    intro used out h j hj
    unfold assignRoots at h
    split at h
    · next root hroot =>
      simp only [bind_eq_ok, require_eq_ok, pure_eq_ok] at h
      obtain ⟨-, -, rest, hrest, rfl⟩ := h
      rcases List.mem_cons.mp hj with rfl | hj
      · have hm : j ∈ (((roots.find? (fun e => e.1 == key)).map Prod.snd).getD []).filter slot.matchesJob := by
          rw [hroot]
          exact List.mem_singleton_self _
        have hm := (List.mem_filter.mp hm).1
        cases hf : roots.find? (fun e => e.1 == key) with
        | none =>
          rw [hf] at hm
          cases hm
        | some e =>
          rw [hf] at hm
          exact ⟨e, List.mem_of_find?_eq_some hf, hm⟩
      · exact ih hrest j hj
    · cases h

theorem map_snd_zip_sublist {α β : Type*} : ∀ (as : List α) (bs : List β), ((as.zip bs).map Prod.snd).Sublist bs
  | [], bs => List.nil_sublist bs
  | _ :: _, [] => List.Sublist.refl []
  | _ :: as, _ :: bs => (map_snd_zip_sublist as bs).cons_cons _

theorem assignRoots_length {roots : List (String × List Job)} : ∀ {items : List (String × UploadSlot)}
    {used : List (String × Ident)} {out : List Job × List (String × Ident)},
    assignRoots roots items used = .ok out → out.1.length = items.length := by
  intro items
  induction items with
  | nil =>
    intro used out h
    cases h
    rfl
  | cons item items ih =>
    obtain ⟨key, slot⟩ := item
    intro used out h
    unfold assignRoots at h
    split at h
    · simp only [bind_eq_ok, require_eq_ok, pure_eq_ok] at h
      obtain ⟨-, -, rest, hrest, rfl⟩ := h
      rw [List.length_cons, List.length_cons, ih hrest]
    · cases h

theorem normalizeUploadJobBatch_slots {job_ids : List Ident} {targets : List UploadSlot} {maximum_jobs : Nat}
    {batch : List Ident × Option (List UploadSlot)}
    (h : normalizeUploadJobBatch job_ids (some targets) maximum_jobs = .ok batch) :
    batch = (job_ids, some targets) ∧ targets.length = job_ids.length := by
  simp only [normalizeUploadJobBatch, normalizeUploadTargets, bind_eq_ok, require_eq_ok, pure_eq_ok] at h
  obtain ⟨-, -, -, -, ts, ⟨-, ⟨-, -, hlen⟩, -, -, rfl⟩, rfl⟩ := h
  exact ⟨rfl, hlen⟩

/-- the leaves that a batch retries -/
def retryCandidates (job_ids : List Ident) (leaves : List Job) : List Job :=
  ((job_ids.zip leaves).filter isCandidate).map Prod.snd

theorem retryCandidates_sublist (job_ids : List Ident) (leaves : List Job) :
    (retryCandidates job_ids leaves).Sublist leaves :=
  (List.filter_sublist.map Prod.snd).trans (map_snd_zip_sublist job_ids leaves)

/-- a batch that returned: the lines of its roots, their leaves, and the leaves that get a successor -/
structure RetryBatch (host : Host) (env : Env) (db : DB) (job_ids : List Ident) (lineages : List (List Job))
    (leaves : List Job) : Prop where
  lines : ∀ l ∈ lineages, ∃ root, db.Line root l
  last : List.Forall₂ (fun (l : List Job) leaf => l.getLast? = some leaf) lineages leaves
  named : ∀ e ∈ job_ids.zip lineages, e.1 ∈ e.2.map Job.id
  length : job_ids.length = lineages.length
  nodup : (leaves.map Job.id).Nodup
  known : ∀ leaf ∈ leaves, leaf.state ≠ .unknown
  settled : ∀ e ∈ job_ids.zip leaves, e.2.id ≠ e.1 → e.2.state ≠ .failed ∧ e.2.state ≠ .canceled
  valid : ∀ j ∈ retryCandidates job_ids leaves, validateRetryJob host env db j = .ok ⟨⟩

theorem retryMany_spec (hok : db.OK host) {job_ids : List Ident} {targets : List UploadSlot}
    {bindings : List AccountBinding} {keys : List String} {requests : List (String × UploadIntent)}
    {new_id : Nat → Ident} {out : List Job}
    (h : retryMany host env db job_ids targets bindings keys requests new_id = .ok (db', out)) :
    ∃ lineages leaves, RetryBatch host env db job_ids lineages leaves ∧
      thread replaceCandidate (db, leaves) ((retryCandidates job_ids leaves).zip
        ((List.range (retryCandidates job_ids leaves).length).map new_id)) = .ok (db', out) := by
  simp only [retryMany, bind_eq_ok, require_eq_ok] at h
  obtain ⟨batch, hbatch, -, ⟨hklen, -⟩, -, -, roots, hroots, assigned, hassigned, -, -, lineages, hlines, -, hnamed,
    leaves, hleaves, -, hnodup, _, -, -, hknown, -, hsettled, -, -, -, -, _, -, _, -, us, hus, hthread⟩ := h
  refine ⟨lineages, leaves, ⟨?_, ?_, hnamed, ?_, hnodup, hknown, hsettled, ?_⟩, hthread⟩
  · intro l hl
    obtain ⟨root, hroot, hline⟩ := each_mem hlines l hl
    obtain ⟨e, he, hmem⟩ := assignRoots_mem hassigned root hroot
    obtain ⟨key, -, hkey⟩ := each_mem hroots e he
    exact ⟨root, (retryLineage_eq_ok hok.ledger hok.receipts.parentsEnded
      (expectedRequestRoots_has hkey root hmem)).mp hline⟩
  · simpa only [fetch_eq_ok] using each_forall₂ hleaves
  · obtain ⟨rfl, hlen⟩ := normalizeUploadJobBatch_slots hbatch
    have h1 := (each_forall₂ hlines).length_eq
    rw [assignRoots_length hassigned, List.length_zip, hklen] at h1
    show job_ids.length = lineages.length
    rw [← h1, Option.getD_some, hlen, Nat.min_self]
  · intro j hj
    obtain ⟨u, -, hu⟩ := each_result hus j hj
    exact hu

/-- a candidate is a leaf with a receipt that allows a successor -/
theorem RetryBatch.retryable {job_ids : List Ident} {lineages : List (List Job)} {leaves : List Job}
    (h : RetryBatch host env db job_ids lineages leaves) {j : Job} (hj : j ∈ retryCandidates job_ids leaves) :
    db.Retryable j := by
  obtain ⟨i, hi, e⟩ := List.mem_iff_getElem.mp ((retryCandidates_sublist job_ids leaves).subset hj)
  have hi' : i < lineages.length := by
    rw [h.last.length_eq]
    exact hi
  have hlast := h.last.get hi' hi
  simp only [List.get_eq_getElem, e] at hlast
  obtain ⟨root, hline⟩ := h.lines _ (List.getElem_mem hi')
  obtain ⟨leaf, hl, hmem, hs⟩ := hline.getLast
  rw [hlast] at hl
  cases hl
  exact ⟨hline.mem_has hmem, hs, validateRetryJob_receipt (h.valid j hj)⟩

/-- the jobs that get the new identifiers -/
theorem map_id_zip_new {jobs : List Job} {new_id : Nat → Ident} :
    (jobs.zip ((List.range jobs.length).map new_id)).map (fun item => item.1.id) = jobs.map Job.id := by
  rw [show (fun item : Job × Ident => item.1.id) = Job.id ∘ Prod.fst from rfl, ← List.map_map, List.map_fst_zip]
  simp

theorem retryMany_clients (hok : db.OK host) {job_ids : List Ident} {targets : List UploadSlot}
    {bindings : List AccountBinding} {keys : List String} {requests : List (String × UploadIntent)}
    {new_id : Nat → Ident} {out : List Job}
    (h : retryMany host env db job_ids targets bindings keys requests new_id = .ok (db', out)) :
    Clients host db db' := by
  obtain ⟨lineages, leaves, hb, hthread⟩ := retryMany_spec hok h
  refine replaceCandidates_clients hthread (fun item hi => hb.retryable (List.of_mem_zip hi).1) ?_
  rw [map_id_zip_new]
  exact hb.nodup.sublist ((retryCandidates_sublist job_ids leaves).map Job.id)

/-! ## reconciliation -/

/-- a conclusion on an unknown result fits the job it settles -/
theorem attemptStateIsValid_reconciled {j j' : Job} {a : Attempt} {conclusion : Reconciliation} {now : Time}
    (hv : attemptStateIsValid j a = true) (hs : a.state = .unknown)
    (hfits : conclusion.fits j.platform j.mode = true) (hpay : j'.payload = j.payload)
    (hres : (j'.state, j'.code) = conclusion.jobResult) :
    attemptStateIsValid j' (a.reconcile conclusion now) = true := by
  have ht : j'.target = j.target := (Prod.mk.inj hpay).2
  unfold attemptStateIsValid at hv ⊢
  rw [show j'.platform = j.platform by rw [Job.platform, Job.platform, ht],
    show j'.mode = j.mode by rw [Job.mode, Job.mode, ht]]
  rw [hs] at hv
  simp only [Bool.and_eq_true, beq_iff_eq, decide_eq_true_eq, Attempt.rawUnknownResult, Attempt.resultIsAccounted] at hv
  simp only [Attempt.reconcile, Bool.and_eq_true, beq_iff_eq, Option.any_some, hfits, hres,
    Attempt.rawUnknownResult, Attempt.resultIsAccounted, Option.isSome_some, and_true]
  obtain ⟨⟨⟨h1, h2⟩, h3⟩, ⟨⟨⟨⟨⟨⟨h4, h5⟩, h6⟩, h7⟩, h8⟩, h9⟩, h10⟩, h11⟩ := hv
  have hbound : a.revision + 1 ≤ 2147483647 := by omega
  exact ⟨⟨⟨h1, decide_eq_true hbound⟩, h3⟩, ⟨⟨⟨h4, h5⟩, h6⟩, by omega⟩, h11⟩

/-- an operator's conclusion is found again, or written to an unknown receipt and its job -/
theorem reconcileUnknown_spec {job_id attempt_id : Ident} {revision : Nat} {conclusion : Reconciliation}
    {acknowledged : Bool} {now : Time} {k : Job} {x : Attempt}
    (h : reconcileUnknown host db job_id attempt_id revision conclusion acknowledged now = .ok (db', k, x)) :
    ∃ j a, db.Has j ∧ j.id = job_id ∧ a ∈ db.attempts ∧ a.job_id = job_id ∧ attemptStateIsValid j a = true ∧
      (db' = db ∨ a.state = .unknown ∧ Advance host db db' a (a.reconcile conclusion now)) := by
  simp only [reconcileUnknown, bind_eq_ok, require_eq_ok] at h
  obtain ⟨-, -, -, -, j, hj, a, ha, _, hv, -, hfits, h⟩ := h
  obtain ⟨hhas, hid⟩ := getJob_has hj
  have hamem : a ∈ db.attempts ∧ a.job_id = job_id := by
    unfold attemptById at ha
    split at ha
    · next b hb =>
      simp only [bind_eq_ok, require_eq_ok, pure_eq_ok] at ha
      obtain ⟨-, hid, rfl⟩ := ha
      exact ⟨(Table.find_some hb).1, hid⟩
    · simp only [bind_eq_ok, throw_ne_ok, and_false, exists_false] at ha
  have hv : attemptStateIsValid j a = true := require_eq_ok.mp hv
  refine ⟨j, a, hhas, hid, hamem.1, hamem.2, hv, ?_⟩
  split at h
  · simp only [bind_eq_ok, require_eq_ok, pure_eq_ok] at h
    obtain ⟨_, -, -, -, heq⟩ := h
    cases heq
    exact .inl rfl
  · simp only [bind_eq_ok, require_eq_ok, pure_eq_ok] at h
    obtain ⟨_, -, -, ⟨hunk, hjunk⟩, -, hrev, -, hcount, -, hjcount, _, -, _, -, heq⟩ := h
    cases heq
    refine .inr ⟨hunk, ?_⟩
    obtain ⟨b, hb, hbp⟩ := Table.count_pos.mp (by rw [hcount]; exact Nat.one_pos)
    have hpk : ∀ b : Attempt, (b.id == attempt_id && b.job_id == job_id && b.state == .unknown &&
        b.revision == revision) = true → b.job_id = a.job_id := by
      intro b hb
      simp only [Bool.and_eq_true, beq_iff_eq] at hb
      rw [hamem.2, hb.1.1.2]
    have hba : b = a := Table.eq_of_key hb hamem.1 (hpk b hbp)
    subst hba
    refine Advance.of_update (f := fun b => b.reconcile conclusion now) hhas hamem.1 (by rw [hid, hamem.2]) hbp
      (fun b _ => hpk b) rfl ?_ rfl ⟨rfl, rfl, rfl, rfl⟩ rfl rfl rfl (fun r => upd_setResult_lasting r)
      (fun r _ hne => Table.upd_neg ?_) ?_
    · rw [hunk]
      exact ⟨⟩
    · rw [hamem.2] at hne
      simp [hne]
    · intro r hr hrid hst _ k hpay hks hkc
      have e : Table.upd (fun r => r.id == job_id && r.state == .unknown)
          (fun r => r.setResult conclusion.jobResult.1 conclusion.jobResult.2) r =
          r.setResult conclusion.jobResult.1 conclusion.jobResult.2 :=
        Table.upd_pos (by rw [hst, hjunk, hrid, hamem.2]; simp)
      rw [e] at hks hkc
      refine attemptStateIsValid_reconciled hv hunk hfits hpay ?_
      rw [hks, hkc]
      rfl

theorem reconcileUnknown_clients {job_id attempt_id : Ident} {revision : Nat} {conclusion : Reconciliation}
    {acknowledged : Bool} {now : Time} {k : Job} {x : Attempt}
    (h : reconcileUnknown host db job_id attempt_id revision conclusion acknowledged now = .ok (db', k, x)) :
    Clients host db db' := by
  obtain ⟨j, a, -, -, -, -, -, rfl | ⟨hunk, ha⟩⟩ := reconcileUnknown_spec h
  · exact .refl
  · exact .single (.reconcile ha hunk)

end
end OpenFlame.Upload
