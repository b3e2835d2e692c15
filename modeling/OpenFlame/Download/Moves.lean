import Mathlib.Algebra.Ring.Nat
import Mathlib.Order.BooleanAlgebra.Set
import Mathlib.Logic.Relation
import OpenFlame.Download.Aggregate
import OpenFlame.Download.Circuit

/-!
# Moves: what a transaction of the download store is made of

Every transaction is a chain of `Move`s, each a group of writes that belong together (the job row,
its attempt and its circuit when a lease ends; the attempt row and the probe slot when one begins).
The invariants are proved once for each move; a transaction only shows its moves.

A `Snap` is a store in the middle of a transaction, with the inputs whose status (`stale`) and the
batches whose counters (`pending`) are about to be rewritten.  A transaction starts and ends with
neither.

`may a α`: attempt `α` may announce and register asset `a`.

* `Chain may`         any number of moves
* `Regen k`           a finished job starts a new run generation (not a move: only here does a
                      canceled job come back)
* `Regenerated may k` such a start, and the moves after it
-/

set_option linter.all false

namespace OpenFlame.Download

/-! ## one row and its next version -/

/-- the columns of a job that no transaction changes within one run generation -/
structure Job.Same (j j' : Job) : Prop where
  id : j'.id = j.id
  batch : j'.batch_id = j.batch_id
  input : j'.input_record_id = j.input_record_id
  source : j'.source_item_id = j.source_item_id
  kind : j'.job_kind = j.job_kind
  created : j'.created_at = j.created_at
  generation : j'.run_generation = j.run_generation

theorem Job.Same.refl (j : Job) : Job.Same j j := ⟨rfl, rfl, rfl, rfl, rfl, rfl, rfl⟩

structure Job.SameCounts (j j' : Job) : Prop where
  attempts : j'.attempt_count = j.attempt_count
  current : j'.generation_attempt_count = j.generation_attempt_count

/-- neither queued nor leased otherwise than before; a cancel request stays -/
structure Job.Renewed (j j' : Job) : Prop extends Job.Same j j', Job.SameCounts j j' where
  status : j'.status = j.status ∨ j.status.isActive = true ∧ j'.status.isActive = true
  token : j'.lease_token = j.lease_token
  cancel : j.cancel_requested_at.isSome → j'.cancel_requested_at = j.cancel_requested_at

theorem Job.Renewed.refl (j : Job) : Job.Renewed j j where
  toSame := .refl j
  toSameCounts := ⟨rfl, rfl⟩
  status := .inl rfl
  token := rfl
  cancel := fun _ => rfl

structure Job.Claimed (t : Id) (j j' : Job) : Prop extends Job.Same j j' where
  attempts : j'.attempt_count = j.attempt_count + 1
  current : j'.generation_attempt_count = j.generation_attempt_count + 1
  status : j'.status = .probing
  token : j'.lease_token = some t
  cancel : j'.cancel_requested_at = j.cancel_requested_at

structure Job.Ended (st : JobStatus) (j j' : Job) : Prop extends Job.Same j j', Job.SameCounts j j' where
  status : j'.status = st
  token : j'.lease_token = none

structure Job.Dropped (j j' : Job) : Prop extends Job.Same j j', Job.SameCounts j j' where
  status : j'.status = .failed ∨ j'.status = .canceled
  token : j'.lease_token = none ∨ j'.lease_token = j.lease_token

structure Job.Requeued (j j' : Job) : Prop where
  id : j'.id = j.id
  input : j'.input_record_id = j.input_record_id
  source : j'.source_item_id = j.source_item_id
  generation : j'.run_generation = j.run_generation + 1
  attempts : j'.attempt_count = j.attempt_count
  current : j'.generation_attempt_count = 0
  status : j'.status = .queued
  token : j'.lease_token = none

structure Attempt.Same (a a' : Attempt) : Prop where
  id : a'.id = a.id
  job : a'.job_id = a.job_id
  token : a'.lease_token = a.lease_token
  generation : a'.run_generation = a.run_generation

theorem Attempt.Same.refl (a : Attempt) : Attempt.Same a a := ⟨rfl, rfl, rfl, rfl⟩

/-- the attempt that holds token `t` stops running, every other one stays -/
def Attempt.Closed (t : Id) (a a' : Attempt) : Prop :=
  Attempt.Same a a' ∧ (a' = a ∧ (a.status = .running → a.lease_token ≠ t) ∨
    a.lease_token = t ∧ a'.status ≠ .running)

structure InputRecord.Same (i i' : InputRecord) : Prop where
  id : i'.id = i.id
  batch : i'.batch_id = i.batch_id

/-- nothing an aggregate depends on -/
structure InputRecord.Kept (i i' : InputRecord) : Prop extends InputRecord.Same i i' where
  status : i'.status = i.status
  discovery : i'.active_discovery_id = i.active_discovery_id
  generation : i'.active_run_generation = i.active_run_generation
  cancel : i'.cancel_requested_at = i.cancel_requested_at

theorem InputRecord.Kept.refl (i : InputRecord) : InputRecord.Kept i i := ⟨⟨rfl, rfl⟩, rfl, rfl, rfl, rfl⟩

structure Intent.Same (i i' : Intent) : Prop where
  asset : i'.asset_id = i.asset_id
  job : i'.job_id = i.job_id
  attempt : i'.attempt_id = i.attempt_id
  token : i'.lease_token = i.lease_token

/-! ## moves -/

structure Snap where
  db : DB
  stale : Set Id
  pending : Set Id

/-- between transactions -/
def DB.settled (db : DB) : Snap := ⟨db, ∅, ∅⟩

/-- `j` evolves by `R`, every other row stays -/
def Only (R : Job → Job → Prop) (j r r' : Job) : Prop := r = j ∧ R j r' ∨ r ≠ j ∧ r' = r

inductive Move (may : Id → Id → Prop) : Snap → Snap → Prop where
  /-- tables that no other move reads (the claim gate is written by its own transactions only) -/
  | side {db : DB} {X B : Set Id} (targets discoveries relations jobAssets credentials queue) :
      Move may ⟨db, X, B⟩
        ⟨{ db with
            targets := targets
            discoveries := discoveries
            relations := relations
            jobAssets := jobAssets
            credentials := credentials
            queue := queue }, X, B⟩
  /-- rows that stay what they are -/
  | renew {db : DB} {X B : Set Id} {jobs attempts inputs}
      (hj : db.jobs.Evolves Job.Renewed jobs)
      (ha : db.attempts.Evolves (fun a a' => Attempt.Same a a' ∧ a'.status = a.status) attempts)
      (hi : db.inputs.Evolves InputRecord.Kept inputs) :
      Move may ⟨db, X, B⟩ ⟨{ db with jobs, attempts, inputs }, X, B⟩
  /-- a queued job goes to a worker -/
  | claim {db : DB} {X B : Set Id} {jobs attempts circuits} (j : Job) (p : Platform) (a : Attempt)
      (hj : j ∈ db.jobs) (hqueued : j.status = .queued)
      (hcount : j.generation_attempt_count < MAX_ATTEMPTS)
      (hp : db.platformOf j = some p) (hintents : ∀ i ∈ db.intents, i.job_id ≠ j.id)
      (hfew : db.jobs.count (fun r => r.status.isActive) < MAX_ACTIVE_JOBS)
      (halone : ∀ r ∈ db.jobs, r.status.isActive = true → db.platformOf r ≠ some p)
      (hfresh : ∀ b ∈ db.attempts, b.lease_token ≠ a.lease_token)
      (hjobs : db.jobs.Evolves (Only (Job.Claimed a.lease_token) j) jobs)
      (hattempts : db.attempts.insert a = some attempts)
      (hjob : a.job_id = j.id) (hrunning : a.status = .running)
      (hgeneration : a.run_generation = j.run_generation)
      (hcircuits : ∀ c ∈ circuits,
        c ∈ db.circuits ∧ (c.platform ≠ p ∨ c.state = .closed) ∨
          c.platform = p ∧ c.heldBy j.id a.lease_token = true ∧ c.requires_manual_reset = false) :
      Move may ⟨db, X, B⟩ ⟨{ db with jobs, attempts, circuits }, X, B⟩
  /-- a lease ends: job, attempt and circuit together, and the assets a success registers -/
  | endLease {db : DB} {X X' B : Set Id} {jobs attempts circuits media} (j : Job) (t : Id)
      (st : JobStatus) (hj : j ∈ db.jobs) (hactive : j.status.isActive = true)
      (ht : j.lease_token = some t)
      (hst : st = .queued ∧ j.generation_attempt_count < MAX_ATTEMPTS ∧ X' = X ∨
        st.isTerminal = true ∧ X' = insert j.input_record_id X)
      (hcancel : st = .canceled ∨ j.cancel_requested_at = none)
      (hjobs : db.jobs.Evolves (Only (Job.Ended st) j) jobs)
      (hattempts : db.attempts.Evolves (Attempt.Closed t) attempts)
      (hcircuits : Released db.circuits circuits (db.platformOf j) j.id t)
      (hmedia : ∀ m ∈ media, m ∈ db.media ∨
        st = .ready ∧ ∃ a ∈ db.attempts, may m.id a.id ∧ a.lease_token = t) :
      Move may ⟨db, X, B⟩ ⟨{ db with jobs, attempts, circuits, media }, X', B⟩
  /-- queued jobs of input `k` end without an attempt -/
  | drop {db : DB} {X B : Set Id} {jobs} (k : Id)
      (hjobs : db.jobs.Evolves (fun r r' => r' = r ∨
        r.input_record_id = k ∧ r.status = .queued ∧ Job.Dropped r r') jobs) :
      Move may ⟨db, X, B⟩ ⟨{ db with jobs }, insert k X, B⟩
  | circuit {db : DB} {X B : Set Id} {circuits}
      (h : ∀ c ∈ circuits, c ∈ db.circuits ∨ c.state = .closed ∧ c.Parked) :
      Move may ⟨db, X, B⟩ ⟨{ db with circuits }, X, B⟩
  /-- intents are deleted, or change hands between recoverers -/
  | intents {db : DB} {X B : Set Id} {intents}
      (h : ∀ i' ∈ intents, ∃ i ∈ db.intents, Intent.Same i i') :
      Move may ⟨db, X, B⟩ ⟨{ db with intents }, X, B⟩
  | record {db : DB} {X B : Set Id} {intents} (i : Intent) (j : Job) (a : Attempt)
      (h : db.intents.insert i = some intents) (hj : j ∈ db.jobs) (hjob : j.id = i.job_id)
      (ht : j.lease_token = some i.lease_token) (ha : a ∈ db.attempts)
      (hattempt : a.id = i.attempt_id) (hrunning : a.status = .running) (howned : a.job_id = j.id)
      (hat : a.lease_token = i.lease_token) (hmay : may i.asset_id i.attempt_id) :
      Move may ⟨db, X, B⟩ ⟨{ db with intents }, X, B⟩
  | source {db : DB} {X B : Set Id} {sources} (s : SourceItem)
      (h : db.sources.insert s = some sources) :
      Move may ⟨db, X, B⟩ ⟨{ db with sources }, X, B⟩
  | newJob {db : DB} {X B : Set Id} {jobs} (j : Job) (i : InputRecord)
      (h : db.jobs.insert j = some jobs) (hst : j.status = .queued ∨ j.status = .ready)
      (ht : j.lease_token = none) (ha : j.attempt_count = 0) (hg : j.generation_attempt_count = 0)
      (hs : ∃ s ∈ db.sources, s.id = j.source_item_id) (hi : i ∈ db.inputs)
      (hinput : i.id = j.input_record_id) (hcancel : i.cancel_requested_at = none) :
      Move may ⟨db, X, B⟩ ⟨{ db with jobs }, insert j.input_record_id X, B⟩
  | link {db : DB} {X B : Set Id} {links} (l : RelationJob) (h : db.links.insert l = some links)
      (hj : ∃ j ∈ db.jobs, j.id = l.job_id ∧ j.input_record_id = l.input_record_id) :
      Move may ⟨db, X, B⟩ ⟨{ db with links }, insert l.input_record_id X, B⟩
  | newInput {db : DB} {X B : Set Id} {inputs} (i : InputRecord)
      (h : db.inputs.insert i = some inputs) (hb : ∃ b ∈ db.batches, b.id = i.batch_id) :
      Move may ⟨db, X, B⟩ ⟨{ db with inputs }, X, insert i.batch_id B⟩
  | newBatch {db : DB} {X B : Set Id} {batches} (b : Batch) (h : db.batches.insert b = some batches) :
      Move may ⟨db, X, B⟩ ⟨{ db with batches }, X, insert b.id B⟩
  | setInput {db : DB} {X B : Set Id} {inputs} (i : InputRecord) (hi : i ∈ db.inputs)
      (h : db.inputs.Evolves (fun r r' => r' = r ∨ r = i ∧ InputRecord.Same r r' ∧
        (r.cancel_requested_at.isSome → r'.cancel_requested_at.isSome)) inputs) :
      Move may ⟨db, X, B⟩ ⟨{ db with inputs }, insert i.id X, insert i.batch_id B⟩
  | setBatch {db : DB} {X B : Set Id} {batches} (k : Id)
      (h : db.batches.Evolves (fun r r' => r' = r ∨ r.id = k ∧ r'.id = r.id) batches) :
      Move may ⟨db, X, B⟩ ⟨{ db with batches }, X, insert k B⟩
  | settleInput {db : DB} {X B : Set Id} (k : Id) (h : ∀ i ∈ db.inputs, i.id = k → db.InputOK i) :
      Move may ⟨db, X, B⟩ ⟨db, X \ {k}, B⟩
  | settleBatch {db : DB} {X B : Set Id} (k : Id) (h : ∀ b ∈ db.batches, b.id = k → db.BatchOK b) :
      Move may ⟨db, X, B⟩ ⟨db, X, B \ {k}⟩

abbrev Chain (may : Id → Id → Prop) : Snap → Snap → Prop := Relation.ReflTransGen (Move may)

/-- a finished job of input `k` starts a new run generation, with its input -/
inductive Regen (k : Id) : Snap → Snap → Prop where
  | mk {db : DB} {X B : Set Id} {jobs inputs} (j : Job) (i : InputRecord) (hj : j ∈ db.jobs)
      (hterminal : j.status.isTerminal = true) (hi : i ∈ db.inputs) (hinput : i.id = j.input_record_id)
      (hk : i.id = k)
      (hjobs : db.jobs.Evolves (Only Job.Requeued j) jobs)
      (hinputs : db.inputs.Evolves (fun r r' => r' = r ∨ r = i ∧ InputRecord.Same r r') inputs) :
      Regen k ⟨db, X, B⟩ ⟨{ db with jobs, inputs }, insert i.id X, insert i.batch_id B⟩

/-- a transaction that starts a new run generation of input `k` -/
def Regenerated (may : Id → Id → Prop) (k : Id) (db db' : DB) : Prop :=
  ∃ s, Regen k db.settled s ∧ Chain may s db'.settled

/-! ## aggregation as moves -/

section
variable {may : Id → Id → Prop} {db db' : DB} {X B : Set Id}

/-- a batch recomputed is no longer pending -/
theorem chain_withBatchOf (i : InputRecord) (now : Time) :
    Chain may ⟨db, X, B⟩ ⟨db.withBatchOf i now, X, insert i.batch_id B \ {i.batch_id}⟩ := by
  refine (Relation.ReflTransGen.single (Move.setBatch i.batch_id ?_)).tail (Move.settleBatch _ ?_)
  · refine Table.Evolves.update (fun b _ => ?_)
    by_cases hb : b.id = i.batch_id
    · rw [Table.upd_eq hb]
      exact .inr ⟨hb, rfl⟩
    · exact .inl (Table.upd_ne hb)
  · intro b' hb' hid
    simp only [Table.mem_update] at hb'
    obtain ⟨b, -, rfl⟩ := hb'
    rw [Table.upd_col Batch.id (db.refreshedBatch_id now)] at hid
    rw [Table.upd_eq hid]
    exact db.refreshedBatch_ok now b

/-- an input that got its aggregate status is no longer stale -/
theorem chain_withAggregate (may : Id → Id → Prop) {i : InputRecord} (hi : i ∈ db.inputs) {s : InputStatus}
    (e : Option ErrorCode × Option String) (now : Time)
    (hs : aggregateInputStatus (db.scopedJobs i) = some s) :
    Chain may ⟨db, X, B⟩ ⟨db.withAggregate i s e now, insert i.id X \ {i.id},
      insert i.batch_id (insert i.batch_id B) \ {i.batch_id}⟩ := by
  have hrow : ∀ r ∈ db.inputs, r.id = i.id → r = i := fun r hr => Table.eq_of_key hr hi
  refine ((Relation.ReflTransGen.single (Move.setInput i hi ?_)).tail
    (Move.settleInput i.id ?_)).trans (chain_withBatchOf i now)
  · refine Table.Evolves.update (fun r hr => ?_)
    by_cases hid : r.id = i.id
    · rw [Table.upd_eq hid]
      exact .inr ⟨hrow r hr hid, ⟨rfl, rfl⟩, id⟩
    · exact .inl (Table.upd_ne hid)
  · intro r' hr' hid
    simp only [Table.mem_update] at hr'
    obtain ⟨r, hr, rfl⟩ := hr'
    rw [Table.upd_col InputRecord.id (InputRecord.setStatus_id s e)] at hid
    rw [Table.upd_eq hid, hrow r hr hid]
    exact fun _ => hs

/-- `_refresh_batch_locked` on an input that already has its aggregate status -/
theorem refreshBatch_chain (may : Id → Id → Prop) {i : InputRecord} {now : Time} (hi : i ∈ db.inputs)
    (hok : db.InputOK i) (hX : X ⊆ {i.id}) (hB : B ⊆ {i.batch_id})
    (h : refreshBatchLocked db i.id now = .ok db') : Chain may ⟨db, X, B⟩ db'.settled := by
  obtain ⟨r, hr, hid, rfl⟩ := refreshBatch_spec h
  obtain rfl := Table.eq_of_key hr hi hid
  have hsettle : Move may ⟨db, X, B⟩ ⟨db, X \ {r.id}, B⟩ :=
    Move.settleInput r.id (fun s hs hsid => by rw [Table.eq_of_key hs hr hsid]; exact hok)
  have hchain := Relation.ReflTransGen.head hsettle (chain_withBatchOf r now)
  rw [Set.sdiff_eq_empty.mpr hX,
    Set.sdiff_eq_empty.mpr (Set.insert_subset (Set.mem_singleton r.batch_id) hB)] at hchain
  exact hchain

/-- `_mark_input_and_refresh_batch` settles the input it marks, and its batch -/
theorem markInput_chain (may : Id → Id → Prop) {k : Id} {s₀ : InputStatus} {e₀ : Option ErrorCode} {m₀ : Option String}
    {now : Time} (h : markInputAndRefreshBatch db k s₀ e₀ m₀ now = .ok db') :
    ∃ j ∈ db.jobs, j.id = k ∧ ∃ i ∈ db.inputs, i.id = j.input_record_id ∧
      (∀ X B : Set Id, X ⊆ {i.id} → B ⊆ {i.batch_id} → Chain may ⟨db, X, B⟩ db'.settled) ∧
      ∃ inputs batches, db' = { db with inputs, batches } := by
  obtain ⟨j, hj, hk, i, hi, hin, s, e, hs, rfl⟩ := markInput_spec h
  refine ⟨j, hj, hk, i, hi, hin, fun X B hX hB => ?_, _, _, rfl⟩
  have hchain := chain_withAggregate may (X := X) (B := B) hi e now hs
  have hbatch := Set.mem_singleton i.batch_id
  rw [Set.sdiff_eq_empty.mpr (Set.insert_subset (Set.mem_singleton i.id) hX),
    Set.sdiff_eq_empty.mpr (Set.insert_subset hbatch (Set.insert_subset hbatch hB))] at hchain
  exact hchain

/-- a queued job that ends without an attempt, then is marked -/
theorem dropped_marked (may : Id → Id → Prop) {j : Job} (hj : j ∈ db.jobs) (hqueued : j.status = .queued)
    {jobs} (hjobs : db.jobs.Evolves (Only Job.Dropped j) jobs) {s₀ : InputStatus} {e₀ : Option ErrorCode}
    {m₀ : Option String} {now : Time}
    (h : markInputAndRefreshBatch { db with jobs } j.id s₀ e₀ m₀ now = .ok db') :
    Chain may db.settled db'.settled ∧ ∃ inputs batches, db' = { db with jobs, inputs, batches } := by
  obtain ⟨j', hj', hid, i, hi, hin, hchain, hframe⟩ := markInput_chain may h
  have hinput : j'.input_record_id = j.input_record_id := by
    obtain ⟨r, hr, ⟨rfl, hd⟩ | ⟨hne, rfl⟩⟩ := hjobs.old hj'
    · exact hd.input
    · exact absurd (Table.eq_of_key hr hj hid) hne
  have hdrop : Move may db.settled ⟨{ db with jobs }, insert j.input_record_id ∅, ∅⟩ := by
    refine Move.drop j.input_record_id (hjobs.mono (fun r r' hr => ?_))
    rcases hr with ⟨rfl, hd⟩ | ⟨-, rfl⟩
    · exact .inr ⟨rfl, hqueued, hd⟩
    · exact .inl rfl
  refine ⟨.head hdrop (hchain _ _ ?_ (Set.empty_subset _)), hframe⟩
  rw [hin, hinput]
  exact Set.insert_subset rfl (Set.empty_subset _)

end

end OpenFlame.Download
