import Mathlib.Algebra.Ring.Nat
import Mathlib.Logic.Relation
import OpenFlame.Base.Append
import OpenFlame.Upload.Service

/-!
# The ledger: what the upload store never changes

`DB.Extends db db'`   rows are only added, and keep their lasting columns (a job its content and
                      parent, an account its platform, a source its digest, a receipt its identity);
`DB.Has db j`         `j` is what `getJob` returns for its id;
`DB.Parent`, `DB.Line`   retry links, and the jobs from one down to its current leaf;
`DB.LedgerOK host db` the links form a forest in which a job has at most one child and shares its
                      payload, and every root is owned by one request whose digest it recomputes.

* `climbLineage_ok`, `retryLineage_ok`   the two walks of the source succeed in such a store;
* `requestJobsFromRow_ok`, `attemptRequestOwner_ok`   so do the reads of the request ledger.
-/

set_option linter.all false

namespace OpenFlame.Upload
open Guard Relation

/-! ## lasting columns -/

def Account.lasting (a : Account) : Ident × Platform := (a.id, a.platform)

def Source.lasting (s : Source) : Ident × Digest := (s.id, s.sha256)

def Asset.lasting (a : Asset) : Ident × Digest := (a.id, a.sha256)

def Operation.lasting (o : Operation) : Ident × Ident × Action := (o.id, o.account_id, o.action)

def JobRow.lasting (r : JobRow) : Ident × Ident × Content × Option Ident := (r.id, r.source_id, r.content, r.retry_of)

def Attempt.lasting (a : Attempt) : Ident × AttemptDefinition × Ident × RuntimeIdentity :=
  (a.id, a.definition, a.session_revision, a.runtime)

structure DB.Extends (db db' : DB) : Prop where
  accounts : db.accounts.Extends Account.lasting db'.accounts
  sources : db.sources.Extends Source.lasting db'.sources
  assets : db.assets.Extends Asset.lasting db'.assets
  operations : db.operations.Extends Operation.lasting db'.operations
  jobs : db.jobs.Extends JobRow.lasting db'.jobs
  requests : db.requests.Extends id db'.requests
  attempts : db.attempts.Extends Attempt.lasting db'.attempts

namespace DB.Extends
variable {db db' db'' : DB}

theorem refl : db.Extends db := ⟨.refl, .refl, .refl, .refl, .refl, .refl, .refl⟩

theorem trans (h : db.Extends db') (h' : db'.Extends db'') : db.Extends db'' :=
  ⟨h.accounts.trans h'.accounts, h.sources.trans h'.sources, h.assets.trans h'.assets,
    h.operations.trans h'.operations, h.jobs.trans h'.jobs, h.requests.trans h'.requests,
    h.attempts.trans h'.attempts⟩

theorem account (h : db.Extends db') {a : Account} (ha : a ∈ db.accounts) :
    ∃ a' ∈ db'.accounts, a'.id = a.id ∧ a'.platform = a.platform := by
  obtain ⟨a', ha', e⟩ := h.accounts.mem ha
  exact ⟨a', ha', (Prod.mk.inj e).1, (Prod.mk.inj e).2⟩

theorem source (h : db.Extends db') {s : Source} (hs : s ∈ db.sources) :
    ∃ s' ∈ db'.sources, s'.id = s.id ∧ s'.sha256 = s.sha256 := by
  obtain ⟨s', hs', e⟩ := h.sources.mem hs
  exact ⟨s', hs', (Prod.mk.inj e).1, (Prod.mk.inj e).2⟩

theorem asset (h : db.Extends db') {a : Asset} (ha : a ∈ db.assets) :
    ∃ a' ∈ db'.assets, a'.id = a.id ∧ a'.sha256 = a.sha256 := by
  obtain ⟨a', ha', e⟩ := h.assets.mem ha
  exact ⟨a', ha', (Prod.mk.inj e).1, (Prod.mk.inj e).2⟩

theorem operation (h : db.Extends db') {o : Operation} (ho : o ∈ db.operations) :
    ∃ o' ∈ db'.operations, o'.id = o.id ∧ o'.account_id = o.account_id ∧ o'.action = o.action := by
  obtain ⟨o', ho', e⟩ := h.operations.mem ho
  obtain ⟨e1, e2⟩ := Prod.mk.inj e
  exact ⟨o', ho', e1, (Prod.mk.inj e2).1, (Prod.mk.inj e2).2⟩

theorem job (h : db.Extends db') {r : JobRow} (hr : r ∈ db.jobs) : ∃ r' ∈ db'.jobs, r'.lasting = r.lasting :=
  h.jobs.mem hr

theorem request (h : db.Extends db') {q : Request} (hq : q ∈ db.requests) : q ∈ db'.requests := by
  obtain ⟨q', hq', e⟩ := h.requests.mem hq
  have e : q' = q := e
  rw [← e]
  exact hq'

theorem rank (h : db.Extends db') {r : JobRow} (hr : r ∈ db.jobs) : db'.jobs.rank r.id = db.jobs.rank r.id :=
  Table.Extends.rank (h.jobs.coarsen Prod.fst (fun _ => rfl)) hr

end DB.Extends

/-! ## jobs of a store -/

def Job.lasting (j : Job) : Ident × (Ident × Target) × Option Ident := (j.id, j.payload, j.retry_of)

/-- `j` is what a client reads under its id -/
def DB.Has (db : DB) (j : Job) : Prop := getJob db j.id = .ok j

theorem DB.has_iff {db : DB} {j : Job} : db.Has j ↔ ∃ r ∈ db.jobs, ∃ a ∈ db.accounts, ∃ s ∈ db.sources,
    a.id = r.content.account_id ∧ s.id = r.source_id ∧ j = r.view a.platform := by
  unfold DB.Has
  rw [getJob_eq_ok]
  constructor
  · rintro ⟨r, hr, a, ha, s, hs, -, hra, hrs, hj⟩
    exact ⟨r, hr, a, ha, s, hs, hra, hrs, hj⟩
  · rintro ⟨r, hr, a, ha, s, hs, hra, hrs, rfl⟩
    exact ⟨r, hr, a, ha, s, hs, rfl, hra, hrs, rfl⟩

theorem getJob_has {db : DB} {id : Ident} {j : Job} (h : getJob db id = .ok j) : db.Has j ∧ j.id = id := by
  have hid : j.id = id := by
    obtain ⟨r, -, a, -, s, -, rfl, -, -, rfl⟩ := getJob_eq_ok.mp h
    rfl
  exact ⟨by unfold DB.Has; rw [hid]; exact h, hid⟩

section
variable {db db' : DB} {j k : Job}

theorem DB.Has.unique (hj : db.Has j) (hk : db.Has k) (h : j.id = k.id) : j = k := by
  have hj : getJob db j.id = .ok j := hj
  rw [h, show getJob db k.id = .ok k from hk] at hj
  exact (Except.ok.inj hj).symm

/-- the row of a job -/
theorem DB.Has.row (h : db.Has j) : ∃ r ∈ db.jobs, r.id = j.id ∧ r.source_id = j.source_id ∧
    r.content = j.target.toContent ∧ r.state = j.state ∧ r.code = j.code ∧ r.retry_of = j.retry_of := by
  obtain ⟨r, hr, a, -, s, -, -, -, rfl⟩ := DB.has_iff.mp h
  exact ⟨r, hr, rfl, rfl, rfl, rfl, rfl, rfl⟩

theorem DB.Has.account (h : db.Has j) : ∃ a ∈ db.accounts, a.id = j.account_id ∧ a.platform = j.platform := by
  obtain ⟨r, hr, a, ha, s, -, hra, -, rfl⟩ := DB.has_iff.mp h
  exact ⟨a, ha, hra, rfl⟩

theorem DB.Has.source (h : db.Has j) : ∃ s ∈ db.sources, s.id = j.source_id := by
  obtain ⟨r, hr, a, ha, s, hs, hra, hrs, rfl⟩ := DB.has_iff.mp h
  exact ⟨s, hs, hrs⟩

/-- a job stays, with its lasting part -/
theorem DB.Extends.has (h : db.Extends db') (hj : db.Has j) : ∃ j', db'.Has j' ∧ j'.lasting = j.lasting := by
  obtain ⟨r, hr, a, ha, s, hs, hra, hrs, rfl⟩ := DB.has_iff.mp hj
  obtain ⟨r', hr', er⟩ := h.job hr
  obtain ⟨a', ha', ea, ep⟩ := h.account ha
  obtain ⟨s', hs', es, -⟩ := h.source hs
  obtain ⟨e1, e2⟩ := Prod.mk.inj er
  obtain ⟨e2, e3⟩ := Prod.mk.inj e2
  obtain ⟨e3, e4⟩ := Prod.mk.inj e3
  refine ⟨r'.view a'.platform, DB.has_iff.mpr ⟨r', hr', a', ha', s', hs', ?_, ?_, rfl⟩, ?_⟩
  · rw [ea, hra, e3]
  · rw [es, hrs, e2]
  · simp only [Job.lasting, Job.payload, JobRow.view, e1, e2, e3, e4, ep]

theorem Job.lasting_id (h : j.lasting = k.lasting) : j.id = k.id := (Prod.mk.inj h).1

theorem Job.lasting_payload (h : j.lasting = k.lasting) : j.payload = k.payload :=
  (Prod.mk.inj (Prod.mk.inj h).2).1

theorem Job.lasting_retry_of (h : j.lasting = k.lasting) : j.retry_of = k.retry_of :=
  (Prod.mk.inj (Prod.mk.inj h).2).2

/-- the job of an extended store under an id that was there before -/
theorem DB.Extends.has_eq (h : db.Extends db') (hj : db.Has j) (hk : db'.Has k) (e : k.id = j.id) :
    k.lasting = j.lasting := by
  obtain ⟨j', hj', el⟩ := h.has hj
  rw [hk.unique hj' (by rw [e, Job.lasting_id el])]
  exact el

end

/-! ## retry links -/

def DB.Parent (db : DB) (p c : Job) : Prop := db.Has p ∧ db.Has c ∧ c.retry_of = some p.id

/-- `l` lists the jobs from `j` down to its leaf -/
inductive DB.Line (db : DB) : Job → List Job → Prop where
  | leaf {j : Job} (hj : db.Has j) (hs : successors db j.id = []) : DB.Line db j [j]
  | step {j k : Job} {l : List Job} (hp : db.Parent j k) (hl : DB.Line db k l) : DB.Line db j (j :: l)

/-- a job with a child has ended in a state that allows one -/
def DB.ParentsEnded (db : DB) : Prop := ∀ p c, db.Parent p c → p.state.isRetryable = true

/-- the roots of a request row, and the digest they recompute -/
structure DB.Rooted (host : Host) (db : DB) (q : Request) (jobs : List Job) : Prop where
  got : each (getJob db) q.job_ids = .ok jobs
  roots : ∀ j ∈ jobs, j.retry_of = none
  count : 1 ≤ q.job_ids.length ∧ q.job_ids.length ≤ 20 ∧ q.job_ids.Nodup
  digest : workflowRequestDigestFromJobs host jobs = .ok q.digest

structure DB.LedgerOK (host : Host) (db : DB) : Prop where
  accounts : ∀ r ∈ db.jobs, ∃ a ∈ db.accounts, a.id = r.content.account_id
  sources : ∀ r ∈ db.jobs, ∃ s ∈ db.sources, s.id = r.source_id
  covers : ∀ r ∈ db.jobs, ∀ id, (r.content.cover_landscape_asset_id = some id ∨
    r.content.cover_portrait_asset_id = some id) → ∃ a ∈ db.assets, a.id = id
  parents : ∀ c ∈ db.jobs, ∀ p, c.retry_of = some p → ∃ r ∈ db.jobs, r.id = p ∧ r.source_id = c.source_id ∧
    r.content = c.content ∧ db.jobs.rank p < db.jobs.rank c.id
  children : ∀ c ∈ db.jobs, ∀ d ∈ db.jobs, ∀ p, c.retry_of = some p → d.retry_of = some p → c = d
  keys : ∀ q ∈ db.requests, isRequestId q.id = true ∧ q.digest_version = .v2
  rooted : ∀ q ∈ db.requests, q.job_ids ≠ [] → ∃ jobs, db.Rooted host q jobs
  owned : ∀ r ∈ db.jobs, r.retry_of = none → ∃ q ∈ db.requests, r.id ∈ q.job_ids
  owner : ∀ q ∈ db.requests, ∀ q' ∈ db.requests, ∀ id, id ∈ q.job_ids → id ∈ q'.job_ids → q = q'

section
variable {host : Host} {db : DB} {j k : Job}

theorem mem_successors {r : JobRow} {id : Ident} : r ∈ successors db id ↔ r ∈ db.jobs ∧ r.retry_of = some id := by
  simp [successors]

namespace DB.LedgerOK

theorem getRow (h : db.LedgerOK host) {r : JobRow} (hr : r ∈ db.jobs) : ∃ j, db.Has j ∧ j.id = r.id ∧
    j.retry_of = r.retry_of ∧ j.source_id = r.source_id ∧ j.target.toContent = r.content ∧ j.state = r.state ∧
    j.code = r.code := by
  obtain ⟨a, ha, hra⟩ := h.accounts r hr
  obtain ⟨s, hs, hrs⟩ := h.sources r hr
  exact ⟨r.view a.platform, DB.has_iff.mpr ⟨r, hr, a, ha, s, hs, hra, hrs, rfl⟩, rfl, rfl, rfl, rfl, rfl, rfl⟩

/-- the parent of a job: earlier, and with the same payload -/
theorem parent (h : db.LedgerOK host) (hj : db.Has j) {p : Ident} (hp : j.retry_of = some p) :
    ∃ q, db.Parent q j ∧ q.id = p ∧ q.payload = j.payload ∧ db.jobs.rank p < db.jobs.rank j.id := by
  obtain ⟨c, hc, a, ha, s, hs, hca, hcs, rfl⟩ := DB.has_iff.mp hj
  obtain ⟨r, hr, rfl, hsrc, hcon, hrank⟩ := h.parents c hc p hp
  have hq : db.Has (r.view a.platform) :=
    DB.has_iff.mpr ⟨r, hr, a, ha, s, hs, by rw [hcon, hca], by rw [hsrc, hcs], rfl⟩
  refine ⟨r.view a.platform, ⟨hq, hj, hp⟩, rfl, ?_, hrank⟩
  simp only [Job.payload, JobRow.view, hsrc, hcon]

theorem parent_payload (h : db.LedgerOK host) (hp : db.Parent k j) : k.payload = j.payload := by
  obtain ⟨q, ⟨hq, -, -⟩, hid, hpay, -⟩ := h.parent hp.2.1 hp.2.2
  rw [hp.1.unique hq hid.symm]
  exact hpay

theorem parent_rank (h : db.LedgerOK host) (hp : db.Parent k j) : db.jobs.rank k.id < db.jobs.rank j.id := by
  obtain ⟨q, -, -, -, hr⟩ := h.parent hp.2.1 hp.2.2
  exact hr

/-- a job has at most one child -/
theorem child_unique (h : db.LedgerOK host) {c d : Job} (hc : db.Parent j c) (hd : db.Parent j d) : c = d := by
  obtain ⟨r, hr, hrid, -, -, -, -, hrof⟩ := hc.2.1.row
  obtain ⟨s, hs, hsid, -, -, -, -, hsof⟩ := hd.2.1.row
  have e := h.children r hr s hs j.id (by rw [hrof, hc.2.2]) (by rw [hsof, hd.2.2])
  exact hc.2.1.unique hd.2.1 (by rw [← hrid, ← hsid, e])

/-- the successors of a job are none, or one, which is its child -/
theorem successors_cases (h : db.LedgerOK host) (hj : db.Has j) :
    successors db j.id = [] ∨ ∃ r k, successors db j.id = [r] ∧ r.id = k.id ∧ db.Parent j k := by
  have hnd : (successors db j.id).Nodup := db.jobs.nodup_filter _
  cases hs : successors db j.id with
  | nil => exact .inl rfl
  | cons r rest =>
    have hr := mem_successors.mp (hs ▸ List.mem_cons_self : r ∈ successors db j.id)
    obtain ⟨k, hk, hkid, hkof, -⟩ := h.getRow hr.1
    refine .inr ⟨r, k, ?_, hkid.symm, hj, hk, by rw [hkof, hr.2]⟩
    cases rest with
    | nil => rfl
    | cons s rest =>
      have hsm := mem_successors.mp (hs ▸ by simp : s ∈ successors db j.id)
      have e := h.children r hr.1 s hsm.1 j.id hr.2 hsm.2
      rw [hs, e] at hnd
      simp at hnd

theorem rank_lt (hj : db.Has j) : db.jobs.rank j.id < db.jobs.rows.length := by
  obtain ⟨r, hr, hid, -⟩ := hj.row
  rw [← hid]
  exact Table.rank_lt hr

end DB.LedgerOK

/-- a job has one root -/
theorem DB.root_unique {x y : Job} (hx : ReflTransGen db.Parent x j) (hy : ReflTransGen db.Parent y j)
    (hxn : x.retry_of = none) (hyn : y.retry_of = none) : x = y := by
  induction hx with
  | refl =>
    rcases ReflTransGen.cases_tail hy with rfl | ⟨b, -, hb⟩
    · rfl
    · rw [hb.2.2] at hxn
      cases hxn
  | @tail b c _ hbc ih =>
    rcases ReflTransGen.cases_tail hy with rfl | ⟨b', hyb, hb'⟩
    · rw [hbc.2.2] at hyn
      cases hyn
    · have hid : b'.id = b.id := by
        have := hbc.2.2
        rw [hb'.2.2] at this
        exact Option.some.inj this
      rw [hb'.1.unique hbc.1 hid] at hyb
      exact ih hyb

/-! ## walking up -/

theorem climbLineage_ok (h : db.LedgerOK host) : ∀ {n : Nat} {j : Job} (seen : List Ident), db.Has j →
    db.jobs.rank j.id < n → (∀ s ∈ seen, db.jobs.rank j.id ≤ db.jobs.rank s) →
    ∃ root, climbLineage db n j seen = .ok root ∧ db.Has root ∧ root.retry_of = none ∧
      ReflTransGen db.Parent root j := by
  intro n
  induction n with
  | zero => intro j seen _ hn; omega
  | succ n ih =>
    intro j seen hj hn hseen
    cases hof : j.retry_of with
    | none => exact ⟨j, by simp [climbLineage, hof, pure, Except.pure], hj, hof, .refl⟩
    | some p =>
      obtain ⟨q, hq, rfl, hpay, hrank⟩ := h.parent hj hof
      have hnot : q.id ∉ seen := by
        intro hm
        have := hseen _ hm
        omega
      obtain ⟨root, hroot, hhas, hnone, hpath⟩ := ih (j := q) (q.id :: seen) hq.1 (by omega) (by
        intro s hs
        rcases List.mem_cons.mp hs with rfl | hs
        · exact Nat.le_refl _
        · have := hseen s hs
          omega)
      refine ⟨root, ?_, hhas, hnone, hpath.tail hq⟩
      simp only [climbLineage, hof, bind_eq_ok, require_eq_ok, recast_eq_ok]
      exact ⟨⟨⟩, hnot, q, hq.1, ⟨⟩, uploadRetryPayloadMatches_iff.mpr hpay.symm, hroot⟩

/-! ## walking down -/

namespace DB.Line
variable {l l' : List Job}

theorem has (h : db.Line j l) : db.Has j := by
  cases h with
  | leaf hj _ => exact hj
  | step hp _ => exact hp.1

theorem ne_nil (h : db.Line j l) : l ≠ [] := by
  cases h <;> exact List.cons_ne_nil _ _

theorem head_mem (h : db.Line j l) : j ∈ l := by
  cases h <;> exact List.mem_cons_self ..

theorem mem_has (h : db.Line j l) : ∀ {k : Job}, k ∈ l → db.Has k := by
  induction h with
  | leaf hj _ =>
    intro k hk
    rw [List.mem_singleton.mp hk]
    exact hj
  | step hp _ ih =>
    intro k hk
    rcases List.mem_cons.mp hk with rfl | hk
    · exact hp.1
    · exact ih hk

theorem mem_payload (hL : db.LedgerOK host) (h : db.Line j l) : ∀ {k : Job}, k ∈ l → k.payload = j.payload := by
  induction h with
  | leaf hj _ =>
    intro k hk
    rw [List.mem_singleton.mp hk]
  | step hp _ ih =>
    intro k hk
    rcases List.mem_cons.mp hk with rfl | hk
    · rfl
    · rw [ih hk, hL.parent_payload hp]

/-- a line is determined by where it starts -/
theorem unique (hL : db.LedgerOK host) (h : db.Line j l) : ∀ {l' : List Job}, db.Line j l' → l = l' := by
  induction h with
  | @leaf j hj hs =>
    intro l' h'
    cases h' with
    | leaf _ _ => rfl
    | @step _ k _ hp _ =>
      obtain ⟨r, hr, -, -, -, -, -, hof⟩ := hp.2.1.row
      have hm : r ∈ successors db j.id := mem_successors.mpr ⟨hr, by rw [hof, hp.2.2]⟩
      rw [hs] at hm
      cases hm
  | @step j k l hp hl ih =>
    intro l' h'
    cases h' with
    | leaf _ hs =>
      obtain ⟨r, hr, -, -, -, -, -, hof⟩ := hp.2.1.row
      have hm : r ∈ successors db j.id := mem_successors.mpr ⟨hr, by rw [hof, hp.2.2]⟩
      rw [hs] at hm
      cases hm
    | step hp' hl' =>
      have e := hL.child_unique hp hp'
      subst e
      rw [ih hl']

/-- every descendant is on the line -/
theorem descendant (hL : db.LedgerOK host) {d : Job} (hd : ReflTransGen db.Parent j d) :
    ∀ {l : List Job}, db.Line j l → d ∈ l := by
  induction hd using ReflTransGen.head_induction_on with
  | refl => exact fun h => h.head_mem
  | @head a b hab _ ih =>
    intro l h
    cases h with
    | leaf _ hs =>
      obtain ⟨r, hr, -, -, -, -, -, hof⟩ := hab.2.1.row
      have hm : r ∈ successors db a.id := mem_successors.mpr ⟨hr, by rw [hof, hab.2.2]⟩
      rw [hs] at hm
      cases hm
    | step hp hl =>
      have e := hL.child_unique hp hab
      subst e
      exact List.mem_cons_of_mem _ (ih hl)

/-- what is on a line is a descendant -/
theorem path (h : db.Line j l) : ∀ {k : Job}, k ∈ l → ReflTransGen db.Parent j k := by
  induction h with
  | leaf hj _ =>
    intro k hk
    rw [List.mem_singleton.mp hk]
  | step hp _ ih =>
    intro k hk
    rcases List.mem_cons.mp hk with rfl | hk
    · exact .refl
    · exact .head hp (ih hk)

/-- the last job of a line has no successor -/
theorem getLast (h : db.Line j l) : ∃ leaf, l.getLast? = some leaf ∧ leaf ∈ l ∧ successors db leaf.id = [] := by
  induction h with
  | @leaf j hj hs => exact ⟨j, rfl, List.mem_singleton_self _, hs⟩
  | @step j k l hp hl ih =>
    obtain ⟨leaf, hlast, hmem, hs⟩ := ih
    refine ⟨leaf, ?_, List.mem_cons_of_mem _ hmem, hs⟩
    rw [List.getLast?_cons, hlast]
    rfl

/-- the rest of a line, from a job on it -/
theorem suffix (h : db.Line j l) : ∀ {k : Job}, k ∈ l → ∃ l', db.Line k l' ∧ l' <:+ l := by
  induction h with
  | @leaf j hj hs =>
    intro k hk
    rw [List.mem_singleton.mp hk]
    exact ⟨_, .leaf hj hs, List.suffix_refl _⟩
  | @step j k' l hp hl ih =>
    intro k hk
    rcases List.mem_cons.mp hk with rfl | hk
    · exact ⟨_, .step hp hl, List.suffix_refl _⟩
    · obtain ⟨l', hl', hsuf⟩ := ih hk
      exact ⟨l', hl', hsuf.trans (List.suffix_cons _ _)⟩

end DB.Line

theorem retryLineageFrom_ok (h : db.LedgerOK host) (he : db.ParentsEnded) {root : Job} :
    ∀ {n : Nat} {j : Job} (seen : List Ident), db.Has j → j.payload = root.payload →
    db.jobs.rows.length < n + db.jobs.rank j.id → (∀ s ∈ seen, db.jobs.rank s ≤ db.jobs.rank j.id) →
    ∃ l, retryLineageFrom db root n j seen = .ok l ∧ db.Line j l := by
  intro n
  induction n with
  | zero =>
    intro j seen hj _ hn
    have := DB.LedgerOK.rank_lt hj
    omega
  | succ n ih =>
    intro j seen hj hpay hn hseen
    rcases h.successors_cases hj with hs | ⟨r, k, hs, hrk, hp⟩
    · exact ⟨[j], by simp [retryLineageFrom, hs, pure, Except.pure], .leaf hj hs⟩
    · have hrank := h.parent_rank hp
      have hkpay : k.payload = root.payload := by rw [← h.parent_payload hp, hpay]
      obtain ⟨l, hl, hline⟩ := ih (j := k) (r.id :: seen) hp.2.1 hkpay (by omega) (by
        intro s hsm
        rcases List.mem_cons.mp hsm with rfl | hsm
        · rw [hrk]
        · have := hseen s hsm
          omega)
      have hnot : r.id ∉ seen := by
        intro hm
        have := hseen _ hm
        rw [hrk] at this
        omega
      refine ⟨j :: l, ?_, .step hp hline⟩
      simp only [retryLineageFrom, hs, bind_eq_ok, require_eq_ok, pure_eq_ok]
      have hgot : getJob db r.id = .ok k := by rw [hrk]; exact hp.2.1
      exact ⟨⟨⟩, he j k hp, ⟨⟩, hnot, k, hgot, ⟨⟩, uploadRetryPayloadMatches_iff.mpr hkpay, l, hl, rfl⟩

/-- `_retry_lineage_in` succeeds, from any job -/
theorem retryLineage_ok (h : db.LedgerOK host) (he : db.ParentsEnded) (hj : db.Has j) :
    ∃ l, retryLineage db j = .ok l ∧ db.Line j l :=
  retryLineageFrom_ok h he [j.id] hj rfl (by omega) (by
    intro s hs
    rw [List.mem_singleton.mp hs])

theorem retryLineage_eq_ok (h : db.LedgerOK host) (he : db.ParentsEnded) (hj : db.Has j) {l : List Job} :
    retryLineage db j = .ok l ↔ db.Line j l := by
  obtain ⟨l', hl', hline⟩ := retryLineage_ok h he hj
  rw [hl', Except.ok.injEq]
  constructor
  · rintro rfl
    exact hline
  · exact fun hl => hline.unique h hl

theorem attemptLineage_ok (h : db.LedgerOK host) (he : db.ParentsEnded) (hj : db.Has j) :
    ∃ root l, attemptLineage db j = .ok (root, l) ∧ db.Has root ∧ root.retry_of = none ∧ db.Line root l ∧ j ∈ l := by
  have hlt := DB.LedgerOK.rank_lt hj
  obtain ⟨root, hroot, hhas, hnone, hpath⟩ := climbLineage_ok h (n := db.jobs.rows.length + 1) [j.id] hj
    (by omega) (by
      intro s hs
      rw [List.mem_singleton.mp hs])
  obtain ⟨l, hl, hline⟩ := retryLineage_ok h he hhas
  have hmem := DB.Line.descendant h hpath hline
  refine ⟨root, l, ?_, hhas, hnone, hline, hmem⟩
  simp only [attemptLineage, bind_eq_ok, recast_eq_ok, require_eq_ok, pure_eq_ok]
  exact ⟨root, hroot, l, hl, ⟨⟩, List.mem_map_of_mem hmem, rfl⟩

/-! ## the request ledger -/

theorem each_getJob_ids {ids : List Ident} {jobs : List Job} (h : each (getJob db) ids = .ok jobs) :
    jobs.map Job.id = ids ∧ ∀ j ∈ jobs, db.Has j := by
  have hall := each_forall₂ h
  clear h
  induction hall with
  | nil => exact ⟨rfl, by simp⟩
  | cons hx _ ih =>
    obtain ⟨hhas, hid⟩ := getJob_has hx
    refine ⟨by rw [List.map_cons, hid, ih.1], ?_⟩
    intro k hk
    rcases List.mem_cons.mp hk with rfl | hk
    · exact hhas
    · exact ih.2 k hk

theorem DB.Rooted.ids {q : Request} {jobs : List Job} (h : db.Rooted host q jobs) : jobs.map Job.id = q.job_ids :=
  (each_getJob_ids h.got).1

theorem DB.Rooted.has {q : Request} {jobs : List Job} (h : db.Rooted host q jobs) : ∀ j ∈ jobs, db.Has j :=
  (each_getJob_ids h.got).2

theorem requestJobsFromRow_ok (h : db.LedgerOK host) {q : Request} (hq : q ∈ db.requests) {jobs : List Job}
    (hr : db.Rooted host q jobs) : requestJobsFromRow host db q none = .ok jobs := by
  obtain ⟨hkey, hver⟩ := h.keys q hq
  obtain ⟨h1, h20, hnd⟩ := hr.count
  simp only [requestJobsFromRow, bind_eq_ok, require_eq_ok, recast_eq_ok]
  refine ⟨⟨⟩, ⟨hkey, h1, h20, hnd⟩, jobs, hr.got, ⟨⟩, hr.roots, ?_⟩
  rw [hver]
  simp only [bind_eq_ok, require_eq_ok, pure_eq_ok]
  exact ⟨q.digest, hr.digest, ⟨⟩, rfl, trivial⟩

end
end OpenFlame.Upload
