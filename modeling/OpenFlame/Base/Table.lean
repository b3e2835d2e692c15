import Mathlib.Algebra.Ring.Nat
import Mathlib.Data.List.Nodup
import Mathlib.Data.List.Count

/-!
# Tables: keyed rows in insertion order

`Table ρ key` is an SQL table with rows `ρ` in `rowid` order and primary key `key`; that no two rows
share a key is a field, so a table with a duplicate key cannot be built.

* `t.get k`        the row with key `k`
* `t.find p`       the first row in `rowid` order that satisfies `p`
* `t.update p f`   `UPDATE .. SET f WHERE p` (`f` leaves the key alone)
* `t.insert r`     `INSERT`, `none` on a key conflict
* `t.upsert r f`   `INSERT r .. ON CONFLICT(key) DO UPDATE SET f`
* `t.delete p`     `DELETE .. WHERE p`
* `t.count p`      `COUNT(*) .. WHERE p`, also the `rowcount` of an update or a delete
* `leastBy b rs`   `ORDER BY .. LIMIT 1`: the earliest of the rows no other row comes before
* `Evolves R t t'` no row inserted or deleted, every row related by `R` to its next version

Every operation has its membership lemma, its `get` lemma and its `count` lemma; the programs over
tables are reasoned about through these alone.
-/

set_option linter.all false

universe u v

structure Table (ρ : Type u) {κ : Type v} (key : ρ → κ) where
  rows : List ρ
  keys : (rows.map key).Nodup

namespace Table
variable {ρ : Type u} {κ : Type v} {key : ρ → κ}

instance : Membership ρ (Table ρ key) := ⟨fun t r => r ∈ t.rows⟩

theorem mem_rows {t : Table ρ key} {r : ρ} : r ∈ t.rows ↔ r ∈ t := Iff.rfl

instance : EmptyCollection (Table ρ key) := ⟨⟨[], List.nodup_nil⟩⟩

@[simp] theorem not_mem_empty (r : ρ) : r ∉ (∅ : Table ρ key) := List.not_mem_nil

theorem ext {s t : Table ρ key} (h : s.rows = t.rows) : s = t := by
  cases s; cases t; cases h; rfl

theorem eq_of_key {t : Table ρ key} {r s : ρ} (hr : r ∈ t) (hs : s ∈ t) (h : key r = key s) :
    r = s :=
  List.inj_on_of_nodup_map t.keys hr hs h

/-! ## reading -/

def find (t : Table ρ key) (p : ρ → Bool) : Option ρ := t.rows.find? p

def filter (t : Table ρ key) (p : ρ → Bool) : List ρ := t.rows.filter p

def any (t : Table ρ key) (p : ρ → Bool) : Bool := t.rows.any p

def count (t : Table ρ key) (p : ρ → Bool) : Nat := t.rows.countP p

theorem find_some {t : Table ρ key} {p : ρ → Bool} {r : ρ} (h : t.find p = some r) :
    r ∈ t ∧ p r = true :=
  ⟨List.mem_of_find?_eq_some h, List.find?_some h⟩

theorem find_none {t : Table ρ key} {p : ρ → Bool} :
    t.find p = none ↔ ∀ r ∈ t, p r = false := by
  simp [find, List.find?_eq_none, mem_rows]

@[simp] theorem mem_filter {t : Table ρ key} {p : ρ → Bool} {r : ρ} :
    r ∈ t.filter p ↔ r ∈ t ∧ p r = true := List.mem_filter

@[simp] theorem any_eq_true {t : Table ρ key} {p : ρ → Bool} :
    t.any p = true ↔ ∃ r ∈ t, p r = true := List.any_eq_true

@[simp] theorem any_eq_false {t : Table ρ key} {p : ρ → Bool} :
    t.any p = false ↔ ∀ r ∈ t, p r = false := by
  simp [any, mem_rows]

theorem nodup_filter (t : Table ρ key) (p : ρ → Bool) : (t.filter p).Nodup :=
  (List.Nodup.of_map key t.keys).filter p

theorem count_eq_length (t : Table ρ key) (p : ρ → Bool) : t.count p = (t.filter p).length :=
  List.countP_eq_length_filter

theorem count_pos {t : Table ρ key} {p : ρ → Bool} : 0 < t.count p ↔ ∃ r ∈ t, p r = true :=
  List.countP_pos_iff

theorem count_eq_zero {t : Table ρ key} {p : ρ → Bool} : t.count p = 0 ↔ ∀ r ∈ t, p r = false := by
  simp [count, List.countP_eq_zero, mem_rows]

theorem count_le {t : Table ρ key} {p q : ρ → Bool} (h : ∀ r ∈ t, p r = true → q r = true) :
    t.count p ≤ t.count q :=
  List.countP_mono_left (fun r hr => h r hr)

theorem count_or_le (t : Table ρ key) (p q : ρ → Bool) :
    t.count (fun r => p r || q r) ≤ t.count p + t.count q := by
  unfold count
  induction t.rows with
  | nil => simp
  | cons r rs ih =>
    simp only [List.countP_cons]
    cases p r <;> cases q r <;> simp <;> omega

/-- a condition that lost a row -/
theorem count_lt {t : Table ρ key} {p q : ρ → Bool} (h : ∀ r ∈ t, p r = true → q r = true) {r₀ : ρ}
    (hr₀ : r₀ ∈ t) (hq : q r₀ = true) (hp : p r₀ = false) : t.count p < t.count q := by
  obtain ⟨l₁, l₂, hl⟩ := List.append_of_mem (show r₀ ∈ t.rows from hr₀)
  have hmono : ∀ l : List ρ, (∀ r ∈ l, r ∈ t) → l.countP p ≤ l.countP q :=
    fun l hsub => List.countP_mono_left (fun r hr => h r (hsub r hr))
  have h1 := hmono l₁ (fun r hr => by rw [← mem_rows, hl]; exact List.mem_append_left _ hr)
  have h2 := hmono l₂ (fun r hr => by
    rw [← mem_rows, hl]
    exact List.mem_append_right _ (List.mem_cons_of_mem _ hr))
  show t.rows.countP p < t.rows.countP q
  rw [hl, List.countP_append, List.countP_append, List.countP_cons, List.countP_cons, hp, hq]
  simp only [if_true, Bool.false_eq_true, if_false]
  omega

/-- a condition that fixes the key selects at most one row -/
theorem count_le_one {t : Table ρ key} {p : ρ → Bool}
    (h : ∀ r ∈ t, ∀ s ∈ t, p r = true → p s = true → key r = key s) : t.count p ≤ 1 := by
  rw [count_eq_length]
  have hnd := t.nodup_filter p
  match hl : t.filter p with
  | [] => simp
  | [_] => simp
  | a :: b :: rest =>
    have ha : a ∈ t.filter p := by rw [hl]; simp
    have hb : b ∈ t.filter p := by rw [hl]; simp
    rw [mem_filter] at ha hb
    have hab : a = b := eq_of_key ha.1 hb.1 (h a ha.1 b hb.1 ha.2 hb.2)
    rw [hl, hab] at hnd
    simp at hnd

theorem count_eq_one {t : Table ρ key} {p : ρ → Bool}
    (h : ∀ r ∈ t, ∀ s ∈ t, p r = true → p s = true → key r = key s) :
    t.count p = 1 ↔ ∃ r ∈ t, p r = true := by
  rw [← count_pos]
  have := count_le_one h
  omega

section get
variable [DecidableEq κ]

/-- `SELECT .. WHERE <primary key> = k` -/
def get (t : Table ρ key) (k : κ) : Option ρ := t.find (fun r => key r = k)

theorem get_eq_some {t : Table ρ key} {k : κ} {r : ρ} : t.get k = some r ↔ r ∈ t ∧ key r = k := by
  constructor
  · intro h
    have := find_some h
    simpa using this
  · rintro ⟨hr, rfl⟩
    cases h : t.get (key r) with
    | none => simpa using find_none.mp h r hr
    | some s =>
      have hs := find_some h
      simp only [decide_eq_true_eq] at hs
      rw [eq_of_key hs.1 hr hs.2]

theorem get_eq_none {t : Table ρ key} {k : κ} : t.get k = none ↔ ∀ r ∈ t, key r ≠ k := by
  simp [get, find_none]

theorem get_key {t : Table ρ key} {r : ρ} (hr : r ∈ t) : t.get (key r) = some r :=
  get_eq_some.mpr ⟨hr, rfl⟩

@[simp] theorem get_empty (k : κ) : (∅ : Table ρ key).get k = none := rfl

end get

/-! ## `UPDATE` -/

/-- the row an `UPDATE` leaves behind -/
def upd (p : ρ → Bool) (f : ρ → ρ) (r : ρ) : ρ := if p r then f r else r

theorem upd_pos {p : ρ → Bool} {f : ρ → ρ} {r : ρ} (h : p r = true) : upd p f r = f r := by
  simp [upd, h]

theorem upd_neg {p : ρ → Bool} {f : ρ → ρ} {r : ρ} (h : p r = false) : upd p f r = r := by
  simp [upd, h]

theorem upd_eq {γ : Type*} [BEq γ] [LawfulBEq γ] {c : ρ → γ} {k : γ} {f : ρ → ρ} {r : ρ} (h : c r = k) :
    upd (fun s => c s == k) f r = f r :=
  upd_pos (beq_iff_eq.mpr h)

theorem upd_ne {γ : Type*} [BEq γ] [LawfulBEq γ] {c : ρ → γ} {k : γ} {f : ρ → ρ} {r : ρ} (h : c r ≠ k) :
    upd (fun s => c s == k) f r = r :=
  upd_neg (beq_eq_false_iff_ne.mpr h)

/-- a column that is not written -/
theorem col_kept {γ : Type*} (c : ρ → γ) (r : ρ) : c r = c r := rfl

/-- a column the update does not set -/
theorem upd_col {p : ρ → Bool} {f : ρ → ρ} {γ : Type*} (c : ρ → γ) (h : ∀ r, c (f r) = c r) (r : ρ) :
    c (upd p f r) = c r := by
  unfold upd
  split
  · exact h r
  · rfl

def update (t : Table ρ key) (p : ρ → Bool) (f : ρ → ρ)
    (hf : ∀ r, key (f r) = key r := by intro _; rfl) : Table ρ key where
  rows := t.rows.map (upd p f)
  keys := by
    rw [List.map_map]
    have h : key ∘ upd p f = key := funext (fun r => upd_col key hf r)
    rw [h]
    exact t.keys

section update
variable {t : Table ρ key} {p : ρ → Bool} {f : ρ → ρ} {hf : ∀ r, key (f r) = key r}

@[simp] theorem mem_update {s : ρ} : s ∈ t.update p f hf ↔ ∃ r ∈ t, upd p f r = s := List.mem_map

theorem upd_mem {r : ρ} (hr : r ∈ t) : upd p f r ∈ t.update p f hf := mem_update.mpr ⟨r, hr, rfl⟩

theorem mem_of_rows {t' : Table ρ key} (h : t'.rows = t.rows.map (upd p f)) {r : ρ} (hr : r ∈ t) :
    upd p f r ∈ t' := by
  rw [← mem_rows, h]
  exact List.mem_map_of_mem hr

theorem exists_of_rows {t' : Table ρ key} {s : ρ} (hs : s ∈ t') (h : t'.rows = t.rows.map (upd p f)) :
    ∃ r ∈ t, upd p f r = s := by
  rw [← mem_rows, h] at hs
  exact List.mem_map.mp hs

theorem mem_update_of_neg {r : ρ} (hr : r ∈ t) (h : p r = false) : r ∈ t.update p f hf :=
  mem_update.mpr ⟨r, hr, upd_neg h⟩

theorem update_rows_map {γ : Type*} (c : ρ → γ) (h : ∀ r, c (f r) = c r) :
    (t.update p f hf).rows.map c = t.rows.map c := by
  show (t.rows.map (upd p f)).map c = _
  rw [List.map_map]
  exact List.map_congr_left (fun r _ => upd_col c h r)

/-- an update whose condition holds nowhere -/
theorem update_eq_self (h : ∀ r ∈ t, p r = false) : t.update p f hf = t := by
  apply ext
  show t.rows.map (upd p f) = t.rows
  have e : t.rows.map (upd p f) = t.rows.map id := List.map_congr_left (fun r hr => upd_neg (h r hr))
  rw [e, List.map_id]

theorem count_update (q : ρ → Bool) :
    (t.update p f hf).count q = t.count (fun r => q (upd p f r)) := by
  show (t.rows.map (upd p f)).countP q = _
  rw [List.countP_map]
  rfl

theorem get_update [DecidableEq κ] (k : κ) :
    (t.update p f hf).get k = (t.get k).map (upd p f) := by
  cases h : t.get k with
  | none =>
    rw [Option.map_none, get_eq_none]
    intro s hs
    obtain ⟨r, hr, rfl⟩ := mem_update.mp hs
    rw [upd_col key hf]
    exact get_eq_none.mp h r hr
  | some r =>
    obtain ⟨hr, hk⟩ := get_eq_some.mp h
    rw [Option.map_some, get_eq_some]
    exact ⟨upd_mem hr, by rw [upd_col key hf, hk]⟩

end update

/-! ## `INSERT` -/

def insert [DecidableEq κ] (t : Table ρ key) (r : ρ) : Option (Table ρ key) :=
  if h : key r ∈ t.rows.map key then none
  else some ⟨t.rows ++ [r], by
    rw [List.map_append, List.map_singleton]
    exact List.nodup_append.mpr ⟨t.keys, by simp, by
      intro a ha b hb
      rw [List.mem_singleton] at hb
      subst hb
      exact fun e => h (e ▸ ha)⟩⟩

section insert
variable [DecidableEq κ] {t t' : Table ρ key} {r : ρ}

theorem insert_rows (h : t.insert r = some t') : t'.rows = t.rows ++ [r] := by
  unfold insert at h
  split at h
  · cases h
  · cases h; rfl

theorem mem_insert (h : t.insert r = some t') {s : ρ} : s ∈ t' ↔ s ∈ t ∨ s = r := by
  rw [← mem_rows, insert_rows h, List.mem_append, List.mem_singleton]
  rfl

theorem insert_fresh (h : t.insert r = some t') : ∀ s ∈ t, key s ≠ key r := by
  unfold insert at h
  split at h
  · cases h
  · next hn => exact fun s hs e => hn (List.mem_map.mpr ⟨s, hs, e⟩)

theorem insert_isSome (h : ∀ s ∈ t, key s ≠ key r) : ∃ t', t.insert r = some t' := by
  unfold insert
  rw [dif_neg]
  · exact ⟨_, rfl⟩
  · intro hm
    obtain ⟨s, hs, e⟩ := List.mem_map.mp hm
    exact h s hs e

/-- an `UPDATE` of the row that was just inserted -/
theorem insert_update_rows (h : t.insert r = some t') {p : ρ → Bool} {f : ρ → ρ}
    {hf : ∀ r, key (f r) = key r} (hp : ∀ s, p s = true ↔ key s = key r) :
    (t'.update p f hf).rows = t.rows ++ [f r] := by
  show t'.rows.map (upd p f) = _
  have hold : t.rows.map (upd p f) = t.rows.map id :=
    List.map_congr_left (fun s hs => upd_neg (by
      rw [Bool.eq_false_iff, Ne, hp s]
      exact insert_fresh h s hs))
  rw [insert_rows h, List.map_append, hold, List.map_id, List.map_singleton, upd_pos ((hp r).mpr rfl)]

theorem get_insert (h : t.insert r = some t') (k : κ) :
    t'.get k = if key r = k then some r else t.get k := by
  split
  · next e =>
    subst e
    exact get_key ((mem_insert h).mpr (.inr rfl))
  · next e =>
    cases hg : t.get k with
    | none =>
      rw [get_eq_none] at hg ⊢
      intro s hs
      rcases (mem_insert h).mp hs with hs | rfl
      · exact hg s hs
      · exact e
    | some s =>
      rw [get_eq_some] at hg ⊢
      exact ⟨(mem_insert h).mpr (.inl hg.1), hg.2⟩

theorem count_insert (h : t.insert r = some t') (p : ρ → Bool) :
    t'.count p = t.count p + if p r then 1 else 0 := by
  show t'.rows.countP p = t.rows.countP p + _
  rw [insert_rows h, List.countP_append, List.countP_singleton]

end insert

/-! ## `INSERT .. ON CONFLICT DO UPDATE` -/

def upsert [DecidableEq κ] (t : Table ρ key) (r : ρ) (f : ρ → ρ)
    (hf : ∀ r, key (f r) = key r := by intro _; rfl) : Table ρ key :=
  match t.insert r with
  | some t' => t'
  | none => t.update (fun s => key s = key r) f hf

/-- an upsert whose `SET` writes every column: the row is `r` afterwards -/
theorem mem_upsert [DecidableEq κ] {t : Table ρ key} {r : ρ} {f : ρ → ρ} {hf : ∀ r, key (f r) = key r}
    (h : ∀ s, key s = key r → f s = r) {s : ρ} :
    s ∈ t.upsert r f hf ↔ s = r ∨ s ∈ t ∧ key s ≠ key r := by
  unfold upsert
  cases hi : t.insert r with
  | some t' =>
    have hfresh := insert_fresh hi
    constructor
    · intro hs
      rcases (mem_insert hi).mp hs with hs | hs
      · exact .inr ⟨hs, hfresh s hs⟩
      · exact .inl hs
    · rintro (hs | hs)
      · exact (mem_insert hi).mpr (.inr hs)
      · exact (mem_insert hi).mpr (.inl hs.1)
  | none =>
    have hex : ∃ q ∈ t, key q = key r := by
      by_contra hn
      obtain ⟨t', ht'⟩ := insert_isSome (t := t) (r := r) (fun s hs e => hn ⟨s, hs, e⟩)
      rw [ht'] at hi
      cases hi
    constructor
    · intro hs
      obtain ⟨q, hq, rfl⟩ := mem_update.mp hs
      by_cases hk : key q = key r
      · exact .inl (by rw [upd_pos (by simpa using hk), h q hk])
      · have hneg : upd (fun s => decide (key s = key r)) f q = q := upd_neg (by simpa using hk)
        exact .inr ⟨by rw [hneg]; exact hq, by rw [hneg]; exact hk⟩
    · rintro (rfl | ⟨hs, hk⟩)
      · obtain ⟨q, hq, hk⟩ := hex
        exact mem_update.mpr ⟨q, hq, by rw [upd_pos (by simpa using hk), h q hk]⟩
      · exact mem_update_of_neg hs (by simpa using hk)

/-! ## `DELETE` -/

def delete (t : Table ρ key) (p : ρ → Bool) : Table ρ key where
  rows := t.rows.filter (fun r => !p r)
  keys := t.keys.sublist (List.filter_sublist.map key)

@[simp] theorem mem_delete {t : Table ρ key} {p : ρ → Bool} {r : ρ} :
    r ∈ t.delete p ↔ r ∈ t ∧ p r = false := by
  rw [← mem_rows]
  simp [delete, mem_rows]

/-! ## `ORDER BY .. LIMIT 1` -/

/-- the first row in the order `before`; rows that tie stay in `rowid` order -/
def leastBy (before : ρ → ρ → Bool) : List ρ → Option ρ
  | [] => none
  | r :: rs =>
    match leastBy before rs with
    | none => some r
    | some s => if before s r then some s else some r

theorem leastBy_mem {before : ρ → ρ → Bool} {rs : List ρ} {r : ρ} (h : leastBy before rs = some r) :
    r ∈ rs := by
  induction rs generalizing r with
  | nil => cases h
  | cons a rs ih =>
    unfold leastBy at h
    cases hl : leastBy before rs with
    | none =>
      rw [hl] at h
      cases h
      exact List.mem_cons_self ..
    | some s =>
      rw [hl] at h
      by_cases hb : before s a = true
      · simp only [hb, if_true] at h
        cases h
        exact List.mem_cons_of_mem _ (ih hl)
      · simp only [hb] at h
        cases h
        exact List.mem_cons_self ..

theorem leastBy_eq_none {before : ρ → ρ → Bool} {rs : List ρ} : leastBy before rs = none ↔ rs = [] := by
  cases rs with
  | nil => simp [leastBy]
  | cons a rs =>
    unfold leastBy
    cases leastBy before rs with
    | none => simp
    | some s => by_cases hb : before s a = true <;> simp [hb]

/-! ## versions of one table -/

/-- no row inserted or deleted, and every row related by `R` to its next version -/
def Evolves (R : ρ → ρ → Prop) (t t' : Table ρ key) : Prop := List.Forall₂ R t.rows t'.rows

section evolves
variable {R S : ρ → ρ → Prop} {t t' t'' : Table ρ key}

theorem Evolves.refl (h : ∀ r ∈ t, R r r) : t.Evolves R t := List.forall₂_same.mpr h

/-- the rows an `UPDATE` leaves behind, whatever the table is called -/
theorem Evolves.of_rows {p : ρ → Bool} {f : ρ → ρ} (hrows : t'.rows = t.rows.map (upd p f))
    (h : ∀ r ∈ t, R r (upd p f r)) : t.Evolves R t' := by
  show List.Forall₂ R t.rows t'.rows
  rw [hrows, List.forall₂_map_right_iff, List.forall₂_same]
  exact h

theorem Evolves.update {p : ρ → Bool} {f : ρ → ρ} {hf : ∀ r, key (f r) = key r}
    (h : ∀ r ∈ t, R r (upd p f r)) : t.Evolves R (t.update p f hf) :=
  .of_rows rfl h

/-- the rows an update leaves alone stay related to themselves -/
theorem Evolves.update_where {p : ρ → Bool} {f : ρ → ρ} {hf : ∀ r, key (f r) = key r}
    (hrefl : ∀ r ∈ t, R r r) (h : ∀ r ∈ t, p r = true → R r (f r)) :
    t.Evolves R (t.update p f hf) := by
  refine Evolves.update (fun r hr => ?_)
  cases hp : p r with
  | true => rw [upd_pos hp]; exact h r hr hp
  | false => rw [upd_neg hp]; exact hrefl r hr

theorem Evolves.old (h : t.Evolves R t') {r' : ρ} (hr : r' ∈ t') : ∃ r ∈ t, R r r' := by
  obtain ⟨i, hi, rfl⟩ := List.mem_iff_getElem.mp hr
  have hl := h.length_eq
  exact ⟨t.rows[i], List.getElem_mem _, List.Forall₂.get h (by omega) hi⟩

theorem Evolves.new (h : t.Evolves R t') {r : ρ} (hr : r ∈ t) : ∃ r' ∈ t', R r r' := by
  obtain ⟨i, hi, rfl⟩ := List.mem_iff_getElem.mp hr
  have hl := h.length_eq
  exact ⟨t'.rows[i], List.getElem_mem _, List.Forall₂.get h hi (by omega)⟩

theorem Evolves.mono (h : t.Evolves R t') (hRS : ∀ r s, R r s → S r s) : t.Evolves S t' :=
  List.Forall₂.imp hRS h

theorem Evolves.trans {T : ρ → ρ → Prop} (h : t.Evolves R t') (h' : t'.Evolves S t'')
    (hT : ∀ r s u, R r s → S s u → T r u) : t.Evolves T t'' := by
  obtain ⟨rs, hk⟩ := t
  obtain ⟨rs', hk'⟩ := t'
  obtain ⟨rs'', hk''⟩ := t''
  simp only [Evolves] at h h' ⊢
  clear hk hk' hk''
  induction h generalizing rs'' with
  | nil => cases h'; exact .nil
  | cons hr _ ih =>
    cases h' with
    | cons hs hrest => exact .cons (hT _ _ _ hr hs) (ih _ hrest)

/-- a condition that the evolution keeps selects as many rows as before -/
theorem Evolves.count {p q : ρ → Bool} (h : t.Evolves R t') (hp : ∀ r s, R r s → p r = q s) :
    t'.count q = t.count p := by
  have h : List.Forall₂ R t.rows t'.rows := h
  show t'.rows.countP q = t.rows.countP p
  generalize t.rows = rs, t'.rows = rs' at h
  induction h with
  | nil => rfl
  | cons hr _ ih => rw [List.countP_cons, List.countP_cons, ih, hp _ _ hr]

theorem Evolves.count_le {p q : ρ → Bool} (h : t.Evolves R t')
    (hp : ∀ r s, R r s → q s = true → p r = true) : t'.count q ≤ t.count p := by
  have h : List.Forall₂ R t.rows t'.rows := h
  show t'.rows.countP q ≤ t.rows.countP p
  generalize t.rows = rs, t'.rows = rs' at h
  induction h with
  | nil => exact Nat.le_refl _
  | @cons r s _ _ hr _ ih =>
    rw [List.countP_cons, List.countP_cons]
    have hrs := hp r s hr
    cases hq : q s with
    | false => simp; omega
    | true => simp [hrs hq]; omega

end evolves

/-- a `rowcount` of 1: the row it was -/
theorem rowcount_one {t : Table ρ key} {p : ρ → Bool} {k : κ} (h : t.count p = 1)
    (hp : ∀ r, p r = true → key r = k) :
    ∃ r ∈ t, key r = k ∧ p r = true ∧ ∀ s ∈ t, p s = true ↔ key s = key r := by
  obtain ⟨r, hr, hpr⟩ := count_pos.mp (by rw [h]; exact Nat.one_pos)
  refine ⟨r, hr, hp r hpr, hpr, fun s hs => ⟨fun hps => ?_, fun e => ?_⟩⟩
  · rw [hp s hps, hp r hpr]
  · rw [eq_of_key hs hr e]
    exact hpr

end Table
