import Mathlib.Algebra.Ring.Nat
import Mathlib.Data.List.Nodup

/-!
# Chains of revisions in a log

A log holds entries under many keys; a `Link` reads off an entry its key, its id, the id of the entry that it supersedes
and its revision.

`L.chain log k`    the entries under `k`, in the order of the log
`L.Linear log`     no id comes twice, and every chain has the revisions 1, 2, .. and each entry supersedes the one before it
`L.current log`    the entries that no entry supersedes

* `Linear.root`, `Linear.next`   what has to be checked of an entry that is appended;
* `Linear.current_iff`           **the current entries are the last ones of the chains**;
* `Linear.eq_of_rev`             one entry under a key has a given revision.
-/

set_option linter.all false

universe u v w

/-- how the entries of a log are read -/
structure Link (ρ : Type u) (κ : Type v) (ι : Type w) where
  key : ρ → κ
  id : ρ → ι
  prev : ρ → Option ι
  rev : ρ → Nat

namespace Link
variable {ρ : Type u} {κ : Type v} {ι : Type w} (L : Link ρ κ ι)

section defs
variable [DecidableEq κ] [DecidableEq ι]

/-- the entries under a key -/
def chain (log : List ρ) (k : κ) : List ρ := log.filter (fun r => L.key r = k)

/-- the entries that no entry supersedes -/
def current (log : List ρ) : List ρ := log.filter (fun r => !log.any (fun s => L.prev s = some (L.id r)))

end defs

/-- revisions 1, 2, .., each entry superseding the one before it -/
structure Ordered (es : List ρ) : Prop where
  numbered : ∀ i e, es[i]? = some e → L.rev e = i + 1
  first : ∀ e, es[0]? = some e → L.prev e = none
  linked : ∀ i a b, es[i]? = some a → es[i + 1]? = some b → L.prev b = some (L.id a)

variable {L}

section ordered
variable {es : List ρ} {e : ρ}

theorem Ordered.nil : L.Ordered [] :=
  ⟨fun _ _ h => by simp at h, fun _ h => by simp at h, fun _ _ _ h => by simp at h⟩

/-- an element of a list with one more at its end -/
theorem concat_cases {i : Nat} {a : ρ} (h : (es ++ [e])[i]? = some a) : es[i]? = some a ∨ (i = es.length ∧ a = e) := by
  rcases Nat.lt_trichotomy i es.length with hi | hi | hi
  · rw [List.getElem?_append_left hi] at h
    exact .inl h
  · subst hi
    rw [List.getElem?_concat_length] at h
    exact .inr ⟨rfl, (Option.some.inj h).symm⟩
  · rw [List.getElem?_eq_none (by rw [List.length_append, List.length_singleton]; omega)] at h
    cases h

/-- an entry at the end of a chain -/
theorem Ordered.concat (h : L.Ordered es) (hrev : L.rev e = es.length + 1) (hprev : L.prev e = es.getLast?.map L.id) :
    L.Ordered (es ++ [e]) := by
  constructor
  · intro i a ha
    rcases concat_cases ha with ha | ⟨rfl, rfl⟩
    · exact h.numbered i a ha
    · exact hrev
  · intro a ha
    rcases concat_cases ha with ha | ⟨hi, rfl⟩
    · exact h.first a ha
    · rw [hprev, List.eq_nil_of_length_eq_zero hi.symm]
      rfl
  · intro i a b ha hb
    rcases concat_cases hb with hb | ⟨hi, rfl⟩
    · rcases concat_cases ha with ha | ⟨hi, -⟩
      · exact h.linked i a b ha hb
      · rw [List.getElem?_eq_none (by omega)] at hb
        cases hb
    · rcases concat_cases ha with ha | ⟨hi', -⟩
      · rw [hprev, List.getLast?_eq_getElem?, ← hi, Nat.add_sub_cancel, ha]
        rfl
      · omega

theorem Ordered.rev_le (h : L.Ordered es) {a : ρ} (ha : a ∈ es) : L.rev a ≤ es.length := by
  obtain ⟨i, hi, rfl⟩ := List.mem_iff_getElem.mp ha
  rw [h.numbered i _ (List.getElem?_eq_getElem hi)]
  exact hi

theorem Ordered.rev_last (h : L.Ordered es) {a : ρ} (ha : es.getLast? = some a) : L.rev a = es.length := by
  have hpos : 0 < es.length := List.length_pos_of_mem (List.mem_of_getLast? ha)
  rw [List.getLast?_eq_getElem?] at ha
  rw [h.numbered _ a ha]
  omega

/-- an entry is the first one of its chain or comes right after another -/
theorem Ordered.prev_cases (h : L.Ordered es) {b : ρ} (hb : b ∈ es) :
    (L.prev b = none ∧ L.rev b = 1) ∨ ∃ a ∈ es, L.prev b = some (L.id a) ∧ L.rev b = L.rev a + 1 := by
  obtain ⟨i, hi, rfl⟩ := List.mem_iff_getElem.mp hb
  cases i with
  | zero =>
    have hb : es[0]? = some es[0] := List.getElem?_eq_getElem hi
    exact .inl ⟨h.first _ hb, h.numbered 0 _ hb⟩
  | succ i =>
    have ha : es[i]? = some es[i] := List.getElem?_eq_getElem (by omega)
    have hb : es[i + 1]? = some es[i + 1] := List.getElem?_eq_getElem hi
    refine .inr ⟨es[i], List.getElem_mem _, h.linked i _ _ ha hb, ?_⟩
    rw [h.numbered _ _ ha, h.numbered _ _ hb]

/-- an entry with nothing after it is the last one -/
theorem Ordered.last_of (h : L.Ordered es) {a : ρ} (ha : a ∈ es) (hnone : ∀ b ∈ es, L.prev b ≠ some (L.id a)) :
    es.getLast? = some a := by
  obtain ⟨i, hi, rfl⟩ := List.mem_iff_getElem.mp ha
  have hlast : i = es.length - 1 := by
    by_contra hne
    have hi' : i + 1 < es.length := by omega
    exact hnone es[i + 1] (List.getElem_mem _)
      (h.linked i _ _ (List.getElem?_eq_getElem hi) (List.getElem?_eq_getElem hi'))
  subst hlast
  rw [List.getLast?_eq_getElem?, List.getElem?_eq_getElem hi]

theorem Ordered.eq_of_rev (h : L.Ordered es) {a b : ρ} (ha : a ∈ es) (hb : b ∈ es) (he : L.rev a = L.rev b) : a = b := by
  obtain ⟨i, hi, rfl⟩ := List.mem_iff_getElem.mp ha
  obtain ⟨j, hj, rfl⟩ := List.mem_iff_getElem.mp hb
  rw [h.numbered i _ (List.getElem?_eq_getElem hi), h.numbered j _ (List.getElem?_eq_getElem hj)] at he
  have hij : i = j := by omega
  subst hij
  rfl

end ordered

section linear
variable (L) [DecidableEq κ]

/-- every chain of a log is in order -/
structure Linear (log : List ρ) : Prop where
  ids : (log.map L.id).Nodup
  chains : ∀ k, L.Ordered (L.chain log k)

variable {L} {log : List ρ} {r : ρ}

theorem mem_chain {k : κ} {e : ρ} : e ∈ L.chain log k ↔ e ∈ log ∧ L.key e = k := by
  unfold chain
  rw [List.mem_filter, decide_eq_true_eq]

theorem chain_append (log more : List ρ) (k : κ) : L.chain (log ++ more) k = L.chain log k ++ L.chain more k :=
  List.filter_append ..

theorem chain_singleton (e : ρ) (k : κ) : L.chain [e] k = if L.key e = k then [e] else [] := by
  unfold chain
  rw [List.filter_cons, List.filter_nil]
  simp only [decide_eq_true_eq]

theorem Linear.nil : L.Linear [] := ⟨List.nodup_nil, fun _ => .nil⟩

theorem Linear.eq_of_id (h : L.Linear log) {a b : ρ} (ha : a ∈ log) (hb : b ∈ log) (he : L.id a = L.id b) : a = b :=
  List.inj_on_of_nodup_map h.ids ha hb he

/-- **One entry under a key has a given revision.** -/
theorem Linear.eq_of_rev (h : L.Linear log) {a b : ρ} (ha : a ∈ log) (hb : b ∈ log) (hkey : L.key a = L.key b)
    (hrev : L.rev a = L.rev b) : a = b :=
  (h.chains (L.key b)).eq_of_rev (mem_chain.mpr ⟨ha, hkey⟩) (mem_chain.mpr ⟨hb, rfl⟩) hrev

/-- a key with an entry has a first one -/
theorem Linear.exists_root (h : L.Linear log) {a : ρ} (ha : a ∈ log) :
    ∃ e ∈ log, L.key e = L.key a ∧ L.prev e = none := by
  have hmem : a ∈ L.chain log (L.key a) := mem_chain.mpr ⟨ha, rfl⟩
  cases hc : L.chain log (L.key a) with
  | nil =>
    rw [hc] at hmem
    cases hmem
  | cons e es =>
    have he : e ∈ L.chain log (L.key a) := by
      rw [hc]
      exact List.mem_cons_self
    obtain ⟨he, hkey⟩ := mem_chain.mp he
    exact ⟨e, he, hkey, (h.chains _).first e (by rw [hc]; rfl)⟩

/-- an entry at the end of its chain -/
theorem Linear.concat (h : L.Linear log) (hid : ∀ e ∈ log, L.id e ≠ L.id r)
    (hrev : L.rev r = (L.chain log (L.key r)).length + 1) (hprev : L.prev r = (L.chain log (L.key r)).getLast?.map L.id) :
    L.Linear (log ++ [r]) := by
  constructor
  · rw [List.map_append, List.map_singleton, List.nodup_append]
    refine ⟨h.ids, List.nodup_singleton _, ?_⟩
    intro x hx y hy
    obtain ⟨e, he, rfl⟩ := List.mem_map.mp hx
    rw [List.mem_singleton.mp hy]
    exact hid e he
  · intro k
    rw [chain_append, chain_singleton]
    by_cases hk : L.key r = k
    · subst hk
      rw [if_pos rfl]
      exact (h.chains _).concat hrev hprev
    · rw [if_neg hk, List.append_nil]
      exact h.chains k

/-- an entry without a successor is the last one of its chain -/
theorem Linear.last_of (h : L.Linear log) {a : ρ} (ha : a ∈ log) (hnone : ∀ b ∈ log, L.prev b ≠ some (L.id a)) :
    (L.chain log (L.key a)).getLast? = some a :=
  (h.chains _).last_of (mem_chain.mpr ⟨ha, rfl⟩) (fun b hb => hnone b (mem_chain.mp hb).1)

/-- **A first entry is appended** under a key that has none. -/
theorem Linear.root (h : L.Linear log) (hid : ∀ e ∈ log, L.id e ≠ L.id r) (hprev : L.prev r = none) (hrev : L.rev r = 1)
    (hroot : ∀ e ∈ log, L.key e = L.key r → L.prev e ≠ none) : L.Linear (log ++ [r]) := by
  have hnil : L.chain log (L.key r) = [] := by
    rw [List.eq_nil_iff_forall_not_mem]
    intro a ha
    obtain ⟨ha, hkey⟩ := mem_chain.mp ha
    obtain ⟨e, he, hkey', hnone⟩ := h.exists_root ha
    exact hroot e he (hkey'.trans hkey) hnone
  exact h.concat hid (by rw [hrev, hnil]; rfl) (by rw [hprev, hnil]; rfl)

/-- **A next entry is appended** after one that has no successor. -/
theorem Linear.next (h : L.Linear log) (hid : ∀ e ∈ log, L.id e ≠ L.id r) {p : ρ} (hp : p ∈ log)
    (hkey : L.key p = L.key r) (hprev : L.prev r = some (L.id p)) (hrev : L.rev r = L.rev p + 1)
    (hnone : ∀ b ∈ log, L.prev b ≠ some (L.id p)) : L.Linear (log ++ [r]) := by
  have hlast := h.last_of hp hnone
  rw [hkey] at hlast
  refine h.concat hid ?_ ?_
  · rw [hrev, (h.chains _).rev_last hlast]
  · rw [hprev, hlast]
    rfl

omit [DecidableEq κ] in
theorem mem_current [DecidableEq ι] {a : ρ} : a ∈ L.current log ↔ a ∈ log ∧ ∀ b ∈ log, L.prev b ≠ some (L.id a) := by
  unfold current
  rw [List.mem_filter, Bool.not_eq_true', List.any_eq_false]
  simp only [decide_eq_true_eq]

/-- **The current entries are the last ones of the chains.** -/
theorem Linear.current_iff [DecidableEq ι] (h : L.Linear log) {a : ρ} :
    a ∈ L.current log ↔ (L.chain log (L.key a)).getLast? = some a := by
  rw [mem_current]
  constructor
  · rintro ⟨ha, hnone⟩
    exact h.last_of ha hnone
  · intro hlast
    obtain ⟨ha, -⟩ := mem_chain.mp (List.mem_of_getLast? hlast)
    refine ⟨ha, fun b hb he => ?_⟩
    rcases (h.chains (L.key b)).prev_cases (mem_chain.mpr ⟨hb, rfl⟩) with ⟨hnone, -⟩ | ⟨p, hp, hprev, hrev⟩
    · rw [hnone] at he
      cases he
    · obtain ⟨hp, hkey⟩ := mem_chain.mp hp
      rw [hprev] at he
      have hpa : p = a := h.eq_of_id hp ha (Option.some.inj he)
      subst hpa
      -- the successor would come after the last one of the chain
      have hle := (h.chains (L.key p)).rev_le (mem_chain.mpr ⟨hb, hkey.symm⟩)
      rw [hrev, (h.chains _).rev_last hlast] at hle
      omega

end linear
end Link
