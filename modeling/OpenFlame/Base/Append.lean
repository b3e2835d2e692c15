import Mathlib.Algebra.Ring.Nat
import Mathlib.Data.List.Infix
import OpenFlame.Base.Table

/-!
# Tables that only grow

`t.Extends c t'`: the rows of `t` come first in `t'`, in the same order, and keep the projection `c`.
Updates outside `c` and inserts extend a table; rows and their projections are found again.

`t.rank k`: the place of a key in `rowid` order, which an extension keeps.
-/

set_option linter.all false

universe u v w

namespace Table
variable {ρ : Type u} {κ : Type v} {γ : Type w} {key : ρ → κ}

def Extends (c : ρ → γ) (t t' : Table ρ key) : Prop := t.rows.map c <+: t'.rows.map c

section extends_
variable {c : ρ → γ} {t t' t'' : Table ρ key}

theorem Extends.refl : t.Extends c t := List.prefix_refl _

theorem Extends.trans (h : t.Extends c t') (h' : t'.Extends c t'') : t.Extends c t'' := List.IsPrefix.trans h h'

theorem Extends.of_map_eq (h : t'.rows.map c = t.rows.map c) : t.Extends c t' := by
  unfold Extends
  rw [h]

theorem map_of_rows {p : ρ → Bool} {f : ρ → ρ} (h : t'.rows = t.rows.map (upd p f))
    (hf : ∀ r, c (f r) = c r) : t'.rows.map c = t.rows.map c := by
  rw [h, List.map_map]
  exact List.map_congr_left (fun r _ => upd_col c hf r)

theorem Extends.update {p : ρ → Bool} {f : ρ → ρ} (h : t'.rows = t.rows.map (upd p f))
    (hf : ∀ r, c (f r) = c r) : t.Extends c t' :=
  .of_map_eq (map_of_rows h hf)

theorem Extends.insert [DecidableEq κ] {r : ρ} (h : t.insert r = some t') : t.Extends c t' := by
  unfold Extends
  rw [insert_rows h, List.map_append]
  exact List.prefix_append _ _

theorem Extends.mem (h : t.Extends c t') {r : ρ} (hr : r ∈ t) : ∃ r' ∈ t', c r' = c r := by
  have hc : c r ∈ t'.rows.map c := h.subset (List.mem_map_of_mem hr)
  exact List.mem_map.mp hc

theorem Extends.coarsen {δ : Type*} {d : ρ → δ} (g : γ → δ) (hg : ∀ r, g (c r) = d r) (h : t.Extends c t') :
    t.Extends d t' := by
  have hd : d = g ∘ c := funext (fun r => (hg r).symm)
  unfold Extends
  rw [hd, ← List.map_map, ← List.map_map]
  exact List.IsPrefix.map g h

/-- a row keeps its projection -/
theorem Extends.eq_of_key (k : γ → κ) (hk : ∀ r, k (c r) = key r) (h : t.Extends c t') {r r' : ρ} (hr : r ∈ t)
    (hr' : r' ∈ t') (e : key r' = key r) : c r' = c r := by
  obtain ⟨s, hs, hcs⟩ := h.mem hr
  have : key s = key r' := by rw [← hk s, hcs, hk r, e]
  rw [← Table.eq_of_key hs hr' this]
  exact hcs

end extends_

section rank
variable [DecidableEq κ] {t t' : Table ρ key}

/-- the place of a key in `rowid` order -/
def rank (t : Table ρ key) (k : κ) : Nat := (t.rows.map key).idxOf k

theorem rank_lt {r : ρ} (hr : r ∈ t) : t.rank (key r) < t.rows.length := by
  have h := List.idxOf_lt_length_of_mem (List.mem_map_of_mem (f := key) hr)
  rwa [List.length_map] at h

theorem Extends.rank (h : t.Extends key t') {r : ρ} (hr : r ∈ t) : t'.rank (key r) = t.rank (key r) := by
  obtain ⟨rest, hrest⟩ := h
  unfold Table.rank
  rw [← hrest, List.idxOf_append_of_mem (List.mem_map_of_mem hr)]

/-- an inserted row comes last -/
theorem rank_insert {r : ρ} (h : t.insert r = some t') : t'.rank (key r) = t.rows.length := by
  have hn : key r ∉ t.rows.map key := by
    intro hm
    obtain ⟨s, hs, e⟩ := List.mem_map.mp hm
    exact insert_fresh h s hs e
  unfold rank
  rw [insert_rows h, List.map_append, List.idxOf_append_of_notMem hn, List.map_singleton, List.idxOf_cons_self,
    List.length_map, Nat.add_zero]

end rank
end Table
