import Mathlib.Algebra.Ring.Nat
import Mathlib.Data.List.Chain
import OpenFlame.Download.Url

/-!
# The segments of a path

`joinPath segments`   each segment behind a slash
`Clean path`          no two slashes in a row, none at the end

* `splitAll_joinPath`      segments are read back from the path they make;
* `Clean.cleanPath`        a clean path stays as it is;
* `cleanPath_clean`        a cleaned path is clean, or the root;
* `joinPath_clean`         so is a path of segments that are not empty.
-/

set_option linter.all false

namespace OpenFlame.Download

/-! ## cutting at a character -/

section
variable {c : Char} {s t : Text}

theorem partition_at (h : c ∉ s) (rest : Text) : partition c (s ++ c :: rest) = (s, some rest) := by
  induction s with
  | nil => exact if_pos rfl
  | cons d s ih =>
    rw [List.mem_cons, not_or] at h
    rw [List.cons_append]
    unfold partition
    rw [if_neg (fun he => h.1 he.symm), ih h.2]

theorem partition_whole (h : c ∉ s) : partition c s = (s, none) := by
  induction s with
  | nil => rfl
  | cons d s ih =>
    rw [List.mem_cons, not_or] at h
    unfold partition
    rw [if_neg (fun he => h.1 he.symm), ih h.2]

theorem partition_join {rest : Text} (h : partition c s = (t, some rest)) : s = t ++ c :: rest := by
  induction s generalizing t with
  | nil => cases h
  | cons d s ih =>
    unfold partition at h
    split at h
    · next hd =>
      cases h
      rw [hd]
      rfl
    · cases hs : partition c s with
      | mk a b =>
        rw [hs] at h
        cases h
        rw [ih hs]
        rfl

theorem partition_fst (c : Char) (s : Text) : (partition c s).1 = s.takeWhile (fun d => d != c) := by
  induction s with
  | nil => rfl
  | cons d s ih =>
    unfold partition
    by_cases hd : d = c
    · rw [if_pos hd, List.takeWhile_cons, if_neg (fun h => bne_iff_ne.mp h hd)]
    · rw [if_neg hd, List.takeWhile_cons, if_pos (bne_iff_ne.mpr hd), ih]

theorem splitAll_whole (h : c ∉ s) : splitAll c s = [s] := by
  induction s with
  | nil => rfl
  | cons d s ih =>
    rw [List.mem_cons, not_or] at h
    unfold splitAll
    rw [if_neg (fun he => h.1 he.symm), ih h.2]

theorem splitAll_at (h : c ∉ s) (rest : Text) : splitAll c (s ++ c :: rest) = s :: splitAll c rest := by
  induction s with
  | nil => exact if_pos rfl
  | cons d s ih =>
    rw [List.mem_cons, not_or] at h
    rw [List.cons_append]
    show (if d = c then _ else _) = _
    rw [if_neg (fun he => h.1 he.symm), ih h.2]

/-- a part has characters of the text, and none of the separator -/
theorem splitAll_parts (h : t ∈ splitAll c s) : c ∉ t ∧ t ⊆ s := by
  induction s generalizing t with
  | nil =>
    rw [List.mem_singleton.mp h]
    exact ⟨List.not_mem_nil, List.nil_subset _⟩
  | cons d s ih =>
    unfold splitAll at h
    split at h
    · rcases List.mem_cons.mp h with rfl | h
      · exact ⟨List.not_mem_nil, List.nil_subset _⟩
      · exact ⟨(ih h).1, List.subset_cons_of_subset _ (ih h).2⟩
    · next hd =>
      split at h
      · next hnil =>
        rw [List.mem_singleton.mp h]
        refine ⟨?_, List.cons_subset_cons _ (List.nil_subset _)⟩
        rw [List.mem_singleton]
        exact fun he => hd he.symm
      · next p rest hsplit =>
        rcases List.mem_cons.mp h with rfl | h
        · obtain ⟨hc, hsub⟩ := ih (t := p) (hsplit ▸ List.mem_cons_self)
          refine ⟨?_, List.cons_subset_cons _ hsub⟩
          rw [List.mem_cons, not_or]
          exact ⟨fun he => hd he.symm, hc⟩
        · obtain ⟨hc, hsub⟩ := ih (t := t) (hsplit ▸ List.mem_cons_of_mem _ h)
          exact ⟨hc, List.subset_cons_of_subset _ hsub⟩

end

/-! ## paths -/

def joinPath (segments : List Text) : Text := segments.flatMap (fun s => '/' :: s)

theorem joinPath_cons (s : Text) (segments : List Text) : joinPath (s :: segments) = '/' :: (s ++ joinPath segments) := rfl

/-- a segment: some characters without a slash -/
def IsSegment (s : Text) : Prop := s ≠ [] ∧ '/' ∉ s

/-- **Segments are read back from the path they make.** -/
theorem splitAll_joinPath {segments : List Text} (h : ∀ s ∈ segments, '/' ∉ s) :
    splitAll '/' (joinPath segments) = [] :: segments := by
  have hrest : ∀ (s : Text) (rest : List Text), '/' ∉ s → (∀ t ∈ rest, '/' ∉ t) →
      splitAll '/' (s ++ joinPath rest) = s :: rest := by
    intro s rest hs hall
    induction rest generalizing s with
    | nil =>
      show splitAll '/' (s ++ []) = _
      rw [List.append_nil, splitAll_whole hs]
    | cons t rest ih =>
      rw [joinPath_cons, splitAll_at hs, ih t (hall t List.mem_cons_self) (fun u hu => hall u (List.mem_cons_of_mem _ hu))]
  exact hrest [] segments List.not_mem_nil h

/-- no two slashes in a row, none at the end -/
structure Clean (path : Text) : Prop where
  ne : path ≠ []
  single : path.IsChain (fun a b => ¬ (a = '/' ∧ b = '/'))
  last : path.rdropWhile (· == '/') = path

theorem collapseSlashes_single {path : Text} (h : path.IsChain (fun a b => ¬ (a = '/' ∧ b = '/'))) :
    collapseSlashes path = path := by
  induction path with
  | nil => rfl
  | cons a path ih =>
    cases path with
    | nil => rfl
    | cons b path =>
      obtain ⟨hab, htail⟩ := List.isChain_cons_cons.mp h
      unfold collapseSlashes
      rw [if_neg hab, ih htail]

/-- slashes are collapsed -/
theorem collapseSlashes_chain (path : Text) : (collapseSlashes path).IsChain (fun a b => ¬ (a = '/' ∧ b = '/')) ∧
    (collapseSlashes path).head? = path.head? := by
  induction path with
  | nil => exact ⟨.nil, rfl⟩
  | cons a path ih =>
    cases path with
    | nil => exact ⟨.singleton _, rfl⟩
    | cons b path =>
      obtain ⟨hchain, hhead⟩ := ih
      unfold collapseSlashes
      split
      · next hab =>
        refine ⟨hchain, ?_⟩
        rw [hhead, hab.1, hab.2]
        rfl
      · next hab =>
        refine ⟨?_, rfl⟩
        cases hrest : collapseSlashes (b :: path) with
        | nil => exact .singleton _
        | cons d rest =>
          rw [hrest] at hchain hhead
          obtain rfl : d = b := Option.some.inj hhead
          exact List.isChain_cons_cons.mpr ⟨hab, hchain⟩

/-- **A clean path stays as it is.** -/
theorem Clean.cleanPath {path : Text} (h : Clean path) : cleanPath path = path := by
  unfold Download.cleanPath
  rw [collapseSlashes_single h.single, h.last]
  cases path with
  | nil => exact absurd rfl h.ne
  | cons a path => rfl

/-- **A cleaned path is clean, or the root.** -/
theorem cleanPath_clean (path : Text) : cleanPath path = ['/'] ∨ Clean (cleanPath path) := by
  unfold Download.cleanPath
  split
  · exact .inl rfl
  · next q hq =>
    refine .inr ⟨hq, ?_, List.rdropWhile_idempotent _ _⟩
    have hchain := (collapseSlashes_chain path).1
    obtain ⟨slashes, hsplit⟩ := List.rdropWhile_prefix (· == '/') (collapseSlashes path)
    rw [← hsplit] at hchain
    exact hchain.left_of_append

theorem collapseSlashes_subset (path : Text) : collapseSlashes path ⊆ path := by
  induction path with
  | nil => exact List.nil_subset _
  | cons a path ih =>
    cases path with
    | nil => exact List.Subset.refl _
    | cons b path =>
      unfold collapseSlashes
      split
      · exact List.subset_cons_of_subset _ ih
      · exact List.cons_subset_cons _ ih

/-- a path that starts at the root is cleaned to one, of its own characters -/
theorem cleanPath_rooted {path : Text} (h : path = [] ∨ ∃ t, path = '/' :: t) :
    (∃ t, cleanPath path = '/' :: t) ∧ ∀ c ∈ cleanPath path, c = '/' ∨ c ∈ path := by
  unfold cleanPath
  split
  · exact ⟨⟨[], rfl⟩, fun c hc => .inl (List.mem_singleton.mp hc)⟩
  · next q hq =>
    have hfront : (collapseSlashes path).rdropWhile (· == '/') <+: collapseSlashes path := List.rdropWhile_prefix _ _
    refine ⟨?_, fun c hc => .inr (collapseSlashes_subset path (hfront.subset hc))⟩
    rcases h with rfl | ⟨t, rfl⟩
    · exact absurd (List.prefix_nil.mp hfront) hq
    · have hhead := (collapseSlashes_chain ('/' :: t)).2
      cases hq' : (collapseSlashes ('/' :: t)).rdropWhile (· == '/') with
      | nil => exact absurd hq' hq
      | cons d u =>
        rw [hq'] at hfront
        obtain ⟨v, hv⟩ := hfront
        rw [← hv] at hhead
        exact ⟨u, by rw [Option.some.inj hhead]⟩

theorem getLast_segment {s : Text} (h : IsSegment s) : ∀ x ∈ ('/' :: s).getLast?, x ≠ '/' := by
  intro x hx hslash
  rw [List.getLast?_cons, List.getLast?_eq_some_getLast h.1, Option.mem_some_iff] at hx
  refine h.2 ?_
  rw [← hslash, ← hx]
  exact List.getLast_mem h.1

/-- **A path of segments is clean.** -/
theorem joinPath_clean {segments : List Text} (hne : segments ≠ []) (h : ∀ s ∈ segments, IsSegment s) :
    Clean (joinPath segments) := by
  have hlast : ∀ x ∈ (joinPath segments).getLast?, x ≠ '/' := by
    clear hne
    induction segments with
    | nil => exact nofun
    | cons s rest ih =>
      intro x hx
      rw [joinPath_cons, ← List.cons_append, List.getLast?_append] at hx
      cases hrest : (joinPath rest).getLast? with
      | none =>
        rw [hrest, Option.none_or] at hx
        exact getLast_segment (h s List.mem_cons_self) x hx
      | some y =>
        rw [hrest, Option.some_or] at hx
        exact ih (fun t ht => h t (List.mem_cons_of_mem _ ht)) x (hrest ▸ hx)
  have hsingle : (joinPath segments).IsChain (fun a b => ¬ (a = '/' ∧ b = '/')) := by
    clear hne hlast
    induction segments with
    | nil => exact .nil
    | cons s rest ih =>
      have hs := h s List.mem_cons_self
      have hplain : s.IsChain (fun a b => ¬ (a = '/' ∧ b = '/')) :=
        List.Pairwise.isChain (List.pairwise_of_forall_mem_list (fun a ha _ _ hab => hs.2 (hab.1 ▸ ha)))
      rw [joinPath_cons, ← List.cons_append, List.isChain_append]
      refine ⟨?_, ih (fun t ht => h t (List.mem_cons_of_mem _ ht)), fun x hx y _ hxy => getLast_segment hs x hx hxy.1⟩
      cases s with
      | nil => exact absurd rfl hs.1
      | cons a s => exact List.isChain_cons_cons.mpr ⟨fun hab => hs.2 (hab.2 ▸ List.mem_cons_self), hplain⟩
  have hpath : joinPath segments ≠ [] := by
    cases segments with
    | nil => exact absurd rfl hne
    | cons s rest => exact List.cons_ne_nil _ _
  refine ⟨hpath, hsingle, List.rdropWhile_eq_self_iff.mpr (fun hl hx => ?_)⟩
  exact hlast _ (List.getLast?_eq_some_getLast hl ▸ rfl) (beq_iff_eq.mp hx)

end OpenFlame.Download
