import OpenFlame.Upload.Fixpoint

/-!
# The short titles there are

`withCommas`        a title that is normalized to a given one
`EndsInSpace`       a text cut right after the space of a comma
`Characterized`     a text is recognized iff it is a short title, and then has from 7 to 15 characters

* `exists_title`         what is recognized is a short title;
* `refused_endsInSpace`  a short title that is not recognized ends in a space;
* `characterized_iff`    **a text is characterized iff it was not cut after the space of a comma.**
-/

set_option linter.all false

namespace OpenFlame.Upload

section
variable (u : Unicode) {v : Text}

/-- the title with commas for its spaces -/
def withCommas (v : Text) : Text := v.map (fun c => if c = ' ' then ',' else c)

/-- fifteen characters of short titles, the last one a space, the first one not -/
def EndsInSpace (v : Text) : Prop :=
  v.length = 15 ∧ v.head? ≠ some ' ' ∧ v.getLast? = some ' ' ∧ v.all (isOrdinary u) = true

/-- the text is recognized iff it is a short title, and every short title has the right length and is recognized -/
def Characterized (v : Text) : Prop :=
  (isTencentShortTitleOutput u v = true ↔ ∃ x, normalizeTencentShortTitle u x = v) ∧
    ∀ x, normalizeTencentShortTitle u x = v →
      (7 ≤ v.length ∧ v.length ≤ 15) ∧ isTencentShortTitleOutput u v = true

variable {u}

theorem isOrdinary_space {c : Char} (h : isOrdinary u c = true) (hs : Text.isSpace c = true) : c = ' ' := by
  unfold isOrdinary at h
  rw [Bool.or_eq_true, beq_iff_eq] at h
  rcases h with hkept | hspace
  · exact (shortTitleChar_spec u (c := c) (d := c) (if_pos hkept)).2.2.2 hs
  · exact hspace

/-- a character that the short title keeps can be got from one -/
theorem shortTitleChar_withComma {c : Char} (h : isOrdinary u c = true) :
    shortTitleChar u (if c = ' ' then ',' else c) = some c := by
  by_cases hc : c = ' '
  · rw [if_pos hc, hc]
    unfold shortTitleChar
    rw [u.comma_not_alnum]
    rfl
  · rw [if_neg hc]
    unfold isOrdinary at h
    rw [Bool.or_eq_true, beq_iff_eq] at h
    exact if_pos (h.resolve_right hc)

theorem keptTitle_withCommas (h : ∀ c ∈ v, isOrdinary u c = true) : keptTitle u (withCommas v) = Text.strip v := by
  have hfilter : (withCommas v).filterMap (shortTitleChar u) = v := by
    unfold withCommas
    induction v with
    | nil => rfl
    | cons c v ih =>
      rw [List.map_cons, List.filterMap_cons_some (shortTitleChar_withComma (h c List.mem_cons_self)),
        ih (fun d hd => h d (List.mem_cons_of_mem _ hd))]
  unfold keptTitle
  rw [hfilter]

/-! ## what is recognized -/

/-- a stripped text of the right length is the short title of itself -/
theorem normalize_withCommas (hlen : 7 ≤ v.length ∧ v.length ≤ 15) (hstrip : Text.strip v = v)
    (h : ∀ c ∈ v, isOrdinary u c = true) : normalizeTencentShortTitle u (withCommas v) = v := by
  have hkept : keptTitle u (withCommas v) = v := by rw [keptTitle_withCommas h, hstrip]
  rcases normalizeTencentShortTitle_cases u (withCommas v) with ⟨hnil, -⟩ | ⟨-, h6, -⟩ | ⟨-, e⟩
  · rw [hkept] at hnil
    rw [hnil] at hlen
    exact absurd hlen.1 (by decide)
  · rw [hkept] at h6
    omega
  · rw [e, hkept, List.take_of_length_le hlen.2]

/-- a short stripped text is filled -/
theorem normalize_filled (hlen : 1 ≤ v.length ∧ v.length ≤ 6) (hstrip : Text.strip v = v)
    (h : ∀ c ∈ v, isOrdinary u c = true) :
    normalizeTencentShortTitle u (withCommas v) = v ++ SHORT_TITLE_FILLER.take (7 - v.length) := by
  have hkept : keptTitle u (withCommas v) = v := by rw [keptTitle_withCommas h, hstrip]
  rcases normalizeTencentShortTitle_cases u (withCommas v) with ⟨hnil, -⟩ | ⟨-, -, e⟩ | ⟨h7, -⟩
  · rw [hkept] at hnil
    rw [hnil] at hlen
    exact absurd hlen.1 (by decide)
  · rw [e, hkept]
  · rw [hkept] at h7
    omega

/-- **What is recognized is a short title.** -/
theorem exists_title (h : isTencentShortTitleOutput u v = true) : ∃ x, normalizeTencentShortTitle u x = v := by
  unfold isTencentShortTitleOutput at h
  by_cases hlen : 7 ≤ v.length ∧ v.length ≤ 15 ∧ v = Text.strip v
  · rw [if_pos hlen] at h
    by_cases hcomma : v.contains '，' = true
    · rw [if_pos hcomma] at h
      simp only [Bool.and_eq_true, beq_iff_eq, decide_eq_true_eq] at h
      obtain ⟨⟨⟨⟨⟨⟨h7, -⟩, h1⟩, h6⟩, hstrip⟩, hall⟩, hdrop⟩ := h
      have hhead : (v.take (v.idxOf '，')).length = v.idxOf '，' := by
        have hlt := List.idxOf_lt_length_of_mem (List.contains_iff_mem.mp hcomma)
        rw [List.length_take]
        omega
      refine ⟨withCommas (v.take (v.idxOf '，')), ?_⟩
      rw [normalize_filled ⟨h1, h6⟩ hstrip.symm (List.all_eq_true.mp hall), hhead, ← hdrop]
      exact List.take_append_drop _ v
    · rw [if_neg hcomma] at h
      exact ⟨withCommas v, normalize_withCommas ⟨hlen.1, hlen.2.1⟩ hlen.2.2.symm (List.all_eq_true.mp h)⟩
  · rw [if_neg hlen] at h
    cases h

theorem strip_of_recognized (h : isTencentShortTitleOutput u v = true) : Text.strip v = v := by
  unfold isTencentShortTitleOutput at h
  by_cases hlen : 7 ≤ v.length ∧ v.length ≤ 15 ∧ v = Text.strip v
  · exact hlen.2.2.symm
  · rw [if_neg hlen] at h
    cases h

/-! ## what is not -/

/-- a short title that is not recognized was cut after the space of a comma -/
theorem refused_endsInSpace {x : Text} (h : isTencentShortTitleOutput u (normalizeTencentShortTitle u x) ≠ true) :
    EndsInSpace u (normalizeTencentShortTitle u x) := by
  have hcut : cutAtComma u x = true := by
    rw [← Bool.not_eq_false]
    intro hcut
    exact h (isTencentShortTitleOutput_normalized u ((shortTitle_stable_iff u x).mpr hcut))
  have hlong : ¬ (keptTitle u x).length ≤ 15 := by
    intro hle
    rw [cutAtComma_kept u hle] at hcut
    cases hcut
  have hvalue : normalizeTencentShortTitle u x = (keptTitle u x).take 15 := by
    rcases normalizeTencentShortTitle_cases u x with ⟨hnil, -⟩ | ⟨-, h6, -⟩ | ⟨-, e⟩
    · rw [hnil] at hlong
      exact absurd (Nat.zero_le 15) hlong
    · omega
    · exact e
  have hne : keptTitle u x ≠ [] := by
    intro hnil
    rw [hnil] at hlong
    exact hlong (Nat.zero_le 15)
  have hlast : (keptTitle u x)[14]? = some ' ' := beq_iff_eq.mp hcut
  rw [hvalue]
  refine ⟨?_, ?_, ?_, ?_⟩
  · rw [List.length_take]
    omega
  · intro hhead
    have hends := (keptTitle_ends u hne).1
    have : (keptTitle u x).head? = some ' ' := by
      rw [← hhead]
      cases keptTitle u x with
      | nil => rfl
      | cons c t => rfl
    rw [List.head?_eq_some_head hne, Option.some.injEq] at this
    rw [this] at hends
    exact absurd hends (by decide)
  · rw [List.getLast?_eq_getElem?, List.length_take, Nat.min_eq_left (by omega), List.getElem?_take_of_lt (by omega)]
    exact hlast
  · exact List.all_eq_true.mpr (fun c hc => (mem_keptTitle u (List.mem_of_mem_take hc)).1)

/-- a text that ends in a space is cut from a longer title -/
theorem EndsInSpace.title (h : EndsInSpace u v) : ∃ x, normalizeTencentShortTitle u x = v := by
  obtain ⟨hlen, hhead, hlast, hall⟩ := h
  have hplain : isOrdinary u '精' = true := by
    unfold isOrdinary
    rw [u.filler_alnum '精' (by decide)]
    rfl
  have hordinary : ∀ c ∈ v ++ ['精'], isOrdinary u c = true := by
    intro c hc
    rcases List.mem_append.mp hc with hc | hc
    · exact List.all_eq_true.mp hall c hc
    · rw [List.mem_singleton.mp hc]
      exact hplain
  have hne : v ≠ [] := by
    rintro rfl
    cases hlen
  have hstrip : Text.strip (v ++ ['精']) = v ++ ['精'] := by
    rw [Text.strip_eq_self_iff]
    intro hne'
    rw [List.head_append_of_ne_nil hne, List.getLast_append_of_ne_nil hne' (List.cons_ne_nil _ _)]
    refine ⟨?_, by decide⟩
    rw [Bool.eq_false_iff]
    intro hspace
    have hc := isOrdinary_space (List.all_eq_true.mp hall _ (List.head_mem hne)) hspace
    rw [List.head?_eq_some_head hne, hc] at hhead
    exact hhead rfl
  have hkept : keptTitle u (withCommas (v ++ ['精'])) = v ++ ['精'] := by
    rw [keptTitle_withCommas hordinary, hstrip]
  have hlength : (v ++ ['精']).length = 16 := by
    rw [List.length_append, hlen]
    rfl
  refine ⟨withCommas (v ++ ['精']), ?_⟩
  rcases normalizeTencentShortTitle_cases u (withCommas (v ++ ['精'])) with ⟨hnil, -⟩ | ⟨-, h6, -⟩ | ⟨-, e⟩
  · rw [hkept] at hnil
    exact absurd hnil (List.append_ne_nil_of_left_ne_nil hne _)
  · rw [hkept] at h6
    omega
  · rw [e, hkept, List.take_append_of_le_length (by omega), List.take_of_length_le (by omega)]

theorem EndsInSpace.refused (h : EndsInSpace u v) : isTencentShortTitleOutput u v ≠ true := by
  intro hrec
  obtain ⟨hlen, -, hlast, -⟩ := h
  have hne : v ≠ [] := by
    rintro rfl
    cases hlen
  have hends := (Text.strip_eq_self_iff.mp (strip_of_recognized hrec) hne).2
  rw [List.getLast?_eq_some_getLast hne, Option.some.injEq] at hlast
  rw [hlast] at hends
  exact absurd hends (by decide)

variable (u v)

/-- **A text is characterized iff it does not end in the space of a comma.** -/
theorem characterized_iff : Characterized u v ↔ ¬ EndsInSpace u v := by
  constructor
  · intro h hends
    exact hends.refused (h.1.mpr hends.title)
  · intro h
    have hrecognized : ∀ x, normalizeTencentShortTitle u x = v → isTencentShortTitleOutput u v = true := by
      rintro x rfl
      by_contra hrefused
      exact h (refused_endsInSpace hrefused)
    refine ⟨⟨exists_title, fun ⟨x, hx⟩ => hrecognized x hx⟩, fun x hx => ⟨?_, hrecognized x hx⟩⟩
    rw [← hx]
    exact normalizeTencentShortTitle_length u x

/-- the short title of a title with a comma behind fourteen characters -/
theorem characterized_comma : ¬ Characterized plainHost.unicode "aaaaaaaaaaaaaa ".toList := by
  intro h
  have hrecognized := h.1.mpr ⟨"aaaaaaaaaaaaaa,b".toList, by decide⟩
  exact absurd hrecognized (by decide)

end
end OpenFlame.Upload
