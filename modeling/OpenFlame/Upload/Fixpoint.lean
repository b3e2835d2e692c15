import OpenFlame.Upload.Keys

/-!
# Normalizing a stored target again

`keptTitle`, `cutAtComma`   the characters a short title keeps, and whether its limit cuts them at a comma
`CommaCut`                  the requests with a title of that kind, and no short title of their own

* `shortTitle_stable_iff`, `isTencentShortTitleOutput_normalized`   a short title is stripped, and
  recognized, iff it was not cut at a comma;
* `normalizeTarget_recheck_iff`   a normalized target normalizes to itself iff its short title is stripped;
* `recheck_reachable`             a created job, and every retry of it, normalizes to itself iff the
                                  request has no title that is cut at a comma.
-/

set_option linter.all false

namespace OpenFlame.Upload
open Guard Relation TransSys

section
variable (u : Unicode)

/-! ## short titles -/

/-- the characters of a title that its short title keeps, before the limit cuts them -/
def keptTitle (value : Text) : Text := Text.strip (value.filterMap (shortTitleChar u))

/-- the last character within the limit stands for a comma -/
def cutAtComma (value : Text) : Bool := (keptTitle u value)[14]? == some ' '

theorem keptTitle_ends {value : Text} (h : keptTitle u value ≠ []) : Text.isSpace ((keptTitle u value).head h) = false ∧
    Text.isSpace ((keptTitle u value).getLast h) = false := Text.strip_ends _ h

/-- what the short title makes of a character -/
theorem shortTitleChar_spec {c d : Char} (h : shortTitleChar u c = some d) :
    isOrdinary u d = true ∧ (d = c ∨ d = ' ') ∧ d ≠ '，' ∧ (Text.isSpace d = true → d = ' ') := by
  unfold shortTitleChar at h
  split at h
  · next hc =>
    cases h
    refine ⟨by simp only [isOrdinary, hc, Bool.true_or], .inl rfl, ?_, ?_⟩
    · rintro rfl
      rw [u.wide_comma_not_alnum, Bool.false_or] at hc
      exact absurd hc (by decide)
    · intro hs
      rcases (Bool.or_eq_true _ _).mp hc with ha | ha
      · rw [u.alnum_not_space c ha] at hs
        cases hs
      · have hall : SHORT_TITLE_ALLOWED.all (fun x => !Text.isSpace x) = true := by decide
        have hc := List.all_eq_true.mp hall c (List.contains_iff_mem.mp ha)
        rw [hs] at hc
        cases hc
  · split at h
    · cases h
      exact ⟨by simp [isOrdinary], .inr rfl, by decide, fun _ => rfl⟩
    · cases h

theorem shortTitleChar_space {c : Char} (h : Text.isSpace c = true) : shortTitleChar u c = none := by
  cases hc : shortTitleChar u c with
  | none => rfl
  | some d =>
    have hne : c ≠ ',' := by
      rintro rfl
      exact absurd h (by decide)
    unfold shortTitleChar at hc
    split at hc
    · next hk =>
      have hsp := (shortTitleChar_spec u (c := c) (d := c) (if_pos hk)).2.2.2 h
      subst hsp
      rcases (Bool.or_eq_true _ _).mp hk with ha | ha
      · rw [u.alnum_not_space ' ' ha] at h
        cases h
      · exact absurd ha (by decide)
    · rw [if_neg (by simpa using hne)] at hc
      cases hc

theorem mem_keptTitle {value : Text} {d : Char} (h : d ∈ keptTitle u value) :
    isOrdinary u d = true ∧ (d ∈ value ∨ d = ' ') ∧ d ≠ '，' ∧ (Text.isSpace d = true → d = ' ') := by
  obtain ⟨c, hc, hd⟩ := List.mem_filterMap.mp (Text.strip_subset _ h)
  obtain ⟨h1, h2, h3, h4⟩ := shortTitleChar_spec u hd
  exact ⟨h1, h2.imp (fun e => by rw [e]; exact hc) id, h3, h4⟩

/-- the ends of a title make no difference to its short title -/
theorem keptTitle_strip (value : Text) : keptTitle u (Text.strip value) = keptTitle u value := by
  have hdrop : ∀ l : Text, (l.dropWhile Text.isSpace).filterMap (shortTitleChar u) = l.filterMap (shortTitleChar u) := by
    intro l
    induction l with
    | nil => rfl
    | cons c l ih =>
      by_cases hc : Text.isSpace c = true
      · rw [List.dropWhile_cons_of_pos hc, ih, List.filterMap_cons_none (shortTitleChar_space u hc)]
      · rw [List.dropWhile_cons_of_neg hc]
  have hrdrop : ∀ l : Text, (Text.rstrip l).filterMap (shortTitleChar u) = l.filterMap (shortTitleChar u) := by
    intro l
    have e := congrArg List.reverse (hdrop l.reverse)
    rw [← List.filterMap_reverse, ← List.filterMap_reverse, List.reverse_reverse] at e
    exact e
  unfold keptTitle Text.strip
  rw [hrdrop, hdrop]

/-- the three forms of a short title -/
theorem normalizeTencentShortTitle_cases (value : Text) :
    (keptTitle u value = [] ∧ normalizeTencentShortTitle u value = SHORT_TITLE_DEFAULT) ∨
      (1 ≤ (keptTitle u value).length ∧ (keptTitle u value).length ≤ 6 ∧ normalizeTencentShortTitle u value =
        keptTitle u value ++ SHORT_TITLE_FILLER.take (7 - (keptTitle u value).length)) ∨
      7 ≤ (keptTitle u value).length ∧ normalizeTencentShortTitle u value = (keptTitle u value).take 15 := by
  have hdef : normalizeTencentShortTitle u value =
      if ((keptTitle u value).take 15).length < 7 then
        if ((keptTitle u value).take 15).isEmpty then SHORT_TITLE_DEFAULT
        else ((keptTitle u value).take 15 ++ SHORT_TITLE_FILLER).take 7
      else (keptTitle u value).take 15 := rfl
  rw [hdef]
  by_cases hlen : (keptTitle u value).length < 7
  · have htake : (keptTitle u value).take 15 = keptTitle u value := List.take_of_length_le (by omega)
    rw [htake, if_pos hlen]
    by_cases hnil : keptTitle u value = []
    · exact .inl ⟨hnil, by rw [hnil]; rfl⟩
    · have hpos := List.length_pos_iff.mpr hnil
      refine .inr (.inl ⟨hpos, by omega, ?_⟩)
      rw [if_neg (by simpa using hnil), List.take_append, List.take_of_length_le (by omega)]
  · have hlen' : ¬ ((keptTitle u value).take 15).length < 7 := by
      rw [List.length_take]
      omega
    exact .inr (.inr ⟨by omega, if_neg hlen'⟩)

theorem SHORT_TITLE_FILLER_not_space : ∀ c ∈ SHORT_TITLE_FILLER, Text.isSpace c = false := by
  have hall : SHORT_TITLE_FILLER.all (fun c => Text.isSpace c == false) = true := by decide
  exact fun c hc => beq_iff_eq.mp (List.all_eq_true.mp hall c hc)

theorem normalizeTencentShortTitle_length (value : Text) :
    7 ≤ (normalizeTencentShortTitle u value).length ∧ (normalizeTencentShortTitle u value).length ≤ 15 := by
  rcases normalizeTencentShortTitle_cases u value with ⟨-, e⟩ | ⟨h1, h6, e⟩ | ⟨h7, e⟩ <;> rw [e]
  · decide
  · have hf : SHORT_TITLE_FILLER.length = 7 := by decide
    rw [List.length_append, List.length_take, hf]
    omega
  · rw [List.length_take]
    omega

/-- what is kept ends in no comma, so it is cut at one only behind the limit -/
theorem cutAtComma_kept {value : Text} (h : (keptTitle u value).length ≤ 15) : cutAtComma u value = false := by
  unfold cutAtComma
  rw [beq_eq_false_iff_ne]
  intro h14
  obtain ⟨hlt, hget⟩ := List.getElem?_eq_some_iff.mp h14
  have hidx : (keptTitle u value).length - 1 = 14 := by omega
  have hlast := (keptTitle_ends u (List.length_pos_iff.mp (Nat.lt_of_le_of_lt (Nat.zero_le 14) hlt))).2
  rw [List.getLast_eq_getElem] at hlast
  simp only [hidx, hget] at hlast
  exact absurd hlast (by decide)

/-- **A short title is stripped iff it was not cut at a comma.** -/
theorem shortTitle_stable_iff (value : Text) :
    Text.strip (normalizeTencentShortTitle u value) = normalizeTencentShortTitle u value ↔
      cutAtComma u value = false := by
  rcases normalizeTencentShortTitle_cases u value with ⟨hk, e⟩ | ⟨h1, h6, e⟩ | ⟨h7, e⟩
  · refine iff_of_true ?_ (cutAtComma_kept u (by rw [hk]; exact Nat.zero_le 15))
    rw [e]
    decide
  · refine iff_of_true ?_ (cutAtComma_kept u (by omega))
    have hk : keptTitle u value ≠ [] := List.length_pos_iff.mp h1
    have hfill : SHORT_TITLE_FILLER.take (7 - (keptTitle u value).length) ≠ [] := by
      rw [Ne, List.take_eq_nil_iff]
      rintro (h | h)
      · omega
      · exact absurd h (by decide)
    rw [e, Text.strip_eq_self_iff]
    intro hne
    rw [List.head_append_of_ne_nil hk, List.getLast_append_of_ne_nil hne hfill]
    exact ⟨(keptTitle_ends u hk).1, SHORT_TITLE_FILLER_not_space _ (List.mem_of_mem_take (List.getLast_mem hfill))⟩
  · rw [e]
    by_cases hlen : (keptTitle u value).length ≤ 15
    · refine iff_of_true ?_ (cutAtComma_kept u hlen)
      rw [List.take_of_length_le hlen]
      exact Text.strip_strip _
    · have hk : keptTitle u value ≠ [] := List.length_pos_iff.mp (by omega)
      have h14 : 14 < (keptTitle u value).length := by omega
      have htake : (keptTitle u value).take 15 ≠ [] := by
        rw [Ne, List.take_eq_nil_iff]
        rintro (h | h)
        · omega
        · exact hk h
      have hend : ((keptTitle u value).take 15).getLast htake = (keptTitle u value)[14] := by
        rw [List.getLast_eq_getElem, List.getElem_take]
        have hidx : ((keptTitle u value).take 15).length - 1 = 14 := by
          rw [List.length_take]
          omega
        simp only [hidx]
      unfold cutAtComma
      rw [List.getElem?_eq_getElem h14, Text.strip_eq_self_iff]
      constructor
      · intro h
        have hs := (h htake).2
        rw [hend] at hs
        rw [beq_eq_false_iff_ne]
        intro hsp
        rw [Option.some.inj hsp] at hs
        exact absurd hs (by decide)
      · intro hne _
        refine ⟨by rw [List.head_take]; exact (keptTitle_ends u hk).1, ?_⟩
        rw [hend]
        by_contra hs
        rw [Bool.not_eq_false] at hs
        rw [(mem_keptTitle u (List.getElem_mem h14)).2.2.2 hs] at hne
        exact absurd hne (by decide)

/-- a title within the limit is not cut -/
theorem cutAtComma_short {value : Text} (h : value.length ≤ 15) : cutAtComma u value = false :=
  cutAtComma_kept u (Nat.le_trans (Text.strip_length_le _) (Nat.le_trans (List.length_filterMap_le _ _) h))

/-! ## recognizing a short title -/

theorem isTencentShortTitleOutput_plain {s : Text} (hlen : 7 ≤ s.length ∧ s.length ≤ 15) (hs : Text.strip s = s)
    (hchars : ∀ c ∈ s, isOrdinary u c = true ∧ c ≠ '，') : isTencentShortTitleOutput u s = true := by
  have hno : s.contains '，' = false := by
    rw [Bool.eq_false_iff]
    intro hc
    exact (hchars _ (List.contains_iff_mem.mp hc)).2 rfl
  unfold isTencentShortTitleOutput
  rw [if_pos ⟨hlen.1, hlen.2, hs.symm⟩, hno, if_neg Bool.false_ne_true]
  exact List.all_eq_true.mpr (fun c hc => (hchars c hc).1)

/-- the form with a filler -/
theorem isTencentShortTitleOutput_filled {k : Text} (h1 : 1 ≤ k.length) (h6 : k.length ≤ 6)
    (hstrip : Text.strip k = k) (hchars : ∀ c ∈ k, isOrdinary u c = true ∧ c ≠ '，')
    (hs : Text.strip (k ++ SHORT_TITLE_FILLER.take (7 - k.length)) = k ++ SHORT_TITLE_FILLER.take (7 - k.length)) :
    isTencentShortTitleOutput u (k ++ SHORT_TITLE_FILLER.take (7 - k.length)) = true := by
  have hf : SHORT_TITLE_FILLER.length = 7 := by decide
  have hfill : SHORT_TITLE_FILLER.take (7 - k.length) = '，' :: "精彩内容分享".toList.take (6 - k.length) := by
    have e : 7 - k.length = (6 - k.length) + 1 := by omega
    rw [e]
    rfl
  have hlen : (k ++ SHORT_TITLE_FILLER.take (7 - k.length)).length = 7 := by
    rw [List.length_append, List.length_take, hf]
    omega
  have hnot : '，' ∉ k := fun hm => (hchars _ hm).2 rfl
  have hrest : '，' ∉ "精彩内容分享".toList.take (6 - k.length) :=
    fun hm => absurd (List.mem_of_mem_take hm) (by decide)
  have hidx : (k ++ SHORT_TITLE_FILLER.take (7 - k.length)).idxOf '，' = k.length := by
    rw [List.idxOf_append_of_notMem hnot, hfill, List.idxOf_cons_self, Nat.add_zero]
  have hcount : (k ++ SHORT_TITLE_FILLER.take (7 - k.length)).count '，' = 1 := by
    rw [List.count_append, List.count_eq_zero_of_not_mem hnot, hfill, List.count_cons_self,
      List.count_eq_zero_of_not_mem hrest]
  have hmem : (k ++ SHORT_TITLE_FILLER.take (7 - k.length)).contains '，' = true :=
    List.contains_iff_mem.mpr (List.count_pos_iff.mp (by omega))
  unfold isTencentShortTitleOutput
  rw [if_pos ⟨by omega, by omega, hs.symm⟩, if_pos hmem]
  simp only [hidx, hcount, hlen, List.take_left', List.drop_left', hstrip, Bool.and_eq_true, beq_iff_eq,
    decide_eq_true_eq, true_and, and_true]
  exact ⟨⟨h1, h6⟩, List.all_eq_true.mpr (fun c hc => (hchars c hc).1)⟩

/-- **A short title that is stripped is recognized.** -/
theorem isTencentShortTitleOutput_normalized {value : Text}
    (h : Text.strip (normalizeTencentShortTitle u value) = normalizeTencentShortTitle u value) :
    isTencentShortTitleOutput u (normalizeTencentShortTitle u value) = true := by
  have hlen := normalizeTencentShortTitle_length u value
  have hkept : ∀ c ∈ keptTitle u value, isOrdinary u c = true ∧ c ≠ '，' := fun c hc =>
    ⟨(mem_keptTitle u hc).1, (mem_keptTitle u hc).2.2.1⟩
  rcases normalizeTencentShortTitle_cases u value with ⟨-, e⟩ | ⟨h1, h6, e⟩ | ⟨h7, e⟩
  · refine isTencentShortTitleOutput_plain u hlen h (fun c hc => ?_)
    rw [e] at hc
    have hall : SHORT_TITLE_DEFAULT.all (fun c => decide (c ∈ "精彩内容分享视频".toList ∧ c ≠ '，')) = true := by decide
    obtain ⟨hmem, hne⟩ := of_decide_eq_true (List.all_eq_true.mp hall c hc)
    exact ⟨by simp only [isOrdinary, u.filler_alnum c hmem, Bool.true_or], hne⟩
  · rw [e] at h ⊢
    exact isTencentShortTitleOutput_filled u h1 h6 (Text.strip_strip _) hkept h
  · refine isTencentShortTitleOutput_plain u hlen h (fun c hc => ?_)
    rw [e] at hc
    exact hkept c (List.mem_of_mem_take hc)

/-- a short title has no character that no text may hold -/
theorem normalizeTencentShortTitle_control {value : Text} (h : ∀ c ∈ value, isControl c = false) :
    ∀ c ∈ normalizeTencentShortTitle u value, isControl c = false := by
  have hkept : ∀ c ∈ keptTitle u value, isControl c = false := by
    intro c hc
    rcases (mem_keptTitle u hc).2.1 with hv | rfl
    · exact h c hv
    · decide
  intro c hc
  rcases normalizeTencentShortTitle_cases u value with ⟨-, e⟩ | ⟨-, -, e⟩ | ⟨-, e⟩ <;> rw [e] at hc
  · have hall : SHORT_TITLE_DEFAULT.all (fun c => isControl c == false) = true := by decide
    exact beq_iff_eq.mp (List.all_eq_true.mp hall c hc)
  · have hall : SHORT_TITLE_FILLER.all (fun c => isControl c == false) = true := by decide
    rcases List.mem_append.mp hc with hc | hc
    · exact hkept c hc
    · exact beq_iff_eq.mp (List.all_eq_true.mp hall c (List.mem_of_mem_take hc))
  · exact hkept c (List.mem_of_mem_take hc)

end

/-! ## fields that normalize to themselves -/

section
variable {u : Unicode} {platform : Platform} {maximum : Nat} {required : Bool}

theorem normalizeText_eq_ok {s t : Text} : normalizeText s maximum required = .ok t ↔
    s.length ≤ maximum ∧ (∀ c ∈ s, isControl c = false) ∧ (required = true → Text.isBlank s = false) ∧
      Text.strip s = t := by
  simp only [normalizeText, bind_eq_ok, require_eq_ok, pure_eq_ok, List.all_eq_true, Bool.not_eq_true']
  constructor
  · rintro ⟨-, ⟨h1, h2⟩, -, h3, h4⟩
    exact ⟨h1, h2, h3, h4⟩
  · rintro ⟨h1, h2, h3, h4⟩
    exact ⟨⟨⟩, ⟨h1, h2⟩, ⟨⟩, h3, h4⟩

theorem normalizeUploadText_eq_ok {raw : Raw} {t : Text} (h : normalizeUploadText raw maximum required = .ok t) :
    ∃ s, raw = .str s ∧ normalizeText s maximum required = .ok t := by
  cases raw with
  | str s => exact ⟨s, rfl, h⟩
  | _ => cases h

/-- a normalized text, again -/
theorem normalizeUploadText_again {raw : Raw} {t : Text} (h : normalizeUploadText raw maximum required = .ok t) :
    normalizeUploadText (.str t) maximum required = .ok t := by
  obtain ⟨s, -, hs⟩ := normalizeUploadText_eq_ok h
  obtain ⟨hlen, hcontrol, hblank, rfl⟩ := normalizeText_eq_ok.mp hs
  exact normalizeText_eq_ok.mpr ⟨Nat.le_trans (Text.strip_length_le s) hlen,
    fun c hc => hcontrol c (Text.strip_subset s hc), fun hr => Text.isBlank_strip (hblank hr), Text.strip_strip s⟩

theorem normalizeUploadTags_again {raw : Raw} {tags : List Text} (h : normalizeUploadTags raw = .ok tags) :
    normalizeUploadTags (.list (tags.map Raw.str)) = .ok tags := by
  cases raw with
  | list xs =>
    simp only [normalizeUploadTags, bind_eq_ok, require_eq_ok, pure_eq_ok] at h ⊢
    obtain ⟨-, hlen, ts, hts, -, hvalid, rfl⟩ := h
    have hcount := (each_forall₂ hts).length_eq
    refine ⟨⟨⟩, by rw [List.length_map]; omega, ts, ?_, ⟨⟩, hvalid, rfl⟩
    refine each_eq_ok_of_forall₂ (List.forall₂_map_left_iff.mpr (List.forall₂_same.mpr (fun t ht => ?_)))
    obtain ⟨x, -, hx⟩ := each_mem hts t ht
    exact normalizeUploadText_again hx
  | _ => cases h

theorem parseMode_again (mode : Mode) : parseMode mode.raw = .ok mode := by
  cases mode <;> decide

theorem parseCover_again (id : Option Ident) : parseCover (.ofIdent id) = .ok id := by
  cases id <;> rfl

theorem parseCategory_again {raw : Raw} {n : Int} (h : parseCategory raw = .ok (some n)) :
    parseCategory (.int n) = .ok (some n) := by
  cases raw with
  | int m =>
    have hm := h
    simp only [parseCategory, bind_eq_ok, pure_eq_ok] at h
    obtain ⟨-, -, e⟩ := h
    cases e
    exact hm
  | _ => cases h

theorem parseCopyright_again {raw : Raw} {n : Int} (h : parseCopyright raw = .ok (some n)) :
    parseCopyright (.int n) = .ok (some n) := by
  cases raw with
  | int m =>
    have hm := h
    simp only [parseCopyright, bind_eq_ok, pure_eq_ok] at h
    obtain ⟨-, -, e⟩ := h
    cases e
    exact hm
  | _ => cases h

/-- category, copyright and credit, again -/
theorem platformRights_again {tags : List Text} {rawCategory rawCopyright rawCredit : Raw}
    {category copy : Option Int} {credit : Text} {rights : Option Int × Int × Text}
    (hcategory : parseCategory rawCategory = .ok category) (hcopy : parseCopyright rawCopyright = .ok copy)
    (hcredit : normalizeUploadText rawCredit 200 false = .ok credit)
    (h : platformRights platform tags category copy credit = .ok rights) :
    ∃ credit' category' copy', normalizeUploadText (.str rights.2.2) 200 false = .ok credit' ∧
      parseCategory (.ofInt rights.1) = .ok category' ∧ parseCopyright (.int rights.2.1) = .ok copy' ∧
      platformRights platform tags category' copy' credit' = .ok rights := by
  cases platform with
  | bilibili =>
    have hrights := h
    simp only [platformRights, bind_eq_ok, require_eq_ok, fetch_eq_ok, pure_eq_ok] at h
    obtain ⟨-, hsome, c, rfl, -, -, -, -, -, -, rfl⟩ := h
    refine ⟨credit, category, some c, normalizeUploadText_again hcredit, ?_, parseCopyright_again hcopy, hrights⟩
    cases category with
    | none => rfl
    | some n => exact parseCategory_again hcategory
  | douyin =>
    cases h
    exact ⟨[], none, some 1, rfl, rfl, rfl, rfl⟩
  | tencent =>
    cases h
    exact ⟨[], none, some 1, rfl, rfl, rfl, rfl⟩

/-- a schedule, again, with the clock at zero -/
theorem validatePublishSchedule_again {rawAt rawOffset : Raw} {now : Int} {horizon : Bool} {s : Option Int × Option Int}
    (h : validatePublishSchedule platform rawAt rawOffset now horizon = .ok s) :
    validatePublishSchedule platform (.ofInt s.1) (.ofInt s.2) 0 false = .ok s := by
  have h := validatePublishSchedule_relax h
  have hspec := h
  unfold validatePublishSchedule at h
  split at h
  · cases h
    rfl
  · cases h
  · simp only [bind_eq_ok, pure_eq_ok] at h
    obtain ⟨-, -, rfl⟩ := h
    exact hspec
  · cases h

/-! ## options that normalize to themselves -/

/-- the short title of the options, if there is one, is its own strip -/
def Options.isStripped : Options → Prop
  | .tencent (some s) _ => Text.strip s = s
  | _ => True

theorem normalizeChoice_again {raw : Raw} {o : Option Text} (h : normalizeChoice raw maximum = .ok o) :
    normalizeChoice (.ofText o) maximum = .ok o := by
  cases o with
  | none => rfl
  | some s =>
    have hs : normalizeUploadText raw maximum true = .ok s := by
      unfold normalizeChoice at h
      split at h
      · cases h
      · simp only [bind_eq_ok, pure_eq_ok] at h
        obtain ⟨s', hs', e⟩ := h
        cases e
        exact hs'
    show (normalizeUploadText (.str s) maximum true >>= fun t => pure (some t)) = _
    rw [normalizeUploadText_again hs]
    rfl

theorem normalizeChoice_text {raw : Raw} {s : Text} (h : normalizeChoice raw maximum = .ok (some s)) :
    s.length ≤ maximum ∧ ∀ c ∈ s, isControl c = false := by
  have hs := normalizeChoice_again h
  have hs : normalizeUploadText (.str s) maximum true = .ok s := by
    simp only [Raw.ofText, normalizeChoice, bind_eq_ok, pure_eq_ok] at hs
    obtain ⟨s', hs', e⟩ := hs
    cases e
    exact hs'
  obtain ⟨hlen, hcontrol, -, -⟩ := normalizeText_eq_ok.mp hs
  exact ⟨hlen, hcontrol⟩

theorem jsonTextSize_le (s : Text) : jsonTextSize s ≤ 2 + 6 * s.length := by
  have hchar : ∀ c, jsonCharSize c ≤ 6 := by
    intro c
    have := Char.utf8Size_le_four c
    unfold jsonCharSize
    split_ifs <;> omega
  unfold jsonTextSize
  have hsum : (s.map jsonCharSize).sum ≤ 6 * s.length := by
    induction s with
    | nil => exact Nat.le_refl _
    | cons c s ih =>
      have := hchar c
      rw [List.map_cons, List.sum_cons, List.length_cons]
      omega
  omega

/-- the options of a short title are small -/
theorem jsonSize_tencent {s : Text} {label : Option Text} (hs : s.length ≤ 15)
    (hlabel : ∀ l ∈ label, l ∈ TENCENT_CONTENT_LABELS) : jsonSize (.tencent (some s) label) ≤ 4096 := by
  have h1 := jsonTextSize_le s
  have h2 : jsonOptionSize label ≤ 100 := by
    cases label with
    | none => decide
    | some l =>
      have hall : ∀ l ∈ TENCENT_CONTENT_LABELS, jsonTextSize l ≤ 100 := by decide
      exact hall l (hlabel l rfl)
  show 2 + 14 + jsonTextSize s + 1 + 16 + jsonOptionSize label ≤ 4096
  omega

/-- a mapping of the platform's keys, from what its items normalize to -/
theorem normalizePlatformOptions_dict {items : List (OptionKey × Raw)} {options : Options}
    (hkeys : ∀ item ∈ items, item.1 ∈ PLATFORM_OPTION_KEYS platform) :
    normalizePlatformOptions platform (.dict items) = .ok options ↔
      normalizeOptionItems platform items = .ok options ∧ jsonSize options ≤ 4096 := by
  simp only [normalizePlatformOptions, bind_eq_ok, require_eq_ok, pure_eq_ok]
  constructor
  · rintro ⟨_, rfl, -, -, o, ho, -, hsize, rfl⟩
    exact ⟨ho, hsize⟩
  · rintro ⟨ho, hsize⟩
    exact ⟨items, rfl, ⟨⟩, hkeys, options, ho, ⟨⟩, hsize, rfl⟩

theorem bilibiliItems {items : List (OptionKey × Raw)} {options : Options}
    (h : normalizeOptionItems .bilibili items = .ok options) : ∃ dynamic b1 b2 b3,
      normalizeUploadText (.str dynamic) 250 false = .ok dynamic ∧ options = .bilibili dynamic b1 b2 b3 := by
  cases hkey : getKey items .dynamic (.str []) <;>
    simp only [normalizeOptionItems, hkey, bind_eq_ok, pure_eq_ok] at h <;>
    obtain ⟨dynamic, hdynamic, b1, -, b2, -, b3, -, rfl⟩ := h
  case none =>
    cases hdynamic
    exact ⟨[], b1, b2, b3, rfl, rfl⟩
  all_goals exact ⟨dynamic, b1, b2, b3, normalizeUploadText_again hdynamic, rfl⟩

/-- **Normalized options normalize to themselves iff their short title is stripped.** -/
theorem platformOptions_again {raw : Raw} {title : Text} {options : Options}
    (h : normalizePlatformOptions platform raw = .ok options) (htitle : ∀ c ∈ title, isControl c = false) :
    (∃ options', normalizePlatformOptions platform (settleShortTitle u false title options).raw = .ok options' ∧
      settleShortTitle u false title options = settleShortTitle u true title options') ↔
      (settleShortTitle u false title options).isStripped := by
  have hitems : ∃ items, normalizeOptionItems platform items = .ok options ∧ jsonSize options ≤ 4096 := by
    unfold normalizePlatformOptions at h
    cases raw <;> simp only [bind_eq_ok, require_eq_ok, pure_eq_ok] at h
    case none =>
      obtain ⟨_, -, _, -, o, ho, _, hsize, rfl⟩ := h
      exact ⟨_, ho, hsize⟩
    case dict =>
      obtain ⟨_, -, _, -, o, ho, _, hsize, rfl⟩ := h
      exact ⟨_, ho, hsize⟩
    all_goals
      obtain ⟨_, h, -⟩ := h
      cases h
  obtain ⟨items, hitems, hsize⟩ := hitems
  cases platform with
  | bilibili =>
    obtain ⟨dynamic, b1, b2, b3, hdynamic, rfl⟩ := bilibiliItems hitems
    refine iff_of_true ⟨.bilibili dynamic b1 b2 b3, (normalizePlatformOptions_dict ?_).mpr ⟨?_, hsize⟩, rfl⟩ trivial
    · simp [PLATFORM_OPTION_KEYS]
    · have hkey : ∀ rest, getKey ((.dynamic, .str dynamic) :: rest) .dynamic (.str []) = .str dynamic := fun _ => rfl
      simp only [normalizeOptionItems, hkey, bind_eq_ok, pure_eq_ok]
      exact ⟨dynamic, hdynamic, b1, rfl, b2, rfl, b3, rfl, rfl⟩
  | douyin =>
    simp only [normalizeOptionItems, bind_eq_ok, require_eq_ok, pure_eq_ok] at hitems
    obtain ⟨declaration, hdeclaration, -, hknown, rfl⟩ := hitems
    refine iff_of_true ⟨.douyin declaration, (normalizePlatformOptions_dict ?_).mpr ⟨?_, hsize⟩, rfl⟩ trivial
    · simp [PLATFORM_OPTION_KEYS]
    · simp only [normalizeOptionItems, bind_eq_ok, require_eq_ok, pure_eq_ok]
      exact ⟨declaration, normalizeChoice_again hdeclaration, ⟨⟩, hknown, rfl⟩
  | tencent =>
    simp only [normalizeOptionItems, bind_eq_ok, require_eq_ok, pure_eq_ok] at hitems
    obtain ⟨short, hshort, -, -, label, hlabel, -, hknown, rfl⟩ := hitems
    -- the value the short title is made of
    obtain ⟨value, hvalue, hsettle⟩ : ∃ value : Text, (∀ c ∈ value, isControl c = false) ∧
        settleShortTitle u false title (.tencent short label) =
          .tencent (some (normalizeTencentShortTitle u value)) label := by
      cases short with
      | none => exact ⟨title, htitle, rfl⟩
      | some s => exact ⟨s, (normalizeChoice_text hshort).2, rfl⟩
    obtain ⟨h7, h15⟩ := normalizeTencentShortTitle_length u value
    rw [hsettle]
    have hkeys : ∀ item ∈ [(OptionKey.shortTitle, Raw.ofText (some (normalizeTencentShortTitle u value))),
        (OptionKey.contentLabel, Raw.ofText label)], item.1 ∈ PLATFORM_OPTION_KEYS .tencent := by
      simp [PLATFORM_OPTION_KEYS]
    constructor
    · rintro ⟨options', ho, he⟩
      obtain ⟨ho, -⟩ := (normalizePlatformOptions_dict hkeys).mp ho
      simp only [normalizeOptionItems, bind_eq_ok, require_eq_ok, pure_eq_ok] at ho
      obtain ⟨short', hshort', -, -, label', -, -, -, rfl⟩ := ho
      cases short' with
      | none =>
        obtain ⟨_, -, e⟩ := bind_eq_ok.mp hshort'
        cases e
      | some s =>
        obtain ⟨t, ht, e⟩ := bind_eq_ok.mp hshort'
        cases e
        obtain ⟨-, -, -, hs⟩ := normalizeText_eq_ok.mp ht
        have hlen : s.length ≤ 15 := by
          rw [← hs]
          exact Nat.le_trans (Text.strip_length_le _) h15
        show Text.strip _ = _
        simp only [settleShortTitle] at he
        split at he
        · cases he
          exact hs
        · have e := Option.some.inj (Options.tencent.inj he).1
          rw [e]
          exact (shortTitle_stable_iff u s).mpr (cutAtComma_short u hlen)
    · intro hstrip
      have hstrip : Text.strip (normalizeTencentShortTitle u value) = normalizeTencentShortTitle u value := hstrip
      have hnotBlank : Text.isBlank (normalizeTencentShortTitle u value) = false := by
        have hne : normalizeTencentShortTitle u value ≠ [] := List.length_pos_iff.mp (by omega)
        exact List.all_eq_false.mpr ⟨_, List.head_mem hne, by
          rw [(Text.strip_eq_self_iff.mp hstrip hne).1]
          exact Bool.false_ne_true⟩
      have htext : normalizeUploadText (.str (normalizeTencentShortTitle u value)) 15 true =
          .ok (normalizeTencentShortTitle u value) :=
        normalizeText_eq_ok.mpr ⟨h15, normalizeTencentShortTitle_control u hvalue, fun _ => hnotBlank, hstrip⟩
      refine ⟨.tencent (some (normalizeTencentShortTitle u value)) label, (normalizePlatformOptions_dict hkeys).mpr
        ⟨?_, jsonSize_tencent h15 hknown⟩, ?_⟩
      · simp only [normalizeOptionItems, bind_eq_ok, require_eq_ok, pure_eq_ok]
        exact ⟨some _, bind_eq_ok.mpr ⟨_, htext, rfl⟩, ⟨⟩, fun s hs => by cases hs; exact h7, label,
          normalizeChoice_again hlabel, ⟨⟩, hknown, rfl⟩
      · simp only [settleShortTitle, isTencentShortTitleOutput_normalized u hstrip, Bool.and_self, if_true]

/-! ## targets that normalize to themselves -/

/-- **A normalized target normalizes to itself iff its short title is stripped.** -/
theorem normalizeTarget_recheck_iff {env env' : Env} {db db' : DB} {account account' : Account} {base : RawTarget}
    {o : TargetOverride} {checks : Checks} {t : Target} (haccept : checks.accept_normalized_short_title = false)
    (h : normalizeTarget u env db account base o checks = .ok t) (hid : account'.id = account.id)
    (hpl : account'.platform = account.platform) :
    normalizeTarget u env' db' account' t.raw {} recheck = .ok t ↔ t.platform_options.isStripped := by
  have hn := normalizeTarget_eq_ok.mp h
  obtain ⟨options, hoptions, hsettle⟩ := hn.options
  rw [haccept] at hsettle
  have htitle : ∀ c ∈ t.title, isControl c = false :=
    (normalizeText_eq_ok.mp (normalizeUploadText_again hn.title)).2.1
  have hagain := platformOptions_again (u := u) hoptions htitle
  rw [← hsettle] at hagain
  rw [normalizeTarget_eq_ok, ← hagain]
  constructor
  · intro h'
    have := h'.options
    rw [hpl] at this
    exact this
  · intro hopts
    constructor
    case account_id => rw [hn.account_id, hid]
    case platform => rw [hn.platform, hpl]
    case rightsField => exact .inr rfl
    case title => exact normalizeUploadText_again hn.title
    case limit => rw [hpl]; exact hn.limit
    case description => exact normalizeUploadText_again hn.description
    case tags => exact normalizeUploadTags_again hn.tags
    case mode => exact parseMode_again t.mode
    case draftMode => rw [hpl]; exact hn.draftMode
    case rights =>
      obtain ⟨credit, category, copy, hcredit, hcategory, hcopy, hrights⟩ := hn.rights
      rw [hpl]
      exact platformRights_again hcategory hcopy hcredit hrights
    case landscape => exact parseCover_again _
    case portrait => exact parseCover_again _
    case covers =>
      rw [hpl]
      exact checkCovers_relax hn.covers
    case schedule =>
      rw [hpl]
      exact validatePublishSchedule_again hn.schedule
    case draftSchedule => exact hn.draftSchedule
    case options => rw [hpl]; exact hopts

/-! ## the requests that do not normalize to themselves -/

/-- `platform_options.get("short_title") is None` -/
def Raw.lacksShortTitle : Raw → Bool
  | .dict items =>
    match getKey items .shortTitle .none with
    | .none => true
    | _ => false
  | _ => true

/-- the override of one account, as the request has it -/
def UploadIntent.overrideOf (intent : UploadIntent) (account_id : Ident) : TargetOverride :=
  (intent.target_overrides.find? (fun o => o.account_id == some (.ident account_id))).getD {}

/-- the title of the account, as the request has it, is cut at a comma, and it is the short title, too -/
def UploadIntent.CutFor (u : Unicode) (intent : UploadIntent) (account : Account) : Prop :=
  account.platform = .tencent ∧
    ((intent.overrideOf account.id).platform_options.getD (.dict [])).lacksShortTitle = true ∧
    ∃ s, (intent.overrideOf account.id).title.getD intent.title = .str s ∧ cutAtComma u s = true

/-- some account of the request has such a title -/
def CommaCut (u : Unicode) (db : DB) (intent : UploadIntent) : Prop :=
  ∃ a ∈ db.accounts, a.id ∈ intent.account_ids ∧ intent.CutFor u a

theorem platformOptions_isStripped {raw : Raw} {title : Text} {options : Options}
    (h : normalizePlatformOptions platform raw = .ok options) :
    (settleShortTitle u false title options).isStripped ↔
      ¬ (platform = .tencent ∧ raw.lacksShortTitle = true ∧ cutAtComma u title = true) := by
  obtain ⟨items, hitems, hlacks⟩ : ∃ items, normalizeOptionItems platform items = .ok options ∧
      raw.lacksShortTitle = (Raw.dict items).lacksShortTitle := by
    unfold normalizePlatformOptions at h
    cases raw <;> simp only [bind_eq_ok, require_eq_ok, pure_eq_ok] at h
    case none =>
      obtain ⟨_, rfl, _, -, o, ho, _, -, rfl⟩ := h
      exact ⟨[], ho, rfl⟩
    case dict items =>
      obtain ⟨_, rfl, _, -, o, ho, _, -, rfl⟩ := h
      exact ⟨items, ho, rfl⟩
    all_goals
      obtain ⟨_, h, -⟩ := h
      cases h
  rw [hlacks]
  cases platform with
  | bilibili =>
    obtain ⟨dynamic, b1, b2, b3, -, rfl⟩ := bilibiliItems hitems
    exact iff_of_true trivial (fun h => absurd h.1 (by decide))
  | douyin =>
    simp only [normalizeOptionItems, bind_eq_ok, require_eq_ok, pure_eq_ok] at hitems
    obtain ⟨declaration, -, -, -, rfl⟩ := hitems
    exact iff_of_true trivial (fun h => absurd h.1 (by decide))
  | tencent =>
    simp only [normalizeOptionItems, bind_eq_ok, require_eq_ok, pure_eq_ok] at hitems
    obtain ⟨short, hshort, -, -, label, -, -, -, rfl⟩ := hitems
    cases short with
    | none =>
      have hkey : (Raw.dict items).lacksShortTitle = true := by
        unfold normalizeChoice at hshort
        cases hg : getKey items .shortTitle .none <;> rw [hg] at hshort
        case none => simp only [Raw.lacksShortTitle, hg]
        all_goals
          obtain ⟨_, -, e⟩ := bind_eq_ok.mp hshort
          cases e
      rw [hkey]
      show Text.strip _ = _ ↔ _
      rw [shortTitle_stable_iff, ← Bool.not_eq_true]
      exact not_congr ⟨fun h => ⟨rfl, rfl, h⟩, fun h => h.2.2⟩
    | some s =>
      have hkey : (Raw.dict items).lacksShortTitle = false := by
        unfold normalizeChoice at hshort
        cases hg : getKey items .shortTitle .none <;> rw [hg] at hshort
        case none => cases hshort
        all_goals simp only [Raw.lacksShortTitle, hg]
      rw [hkey]
      refine iff_of_true ?_ (fun h => absurd h.2.1 Bool.false_ne_true)
      exact (shortTitle_stable_iff u s).mpr (cutAtComma_short u (normalizeChoice_text hshort).1)

/-- the override that a creation finds is the one the request has -/
theorem overrideMap_find {ids : List Ident} {c : Code} {id : Ident} : ∀ {os : List TargetOverride}
    {seen r : List (Ident × TargetOverride)}, overrideMap ids c seen os = .ok r →
    (r.find? (fun e => e.1 == id)).map Prod.snd = ((seen.find? (fun e => e.1 == id)).map Prod.snd).or
      (os.find? (fun o => o.account_id == some (.ident id))) := by
  intro os
  induction os with
  | nil =>
    intro seen r h
    cases h
    simp
  | cons o os ih =>
    intro seen r h
    simp only [overrideMap, bind_eq_ok, require_eq_ok] at h
    obtain ⟨-, -, account_id, hid, -, -, h⟩ := h
    have hacc : o.account_id = some (.ident account_id) := by
      cases ho : o.account_id with
      | none =>
        rw [ho] at hid
        cases hid
      | some x =>
        rw [ho] at hid
        cases x with
        | ident y =>
          cases hid
          rfl
        | _ => cases hid
    rw [ih h, List.find?_append]
    by_cases e : account_id = id
    · subst e
      have hpos : (o :: os).find? (fun o => o.account_id == some (.ident account_id)) = some o :=
        List.find?_cons_of_pos (by rw [hacc]; exact beq_self_eq_true _)
      have hone : [(account_id, o)].find? (fun e => e.1 == account_id) = some (account_id, o) :=
        List.find?_cons_of_pos (beq_self_eq_true _)
      rw [hpos, hone]
      cases seen.find? (fun e => e.1 == account_id) <;> rfl
    · have hneg : (o :: os).find? (fun o => o.account_id == some (.ident id)) =
          os.find? (fun o => o.account_id == some (.ident id)) :=
        List.find?_cons_of_neg (by rw [hacc]; simpa using e)
      have hone : [(account_id, o)].find? (fun e => e.1 == id) = none :=
        List.find?_cons_of_neg (by simpa using e)
      rw [hneg, hone, Option.or_none]

theorem overrideFor_eq {intent : UploadIntent} {ids : List Ident} {c : Code} {overrides : List (Ident × TargetOverride)}
    (h : overrideMap ids c [] intent.target_overrides = .ok overrides) (id : Ident) :
    overrideFor overrides id = intent.overrideOf id := by
  unfold overrideFor UploadIntent.overrideOf
  rw [overrideMap_find h]
  rfl

/-! ## created jobs -/

/-- a created target has a stripped short title iff its title is not cut -/
theorem createTarget_isStripped {host : Host} {env : Env} {db : DB} {intent : UploadIntent} {account : Account}
    {key : String} {bindings : Option (List AccountBinding)} {title description credit : Text} {tags : List Text}
    {overrides : List (Ident × TargetOverride)} {accounts : List Account} {t : Target}
    (hp : CreateParts db intent key bindings title description credit overrides accounts)
    (h : createTarget host env db (intent.base title description tags credit) overrides account = .ok t) :
    t.platform_options.isStripped ↔ ¬ intent.CutFor host.unicode account := by
  obtain ⟨-, -, hn, -⟩ := createTarget_spec h
  have hn := normalizeTarget_eq_ok.mp hn
  obtain ⟨options, hoptions, hsettle⟩ := hn.options
  have hover := overrideFor_eq hp.overridesOk account.id
  rw [hsettle]
  show (settleShortTitle host.unicode false t.title options).isStripped ↔ _
  rw [platformOptions_isStripped hoptions]
  have hcut : cutAtComma host.unicode t.title = true ↔
      ∃ s, (intent.overrideOf account.id).title.getD intent.title = .str s ∧ cutAtComma host.unicode s = true := by
    have htitle := hn.title
    rw [hover] at htitle
    obtain ⟨s, hs, hnorm⟩ := normalizeUploadText_eq_ok htitle
    obtain ⟨-, -, -, he⟩ := normalizeText_eq_ok.mp hnorm
    have hsame : cutAtComma host.unicode t.title = cutAtComma host.unicode s := by
      rw [← he]
      unfold cutAtComma
      rw [keptTitle_strip]
    rw [hsame]
    cases ho : (intent.overrideOf account.id).title with
    | some raw =>
      simp only [RawTarget.merge, ho, Option.getD_some] at hs
      rw [hs, Option.getD_some]
      exact ⟨fun h => ⟨s, rfl, h⟩, fun ⟨s', e, h⟩ => by cases e; exact h⟩
    | none =>
      simp only [RawTarget.merge, ho, Option.getD_none, UploadIntent.base] at hs
      cases hs
      obtain ⟨s', hs', hnorm'⟩ := normalizeUploadText_eq_ok hp.titleOk
      obtain ⟨-, -, -, he'⟩ := normalizeText_eq_ok.mp hnorm'
      have hsame' : cutAtComma host.unicode title = cutAtComma host.unicode s' := by
        rw [← he']
        unfold cutAtComma
        rw [keptTitle_strip]
      rw [Option.getD_none, hs', hsame']
      exact ⟨fun h => ⟨s', rfl, h⟩, fun ⟨_, e, h⟩ => by cases e; exact h⟩
  have hraw : ((intent.base title description tags credit).merge (overrideFor overrides account.id)).platform_options =
      (intent.overrideOf account.id).platform_options.getD (.dict []) := by
    rw [hover]
    rfl
  unfold UploadIntent.CutFor
  rw [hcut, hraw]

/-- normalizing the stored target of a job again, as it is done before it is queued, dispatched and retried -/
def DB.Rechecks (host : Host) (db : DB) (j : Job) : Prop := ∀ env, ∃ account ∈ db.accounts,
  account.id = j.account_id ∧ normalizeTarget host.unicode env db account j.target.raw {} recheck = .ok j.target

/-- **The jobs of a request, and every retry of them, normalize to themselves iff no title is cut at a comma.** -/
theorem recheck_reachable {host : Host} {env : Env} {intent : UploadIntent} {key : String}
    {bindings : Option (List AccountBinding)} {new_id : Nat → Ident} {w w₁ w₂ : World} {ls : List Label}
    (h : w.Reachable host) (hnew : w.db.requests.get key = none)
    (hs : w.Step host (.createJobs env intent key bindings new_id) w₁) (hr : Run (World.Step host) w₁ ls w₂) :
    ∃ jobs, createJobs host env w.db intent key bindings new_id = .ok (w₁.db, jobs) ∧
      ((∀ root ∈ jobs, ∀ j, ReflTransGen w₂.db.Parent (w₂.db.current root) j → w₂.db.Rechecks host j) ↔
        ¬ CommaCut host.unicode w.db intent) := by
  have hw := ok_reachable h
  have hw₁ := hw.step hs
  obtain ⟨-, happly⟩ := hs
  simp only [World.apply, bind_eq_ok, pure_eq_ok] at happly
  obtain ⟨⟨db₁, jobs⟩, hc, rfl⟩ := happly
  refine ⟨jobs, hc, ?_⟩
  have hchain := run_chain hw₁ hr
  have hok₂ := Chain.ok hchain hw₁.db
  have hall : w.db.Extends w₂.db := (createJobs_clients hc).chain.extends.trans hchain.extends
  obtain ⟨title, description, credit, overrides, accounts, hp, ⟨q, hq, -⟩ | ⟨-, tags, targets, q, -, hcr⟩⟩ :=
    createJobs_spec hc
  · rw [hnew] at hq
    cases hq
  obtain ⟨hmem, hnd, hlen⟩ := hp.mem
  obtain ⟨htarget, -, -⟩ := hcr.jobs_eq hmem
  have hhas := (each_getJob_ids hcr.got).2
  have hmade := each_forall₂ hcr.made
  -- a job below a root has the target of the root, and so has its account
  have hroot : ∀ root ∈ jobs, ∀ a ∈ accounts, createTarget host env w.db
      (intent.base title description tags credit) overrides a = .ok root.target → ∀ j,
      ReflTransGen w₂.db.Parent (w₂.db.current root) j → (w₂.db.Rechecks host j ↔ ¬ intent.CutFor host.unicode a) := by
    intro root hroot a ha hmk j hj
    have hpay : j.payload = root.payload := by
      rw [← path_payload hok₂.ledger hj, Job.lasting_payload (hchain.extends.current (hhas root hroot)).2]
    have ht : j.target = root.target := (Prod.mk.inj hpay).2
    obtain ⟨hid, hpl, hn, -⟩ := createTarget_spec hmk
    obtain ⟨a', ha', e1, e2⟩ := hall.account (hmem a ha)
    have hacc : j.account_id = a.id := by rw [Job.account_id, ht, hid]
    rw [← createTarget_isStripped hp hmk]
    constructor
    · intro hre
      obtain ⟨b, hb, hbid, hbn⟩ := hre env
      have e : b = a' := Table.eq_of_key hb ha' (by rw [hbid, hacc, e1])
      rw [e, ht] at hbn
      exact (normalizeTarget_recheck_iff rfl hn e1 e2).mp hbn
    · intro hstrip env'
      refine ⟨a', ha', by rw [e1, hacc], ?_⟩
      rw [ht]
      exact (normalizeTarget_recheck_iff rfl hn e1 e2).mpr hstrip
  have hbelow : ∀ root ∈ jobs, ∃ a ∈ accounts, createTarget host env w.db
      (intent.base title description tags credit) overrides a = .ok root.target := fun root hr =>
    exists_of_forall₂ hmade (htarget ▸ List.mem_map_of_mem hr)
  constructor
  · rintro hre ⟨a, ha, hid, hcut⟩
    have ham : a ∈ accounts := by
      rw [← (each_account hp.accountsOk).1] at hid
      obtain ⟨b, hb, e⟩ := List.mem_map.mp hid
      rw [← Table.eq_of_key (hmem b hb) ha e]
      exact hb
    obtain ⟨t, ht, hmk⟩ := exists_of_forall₂ hmade.flip ham
    rw [← htarget] at ht
    obtain ⟨root, hr, rfl⟩ := List.mem_map.mp ht
    exact (hroot root hr a ham hmk _ .refl).mp (hre root hr _ .refl) hcut
  · intro hnot root hr j hj
    obtain ⟨a, ha, hmk⟩ := hbelow root hr
    refine (hroot root hr a ha hmk j hj).mpr (fun hcut => hnot ⟨a, hmem a ha, ?_, hcut⟩)
    rw [← (each_account hp.accountsOk).1]
    exact List.mem_map_of_mem ha

/-- a request without such a title, with its job retried -/
theorem recheck_retried : ∃ w : World, ∃ jobs : List Job,
    w.db.jobs.rows.map (fun r => (r.id, r.retry_of)) = [(5, none), (7, some 5)] ∧
      ∀ root ∈ jobs, ∀ j, ReflTransGen w.db.Parent (w.db.current root) j → w.db.Rechecks plainHost j := by
  obtain ⟨w, w₁, w₂, hw, hstep, hrest, hrows, -⟩ := failedUpload_created
  have hbefore : (World.initial.run plainHost (failedUpload.take 6)).map (fun w =>
      (w.db.accounts.rows.map Account.platform, (w.db.requests.get "request_1").isNone)) = some ([.douyin], true) := by
    decide +kernel
  rw [hw, Option.map_some, Option.some_inj, Prod.mk.injEq] at hbefore
  obtain ⟨hplatform, hnone⟩ := hbefore
  have hnot : ¬ CommaCut plainHost.unicode w.db plainIntent := by
    rintro ⟨a, ha, -, hp, -⟩
    have hm : a.platform ∈ w.db.accounts.rows.map Account.platform := List.mem_map_of_mem ha
    rw [hplatform, hp] at hm
    exact absurd hm (by decide)
  obtain ⟨jobs, -, hiff⟩ := recheck_reachable (World.reachable_run plainHost hw) (Option.isNone_iff_eq_none.mp hnone)
    hstep hrest
  exact ⟨w₂, jobs, hrows, hiff.mpr hnot⟩

/-- one video for an account whose title is cut at its comma -/
def cutIntent : UploadIntent := { plainIntent with title := .str "aaaaaaaaaaaaaa,b".toList }

/-- the account logs in, and the request is created -/
def cutSetup : List Label :=
  [.recover 0, .addAccount .tencent (.str "name".toList) 1, .accountAction plainEnv 1 .login 2, .claim plainEnv 3,
    .finishOperation (.result ⟨"ready", "login_ready", none⟩) false, .importSource 4 0,
    .createJobs plainEnv cutIntent "request_1" none (fun i => 5 + i)]

/-- **A draft that the service created cannot be confirmed**: its short title ends in the space of a comma. -/
theorem recheck_refused : ∃ w : World, w.Reachable plainHost ∧
    w.db.jobs.rows.map (fun r => (r.id, r.state, r.content.platform_options)) =
      [(5, .draft, .tencent (some "aaaaaaaaaaaaaa ".toList) none)] ∧
    confirm plainHost plainEnv w.db 5 = .error "invalid_metadata" := by
  have hrun : (World.initial.run plainHost cutSetup).map (fun w =>
      (w.db.jobs.rows.map (fun r => (r.id, r.state, r.content.platform_options)),
        failure (confirm plainHost plainEnv w.db 5))) =
      some ([(5, .draft, .tencent (some "aaaaaaaaaaaaaa ".toList) none)], some "invalid_metadata") := by decide +kernel
  obtain ⟨w, hw, hs⟩ := Option.map_eq_some_iff.mp hrun
  obtain ⟨h1, h2⟩ := Prod.mk.inj hs
  exact ⟨w, World.reachable_run plainHost hw, h1, failure_eq_some.mp h2⟩

end
end OpenFlame.Upload
