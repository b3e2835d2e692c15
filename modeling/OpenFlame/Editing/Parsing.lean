import OpenFlame.Editing.Encodings

/-!
# How the subtitle parsers end

`Declared`      a list of cues in order, or a `TimelineError`
`EndsBlank`     a block whose times end with an arrow and nothing after it
`BlankEnd`      a WebVTT payload whose first block that is no cue is such a block

* `vttCue_indexError_iff`           what a block raises that nobody declared;
* **`parseSubtitles_declared_iff`** the parsers end as they declare, but for the payloads with a blank end.
-/

set_option linter.all false

namespace OpenFlame.Editing
open Guard Text

/-! ## loops that raise -/

/-- a loop raises what its body raises first -/
theorem thread_eq_error {ε α σ : Type} {f : σ → α → Except ε σ} {s : σ} {xs : List α} {e : ε} :
    thread f s xs = .error e ↔
      ∃ before x after s', xs = before ++ x :: after ∧ thread f s before = .ok s' ∧ f s' x = .error e := by
  induction xs generalizing s with
  | nil =>
    refine ⟨fun h => (nomatch h), fun h => ?_⟩
    obtain ⟨before, x, after, s', he, -⟩ := h
    cases before <;> cases he
  | cons x xs ih =>
    cases hx : f s x with
    | error e' =>
      have hthread : thread f s (x :: xs) = .error e' := by simp only [thread, hx]
      rw [hthread]
      constructor
      · intro h
        cases h
        exact ⟨[], x, xs, s, rfl, rfl, hx⟩
      · rintro ⟨before, y, after, s', he, hb, hy⟩
        cases before with
        | nil =>
          obtain ⟨rfl, rfl⟩ := List.cons.inj he
          cases hb
          exact hx.symm.trans hy
        | cons z before =>
          obtain ⟨rfl, rfl⟩ := List.cons.inj he
          simp only [thread, hx] at hb
          cases hb
    | ok s₁ =>
      rw [thread_cons hx, ih]
      constructor
      · rintro ⟨before, y, after, s', rfl, hb, hy⟩
        exact ⟨x :: before, y, after, s', rfl, (thread_cons hx).trans hb, hy⟩
      · rintro ⟨before, y, after, s', he, hb, hy⟩
        cases before with
        | nil =>
          obtain ⟨rfl, rfl⟩ := List.cons.inj he
          cases hb
          cases hx.symm.trans hy
        | cons z before =>
          obtain ⟨rfl, rfl⟩ := List.cons.inj he
          rw [thread_cons hx] at hb
          exact ⟨before, y, after, s', rfl, hb, hy⟩

/-! ## one block -/

/-- the lines of a block from its times on -/
def timedLines (block : Text) : List Text :=
  if hasArrow ((splitLines block).headD []) then splitLines block else (splitLines block).tail

/-- the times of a block end with an arrow and nothing but space after it -/
def EndsBlank (block : Text) : Prop :=
  2 ≤ (timedLines block).length ∧
    (arrowParts ((timedLines block).headD [])).length = 2 ∧
    isBlank ((arrowParts ((timedLines block).headD [])).getLastD []) = true

instance (block : Text) : Decidable (EndsBlank block) := inferInstanceAs (Decidable (_ ∧ _ ∧ _))

/-- an error of the module's own -/
def IsTimelineError (e : TimelineErr) : Prop := ∃ message, e = .timeline message

section
variable {lib : Library} {language : Text} {order start stop : Nat} {lines : List Text} {block : Text}
  {e : TimelineErr}

theorem isTimelineError_iff : IsTimelineError e ↔ e ≠ .indexError := by
  cases e with
  | timeline message => exact ⟨fun _ => nofun, fun _ => ⟨message, rfl⟩⟩
  | indexError => exact ⟨fun ⟨_, h⟩ => (nomatch h), fun h => absurd rfl h⟩

theorem make_raises {id text : Text} {order start stop : Int} {speaker : Option Text} :
    Raises (TimelineCue.make id order start stop text language speaker) IsTimelineError := by
  intro e h
  unfold TimelineCue.make at h
  split at h
  · split at h
    · split at h
      · split at h
        · cases h
        · cases h
          exact ⟨_, rfl⟩
      · cases h
        exact ⟨_, rfl⟩
    · cases h
      exact ⟨_, rfl⟩
  · cases h
    exact ⟨_, rfl⟩

theorem srtCue_raises : Raises (srtCue lib language order block) IsTimelineError := by
  unfold srtCue
  refine raises_bind.mpr ⟨raises_require ⟨_, rfl⟩, fun _ _ => ?_⟩
  dsimp only
  split
  · split
    · refine raises_bind.mpr ⟨raises_fetch ⟨_, rfl⟩, fun _ _ => ?_⟩
      exact raises_bind.mpr ⟨raises_fetch ⟨_, rfl⟩, fun _ _ => make_raises⟩
    · exact raises_throw.mpr ⟨_, rfl⟩
  · exact raises_throw.mpr ⟨_, rfl⟩

/-- a text has a first word unless it is blank -/
theorem firstWord_eq_nil (b : Text) : (strip b).takeWhile (fun c => !isSpace c) = [] ↔ isBlank b = true := by
  constructor
  · intro h
    by_contra hblank
    have hne : strip b ≠ [] := by
      intro hnil
      refine hblank (List.all_eq_true.mpr (fun c hc => ?_))
      unfold strip rstrip at hnil
      have hall := List.rdropWhile_eq_nil_iff.mp hnil
      by_cases hc' : isSpace c = true
      · exact hc'
      · have hmem : c ∈ b.dropWhile isSpace := by
          have hsplit := List.takeWhile_append_dropWhile (p := isSpace) (l := b)
          rw [← hsplit] at hc
          rcases List.mem_append.mp hc with h1 | h1
          · exact absurd (List.mem_takeWhile_imp h1) hc'
          · exact h1
        exact hall c hmem
    obtain ⟨c, rest, hcons⟩ := List.exists_cons_of_ne_nil hne
    have hhead := (strip_ends b hne).1
    rw [hcons] at h
    have hc : isSpace c = false := by
      have : (strip b).head hne = c := by simp only [hcons, List.head_cons]
      rw [← this]
      exact hhead
    rw [List.takeWhile_cons_of_pos (by rw [hc]; rfl)] at h
    cases h
  · intro h
    have hnil : strip b = [] := by
      unfold strip rstrip
      rw [List.dropWhile_eq_nil_iff.mpr (fun c hc => List.all_eq_true.mp h c hc), List.rdropWhile_nil]
    rw [hnil]
    rfl

/-- **What a block raises that nobody declared**: the first word of nothing. -/
theorem vttCue_indexError_iff : vttCue lib language order block = .error .indexError ↔ EndsBlank block := by
  unfold vttCue EndsBlank
  have htimed : timedLines block =
    if hasArrow ((splitLines block).headD []) then splitLines block else (splitLines block).tail := rfl
  dsimp only
  rw [← htimed]
  split
  · next time text rest hlines =>
    rw [hlines]
    show _ ↔ 2 ≤ rest.length + 2 ∧ (arrowParts time).length = 2 ∧ isBlank ((arrowParts time).getLastD []) = true
    by_cases hlength : (arrowParts time).length = 2
    · have harrow : hasArrow time = true := decide_eq_true (by omega)
      obtain ⟨a, b, hab⟩ := List.length_eq_two.mp hlength
      rw [require_pos harrow, ok_bind, hab]
      show (require _ _ >>= fun _ => _) = _ ↔ 2 ≤ rest.length + 2 ∧ 2 = 2 ∧ isBlank b = true
      by_cases hblank : isBlank b = true
      · rw [require_neg (fun h => h ((firstWord_eq_nil b).mpr hblank))]
        exact iff_of_true rfl ⟨by omega, rfl, hblank⟩
      · have hword : (strip b).takeWhile (fun c => !isSpace c) ≠ [] := fun h => hblank ((firstWord_eq_nil b).mp h)
        rw [require_pos hword, ok_bind]
        refine iff_of_false (fun h => ?_) (fun h => hblank h.2.2)
        have hraises : Raises (do
            let start ← fetch (vttTime lib.digits (strip a)) (.timeline "invalid WebVTT timing")
            let stop ← fetch (vttTime lib.digits ((strip b).takeWhile (fun c => !isSpace c)))
              (.timeline "invalid WebVTT timing")
            lib.cue language order start stop (text :: rest)) IsTimelineError := by
          refine raises_bind.mpr ⟨raises_fetch ⟨_, rfl⟩, fun _ _ => ?_⟩
          exact raises_bind.mpr ⟨raises_fetch ⟨_, rfl⟩, fun _ _ => make_raises⟩
        exact isTimelineError_iff.mp (hraises _ h) rfl
    · refine iff_of_false (fun h => ?_) (fun h => hlength h.2.1)
      by_cases harrow : hasArrow time = true
      · rw [require_pos harrow, ok_bind] at h
        split at h
        · next a b hab => exact hlength (by rw [hab]; rfl)
        · cases h
      · rw [require_neg harrow] at h
        cases h
  · next hlines =>
    refine iff_of_false (fun h => by cases h) (fun h => ?_)
    have h2 := h.1
    rcases htimed : timedLines block with - | ⟨time, - | ⟨text, rest⟩⟩
    · rw [htimed] at h2
      exact absurd h2 (by decide)
    · rw [htimed] at h2
      exact absurd h2 (Nat.lt_irrefl 1)
    · exact hlines time text rest htimed

end

/-! ## whole files -/

section
variable (lib : Library) (language : Text)

/-- the blocks of a WebVTT payload with a header -/
def vttBlocks (payload : ByteArray) : Except TimelineErr (List Text) := do
  let text ← decodePayload payload
  let lines := splitLines text
  require (lines ≠ [] ∧ "WEBVTT".toList.isPrefixOf ((lines.headD []).dropWhile (· == '\uFEFF')) = true)
    (.timeline "invalid WebVTT header")
  return splitBlocks (strip (joinLines lines.tail))

/-- a block that holds no cue, or one that is read -/
def Passes (block : Text) : Prop := skipsBlock block = true ∨ ∃ c, vttCue lib language 0 block = .ok c

/-- after blocks that are read comes one whose times end with nothing -/
def BlankEnd (payload : ByteArray) : Prop :=
  ∃ before block after, vttBlocks payload = .ok (before ++ block :: after) ∧ (∀ b ∈ before, Passes lib language b) ∧
    skipsBlock block = false ∧ EndsBlank block

/-- cues as every parser returns them -/
def Numbered (cues : List TimelineCue) : Prop :=
  (∀ (i : Nat) (c : TimelineCue), cues[i]? = some c → c.order = i) ∧ cues.IsChain (fun a b => a.start_ms ≤ b.start_ms) ∧
    ∀ c ∈ cues, c.start_ms < c.end_ms

/-- a parser ends with cues, or with its own error -/
def Declared (result : Except TimelineErr (List TimelineCue)) : Prop :=
  Raises result IsTimelineError ∧ ∀ cues, result = .ok cues → Numbered cues

variable {lib language} {payload : ByteArray} {cues cues' : List TimelineCue} {block : Text} {c : TimelineCue}

theorem parseWebvtt_eq : parseWebvtt lib payload language =
    vttBlocks payload >>= fun blocks => thread (vttStep lib language) [] blocks >>= fun cues => validateOrder cues := by
  unfold parseWebvtt vttBlocks
  simp only [bind_assoc, pure_bind]
  rfl

theorem parseSrt_eq : parseSrt lib payload language =
    decodePayload payload >>= fun text =>
      thread (srtStep lib language) [] (splitBlocks (strip text)) >>= fun cues => validateOrder cues := rfl

theorem decodePayload_raises : Raises (decodePayload payload) IsTimelineError := by
  unfold decodePayload
  refine raises_bind.mpr ⟨raises_require ⟨_, rfl⟩, fun _ _ => ?_⟩
  refine raises_bind.mpr ⟨raises_fetch ⟨_, rfl⟩, fun _ _ => ?_⟩
  exact raises_bind.mpr ⟨raises_require ⟨_, rfl⟩, fun _ _ => raises_pure⟩

theorem vttBlocks_raises : Raises (vttBlocks payload) IsTimelineError := by
  unfold vttBlocks
  refine raises_bind.mpr ⟨decodePayload_raises, fun _ _ => ?_⟩
  exact raises_bind.mpr ⟨raises_require ⟨_, rfl⟩, fun _ _ => raises_pure⟩

theorem validateOrder_raises : Raises (validateOrder cues) IsTimelineError := by
  unfold validateOrder
  refine raises_bind.mpr ⟨raises_require ⟨_, rfl⟩, fun _ _ => ?_⟩
  exact raises_bind.mpr ⟨raises_require ⟨_, rfl⟩, fun _ _ => raises_pure⟩

theorem srtStep_raises : Raises (srtStep lib language cues block) IsTimelineError :=
  raises_bind.mpr ⟨srtCue_raises, fun _ _ => raises_pure⟩

theorem thread_raises {f : List TimelineCue → Text → Except TimelineErr (List TimelineCue)}
    (hf : ∀ cues block, Raises (f cues block) IsTimelineError) {blocks : List Text} :
    Raises (thread f cues blocks) IsTimelineError := by
  intro e h
  obtain ⟨before, block, after, s, -, -, hblock⟩ := thread_eq_error.mp h
  exact hf _ _ e hblock

/-! ### the order of the cues -/

theorem Library.cue_order {order start stop : Nat} {lines : List Text}
    (h : lib.cue language order start stop lines = .ok c) : c.order = order := by
  unfold Library.cue TimelineCue.make at h
  dsimp only at h
  split at h
  · split at h
    · split at h
      · split at h
        · cases h
          rfl
        · cases h
      · cases h
    · cases h
  · cases h

theorem srtCue_order {order : Nat} (h : srtCue lib language order block = .ok c) : c.order = order := by
  simp only [srtCue, bind_eq_ok] at h
  obtain ⟨_, -, h⟩ := h
  split at h
  · split at h
    · simp only [bind_eq_ok] at h
      obtain ⟨start, -, stop, -, h⟩ := h
      exact Library.cue_order h
    · cases h
  · cases h

theorem vttCue_order {order : Nat} (h : vttCue lib language order block = .ok c) : c.order = order := by
  unfold vttCue at h
  dsimp only at h
  split at h
  · simp only [bind_eq_ok] at h
    obtain ⟨_, -, h⟩ := h
    split at h
    · simp only [bind_eq_ok] at h
      obtain ⟨_, -, start, -, stop, -, h⟩ := h
      exact Library.cue_order h
    · cases h
  · cases h

/-- the next cue gets the next number -/
theorem ordered_concat (h : ∀ (i : Nat) (c : TimelineCue), cues[i]? = some c → c.order = i) (hc : c.order = cues.length) :
    ∀ (i : Nat) (d : TimelineCue), (cues ++ [c])[i]? = some d → d.order = i := by
  intro i d hd
  rcases Nat.lt_trichotomy i cues.length with hi | hi | hi
  · rw [List.getElem?_append_left hi] at hd
    exact h i d hd
  · subst hi
    rw [List.getElem?_concat_length] at hd
    obtain rfl := Option.some.inj hd
    exact hc
  · rw [List.getElem?_eq_none (by rw [List.length_append, List.length_singleton]; omega)] at hd
    cases hd

theorem srtStep_order (h : srtStep lib language cues block = .ok cues') (hi : ∀ (i : Nat) (c : TimelineCue), cues[i]? = some c → c.order = i) :
    ∀ (i : Nat) (c : TimelineCue), cues'[i]? = some c → c.order = i := by
  simp only [srtStep, bind_eq_ok, pure_eq_ok] at h
  obtain ⟨c, hc, rfl⟩ := h
  exact ordered_concat hi (srtCue_order hc)

theorem vttStep_order (h : vttStep lib language cues block = .ok cues') (hi : ∀ (i : Nat) (c : TimelineCue), cues[i]? = some c → c.order = i) :
    ∀ (i : Nat) (c : TimelineCue), cues'[i]? = some c → c.order = i := by
  unfold vttStep at h
  split at h
  · cases h
    exact hi
  · simp only [bind_eq_ok, pure_eq_ok] at h
    obtain ⟨c, hc, rfl⟩ := h
    exact ordered_concat hi (vttCue_order hc)

/-- cues that are returned are numbered and in order -/
theorem validateOrder_numbered (h : validateOrder cues = .ok cues') (hi : ∀ (i : Nat) (c : TimelineCue), cues[i]? = some c → c.order = i) :
    Numbered cues' := by
  simp only [validateOrder, bind_eq_ok, require_eq_ok, pure_eq_ok] at h
  obtain ⟨_, -, _, hchain, rfl⟩ := h
  exact ⟨hi, hchain, fun c _ => c.valid_times⟩

/-! ### the block that is no cue -/

/-- whether a block is a cue does not depend on its number -/
theorem vttCue_number {m n : Nat} (h : vttCue lib language m block = .ok c) : ∃ c', vttCue lib language n block = .ok c' := by
  unfold vttCue at h ⊢
  dsimp only at h ⊢
  split at h
  · next time text rest hlines =>
    simp only [bind_eq_ok] at h
    obtain ⟨_, harrow, h⟩ := h
    split at h
    · next a b hab =>
      simp only [bind_eq_ok] at h
      obtain ⟨_, hword, start, hstart, stop, hstop, h⟩ := h
      have hmake : ∃ c', lib.cue language n start stop (text :: rest) = .ok c' := by
        refine Library.cue_exists ?_ ?_
        · have := Library.cue_span h
          have htimes := c.valid_times
          have h1 : c.start_ms = start := congrArg (·.1) this
          have h2 : c.end_ms = stop := congrArg (·.2.1) this
          omega
        · have := Library.cue_span h
          have h3 : c.source_text = strip (joinLines (text :: rest)) := congrArg (·.2.2) this
          exact h3 ▸ c.valid_text
      obtain ⟨c', hc'⟩ := hmake
      refine ⟨c', ?_⟩
      rw [harrow, ok_bind, hword, ok_bind, hstart, ok_bind, hstop, ok_bind]
      exact hc'
    · cases h
  · cases h

/-- blocks are read to their end when each of them passes -/
theorem thread_vtt_ok {blocks : List Text} :
    (∃ cues', thread (vttStep lib language) cues blocks = .ok cues') ↔ ∀ b ∈ blocks, Passes lib language b := by
  induction blocks generalizing cues with
  | nil => exact ⟨fun _ b hb => (nomatch hb), fun _ => ⟨cues, rfl⟩⟩
  | cons b blocks ih =>
    have hstep : (∃ cues₁, vttStep lib language cues b = .ok cues₁) ↔ Passes lib language b := by
      unfold vttStep Passes
      split
      · next hskip => exact iff_of_true ⟨cues, rfl⟩ (.inl hskip)
      · next hskip =>
        rw [or_iff_right hskip]
        simp only [bind_eq_ok, pure_eq_ok]
        constructor
        · rintro ⟨_, c, hc, -⟩
          exact vttCue_number hc
        · rintro ⟨c, hc⟩
          obtain ⟨c', hc'⟩ := vttCue_number (n := cues.length) hc
          exact ⟨_, c', hc', rfl⟩
    rw [List.forall_mem_cons]
    constructor
    · rintro ⟨cues', h⟩
      cases hb : vttStep lib language cues b with
      | error e =>
        simp only [thread, hb] at h
        cases h
      | ok cues₁ =>
        rw [thread_cons hb] at h
        exact ⟨hstep.mp ⟨cues₁, hb⟩, ih.mp ⟨cues', h⟩⟩
    · rintro ⟨hb, hrest⟩
      obtain ⟨cues₁, hb⟩ := hstep.mpr hb
      obtain ⟨cues', h⟩ := ih.mpr hrest
      exact ⟨cues', (thread_cons hb).trans h⟩

theorem vttStep_indexError_iff : vttStep lib language cues block = .error .indexError ↔
    skipsBlock block = false ∧ EndsBlank block := by
  unfold vttStep
  split
  · next hskip => exact iff_of_false (fun h => (nomatch h)) (fun h => Bool.false_ne_true (h.1.symm.trans hskip))
  · next hskip =>
    rw [← @vttCue_indexError_iff lib language cues.length block,
      and_iff_right (Bool.not_eq_true _ ▸ hskip)]
    cases hcue : vttCue lib language cues.length block with
    | error e => exact ⟨fun h => by cases h; rfl, fun h => by cases h; rfl⟩
    | ok c => exact ⟨fun h => (nomatch h), fun h => (nomatch h)⟩

/-- a WebVTT payload with a blank end raises an `IndexError`, and no other does -/
theorem parseWebvtt_indexError_iff :
    parseWebvtt lib payload language = .error .indexError ↔ BlankEnd lib language payload := by
  rw [parseWebvtt_eq]
  unfold BlankEnd
  cases hblocks : vttBlocks payload with
  | error e =>
    refine iff_of_false (fun h => ?_) (fun ⟨_, _, _, h, _⟩ => (nomatch h))
    cases h
    exact isTimelineError_iff.mp (vttBlocks_raises _ hblocks) rfl
  | ok blocks =>
    rw [ok_bind]
    have hthread : (thread (vttStep lib language) [] blocks >>= fun cues => validateOrder cues) = .error .indexError ↔
        thread (vttStep lib language) [] blocks = .error .indexError := by
      cases thread (vttStep lib language) [] blocks with
      | error e => exact Iff.rfl
      | ok cues =>
        refine iff_of_false (fun h => ?_) (fun h => (nomatch h))
        exact isTimelineError_iff.mp (validateOrder_raises _ h) rfl
    rw [hthread, thread_eq_error]
    constructor
    · rintro ⟨before, block, after, cues, rfl, hbefore, hblock⟩
      exact ⟨before, block, after, rfl, thread_vtt_ok.mp ⟨cues, hbefore⟩, vttStep_indexError_iff.mp hblock⟩
    · rintro ⟨before, block, after, h, hbefore, hblock⟩
      cases h
      obtain ⟨cues, hcues⟩ := thread_vtt_ok.mpr hbefore
      exact ⟨before, block, after, cues, rfl, hcues, vttStep_indexError_iff.mpr hblock⟩

/-- **How the parsers end**: as they declare, but for a WebVTT payload with a blank end. -/
theorem parseSubtitles_declared_iff (lib : Library) (language : Text) (kind : SubtitleKind) (payload : ByteArray) :
    Declared (parseSubtitles lib language kind payload) ↔ ¬ (kind = .vtt ∧ BlankEnd lib language payload) := by
  have hnil : ∀ (i : Nat) (c : TimelineCue), ([] : List TimelineCue)[i]? = some c → c.order = i := by
    intro i c h
    rw [List.getElem?_nil] at h
    cases h
  cases kind with
  | srt =>
    refine iff_of_true ⟨?_, fun cues h => ?_⟩ (fun h => (nomatch h.1))
    · show Raises (parseSrt lib payload language) IsTimelineError
      rw [parseSrt_eq]
      refine raises_bind.mpr ⟨decodePayload_raises, fun _ _ => ?_⟩
      exact raises_bind.mpr ⟨thread_raises (fun _ _ => srtStep_raises), fun _ _ => validateOrder_raises⟩
    · have h : parseSrt lib payload language = .ok cues := h
      rw [parseSrt_eq] at h
      simp only [bind_eq_ok] at h
      obtain ⟨_, -, cues₁, hthread, hvalid⟩ := h
      exact validateOrder_numbered hvalid (thread_induct (fun cues => ∀ (i : Nat) (c : TimelineCue), cues[i]? = some c → c.order = i)
        (fun _ _ _ _ h hi => srtStep_order h hi) hthread hnil)
  | vtt =>
    have hnumbered : ∀ cues, parseWebvtt lib payload language = .ok cues → Numbered cues := by
      intro cues h
      rw [parseWebvtt_eq] at h
      simp only [bind_eq_ok] at h
      obtain ⟨_, -, cues₁, hthread, hvalid⟩ := h
      exact validateOrder_numbered hvalid (thread_induct (fun cues => ∀ (i : Nat) (c : TimelineCue), cues[i]? = some c → c.order = i)
        (fun _ _ _ _ h hi => vttStep_order h hi) hthread hnil)
    have hiff := @parseWebvtt_indexError_iff lib language payload
    show Raises (parseWebvtt lib payload language) IsTimelineError ∧ _ ↔ _
    constructor
    · intro h hblank
      exact isTimelineError_iff.mp (h.1 _ (hiff.mpr hblank.2)) rfl
    · intro h
      refine ⟨fun e he => isTimelineError_iff.mpr (fun hindex => h ⟨rfl, hiff.mp (hindex ▸ he)⟩), hnumbered⟩

end

/-- a file whose only cue has no end -/
def blankEndFile : ByteArray := "WEBVTT\n\n00:00.000 --> \nHello".toByteArray

def anyDigest : Sha256 := ⟨List.replicate 64 '0', by decide⟩

/-- **A cue without an end** raises what nobody declared. -/
theorem blankEndFile_undeclared : ¬ Declared (parseSubtitles (.fixed anyDigest) "und".toList .vtt blankEndFile) := by
  have hraised : parseSubtitles (.fixed anyDigest) "und".toList .vtt blankEndFile = .error .indexError := by
    decide +kernel
  exact fun h => isTimelineError_iff.mp (h.1 _ hraised) rfl

end OpenFlame.Editing
