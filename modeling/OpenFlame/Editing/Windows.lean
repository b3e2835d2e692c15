import OpenFlame.Base.Cuts
import OpenFlame.Editing.Encodings
import OpenFlame.Editing.Recipe

/-!
# Imported captions in the windows of a recipe

`importTimeline`   the payload of a caption file to a canonical timeline, within a clip
`sourceCaption`    the same for the clip and the boundaries of a recipe's segments
`windowCues`       the cues of a timeline that a segment shows, with times of their own

* `thread_windowStep`          a window whose cues are whole is shown;
* `sourceCaption_uncut`        no segment of the recipe cuts a cue that was imported;
* **`sourceCaption_renders`**  imported captions and their translations are shown whole, once and in order.
-/

set_option linter.all false

namespace OpenFlame.Editing
open Guard Text Json Cuts

def MAX_WORKFLOW_SEGMENTS : Nat := 10

/-- `EditingError` and `WorkflowError`, by their codes, or an error that nobody catches -/
inductive WindowErr where
  | editing (code : String)
  | workflow (code : String)
  | uncaught
  deriving DecidableEq, Repr

/-! ## import -/

/-- `_SOURCE_CAPTION_KINDS` -/
def sourceCaptionKind (mime_type : Text) : Option SubtitleKind :=
  if mime_type = "application/x-subrip".toList then some .srt
  else if mime_type = "text/vtt".toList then some .vtt
  else none

/-- `[^>\n]{1,512}>`, with `close` for `>` -/
def closesTag (close : Char) (s : Text) : Bool :=
  let inner := s.takeWhile (fun c => c != close && c != '\n')
  decide (1 ≤ inner.length ∧ inner.length ≤ 512) && (s.drop inner.length).head? == some close

/-- `_SOURCE_CAPTION_MARKUP.search` -/
def hasMarkup : Text → Bool
  | [] => false
  | '<' :: cs => closesTag '>' cs || hasMarkup cs
  | '\x7b' :: '\\' :: cs => closesTag '\x7d' cs || hasMarkup cs
  | _ :: cs => hasMarkup cs

/-- a cue and the clip from `lower` on -/
def Overlaps (lower : Int) (clip_end_ms : Option Int) (cue : TimelineCue) : Prop :=
  lower < cue.end_ms ∧ ∀ e ∈ clip_end_ms, (cue.start_ms : Int) < e

def Contained (lower : Int) (clip_end_ms : Option Int) (cue : TimelineCue) : Prop :=
  lower ≤ cue.start_ms ∧ ∀ e ∈ clip_end_ms, (cue.end_ms : Int) ≤ e

instance (lower : Int) (clip_end_ms : Option Int) (cue : TimelineCue) : Decidable (Overlaps lower clip_end_ms cue) :=
  inferInstanceAs (Decidable (_ ∧ _))

instance (lower : Int) (clip_end_ms : Option Int) (cue : TimelineCue) : Decidable (Contained lower clip_end_ms cue) :=
  inferInstanceAs (Decidable (_ ∧ _))

/-- one turn of the loop over the parsed cues -/
def clipStep (lower : Int) (clip_end_ms : Option Int) (boundaries : List Int) (clipped : List TimelineCue)
    (cue : TimelineCue) : Except WindowErr (List TimelineCue) := do
  require (Overlaps lower clip_end_ms cue → Contained lower clip_end_ms cue) (.editing "source_caption_not_usable")
  require (∀ boundary ∈ boundaries, ¬ ((cue.start_ms : Int) < boundary ∧ boundary < cue.end_ms))
    (.editing "source_caption_not_usable")
  if Contained lower clip_end_ms cue then
    let c ← (TimelineCue.make cue.id clipped.length cue.start_ms cue.end_ms cue.source_text cue.source_language
      cue.speaker_id).mapError (fun _ => .editing "source_caption_not_usable")
    return clipped ++ [c]
  else
    return clipped

section
variable {F : Type} (lib : Library) (fl : Floats F) (digest : ByteArray → Text)

/-- `import_transcription_timeline`, from the checks of its payload to its timeline -/
def importTimeline (payload : ByteArray) (language mime_type expected_sha256 : Text)
    (clip_start_ms clip_end_ms : Option Int) (boundaries : List Int) : Except WindowErr CanonicalTimeline := do
  let conflict := WindowErr.editing "source_caption_conflict"
  let not_usable := WindowErr.editing "source_caption_not_usable"
  require (isHex 64 expected_sha256 = true ∧ digest payload = expected_sha256) conflict
  let kind ← fetch (sourceCaptionKind mime_type) conflict
  require (isLanguage language = true) conflict
  require (∀ b ∈ clip_start_ms.toList ++ clip_end_ms.toList, 0 ≤ b ∧ b ≤ (MAX_TIMELINE_MILLISECONDS : Int)) conflict
  require (∀ s ∈ clip_start_ms, ∀ e ∈ clip_end_ms, s < e) conflict
  let lower := clip_start_ms.getD 0
  require ((∀ b ∈ boundaries, lower < b ∧ b ≤ (MAX_TIMELINE_MILLISECONDS : Int) ∧ ∀ e ∈ clip_end_ms, b < e) ∧
    boundaries.IsChain (· < ·)) conflict
  let parsed ← (parseSubtitles lib language kind payload).mapError (fun e =>
    match e with
    | .timeline _ => not_usable
    | .indexError => .uncaught)
  require (parsed.all (fun cue => !hasMarkup cue.source_text) = true) not_usable
  let clipped ← thread (clipStep lower clip_end_ms boundaries) [] parsed
  (canonicalTimeline lib fl clipped language).mapError (fun e =>
    match e with
    | .pipeline _ => not_usable
    | .timeline _ => not_usable
    | _ => .uncaught)

/-- `_transcription_clip_options` -/
def transcriptionClipOptions (segments : List SegmentSpec) : Except WindowErr (Option (Int × Int)) := do
  match segments with
  | [] => return none
  | first :: rest =>
    require (segments.length ≤ MAX_WORKFLOW_SEGMENTS) (.workflow "workflow_domain_data_invalid")
    require (segments.IsChain (fun previous current => previous.end_ms = current.start_ms))
      (.workflow "workflow_ai_segments_must_be_contiguous")
    return some (first.start_ms, ((first :: rest).getLast (List.cons_ne_nil _ _)).end_ms)

/-- the timeline that `_preferred_source_caption` imports for a recipe's segments -/
def sourceCaption (segments : List SegmentSpec) (payload : ByteArray) (language mime_type expected_sha256 : Text) :
    Except WindowErr CanonicalTimeline := do
  let clip ← transcriptionClipOptions segments
  importTimeline lib fl digest payload language mime_type expected_sha256 (clip.map Prod.fst) (clip.map Prod.snd)
    (segments.dropLast.map SegmentSpec.end_ms)

end

/-! ## windows -/

/-- one turn of the loop of `_window_cues` -/
def windowStep (start_ms end_ms : Int) (selected : List TimelineCue) (cue : TimelineCue) :
    Except WindowErr (List TimelineCue) :=
  let clipped_start := max (cue.start_ms : Int) start_ms
  let clipped_end := min (cue.end_ms : Int) end_ms
  if clipped_end ≤ clipped_start then
    return selected
  else do
    require (¬ (cue.start_ms < start_ms ∨ end_ms < cue.end_ms)) (.editing "ai_segment_boundary_splits_cue")
    let c ← (TimelineCue.make cue.id selected.length (cue.start_ms - start_ms) (cue.end_ms - start_ms) cue.source_text
      cue.source_language cue.speaker_id).mapError (fun _ => .uncaught)
    return selected ++ [c]

/-- `_window_cues` -/
def windowCues (cues : List TimelineCue) (start_ms end_ms : Int) : Except WindowErr (List TimelineCue) :=
  thread (windowStep start_ms end_ms) [] cues

/-- the windows of segments -/
def segmentWindows (segments : List SegmentSpec) : List (Int × Int) := segments.map (fun s => (s.start_ms, s.end_ms))

/-- a cue with another number -/
def TimelineCue.renumber (cue : TimelineCue) (order : Nat) : TimelineCue := { cue with order }

/-- a cue with another number and other times -/
def TimelineCue.moved (cue : TimelineCue) (order start stop : Nat) (h : start < stop) : TimelineCue :=
  { cue with order, start_ms := start, end_ms := stop, valid_times := h }

theorem make_moved (cue : TimelineCue) (order start stop : Nat) (h : start < stop) :
    TimelineCue.make cue.id order start stop cue.source_text cue.source_language cue.speaker_id =
      .ok (cue.moved order start stop h) := by
  unfold TimelineCue.make
  rw [dif_pos cue.valid_id, dif_pos (by omega), dif_pos cue.valid_text, dif_pos cue.valid_speaker]
  rfl

/-- a cue of a window that starts at `offset`, after `before` other cues -/
def TimelineCue.rebased (offset before : Nat) (cue : TimelineCue) : TimelineCue :=
  { cue with
    order := before + cue.order
    start_ms := offset + cue.start_ms
    end_ms := offset + cue.end_ms
    valid_times := Nat.add_lt_add_left cue.valid_times offset }

/-- the cues of windows with the times and numbers of the timeline -/
def rebasedCues (before : Nat) : List (Int × Int) → List (List TimelineCue) → List TimelineCue
  | w :: windows, cues :: rest =>
    cues.map (TimelineCue.rebased w.1.toNat before) ++ rebasedCues (before + cues.length) windows rest
  | _, _ => []

/-- each window of the segments can be shown, and together they show each cue once and in order -/
def Renders (segments : List SegmentSpec) (cues : List TimelineCue) : Prop :=
  ∃ windowed, each (fun w => windowCues cues w.1 w.2) (segmentWindows segments) = .ok windowed ∧
    rebasedCues 0 (segmentWindows segments) windowed = cues

/-- cues numbered from `before` on -/
def numberedCues (before : Nat) (cues : List TimelineCue) : List TimelineCue :=
  (cues.zipIdx before).map (fun x => x.1.renumber x.2)

/-- the times of a cue, as integers -/
def cueStart (cue : TimelineCue) : Int := cue.start_ms
def cueStop (cue : TimelineCue) : Int := cue.end_ms

theorem cue_positive (cue : TimelineCue) : cueStart cue < cueStop cue := Int.ofNat_lt.mpr cue.valid_times

section
variable {start_ms end_ms : Int} {cues selected : List TimelineCue} {before : Nat}

theorem numberedCues_append (before : Nat) (as bs : List TimelineCue) :
    numberedCues before (as ++ bs) = numberedCues before as ++ numberedCues (before + as.length) bs := by
  unfold numberedCues
  rw [List.zipIdx_append, List.map_append]

/-- cues with their own numbers -/
theorem numberedCues_self (h : ∀ (i : Nat) (c : TimelineCue), cues[i]? = some c → c.order = before + i) :
    numberedCues before cues = cues := by
  induction cues generalizing before with
  | nil => rfl
  | cons c cues ih =>
    have hrest : numberedCues (before + 1) cues = cues := by
      refine ih (fun i d hd => ?_)
      have := h (i + 1) d hd
      omega
    have hc : c.renumber before = c := by
      have := h 0 c rfl
      unfold TimelineCue.renumber
      congr 1
      omega
    show c.renumber before :: numberedCues (before + 1) cues = _
    rw [hc, hrest]

/-- a cue that a window does not show is left out -/
theorem windowStep_hidden {c : TimelineCue} (hwindow : start_ms < end_ms)
    (h : shows cueStart cueStop (start_ms, end_ms) c = false) : windowStep start_ms end_ms selected c = .ok selected := by
  have hcue := cue_positive c
  have hnot : ¬ (start_ms < cueStop c ∧ cueStart c < end_ms) := of_decide_eq_false h
  unfold cueStart cueStop at *
  unfold windowStep
  dsimp only
  rw [if_pos (by omega)]
  rfl

/-- a cue inside a window is shown with times of the window's own -/
theorem windowStep_inside (selected : List TimelineCue) {c : TimelineCue} (hstart : 0 ≤ start_ms) (hwindow : start_ms < end_ms)
    (h : Inside cueStart cueStop (start_ms, end_ms) c) (before : Nat) :
    ∃ d, windowStep start_ms end_ms selected c = .ok (selected ++ [d]) ∧
      d.rebased start_ms.toNat before = c.renumber (before + selected.length) := by
  have htimes := c.valid_times
  obtain ⟨hin1, hin2⟩ := h
  change start_ms ≤ (c.start_ms : Int) at hin1
  change (c.end_ms : Int) ≤ end_ms at hin2
  obtain ⟨offset, rfl⟩ := Int.eq_ofNat_of_zero_le hstart
  have htimes' : c.start_ms - offset < c.end_ms - offset := by omega
  have hmake : TimelineCue.make c.id selected.length (c.start_ms - offset) (c.end_ms - offset) c.source_text
      c.source_language c.speaker_id = .ok (c.moved selected.length _ _ htimes') := by
    rw [← make_moved]
    congr 1 <;> omega
  refine ⟨c.moved selected.length _ _ htimes', ?_, ?_⟩
  · unfold windowStep
    dsimp only
    rw [if_neg (by omega), require_pos (by omega), ok_bind, hmake]
    rfl
  · unfold TimelineCue.rebased TimelineCue.renumber TimelineCue.moved
    rw [Int.toNat_natCast]
    congr 1 <;> dsimp only <;> omega

/-- **A window whose cues are whole is shown**, with times of its own. -/
theorem thread_windowStep (selected : List TimelineCue) (before : Nat) (hstart : 0 ≤ start_ms)
    (hwindow : start_ms < end_ms)
    (h : ∀ c ∈ cues, shows cueStart cueStop (start_ms, end_ms) c = true → Inside cueStart cueStop (start_ms, end_ms) c) :
    ∃ out, thread (windowStep start_ms end_ms) selected cues = .ok (selected ++ out) ∧
      out.map (TimelineCue.rebased start_ms.toNat before) =
        numberedCues (before + selected.length) (cues.filter (shows cueStart cueStop (start_ms, end_ms))) := by
  induction cues generalizing selected with
  | nil => exact ⟨[], by rw [List.append_nil]; rfl, rfl⟩
  | cons c cues ih =>
    rw [List.forall_mem_cons] at h
    cases hshows : shows cueStart cueStop (start_ms, end_ms) c with
    | true =>
      obtain ⟨d, hstep, hd⟩ := windowStep_inside selected hstart hwindow (h.1 hshows) before
      obtain ⟨out, hout, hmap⟩ := ih (selected ++ [d]) h.2
      refine ⟨d :: out, ?_, ?_⟩
      · rw [thread_cons hstep, hout, List.append_assoc]
        rfl
      · rw [List.length_append] at hmap
        rw [List.map_cons, hmap, hd, List.filter_cons_of_pos hshows]
        rfl
    | false =>
      obtain ⟨out, hout, hmap⟩ := ih selected h.2
      refine ⟨out, (thread_cons (windowStep_hidden hwindow hshows)).trans hout, ?_⟩
      rw [List.filter_cons_of_neg (by rw [hshows]; exact Bool.false_ne_true)]
      exact hmap

/-- windows whose cues are whole are shown -/
theorem each_windowCues (before : Nat) {windows : List (Int × Int)} (hpos : ∀ w ∈ windows, 0 ≤ w.1 ∧ w.1 < w.2)
    (h : ∀ w ∈ windows, ∀ c ∈ cues, shows cueStart cueStop w c = true → Inside cueStart cueStop w c) :
    ∃ windowed, each (fun w => windowCues cues w.1 w.2) windows = .ok windowed ∧
      rebasedCues before windows windowed =
        numberedCues before (windows.flatMap (fun w => cues.filter (shows cueStart cueStop w))) := by
  induction windows generalizing before with
  | nil => exact ⟨[], rfl, rfl⟩
  | cons w windows ih =>
    rw [List.forall_mem_cons] at hpos h
    obtain ⟨out, hout, hmap⟩ := thread_windowStep [] before hpos.1.1 hpos.1.2 h.1
    have hlength : out.length = (cues.filter (shows cueStart cueStop w)).length := by
      have := congrArg List.length hmap
      unfold numberedCues at this
      rw [List.length_map, List.length_map, List.length_zipIdx] at this
      exact this
    obtain ⟨windowed, hwindowed, hrest⟩ := ih (before + out.length) hpos.2 h.2
    refine ⟨out :: windowed, each_cons_eq_ok.mpr ⟨out, windowed, hout, hwindowed, rfl⟩, ?_⟩
    rw [List.flatMap_cons, numberedCues_append, ← hlength, ← hrest]
    show out.map (TimelineCue.rebased w.1.toNat before) ++ _ = _
    rw [hmap]
    rfl

end

/-! ## what a recipe's segments do not cut -/

/-- cues that segments may be shown with: in their order, and each inside one segment -/
structure Uncut (segments : List SegmentSpec) (cues : List TimelineCue) : Prop where
  numbered : ∀ (i : Nat) (c : TimelineCue), cues[i]? = some c → c.order = i
  sorted : cues.IsChain (fun a b => a.start_ms ≤ b.start_ms)
  inside : ∀ c ∈ cues, ∃ w ∈ segmentWindows segments, Inside cueStart cueStop w c

section
variable {segments : List SegmentSpec} {cues : List TimelineCue}

theorem segmentWindows_positive : ∀ w ∈ segmentWindows segments, 0 ≤ w.1 ∧ w.1 < w.2 := by
  intro w hw
  obtain ⟨s, -, rfl⟩ := List.mem_map.mp hw
  exact ⟨s.valid.1, s.valid.2.2.2.2.1⟩

/-- **Uncut cues are rendered.** -/
theorem Uncut.renders (h : Uncut segments cues)
    (hcontiguous : segments.IsChain (fun previous current => previous.end_ms = current.start_ms)) :
    Renders segments cues := by
  have htouching : (segmentWindows segments).IsChain (fun v w => v.2 = w.1) := List.isChain_map _ |>.mpr hcontiguous
  have hfollowing : Following (segmentWindows segments) :=
    following_of_touching htouching (fun w hw => le_of_lt (segmentWindows_positive w hw).2)
  have hsorted : cues.Pairwise (fun a b => cueStart a ≤ cueStart b) := by
    have hchain : cues.IsChain (fun a b => cueStart a ≤ cueStart b) :=
      h.sorted.imp (fun _ _ hab => Int.ofNat_le.mpr hab)
    have : Trans (fun a b => cueStart a ≤ cueStart b) (fun a b => cueStart a ≤ cueStart b)
        (fun a b => cueStart a ≤ cueStart b) := ⟨fun hab hbc => le_trans hab hbc⟩
    exact List.isChain_iff_pairwise.mp hchain
  obtain ⟨windowed, hwindowed, hrebased⟩ := each_windowCues 0 segmentWindows_positive
    (fun w hw c hc hshows => inside_of_shows hfollowing (h.inside c hc) hw hshows)
  refine ⟨windowed, hwindowed, hrebased.trans ?_⟩
  rw [flatMap_shows hfollowing h.inside hsorted (fun c _ => cue_positive c)]
  exact numberedCues_self (fun i c hc => by rw [h.numbered i c hc, Nat.zero_add])

/-! ## what is imported -/

/-- a cue within the clip that no boundary cuts -/
def Clipped (lower : Int) (clip_end_ms : Option Int) (boundaries : List Int) (cue : TimelineCue) : Prop :=
  Contained lower clip_end_ms cue ∧ ∀ b ∈ boundaries, ¬ ((cue.start_ms : Int) < b ∧ b < cue.end_ms)

theorem clipStep_clipped {lower : Int} {clip_end_ms : Option Int} {boundaries : List Int}
    {clipped clipped' : List TimelineCue} {cue : TimelineCue}
    (h : clipStep lower clip_end_ms boundaries clipped cue = .ok clipped')
    (hi : ∀ c ∈ clipped, Clipped lower clip_end_ms boundaries c) : ∀ c ∈ clipped', Clipped lower clip_end_ms boundaries c := by
  simp only [clipStep, bind_eq_ok, require_eq_ok] at h
  obtain ⟨_, -, _, hcut, h⟩ := h
  split at h
  · next hcontained =>
    simp only [bind_eq_ok, mapError_eq_ok, pure_eq_ok] at h
    obtain ⟨d, hd, rfl⟩ := h
    obtain ⟨-, -, hstart, hstop, -⟩ := make_fields hd
    intro c hc
    rcases List.mem_append.mp hc with hc | hc
    · exact hi c hc
    · rw [List.mem_singleton.mp hc]
      unfold Clipped Contained
      rw [hstart, hstop]
      exact ⟨hcontained, hcut⟩
  · rw [pure_eq_ok] at h
    exact h ▸ hi

variable {F : Type} {lib : Library} {fl : Floats F} {digest : ByteArray → Text} {payload : ByteArray}
  {language mime_type expected_sha256 : Text} {t : CanonicalTimeline}

/-- a timeline that is imported is canonical, and its cues lie within the clip -/
theorem importTimeline_clipped {clip_start_ms clip_end_ms : Option Int} {boundaries : List Int}
    (h : importTimeline lib fl digest payload language mime_type expected_sha256 clip_start_ms clip_end_ms boundaries =
      .ok t) : Arranged language t.cues ∧ ∀ c ∈ t.cues, Clipped (clip_start_ms.getD 0) clip_end_ms boundaries c := by
  simp only [importTimeline, bind_eq_ok, require_eq_ok, fetch_eq_ok, mapError_eq_ok] at h
  obtain ⟨_, -, kind, -, _, -, _, -, _, -, _, -, parsed, -, _, -, clipped, hclip, hcanon⟩ := h
  obtain ⟨-, -, harr, -, rfl⟩ := canonicalTimeline_eq_ok.mp hcanon
  exact ⟨harr, thread_induct (fun clipped => ∀ c ∈ clipped, Clipped (clip_start_ms.getD 0) clip_end_ms boundaries c)
    (fun _ _ _ _ h hi => clipStep_clipped h hi) hclip (fun _ hc => absurd hc List.not_mem_nil)⟩

/-- segments with a clip touch one another -/
theorem transcriptionClipOptions_eq_ok {first : SegmentSpec} {rest : List SegmentSpec} {clip : Option (Int × Int)}
    (h : transcriptionClipOptions (first :: rest) = .ok clip) :
    (first :: rest).IsChain (fun previous current => previous.end_ms = current.start_ms) ∧
      clip = some (first.start_ms, ((first :: rest).getLast (List.cons_ne_nil _ _)).end_ms) := by
  simp only [transcriptionClipOptions, bind_eq_ok, require_eq_ok, pure_eq_ok] at h
  obtain ⟨_, -, _, hchain, rfl⟩ := h
  exact ⟨hchain, rfl⟩

/-- **No segment cuts a cue that was imported.** -/
theorem sourceCaption_uncut (hne : segments ≠ [])
    (h : sourceCaption lib fl digest segments payload language mime_type expected_sha256 = .ok t) :
    segments.IsChain (fun previous current => previous.end_ms = current.start_ms) ∧ Uncut segments t.cues := by
  obtain ⟨first, rest, rfl⟩ := List.exists_cons_of_ne_nil hne
  simp only [sourceCaption, bind_eq_ok] at h
  obtain ⟨clip, hclip, himport⟩ := h
  obtain ⟨hchain, rfl⟩ := transcriptionClipOptions_eq_ok hclip
  obtain ⟨harr, hclipped⟩ := importTimeline_clipped himport
  refine ⟨hchain, fun i c hc => (harr.fits i c hc).1, harr.times, fun c hc => ?_⟩
  obtain ⟨⟨hlower, hupper⟩, hcut⟩ := hclipped c hc
  have htouching : (segmentWindows (first :: rest)).IsChain (fun v w => v.2 = w.1) := (List.isChain_map _).mpr hchain
  refine inside_of_uncut htouching hlower (fun w hw => ?_) (fun w hw => ?_)
  · have hlast : w.2 = ((first :: rest).getLast (List.cons_ne_nil _ _)).end_ms := by
      replace hw : w ∈ ((first :: rest).map (fun s : SegmentSpec => (s.start_ms, s.end_ms))).getLast? := hw
      rw [List.getLast?_map, List.getLast?_eq_some_getLast (List.cons_ne_nil first rest)] at hw
      obtain rfl := Option.some.inj hw
      rfl
    rw [hlast]
    exact hupper _ rfl
  · replace hw : w ∈ ((first :: rest).map (fun s : SegmentSpec => (s.start_ms, s.end_ms))).dropLast := hw
    rw [← List.map_dropLast] at hw
    obtain ⟨s, hs, rfl⟩ := List.mem_map.mp hw
    have := hcut s.end_ms (List.mem_map_of_mem hs)
    unfold cueStart cueStop
    dsimp only
    omega

/-- a translation has the times of its parent -/
theorem Uncut.translated {t' : CanonicalTimeline} (h : Uncut segments t.cues) {language' : Text}
    (harr : Arranged language' t'.cues) (hvalid : validateTranslationTimeline t t' = .ok ⟨⟩) : Uncut segments t'.cues := by
  simp only [validateTranslationTimeline, bind_eq_ok, require_eq_ok] at hvalid
  obtain ⟨_, hlength, hzip⟩ := hvalid
  refine ⟨fun i c hc => (harr.fits i c hc).1, harr.times, fun c hc => ?_⟩
  obtain ⟨i, hi, rfl⟩ := List.getElem_of_mem hc
  have hi' : i < t.cues.length := hlength ▸ hi
  have hmem : (t.cues[i], t'.cues[i]) ∈ t.cues.zip t'.cues := by
    have hlt : i < (t.cues.zip t'.cues).length := by
      rw [List.length_zip]
      omega
    exact List.getElem_zip (h := hlt) ▸ List.getElem_mem hlt
  obtain ⟨-, -, hstart, hstop, -⟩ := hzip _ hmem
  obtain ⟨w, hw, hinside⟩ := h.inside _ (List.getElem_mem hi')
  refine ⟨w, hw, ?_⟩
  unfold Inside cueStart cueStop at *
  rw [← hstart, ← hstop]
  exact hinside

end

/-- **Imported captions are rendered whole**: for the segments of every recipe, what is imported for them and every
translation of that is shown by their windows, each cue once and in order. -/
theorem sourceCaption_renders {F : Type} (lib : Library) (fl : Floats F) (digest : ByteArray → Text)
    (segments : Segments) (payload : ByteArray) (language mime_type expected_sha256 : Text) (t : CanonicalTimeline)
    (hne : segments.1 ≠ [])
    (himport : sourceCaption lib fl digest segments.1 payload language mime_type expected_sha256 = .ok t) :
    Renders segments.1 t.cues ∧
      ∀ (revision : TranslationRevision) (provider_id model_id source_language target_language : Text)
        (t' : CanonicalTimeline), translationTimeline lib fl t revision provider_id model_id source_language
          target_language = .ok t' → Renders segments.1 t'.cues := by
  obtain ⟨hchain, huncut⟩ := sourceCaption_uncut hne himport
  refine ⟨huncut.renders hchain, fun revision provider_id model_id source_language target_language t' h => ?_⟩
  obtain ⟨hvalid, hcanon⟩ := translation_valid h
  obtain ⟨-, -, harr, -, -⟩ := canonicalTimeline_eq_ok.mp hcanon
  exact (huncut.translated harr hvalid).renders hchain

/-! ## runs -/

/-- a segment of a recipe -/
def plainSegment (start stop : Int) (h : 0 ≤ start ∧ start ≤ MAX_MILLISECONDS ∧ 1 ≤ stop ∧ stop ≤ MAX_MILLISECONDS ∧
    start < stop ∧ 100 ≤ stop - start) : SegmentSpec where
  start_ms := start
  end_ms := stop
  label := ⟨"part".toList, by decide⟩
  valid := h

/-- two segments that touch -/
def twoSegments : Segments :=
  ⟨[plainSegment 1000 2000 (by decide), plainSegment 2000 3000 (by decide)], by decide⟩

/-- three cues: one before the clip, and one in each segment -/
def threeCues : ByteArray :=
  ("1\n00:00:00,500 --> 00:00:01,000\nA\n\n2\n00:00:01,000 --> 00:00:02,000\nB\n\n" ++
    "3\n00:00:02,000 --> 00:00:02,500\nC").toByteArray

/-- the digests of the texts of the three cues, and of the two that stay -/
def threeCuesLibrary : Library where
  digits := .ascii
  sha256 s :=
    if s.head? = some '0' then "e69cf999ceb293d548e52b6931da1650d27fa4af0959e027882a26a574cbd8d8".toList
    else if s.head? = some '1' then "c44b0bffccd2104b009637d88ebd469de1d0cf3f448eb2711f25957731702cf6".toList
    else if s.head? = some '2' then "2d52a2cc5e6fbc49c6b36bddc01fdeb61b8224cf243a887b3732a67c7cd96d34".toList
    else "af7b7c08c5d38e2284e2e153683a376f397a5156b874503a8b883331ca99cb90".toList
  hex_sha256 s := by
    split
    · rw [String.toList_ofList]
      decide +kernel
    · split
      · rw [String.toList_ofList]
        decide +kernel
      · split
        · rw [String.toList_ofList]
          decide +kernel
        · rw [String.toList_ofList]
          decide +kernel

/-- its digests as numbers, which the kernel reads faster than texts -/
def threeCuesNumbers (s : Text) : Text :=
  if s.head? = some '0' then Nat.toDigits 16 0xe69cf999ceb293d548e52b6931da1650d27fa4af0959e027882a26a574cbd8d8
  else if s.head? = some '1' then Nat.toDigits 16 0xc44b0bffccd2104b009637d88ebd469de1d0cf3f448eb2711f25957731702cf6
  else if s.head? = some '2' then Nat.toDigits 16 0x2d52a2cc5e6fbc49c6b36bddc01fdeb61b8224cf243a887b3732a67c7cd96d34
  else Nat.toDigits 16 0xaf7b7c08c5d38e2284e2e153683a376f397a5156b874503a8b883331ca99cb90

theorem threeCuesLibrary_sha256 : threeCuesLibrary.sha256 = threeCuesNumbers := by
  have hfirst : Nat.toDigits 16 0xe69cf999ceb293d548e52b6931da1650d27fa4af0959e027882a26a574cbd8d8 =
      "e69cf999ceb293d548e52b6931da1650d27fa4af0959e027882a26a574cbd8d8".toList := by
    rw [String.toList_ofList]
    decide +kernel
  have hsecond : Nat.toDigits 16 0xc44b0bffccd2104b009637d88ebd469de1d0cf3f448eb2711f25957731702cf6 =
      "c44b0bffccd2104b009637d88ebd469de1d0cf3f448eb2711f25957731702cf6".toList := by
    rw [String.toList_ofList]
    decide +kernel
  have hthird : Nat.toDigits 16 0x2d52a2cc5e6fbc49c6b36bddc01fdeb61b8224cf243a887b3732a67c7cd96d34 =
      "2d52a2cc5e6fbc49c6b36bddc01fdeb61b8224cf243a887b3732a67c7cd96d34".toList := by
    rw [String.toList_ofList]
    decide +kernel
  have htimeline : Nat.toDigits 16 0xaf7b7c08c5d38e2284e2e153683a376f397a5156b874503a8b883331ca99cb90 =
      "af7b7c08c5d38e2284e2e153683a376f397a5156b874503a8b883331ca99cb90".toList := by
    rw [String.toList_ofList]
    decide +kernel
  unfold threeCuesNumbers
  rw [hfirst, hsecond, hthird, htimeline]
  rfl

theorem threeCuesLibrary_eq : threeCuesLibrary =
    ⟨.ascii, threeCuesNumbers, fun s => threeCuesLibrary_sha256 ▸ threeCuesLibrary.hex_sha256 s⟩ := by
  have h (sha256 : Text → Text) (hex : ∀ s, isHex 64 (sha256 s) = true) (heq : threeCuesLibrary.sha256 = sha256) :
      threeCuesLibrary = ⟨.ascii, sha256, hex⟩ := by
    cases heq
    rfl
  exact h _ _ threeCuesLibrary_sha256

/-- the digest of the payload -/
def threeCuesDigest : Text := "a61e2195c255d2dfb79ddd1bdfd449456f8573115a136f239fb45a98619946c5".toList

theorem threeCuesDigest_eq : threeCuesDigest =
    Nat.toDigits 16 0xa61e2195c255d2dfb79ddd1bdfd449456f8573115a136f239fb45a98619946c5 := by
  have hpayload : Nat.toDigits 16 0xa61e2195c255d2dfb79ddd1bdfd449456f8573115a136f239fb45a98619946c5 =
      "a61e2195c255d2dfb79ddd1bdfd449456f8573115a136f239fb45a98619946c5".toList := by
    rw [String.toList_ofList]
    decide +kernel
  rw [hpayload]
  rfl

def threeCuesImport : Except WindowErr CanonicalTimeline :=
  sourceCaption threeCuesLibrary Floats.texts (fun _ => threeCuesDigest) twoSegments.1 threeCues "en".toList
    "application/x-subrip".toList threeCuesDigest

/-- the two cues of the clip are shown by the two segments -/
theorem sourceCaption_renders_two : ∃ t, threeCuesImport = .ok t ∧ t.cues.length = 2 ∧ Renders twoSegments.1 t.cues := by
  have hlength : threeCuesImport.toOption.map (fun t => t.cues.length) = some 2 := by
    unfold threeCuesImport
    rw [threeCuesLibrary_eq, threeCuesDigest_eq]
    decide +kernel
  cases himport : threeCuesImport with
  | error e =>
    rw [himport] at hlength
    cases hlength
  | ok t =>
    rw [himport] at hlength
    refine ⟨t, rfl, Option.some.inj hlength, ?_⟩
    exact (sourceCaption_renders threeCuesLibrary Floats.texts (fun _ => threeCuesDigest) twoSegments threeCues
      "en".toList "application/x-subrip".toList threeCuesDigest t (List.cons_ne_nil _ _) himport).1

end OpenFlame.Editing
