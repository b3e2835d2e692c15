import Mathlib.Algebra.Ring.Nat
import Mathlib.Data.List.Nodup
import OpenFlame.Editing.Hold
import OpenFlame.Editing.Parsing
import OpenFlame.Editing.Track

/-!
# Dubbing tracks are aligned

`Slotted`   clips of one format, each within the slot of its cue
`Aligned`   a track with each clip at the start of its cue, and silence elsewhere

* `settle_eq_ok`            a clip that is taken fits, and its cue was synthesized once at most;
* `takeClips_slotted`       the clips that are taken are slotted;
* `writeClips_lay`          what is written are the clips on a blank tape;
* **`buildTrack_aligned`**  tracks are aligned, and no run finds that its frames do not add up.
-/

set_option linter.all false

namespace OpenFlame.Editing
open Guard Text Json Cuts

/-! ## reading and writing frames -/

theorem readLoop_eq {fuel remaining : Nat} (h : remaining ≤ fuel) (pcm : List Frame) :
    readLoop fuel remaining pcm = if remaining ≤ pcm.length then some (pcm.take remaining) else none := by
  induction fuel generalizing remaining pcm with
  | zero =>
    obtain rfl := Nat.le_zero.mp h
    rfl
  | succ fuel ih =>
    cases remaining with
    | zero => rfl
    | succ remaining =>
      have hlength : (pcm.take (min (remaining + 1) 65536)).length = min (min (remaining + 1) 65536) pcm.length :=
        List.length_take
      unfold readLoop
      dsimp only
      by_cases hnil : pcm.take (min (remaining + 1) 65536) = []
      · rw [if_pos hnil]
        rw [hnil, List.length_nil] at hlength
        rw [if_neg (by omega)]
      · have hpos := List.length_pos_iff.mpr hnil
        rw [if_neg hnil, ih (by omega), List.length_drop]
        by_cases hall : remaining + 1 ≤ pcm.length
        · rw [if_pos (by omega), if_pos hall, Option.map_some]
          congr 1
          have hread : min (min (remaining + 1) 65536) pcm.length = min (remaining + 1) 65536 := by omega
          rw [hlength, hread, ← List.take_add]
          congr 1
          omega
        · rw [if_neg (by omega), if_neg hall]
          rfl

/-- **Frames are read to the last.** -/
theorem readFrames_eq (frames : Nat) (pcm : List Frame) :
    readFrames frames pcm = if frames ≤ pcm.length then some (pcm.take frames) else none :=
  readLoop_eq (Nat.le_refl _) pcm

theorem zerosLoop_eq {chunk_frames frame_bytes fuel remaining : Nat} (hchunk : 0 < chunk_frames) (h : remaining ≤ fuel) :
    zerosLoop chunk_frames frame_bytes fuel remaining = List.replicate remaining (List.replicate frame_bytes 0) := by
  induction fuel generalizing remaining with
  | zero =>
    obtain rfl := Nat.le_zero.mp h
    rfl
  | succ fuel ih =>
    cases remaining with
    | zero => rfl
    | succ remaining =>
      unfold zerosLoop
      dsimp only
      rw [ih (by omega), List.replicate_append_replicate]
      congr 1
      omega

/-- **Silence is written to the last frame.** -/
theorem writeZeros_eq (frames frame_bytes : Nat) :
    writeZeros frames frame_bytes = List.replicate frames (List.replicate frame_bytes 0) :=
  zerosLoop_eq (by omega) (Nat.le_refl _)

/-! ## clips -/

section
variable {E : Type} {duration_ms : Nat} {booth : Booth E} {spec : SpeechSpec}

/-- a clip that the inspection of a file gave -/
def Inspected (cue : TimelineCue) (info : WaveInfo) : Prop :=
  0 < info.frames ∧ ∃ (file : WaveFile) (code : String), verifiedWaveFile (E := Empty) file cue code = .ok info

theorem verifiedWaveFile_ok {file : WaveFile} {cue : TimelineCue} {code : String} {info : WaveInfo}
    (h : verifiedWaveFile (E := E) file cue code = .ok info) : Inspected cue info := by
  have hempty : verifiedWaveFile (E := Empty) file cue code = .ok info := by
    simp only [verifiedWaveFile, bind_eq_ok, require_eq_ok, fetch_eq_ok, pure_eq_ok] at h ⊢
    exact h
  simp only [verifiedWaveFile, bind_eq_ok, require_eq_ok, fetch_eq_ok, pure_eq_ok] at h
  obtain ⟨_, hheader, _, -, _, -, _, -, rfl⟩ := h
  exact ⟨hheader.2.2.1, file, code, hempty⟩

theorem loadCheckpoint_ok {cue : TimelineCue} {files : List (Text × WaveFile)} {info : WaveInfo}
    (h : loadCheckpoint (E := E) cue files = some info) : Inspected cue info := by
  obtain ⟨x, -, hx⟩ := List.exists_of_findSome?_eq_some h
  split at hx
  · next found hfound =>
    split at hx
    · cases hx
      exact verifiedWaveFile_ok hfound
    · cases hx
  · cases hx

theorem speak_ok {index : Nat} {cue : TimelineCue} {info : WaveInfo} (h : speak booth spec index cue = .ok info) :
    Inspected cue info := by
  simp only [speak, inspectWave, bind_eq_ok, require_eq_ok, pure_eq_ok] at h
  obtain ⟨x, -, _, -, found, hfound, _, -, rfl⟩ := h
  exact verifiedWaveFile_ok hfound

/-- a clip that fits the slot of its cue, in the format of the track -/
structure Fitting (duration_ms : Nat) (f : WaveFormat) (cue : TimelineCue) (rest : List TimelineCue) (info : WaveInfo) :
    Prop where
  inspected : Inspected cue info
  format : info.format = f
  slot : startFrame cue f.sample_rate + info.frames ≤ slotEndFrame duration_ms cue rest f.sample_rate

theorem formatRejection_none {taken : Taken} {info : WaveInfo} (h : formatRejection duration_ms taken info = none) :
    info.format = taken.expected_format.getD info.format := by
  unfold formatRejection at h
  cases hexpected : taken.expected_format with
  | none => rfl
  | some f =>
    rw [hexpected] at h
    by_contra hne
    have hne : info.format ≠ f := hne
    dsimp only at h
    rw [if_pos hne] at h
    cases h

theorem rejection_none {taken : Taken} {cue : TimelineCue} {rest : List TimelineCue} {info : WaveInfo}
    (h : rejection duration_ms taken cue rest info = none) (hinfo : Inspected cue info) :
    Fitting duration_ms (taken.expected_format.getD info.format) cue rest info := by
  have hframes := hinfo.1
  unfold rejection at h
  split at h
  · cases h
  · next hnone =>
    have hformat := formatRejection_none hnone
    have hrate : (taken.expected_format.getD info.format).sample_rate = info.sample_rate := by
      rw [← hformat]
      rfl
    split at h
    · cases h
    · split at h
      · cases h
      · next hslot =>
        refine ⟨hinfo, hformat, ?_⟩
        rw [hrate]
        omega

/-- **What the loop ends with**: a clip that fits, and at most one more synthesis. -/
theorem settle_eq_ok {index fuel : Nat} {cue : TimelineCue} {rest : List TimelineCue} {taken : Taken}
    {loaded : Option WaveInfo} {reused : Bool} {spoken : List Text} {settled : Settled}
    (hloaded : ∀ info ∈ loaded, Inspected cue info) (hreused : reused = true → loaded.isSome = true)
    (h : settle duration_ms booth spec index cue rest taken fuel loaded reused spoken = .ok settled) :
    Fitting duration_ms (taken.expected_format.getD settled.info.format) cue rest settled.info ∧
      (settled.spoken = spoken ∨ settled.spoken = spoken ++ [cue.id]) := by
  induction fuel generalizing loaded reused spoken with
  | zero => cases h
  | succ fuel ih =>
    have hend : ∀ info said, Inspected cue info → (said = spoken ∨ said = spoken ++ [cue.id]) →
        rejection duration_ms taken cue rest info = none →
        Fitting duration_ms (taken.expected_format.getD info.format) cue rest info ∧
          (said = spoken ∨ said = spoken ++ [cue.id]) :=
      fun info said hinfo hsaid hnone => ⟨rejection_none hnone hinfo, hsaid⟩
    cases loaded with
    | some info =>
      have hinfo := hloaded info rfl
      rw [settle] at h
      simp only [bind_eq_ok] at h
      obtain ⟨_, hsame, h⟩ := h
      cases hsame
      split at h
      · next hnone =>
        rw [pure_eq_ok] at h
        subst h
        exact hend info spoken hinfo (.inl rfl) hnone
      · split at h
        · simp only [bind_eq_ok] at h
          obtain ⟨_, -, h⟩ := h
          refine ih (fun _ hnone => ?_) (fun hfalse => ?_) h
          · cases hnone
          · cases hfalse
        · cases h
    | none =>
      have hfresh : reused = false := by
        cases reused with
        | false => rfl
        | true => cases hreused rfl
      subst hfresh
      rw [settle] at h
      simp only [bind_eq_ok] at h
      obtain ⟨info, hspeak, h⟩ := h
      split at h
      · next hnone =>
        rw [pure_eq_ok] at h
        subst h
        exact hend info _ (speak_ok hspeak) (.inr rfl) hnone
      · rw [if_neg Bool.false_ne_true] at h
        cases h

/-- a loop without a clip to reuse ends on its first turn -/
theorem settle_fresh (index : Nat) (cue : TimelineCue) (rest : List TimelineCue) (taken : Taken)
    (loaded : Option WaveInfo) (spoken : List Text) (fuel : Nat) :
    settle duration_ms booth spec index cue rest taken (fuel + 1) loaded false spoken =
      settle duration_ms booth spec index cue rest taken 1 loaded false spoken := by
  simp only [settle, Bool.false_eq_true, if_false]

/-- **The loop ends on its second turn**, if not on its first. -/
theorem settle_fuel (index : Nat) (cue : TimelineCue) (rest : List TimelineCue) (taken : Taken)
    (loaded : Option WaveInfo) (reused : Bool) (spoken : List Text) (fuel : Nat) :
    settle duration_ms booth spec index cue rest taken (fuel + 2) loaded reused spoken =
      settle duration_ms booth spec index cue rest taken 2 loaded reused spoken := by
  cases reused with
  | false =>
    rw [settle_fresh]
    exact (settle_fresh index cue rest taken loaded spoken 1).symm
  | true => cases loaded <;> simp only [settle, Bool.false_eq_true, if_false]

/-- clips that fit the slots of their cues -/
inductive Slotted (duration_ms : Nat) (f : WaveFormat) : List TimelineCue → List WaveInfo → Prop
  | nil : Slotted duration_ms f [] []
  | cons {cue : TimelineCue} {info : WaveInfo} {rest : List TimelineCue} {infos : List WaveInfo}
      (hfits : Fitting duration_ms f cue rest info) (hrest : Slotted duration_ms f rest infos) :
      Slotted duration_ms f (cue :: rest) (info :: infos)

theorem takeClip_eq_ok {index : Nat} {cue : TimelineCue} {rest : List TimelineCue} {taken taken' : Taken}
    (h : takeClip duration_ms booth spec index cue rest taken = .ok taken') :
    ∃ info f, Fitting duration_ms f cue rest info ∧ f = taken.expected_format.getD info.format ∧
      taken'.clips = taken.clips ++ [info] ∧ taken'.expected_format = some f ∧
      (taken'.spoken = taken.spoken ∨ taken'.spoken = taken.spoken ++ [cue.id]) := by
  simp only [takeClip, bind_eq_ok, fetch_eq_ok, pure_eq_ok] at h
  obtain ⟨_, -, _, -, files, -, settled, hsettled, _, -, _, -, rfl⟩ := h
  obtain ⟨hfits, hspoken⟩ := settle_eq_ok (fun info hinfo => loadCheckpoint_ok hinfo) id hsettled
  exact ⟨settled.info, _, hfits, rfl, rfl, rfl, hspoken⟩

/-- **The clips that are taken are slotted**, and each cue was synthesized once at most. -/
theorem takeClips_slotted {index : Nat} {cues : List TimelineCue} {taken taken' : Taken}
    (h : takeClips duration_ms booth spec index cues taken = .ok taken') :
    ∃ infos said, taken'.clips = taken.clips ++ infos ∧ taken'.spoken = taken.spoken ++ said ∧
      said.Sublist (cues.map (·.id)) ∧ (∀ f, taken'.expected_format = some f → Slotted duration_ms f cues infos) ∧
      (∀ f, taken.expected_format = some f → taken'.expected_format = some f) := by
  induction cues generalizing index taken with
  | nil =>
    simp only [takeClips, pure_eq_ok] at h
    subst h
    exact ⟨[], [], (List.append_nil _).symm, (List.append_nil _).symm, .slnil, fun _ _ => .nil, fun _ h => h⟩
  | cons cue rest ih =>
    simp only [takeClips, bind_eq_ok] at h
    obtain ⟨mid, hmid, h⟩ := h
    obtain ⟨info, f, hfits, hf, hclips, hformat, hspoken⟩ := takeClip_eq_ok hmid
    obtain ⟨infos, said, hclips', hspoken', hsaid, hslotted, hkeeps⟩ := ih h
    have hfinal := hkeeps f hformat
    have hslots : ∀ g, taken'.expected_format = some g → Slotted duration_ms g (cue :: rest) (info :: infos) := by
      intro g hg
      obtain rfl := Option.some.inj (hfinal.symm.trans hg)
      exact .cons hfits (hslotted f hg)
    have hkept : ∀ g, taken.expected_format = some g → taken'.expected_format = some g := by
      intro g hg
      rw [hg, Option.getD_some] at hf
      exact hf ▸ hfinal
    have hclips'' : taken'.clips = taken.clips ++ info :: infos := by
      rw [hclips', hclips, List.append_assoc]
      rfl
    rcases hspoken with hsame | hsame
    · refine ⟨info :: infos, said, hclips'', ?_, hsaid.cons _, hslots, hkept⟩
      rw [hspoken', hsame]
    · refine ⟨info :: infos, cue.id :: said, hclips'', ?_, hsaid.cons_cons _, hslots, hkept⟩
      rw [hspoken', hsame, List.append_assoc]
      rfl

/-! ## errors -/

/-- an error that does not say that frames do not add up, or that a loop does not end -/
def Accountable (e : TrackErr E) : Prop :=
  e ≠ .endless ∧ e ≠ .editing "ai_timeline_overlap_invalid" ∧ e ≠ .editing "ai_audio_track_invalid"

theorem accountable_editing {code : String}
    (h : code ≠ "ai_timeline_overlap_invalid" ∧ code ≠ "ai_audio_track_invalid") :
    Accountable (.editing code : TrackErr E) :=
  ⟨nofun, fun e => h.1 (TrackErr.editing.inj e), fun e => h.2 (TrackErr.editing.inj e)⟩

theorem asked_accountable {α : Type} {x : Except E α} : Raises (asked x) Accountable := by
  intro e h
  cases x with
  | ok a => cases h
  | error e' =>
    cases h
    exact ⟨nofun, nofun, nofun⟩

theorem onlyIf_accountable {c : Prop} [Decidable c] {x : Except (TrackErr E) Unit} (h : Raises x Accountable) :
    Raises (onlyIf c x) Accountable := by
  unfold onlyIf
  split
  · exact h
  · exact raises_pure

theorem verifiedWaveFile_accountable {file : WaveFile} {cue : TimelineCue} {code : String}
    (h : Accountable (.editing code : TrackErr E)) : Raises (verifiedWaveFile (E := E) file cue code) Accountable := by
  unfold verifiedWaveFile
  refine raises_bind.mpr ⟨raises_require h, fun _ _ => ?_⟩
  refine raises_bind.mpr ⟨raises_require h, fun _ _ => ?_⟩
  refine raises_bind.mpr ⟨raises_fetch h, fun _ _ => ?_⟩
  exact raises_bind.mpr ⟨raises_require h, fun _ _ => raises_pure⟩

theorem speak_accountable {index : Nat} {cue : TimelineCue} : Raises (speak booth spec index cue) Accountable := by
  unfold speak inspectWave
  refine raises_bind.mpr ⟨asked_accountable, fun _ _ => ?_⟩
  refine raises_bind.mpr ⟨raises_require (accountable_editing (by decide)), fun _ _ => ?_⟩
  refine raises_bind.mpr ⟨verifiedWaveFile_accountable (accountable_editing (by decide)), fun _ _ => ?_⟩
  exact raises_bind.mpr ⟨raises_require (accountable_editing (by decide)), fun _ _ => raises_pure⟩

theorem rejection_accountable {taken : Taken} {cue : TimelineCue} {rest : List TimelineCue} {info : WaveInfo}
    {code : String} (h : rejection duration_ms taken cue rest info = some code) :
    Accountable (.editing code : TrackErr E) := by
  refine accountable_editing ?_
  unfold rejection at h
  split at h
  · next hformatted =>
    unfold formatRejection at hformatted
    cases h
    split at hformatted <;> split at hformatted <;> cases hformatted <;> decide
  · split at h
    · cases h
      decide
    · split at h <;> cases h
      decide

/-- what is done with the audio of a cue, when the next turn of the loop is accountable -/
theorem turn_accountable {index fuel : Nat} {cue : TimelineCue} {rest : List TimelineCue} {taken : Taken}
    {info : WaveInfo} {reused : Bool} {spoken : List Text}
    (hnext : reused = true →
      Raises (settle duration_ms booth spec index cue rest taken fuel none false spoken) Accountable) :
    Raises (match rejection duration_ms taken cue rest info with
      | none => pure ⟨info, reused, spoken⟩
      | some code =>
        if reused then do
          asked (booth.discard index)
          settle duration_ms booth spec index cue rest taken fuel none false spoken
        else throw (.editing code) : Except (TrackErr E) Settled) Accountable := by
  split
  · exact raises_pure
  · next code hcode =>
    split
    · next hreused => exact raises_bind.mpr ⟨asked_accountable, fun _ _ => hnext hreused⟩
    · exact raises_throw.mpr (rejection_accountable hcode)

theorem settle_accountable {index fuel : Nat} {cue : TimelineCue} {rest : List TimelineCue} {taken : Taken}
    {loaded : Option WaveInfo} {reused : Bool} {spoken : List Text} (h : (if reused then 2 else 1) ≤ fuel) :
    Raises (settle duration_ms booth spec index cue rest taken fuel loaded reused spoken) Accountable := by
  induction fuel generalizing loaded reused spoken with
  | zero => cases reused <;> cases h
  | succ fuel ih =>
    have hnext : ∀ said, reused = true →
        Raises (settle duration_ms booth spec index cue rest taken fuel none false said) Accountable := by
      intro said hreused
      rw [hreused] at h
      exact ih (Nat.le_of_succ_le_succ h)
    cases loaded with
    | some info =>
      rw [settle]
      exact raises_bind.mpr ⟨raises_ok, fun _ _ => turn_accountable (hnext _)⟩
    | none =>
      rw [settle]
      exact raises_bind.mpr ⟨speak_accountable, fun _ _ => turn_accountable (hnext _)⟩

theorem takeClips_accountable {index : Nat} {cues : List TimelineCue} {taken : Taken} :
    Raises (takeClips duration_ms booth spec index cues taken) Accountable := by
  induction cues generalizing index taken with
  | nil => exact raises_pure
  | cons cue rest ih =>
    refine raises_bind.mpr ⟨?_, fun _ _ => ih⟩
    unfold takeClip
    refine raises_bind.mpr ⟨asked_accountable, fun _ _ => ?_⟩
    refine raises_bind.mpr ⟨raises_fetch (accountable_editing (by decide)), fun _ _ => ?_⟩
    refine raises_bind.mpr ⟨asked_accountable, fun _ _ => ?_⟩
    refine raises_bind.mpr ⟨settle_accountable ?_, fun _ _ => ?_⟩
    · split <;> decide
    · refine raises_bind.mpr ⟨onlyIf_accountable asked_accountable, fun _ _ => ?_⟩
      refine raises_bind.mpr ⟨onlyIf_accountable ?_, fun _ _ => raises_pure⟩
      exact raises_bind.mpr ⟨asked_accountable, fun _ _ => raises_require (accountable_editing (by decide))⟩

theorem copyFrames_accountable {file : WaveFile} {info : WaveInfo} {frame_limit : Nat} :
    Raises (copyFrames (E := E) file info frame_limit) Accountable := by
  unfold copyFrames
  refine raises_bind.mpr ⟨raises_require (accountable_editing (by decide)), fun _ _ => ?_⟩
  refine raises_bind.mpr ⟨raises_require (accountable_editing (by decide)), fun _ _ => ?_⟩
  refine raises_bind.mpr ⟨raises_require (accountable_editing (by decide)), fun _ _ => ?_⟩
  exact raises_fetch (accountable_editing (by decide))

/-! ## the track -/

/-- silence of one frame -/
def WaveFormat.silence (f : WaveFormat) : Frame := List.replicate f.frame_bytes 0

/-- the frames that are copied are those of a file with the digest of the clip -/
def Copied (info : WaveInfo) (xs : List Frame) : Prop :=
  xs.length = info.frames ∧ ∃ file : WaveFile, file.sha256 = info.sha256 ∧ file.nframes = info.frames ∧
    xs = file.pcm.take info.frames

/-- the frames of clips, with the places where they start -/
def placed (f : WaveFormat) (cues : List TimelineCue) (copies : List (List Frame)) : List (Nat × List Frame) :=
  List.zipWith (fun cue xs => (startFrame cue f.sample_rate, xs)) cues copies

theorem copyFrames_eq_ok {file : WaveFile} {info : WaveInfo} {frame_limit : Nat} {xs : List Frame}
    (h : copyFrames (E := E) file info frame_limit = .ok xs) : Copied info xs := by
  simp only [copyFrames, bind_eq_ok, require_eq_ok, fetch_eq_ok] at h
  obtain ⟨_, -, _, hsame, _, hheader, hread⟩ := h
  rw [readFrames_eq] at hread
  split at hread
  · next hle =>
    cases hread
    exact ⟨List.length_take_of_le hle, file, hsame.2, hheader.2.2.1, rfl⟩
  · cases hread

theorem slotEnd_le_total (cue : TimelineCue) (rest : List TimelineCue) (sample_rate : Nat) :
    slotEndFrame duration_ms cue rest sample_rate ≤ totalFrames duration_ms sample_rate := by
  have hle : min (min cue.end_ms (nextStart cue rest)) duration_ms * sample_rate ≤ duration_ms * sample_rate :=
    Nat.mul_le_mul_right _ (Nat.min_le_right _ _)
  unfold slotEndFrame totalFrames
  omega

theorem slotEnd_le_next (cue next : TimelineCue) (rest : List TimelineCue) (sample_rate : Nat) :
    slotEndFrame duration_ms cue (next :: rest) sample_rate ≤ startFrame next sample_rate := by
  have hle : min (min cue.end_ms next.start_ms) duration_ms * sample_rate ≤ next.start_ms * sample_rate :=
    Nat.mul_le_mul_right _ (by omega)
  unfold slotEndFrame startFrame nextStart
  dsimp only
  omega

/-- a clip leaves room for the next cue -/
theorem Fitting.room {f : WaveFormat} {cue : TimelineCue} {rest : List TimelineCue} {info : WaveInfo}
    (h : Fitting duration_ms f cue rest info) :
    startFrame cue f.sample_rate + info.frames ≤ totalFrames duration_ms f.sample_rate ∧
      ∀ next ∈ rest.head?, startFrame cue f.sample_rate + info.frames ≤ startFrame next f.sample_rate := by
  refine ⟨Nat.le_trans h.slot (slotEnd_le_total _ _ _), fun next hnext => ?_⟩
  cases rest with
  | nil => cases hnext
  | cons m rest =>
    obtain rfl := Option.some.inj hnext
    exact Nat.le_trans h.slot (slotEnd_le_next _ _ _ _)

/-- **The clips are laid on a silent track**, and the frames add up. -/
theorem writeClips_lay {f : WaveFormat} {cues : List TimelineCue} {infos : List WaveInfo}
    (hslotted : Slotted duration_ms f cues infos) {index current : Nat} {written : List Frame}
    (htotal : current ≤ totalFrames duration_ms f.sample_rate)
    (hhead : ∀ c ∈ cues.head?, current ≤ startFrame c f.sample_rate) :
    Raises (writeClips duration_ms booth f index cues infos written current) Accountable ∧
    ∀ written' current', writeClips duration_ms booth f index cues infos written current = .ok (written', current') →
      current' ≤ totalFrames duration_ms f.sample_rate ∧
      ∃ copies, List.Forall₂ Copied infos copies ∧
        Tape.Fits (totalFrames duration_ms f.sample_rate) current (placed f cues copies) ∧
        written' ++ List.replicate (totalFrames duration_ms f.sample_rate - current') f.silence =
          written ++ Tape.lay f.silence (totalFrames duration_ms f.sample_rate) current (placed f cues copies) := by
  induction hslotted generalizing index current written with
  | nil =>
    refine ⟨raises_pure, fun written' current' h => ?_⟩
    simp only [writeClips, pure_eq_ok, Prod.mk.injEq] at h
    obtain ⟨rfl, rfl⟩ := h
    exact ⟨htotal, [], .nil, htotal, rfl⟩
  | @cons cue info rest infos hfits hrest ih =>
    have hstart : current ≤ startFrame cue f.sample_rate := hhead cue rfl
    obtain ⟨hroom, hnext⟩ := hfits.room
    rw [writeClips]
    constructor
    · refine raises_bind.mpr ⟨asked_accountable, fun _ _ => ?_⟩
      dsimp only
      rw [require_pos hstart, ok_bind]
      refine raises_bind.mpr ⟨asked_accountable, fun file _ => ?_⟩
      refine raises_bind.mpr ⟨copyFrames_accountable, fun xs hxs => ?_⟩
      have hlength := (copyFrames_eq_ok hxs).1
      exact (ih (by omega) (fun next hn => by have := hnext next hn; omega)).1
    · intro written' current' h
      simp only [bind_eq_ok] at h
      obtain ⟨_, -, _, -, file, -, xs, hxs, h⟩ := h
      have hcopied := copyFrames_eq_ok hxs
      have hlength := hcopied.1
      obtain ⟨hle, copies, hcopies, hfit, htape⟩ :=
        (ih (by omega) (fun next hn => by have := hnext next hn; omega)).2 written' current' h
      refine ⟨hle, xs :: copies, .cons hcopied hcopies, ⟨hstart, hfit⟩, ?_⟩
      rw [htape, writeZeros_eq]
      show _ = written ++ (List.replicate _ f.silence ++ xs ++ _)
      rw [List.append_assoc, List.append_assoc, List.append_assoc]
      rfl

/-! ## whole tracks -/

/-- a track with each clip where its cue starts, and silence elsewhere -/
structure Aligned (duration_ms : Nat) (cues : List TimelineCue) (track : Track) : Prop where
  /-- the seconds of the window, rounded up to a frame -/
  length : track.frames.length = totalFrames duration_ms track.format.sample_rate
  /-- each clip ends within the slot of its cue -/
  slotted : Slotted duration_ms track.format cues track.clips
  /-- each clip is there from its first frame to its last, and nothing else is -/
  laid : ∃ copies, List.Forall₂ Copied track.clips copies ∧
    (∀ x ∈ placed track.format cues copies, x.1 + x.2.length ≤ track.frames.length ∧
      (track.frames.drop x.1).take x.2.length = x.2) ∧
    (placed track.format cues copies).Pairwise (fun a b => a.1 + a.2.length ≤ b.1) ∧
    ∀ k, k < track.frames.length → (∀ x ∈ placed track.format cues copies, k < x.1 ∨ x.1 + x.2.length ≤ k) →
      track.frames[k]? = some track.format.silence
  /-- no cue is synthesized twice -/
  once : track.spoken.Sublist (cues.map (·.id))

theorem buildTrack_accountable {cues : List TimelineCue} :
    Raises (buildTrack duration_ms booth spec cues) Accountable := by
  unfold buildTrack
  refine raises_bind.mpr ⟨takeClips_accountable, fun taken htaken => ?_⟩
  obtain ⟨infos, said, hclips, -, -, hslotted, -⟩ := takeClips_slotted htaken
  refine raises_bind.mpr ⟨raises_fetch (accountable_editing (by decide)), fun f hf => ?_⟩
  rw [fetch_eq_ok] at hf
  refine raises_bind.mpr ⟨asked_accountable, fun _ _ => ?_⟩
  refine raises_bind.mpr ⟨raises_require (accountable_editing (by decide)), fun _ _ => ?_⟩
  have hlay := @writeClips_lay E duration_ms booth f cues infos (hslotted f hf) 0 0 [] (Nat.zero_le _)
    (fun _ _ => Nat.zero_le _)
  rw [List.nil_append] at hclips
  rw [hclips]
  refine raises_bind.mpr ⟨hlay.1, fun x hx => ?_⟩
  obtain ⟨written, current⟩ := x
  dsimp only
  rw [require_pos (hlay.2 written current hx).1, ok_bind]
  exact raises_bind.mpr ⟨asked_accountable, fun _ _ => raises_pure⟩

theorem buildTrack_aligned_of_ok {cues : List TimelineCue} {track : Track}
    (h : buildTrack duration_ms booth spec cues = .ok track) : Aligned duration_ms cues track := by
  simp only [buildTrack, bind_eq_ok, fetch_eq_ok, require_eq_ok, pure_eq_ok] at h
  obtain ⟨taken, htaken, f, hf, _, -, _, -, ⟨written, current⟩, hwrite, _, -, _, -, rfl⟩ := h
  obtain ⟨infos, said, hclips, hspoken, hsaid, hslotted, -⟩ := takeClips_slotted htaken
  rw [List.nil_append] at hclips hspoken
  have hslots := hslotted f hf
  rw [hclips] at hwrite
  obtain ⟨hle, copies, hcopies, hfit, htape⟩ := (writeClips_lay hslots (Nat.zero_le _) (fun _ _ => Nat.zero_le _)).2
    written current hwrite
  rw [List.nil_append] at htape
  have hframes : written ++ writeZeros (totalFrames duration_ms f.sample_rate - current) f.frame_bytes =
      Tape.lay f.silence (totalFrames duration_ms f.sample_rate) 0 (placed f cues copies) := by
    rw [writeZeros_eq]
    exact htape
  have hlength : (written ++ writeZeros (totalFrames duration_ms f.sample_rate - current) f.frame_bytes).length =
      totalFrames duration_ms f.sample_rate := by
    rw [hframes, Tape.length_lay hfit, Nat.sub_zero]
  refine ⟨hlength, hclips ▸ hslots, ⟨copies, hclips ▸ hcopies, fun x hx => ⟨?_, ?_⟩, hfit.apart, fun k hk hout => ?_⟩,
    hspoken ▸ hsaid⟩
  · rw [hlength]
    exact (hfit.le_place hx).2
  · rw [hframes]
    exact Tape.lay_thing hfit hx
  · rw [hlength] at hk
    rw [hframes]
    exact Tape.lay_blank hfit (by rw [Nat.zero_add]; exact hk) (fun x hx => by rw [Nat.zero_add]; exact hout x hx)

/-! ## windows -/

/-- a cue as its window has it -/
def Windowed (start_ms end_ms : Int) (cue d : TimelineCue) : Prop :=
  d.id = cue.id ∧ Inside cueStart cueStop (start_ms, end_ms) cue

/-- a window has some of the cues, each of them whole -/
theorem thread_windowed {start_ms end_ms : Int} {cues selected out : List TimelineCue}
    (h : thread (windowStep start_ms end_ms) selected cues = .ok out) :
    ∃ shown ds, shown.Sublist cues ∧ out = selected ++ ds ∧ List.Forall₂ (Windowed start_ms end_ms) shown ds := by
  induction cues generalizing selected with
  | nil =>
    cases h
    exact ⟨[], [], .slnil, (List.append_nil _).symm, .nil⟩
  | cons c cues ih =>
    cases hstep : windowStep start_ms end_ms selected c with
    | error e =>
      rw [thread, hstep] at h
      cases h
    | ok mid =>
      rw [thread_cons hstep] at h
      obtain ⟨shown, ds, hsub, rfl, hds⟩ := ih h
      unfold windowStep at hstep
      dsimp only at hstep
      split at hstep
      · rw [pure_eq_ok] at hstep
        subst hstep
        exact ⟨shown, ds, hsub.cons _, rfl, hds⟩
      · simp only [bind_eq_ok, require_eq_ok, mapError_eq_ok, pure_eq_ok] at hstep
        obtain ⟨_, hwhole, d, hd, rfl⟩ := hstep
        have hid : d.id = c.id := by
          unfold TimelineCue.make at hd
          split at hd
          · split at hd
            · split at hd
              · split at hd
                · cases hd
                  rfl
                · cases hd
              · cases hd
            · cases hd
          · cases hd
        refine ⟨c :: shown, d :: ds, hsub.cons_cons _, by rw [List.append_assoc]; rfl, .cons ⟨hid, ?_⟩ hds⟩
        unfold Inside cueStart cueStop
        omega

/-- windows without a common time -/
def Disjoint (windows : List (Int × Int)) : Prop := windows.Pairwise (fun v w => v.2 ≤ w.1 ∨ w.2 ≤ v.1)

/-- **No cue is in two windows.** -/
theorem windowed_nodup {cues : List TimelineCue} (hids : (cues.map (·.id)).Nodup) {windows : List (Int × Int)}
    (hdisjoint : Disjoint windows) {windowed : List (List TimelineCue)}
    (h : each (fun w => windowCues cues w.1 w.2) windows = .ok windowed) : (windowed.flatten.map (·.id)).Nodup := by
  have hinside : ∀ w out, windowCues cues w.1 w.2 = .ok out → (out.map (·.id)).Nodup ∧
      ∀ id ∈ out.map (·.id), ∃ c ∈ cues, c.id = id ∧ Inside cueStart cueStop w c := by
    intro w out hout
    obtain ⟨shown, _, hsub, rfl, hds⟩ := thread_windowed hout
    have hsame : out.map (·.id) = shown.map (·.id) := by
      clear hsub hout
      induction hds with
      | nil => rfl
      | cons hd _ ih => rw [List.map_cons, List.map_cons, hd.1, ih]
    refine ⟨hsame ▸ hids.sublist (hsub.map _), fun id hid => ?_⟩
    rw [hsame] at hid
    obtain ⟨c, hc, rfl⟩ := List.mem_map.mp hid
    obtain ⟨i, hi, rfl⟩ := List.getElem_of_mem hc
    have hlen := hds.length_eq
    exact ⟨_, hsub.subset hc, rfl, (List.forall₂_iff_get.mp hds).2 i hi (hlen ▸ hi) |>.2⟩
  induction windows generalizing windowed with
  | nil =>
    cases h
    exact List.nodup_nil
  | cons w windows ih =>
    obtain ⟨out, rest, hout, hrest, rfl⟩ := each_cons_eq_ok.mp h
    obtain ⟨hw, hdisjoint⟩ := List.pairwise_cons.mp hdisjoint
    rw [List.flatten_cons, List.map_append]
    refine List.nodup_append.mpr ⟨(hinside w out hout).1, ih hdisjoint hrest, fun a ha b hb hab => ?_⟩
    subst hab
    obtain ⟨c, hc, hcid, hcin⟩ := (hinside w out hout).2 a ha
    obtain ⟨d, hd, hdid⟩ := List.mem_map.mp hb
    obtain ⟨out', hout', hd⟩ := List.mem_flatten.mp hd
    obtain ⟨v, hv, hvout⟩ := each_mem hrest out' hout'
    obtain ⟨c', hc', hcid', hcin'⟩ := (hinside v out' hvout).2 a (hdid ▸ List.mem_map_of_mem hd)
    obtain rfl : c = c' := List.inj_on_of_nodup_map hids hc hc' (hcid.trans hcid'.symm)
    have hpos := cue_positive c
    obtain ⟨h1, h2⟩ := hcin
    obtain ⟨h3, h4⟩ := hcin'
    rcases hw v hv with hvw | hvw <;> omega

end

/-- a synthesis for each of the cues at most -/
theorem spoken_nodup {E : Type} {windowed : List (List TimelineCue)} {tracks : List Track}
    (hids : (windowed.flatten.map (·.id)).Nodup)
    (htracks : List.Forall₂ (fun cues track => ∃ duration_ms, ∃ booth : Booth E, ∃ spec,
      buildTrack duration_ms booth spec cues = .ok track) windowed tracks) : (tracks.flatMap (·.spoken)).Nodup := by
  refine hids.sublist ?_
  clear hids
  induction htracks with
  | nil => exact .slnil
  | cons htrack _ ih =>
    obtain ⟨duration_ms, booth, spec, h⟩ := htrack
    rw [List.flatMap_cons, List.flatten_cons, List.map_append]
    exact (buildTrack_aligned_of_ok h).once.append ih

/-- **Dubbing tracks are exactly aligned**: for every canonical timeline and all windows without a common time, each cue
is in one window at most and is synthesized once at most; a track that is built has each clip at the start of its cue,
within its slot and from its first frame to its last, and silence elsewhere; no run finds that its frames do not add
up; and the loop over a clip ends on its second turn. -/
theorem buildTrack_aligned {F E : Type} (lib : Library) (fl : Floats F) (source : List TimelineCue) (language : Text)
    (t : CanonicalTimeline) (hcanonical : canonicalTimeline lib fl source language = .ok t)
    (windows : List (Int × Int)) (hdisjoint : Disjoint windows) (windowed : List (List TimelineCue))
    (hwindowed : each (fun w => windowCues t.cues w.1 w.2) windows = .ok windowed) :
    (windowed.flatten.map (·.id)).Nodup ∧
    (∀ tracks, List.Forall₂ (fun cues track => ∃ duration_ms, ∃ booth : Booth E, ∃ spec,
      buildTrack duration_ms booth spec cues = .ok track) windowed tracks → (tracks.flatMap (·.spoken)).Nodup) ∧
    (∀ cues ∈ windowed, ∀ (duration_ms : Nat) (booth : Booth E) (spec : SpeechSpec),
      Raises (buildTrack duration_ms booth spec cues) Accountable ∧
      ∀ track, buildTrack duration_ms booth spec cues = .ok track → Aligned duration_ms cues track) ∧
    ∀ (duration_ms : Nat) (booth : Booth E) (spec : SpeechSpec) (index : Nat) (cue : TimelineCue)
      (rest : List TimelineCue) (taken : Taken) (loaded : Option WaveInfo) (reused : Bool) (spoken : List Text)
      (fuel : Nat), settle duration_ms booth spec index cue rest taken (fuel + 2) loaded reused spoken =
        settle duration_ms booth spec index cue rest taken 2 loaded reused spoken := by
  obtain ⟨-, -, harr, -, rfl⟩ := canonicalTimeline_eq_ok.mp hcanonical
  have hids := windowed_nodup harr.ids hdisjoint hwindowed
  exact ⟨hids, fun _ htracks => spoken_nodup hids htracks,
    fun _ _ _ _ _ => ⟨buildTrack_accountable, fun _ h => buildTrack_aligned_of_ok h⟩,
    fun _ _ _ => settle_fuel⟩

/-! ## runs -/

/-- a clip of two frames -/
def shortClip : WaveFile where
  signature := 0
  size := 48
  sha256 := List.replicate 64 'e'
  channels := 1
  sample_rate := 24000
  sample_width := 2
  compressed := false
  nframes := 2
  pcm := [[1, 2], [3, 4]]

/-- a provider that gives the same clip for every cue -/
def shortBooth : Booth Unit where
  check_cancelled _ := .ok ⟨⟩
  check_cancelled_writing _ := .ok ⟨⟩
  checkpoints _ := .ok none
  synthesize _ := .ok (⟨true, [], [], 1, 24000, 1⟩, shortClip)
  discard _ := .ok ⟨⟩
  persist _ := .ok ⟨⟩
  free _ := .ok 1000000000
  free_writing := .ok 1000000000
  reopen _ := .ok shortClip
  finish := .ok ⟨⟩

def shortSpec : SpeechSpec where
  provider := []
  model := []
  ordinals _ := some 0

/-- the track of two cues that touch -/
def shortTrack : Except (TrackErr Unit) Track := buildTrack 3 shortBooth shortSpec touchingCues

/-- two clips, a millisecond apart -/
theorem shortTrack_aligned : ∃ track, shortTrack = .ok track ∧ Aligned 3 touchingCues track ∧
    track.frames.take 26 = [[1, 2], [3, 4]] ++ List.replicate 22 [0, 0] ++ [[1, 2], [3, 4]] := by
  have hsome : (canonicalTimeline (.fixed anyDigest) Floats.texts touchingCues "zh".toList).toOption.isSome = true := by
    decide +kernel
  have hframes : shortTrack.toOption.map (fun track => track.frames.take 26) =
      some ([[1, 2], [3, 4]] ++ List.replicate 22 [0, 0] ++ [[1, 2], [3, 4]]) := by decide +kernel
  have hwindowed : each (fun w => windowCues touchingCues w.1 w.2) [(0, 3)] = .ok [touchingCues] := by decide +kernel
  cases htrack : shortTrack with
  | error e =>
    rw [htrack] at hframes
    cases hframes
  | ok track =>
    rw [htrack] at hframes
    refine ⟨track, rfl, ?_, Option.some.inj hframes⟩
    cases hcanonical : canonicalTimeline (.fixed anyDigest) Floats.texts touchingCues "zh".toList with
    | error e =>
      rw [hcanonical] at hsome
      cases hsome
    | ok t =>
      have hcues : t.cues = touchingCues := by
        obtain ⟨-, -, -, -, rfl⟩ := canonicalTimeline_eq_ok.mp hcanonical
        rfl
      have haligned := (buildTrack_aligned (E := Unit) (.fixed anyDigest) Floats.texts touchingCues "zh".toList t hcanonical
        [(0, 3)] (List.pairwise_singleton _ _) [touchingCues] (hcues ▸ hwindowed)).2.2.1 touchingCues
        (List.mem_singleton_self _) 3 shortBooth shortSpec
      exact haligned.2 track htrack

end OpenFlame.Editing
