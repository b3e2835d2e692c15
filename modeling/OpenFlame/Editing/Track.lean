import OpenFlame.Base.Tape
import OpenFlame.Editing.Windows

/-!
# The dubbing track of a window

`takeClips`    a clip for each cue, reused or synthesized, that fits the slot of the cue
`writeClips`   the clips at their places on a silent track
`buildTrack`   `_build_track`: the clips and then the track

What the speech provider, the checkpoints, the files and the disk answer is a `Booth`.  A WAV file is what its header
says and the frames that can be read of it; a track is a list of frames.
-/

set_option linter.all false

namespace OpenFlame.Editing
open Guard Text

def MAX_SYNTHESIZED_BYTES : Nat := 512 * 1024 * 1024
def MAX_PCM_TRACK_BYTES : Nat := 2 * 1024 * 1024 * 1024
def MAX_CUE_AUDIO_DURATION_MS : Nat := 5 * 60 * 1000
def STREAM_BYTES : Nat := 1024 * 1024
def EDITING_RESERVE_BYTES : Nat := 64 * 1024 * 1024

/-- `EditingError`, by its code, an answer from outside that raises, or a loop that does not end -/
inductive TrackErr (E : Type) where
  | editing (code : String)
  | outside (e : E)
  | endless
  deriving DecidableEq, Repr

/-! ## WAV files -/

/-- the bytes of a frame, all channels of it -/
abbrev Frame := List UInt8

/-- a WAV file as it is found -/
structure WaveFile where
  /-- what `os.stat` says of it, its size apart -/
  signature : Nat
  size : Nat
  sha256 : Text
  channels : Nat
  sample_rate : Nat
  sample_width : Nat
  compressed : Bool
  nframes : Nat
  pcm : List Frame
  deriving DecidableEq

structure WaveInfo where
  signature : Nat
  size : Nat
  frames : Nat
  sample_rate : Nat
  channels : Nat
  sample_width : Nat
  duration_ms : Nat
  sha256 : Text
  deriving DecidableEq

def WaveInfo.frame_bytes (info : WaveInfo) : Nat := info.channels * info.sample_width

/-- sample rate, channels and sample width -/
structure WaveFormat where
  sample_rate : Nat
  channels : Nat
  sample_width : Nat
  deriving DecidableEq

def WaveFormat.frame_bytes (f : WaveFormat) : Nat := f.channels * f.sample_width

def WaveInfo.format (info : WaveInfo) : WaveFormat := ⟨info.sample_rate, info.channels, info.sample_width⟩

/-- `round(a / b)`, halves to the even side -/
def roundHalfEven (a b : Nat) : Nat :=
  if 2 * (a % b) < b ∨ (2 * (a % b) = b ∧ a / b % 2 = 0) then a / b else a / b + 1

/-- `remaining` frames, no more than 65536 at a time; a read that gives nothing ends the loop -/
def readLoop : Nat → Nat → List Frame → Option (List Frame)
  | _, 0, _ => some []
  | 0, _ + 1, _ => none
  | fuel + 1, remaining + 1, pcm =>
    let payload := pcm.take (min (remaining + 1) 65536)
    if payload = [] then none
    else (readLoop fuel (remaining + 1 - payload.length) (pcm.drop payload.length)).map (payload ++ ·)

/-- the first `frames` frames, read piece by piece -/
def readFrames (frames : Nat) (pcm : List Frame) : Option (List Frame) := readLoop frames frames pcm

/-- zeros for `remaining` frames, no more than `chunk_frames` at a time -/
def zerosLoop (chunk_frames frame_bytes : Nat) : Nat → Nat → List Frame
  | _, 0 => []
  | 0, _ + 1 => []
  | fuel + 1, remaining + 1 =>
    let count := min (remaining + 1) chunk_frames
    List.replicate count (List.replicate frame_bytes 0) ++
      zerosLoop chunk_frames frame_bytes fuel (remaining + 1 - count)

/-- `_write_zeros` -/
def writeZeros (frames frame_bytes : Nat) : List Frame :=
  zerosLoop (max 1 (STREAM_BYTES / frame_bytes)) frame_bytes frames frames

section
variable {E : Type}

/-- `_verified_wave_file`, of a file that is read -/
def verifiedWaveFile (file : WaveFile) (cue : TimelineCue) (code : String) : Except (TrackErr E) WaveInfo := do
  require ((file.channels = 1 ∨ file.channels = 2) ∧
    (file.sample_rate = 24000 ∨ file.sample_rate = 44100 ∨ file.sample_rate = 48000) ∧ 0 < file.nframes ∧
    (file.sample_width = 2 ∨ file.sample_width = 3 ∨ file.sample_width = 4) ∧ file.compressed = false)
    (.editing code)
  require (file.nframes ≤ file.size / (file.channels * file.sample_width)) (.editing code)
  let _ ← fetch (readFrames file.nframes file.pcm) (.editing code)
  let duration_ms := max 1 (roundHalfEven (file.nframes * 1000) file.sample_rate)
  require (duration_ms ≤ min MAX_CUE_AUDIO_DURATION_MS (max 15000 ((cue.end_ms - cue.start_ms) * 4))) (.editing code)
  return {
    signature := file.signature
    size := file.size
    frames := file.nframes
    sample_rate := file.sample_rate
    channels := file.channels
    sample_width := file.sample_width
    duration_ms
    sha256 := file.sha256 }

/-- what a provider says of the clip it wrote -/
structure SpeechClip where
  /-- `clip.path == path` -/
  same_path : Bool
  provider_id : Text
  model_id : Text
  duration_ms : Nat
  sample_rate : Nat
  channels : Nat

/-- `_inspect_wave` -/
def inspectWave (file : WaveFile) (clip : SpeechClip) (cue : TimelineCue) : Except (TrackErr E) WaveInfo := do
  let info ← verifiedWaveFile file cue "ai_speech_output_invalid"
  require (clip.same_path = true ∧ clip.duration_ms = info.duration_ms ∧ clip.sample_rate = info.sample_rate ∧
    clip.channels = info.channels) (.editing "ai_speech_output_invalid")
  return info

/-- `_copy_frames`, of a file that is there -/
def copyFrames (file : WaveFile) (info : WaveInfo) (frame_limit : Nat) : Except (TrackErr E) (List Frame) := do
  require (info.frames ≤ frame_limit) (.editing "ai_speech_timing_overflow")
  require (file.signature = info.signature ∧ file.sha256 = info.sha256) (.editing "ai_speech_output_changed")
  require (file.channels = info.channels ∧ file.sample_rate = info.sample_rate ∧ file.nframes = info.frames ∧
    file.sample_width = info.sample_width ∧ file.compressed = false) (.editing "ai_speech_output_changed")
  fetch (readFrames info.frames file.pcm) (.editing "ai_speech_output_invalid")

/-! ## the world of a track -/

/-- the answers to what is asked for a cue, by the position of the cue -/
structure Booth (E : Type) where
  /-- `_check_cancelled` before a clip is taken, and before it is written -/
  check_cancelled : Nat → Except E Unit
  check_cancelled_writing : Nat → Except E Unit
  /-- the registered checkpoints with their digests, and the fingerprint before them; `none` without a cache -/
  checkpoints : Nat → Except E (Option (List (Text × WaveFile)))
  /-- `synthesize`, or `synthesize_ledgered`, and the file it wrote -/
  synthesize : Nat → Except E (SpeechClip × WaveFile)
  discard : Nat → Except E Unit
  persist : Nat → Except E Unit
  /-- `shutil.disk_usage(scratch).free` -/
  free : Nat → Except E Nat
  free_writing : Except E Nat
  /-- the clip of a cue when it is opened again -/
  reopen : Nat → Except E WaveFile
  /-- everything after the last frame -/
  finish : Except E Unit

/-- what is wanted of the clips -/
structure SpeechSpec where
  provider : Text
  model : Text
  /-- `cue_ordinals` -/
  ordinals : Text → Option Nat

/-- an answer from outside -/
def asked {α : Type} (x : Except E α) : Except (TrackErr E) α := x.mapError .outside

/-- a statement under an `if` -/
def onlyIf (c : Prop) [Decidable c] (x : Except (TrackErr E) Unit) : Except (TrackErr E) Unit :=
  if c then x else return ⟨⟩

/-- the clips that were taken -/
structure Taken where
  clips : List WaveInfo
  total_bytes : Nat
  expected_format : Option WaveFormat
  /-- the cues that were synthesized -/
  spoken : List Text

/-! ## clips -/

section
variable (duration_ms : Nat)

def startFrame (cue : TimelineCue) (sample_rate : Nat) : Nat := cue.start_ms * sample_rate / 1000

/-- `cues[index + 1].start_ms if index + 1 < len(cues) else cue.end_ms` -/
def nextStart (cue : TimelineCue) (rest : List TimelineCue) : Nat :=
  match rest with
  | [] => cue.end_ms
  | next :: _ => next.start_ms

def slotEndFrame (cue : TimelineCue) (rest : List TimelineCue) (sample_rate : Nat) : Nat :=
  min (min cue.end_ms (nextStart cue rest)) duration_ms * sample_rate / 1000

def totalFrames (sample_rate : Nat) : Nat := (duration_ms * sample_rate + 999) / 1000

def plannedSize (f : WaveFormat) : Nat := 44 + totalFrames duration_ms f.sample_rate * f.frame_bytes

/-- what a clip's format, or the size of a track in it, is rejected for -/
def formatRejection (taken : Taken) (info : WaveInfo) : Option String :=
  match taken.expected_format with
  | none => if MAX_PCM_TRACK_BYTES < plannedSize duration_ms info.format then some "ai_audio_track_too_large" else none
  | some f => if info.format ≠ f then some "ai_speech_format_changed" else none

/-- why a clip is not taken -/
def rejection (taken : Taken) (cue : TimelineCue) (rest : List TimelineCue) (info : WaveInfo) : Option String :=
  match formatRejection duration_ms taken info with
  | some code => some code
  | none =>
    if MAX_SYNTHESIZED_BYTES < taken.total_bytes + info.size then some "ai_speech_output_too_large"
    else if slotEndFrame duration_ms cue rest info.sample_rate - startFrame cue info.sample_rate < info.frames then
      some "ai_speech_timing_overflow"
    else none

variable (booth : Booth E) (spec : SpeechSpec)

/-- a checkpoint that is verified, the first of them -/
def loadCheckpoint (cue : TimelineCue) (files : List (Text × WaveFile)) : Option WaveInfo :=
  files.findSome? (fun x =>
    match verifiedWaveFile (E := E) x.2 cue "ai_speech_checkpoint_invalid" with
    | .ok info => if 0 < info.size ∧ info.sha256 = x.1 then some info else none
    | .error _ => none)

/-- a clip that is made now -/
def speak (index : Nat) (cue : TimelineCue) : Except (TrackErr E) WaveInfo := do
  let (clip, file) ← asked (booth.synthesize index)
  require (clip.provider_id = spec.provider ∧ clip.model_id = spec.model) (.editing "ai_speech_provider_mismatch")
  inspectWave file clip cue

/-- a clip that is taken, whether it was reused, and the synthesized cues with it -/
structure Settled where
  info : WaveInfo
  reused : Bool
  spoken : List Text

/-- the loop over a loaded clip and a new one -/
def settle (index : Nat) (cue : TimelineCue) (rest : List TimelineCue) (taken : Taken) :
    Nat → Option WaveInfo → Bool → List Text → Except (TrackErr E) Settled
  | 0, _, _, _ => throw .endless
  | fuel + 1, info?, reused, spoken => do
    let spoken := if info?.isSome then spoken else spoken ++ [cue.id]
    let info ← match info? with
      | some info => .ok info
      | none => speak booth spec index cue
    match rejection duration_ms taken cue rest info with
    | none => return { info, reused, spoken }
    | some code =>
      if reused then do
        asked (booth.discard index)
        settle index cue rest taken fuel none false spoken
      else throw (.editing code)

/-- one turn of the loop over the cues -/
def takeClip (index : Nat) (cue : TimelineCue) (rest : List TimelineCue) (taken : Taken) :
    Except (TrackErr E) Taken := do
  asked (booth.check_cancelled index)
  let _ ← fetch (spec.ordinals cue.id) (.editing "ai_timeline_invalid")
  let files ← asked (booth.checkpoints index)
  let loaded := (files.getD []) |> loadCheckpoint (E := E) cue
  let settled ← settle duration_ms booth spec index cue rest taken 2 loaded loaded.isSome taken.spoken
  onlyIf (settled.reused = false ∧ files.isSome = true) (asked (booth.persist index))
  onlyIf (taken.expected_format = none) (do
    let free ← asked (booth.free index)
    require (plannedSize duration_ms settled.info.format + EDITING_RESERVE_BYTES ≤ free)
      (.editing "editing_storage_full"))
  return {
    clips := taken.clips ++ [settled.info]
    total_bytes := taken.total_bytes + settled.info.size
    expected_format := some (taken.expected_format.getD settled.info.format)
    spoken := settled.spoken }

def takeClips : Nat → List TimelineCue → Taken → Except (TrackErr E) Taken
  | _, [], taken => return taken
  | index, cue :: rest, taken => do
    let taken ← takeClip duration_ms booth spec index cue rest taken
    takeClips (index + 1) rest taken

/-! ## the track -/

/-- the loop over the cues and their clips: the frames so far, and how many the loop counts -/
def writeClips (f : WaveFormat) : Nat → List TimelineCue → List WaveInfo → List Frame → Nat →
    Except (TrackErr E) (List Frame × Nat)
  | _, [], [], written, current_frame => return (written, current_frame)
  | index, cue :: rest, info :: infos, written, current_frame => do
    asked (booth.check_cancelled_writing index)
    let start_frame := startFrame cue f.sample_rate
    let slot_end_frame := slotEndFrame duration_ms cue rest f.sample_rate
    require (current_frame ≤ start_frame) (.editing "ai_timeline_overlap_invalid")
    let written := written ++ writeZeros (start_frame - current_frame) f.frame_bytes
    let file ← asked (booth.reopen index)
    let copied ← copyFrames file info (slot_end_frame - start_frame)
    writeClips f (index + 1) rest infos (written ++ copied) (start_frame + copied.length)
  -- `zip(cues, clips, strict=True)`
  | _, _, _, _, _ => throw (.editing "strict")

/-- a finished track -/
structure Track where
  format : WaveFormat
  clips : List WaveInfo
  spoken : List Text
  frames : List Frame

/-- `_build_track` -/
def buildTrack (cues : List TimelineCue) : Except (TrackErr E) Track := do
  let silent : Option WaveFormat := if cues = [] then some ⟨24000, 1, 2⟩ else none
  let taken ← takeClips duration_ms booth spec 0 cues
    { clips := [], total_bytes := 0, expected_format := silent, spoken := [] }
  let f ← fetch taken.expected_format (.editing "expected_format")
  let free ← asked booth.free_writing
  require (plannedSize duration_ms f + EDITING_RESERVE_BYTES ≤ free) (.editing "editing_storage_full")
  let (written, current_frame) ← writeClips duration_ms booth f 0 cues taken.clips [] 0
  require (current_frame ≤ totalFrames duration_ms f.sample_rate) (.editing "ai_audio_track_invalid")
  let frames := written ++ writeZeros (totalFrames duration_ms f.sample_rate - current_frame) f.frame_bytes
  asked booth.finish
  return { format := f, clips := taken.clips, spoken := taken.spoken, frames }

end

end

end OpenFlame.Editing
