import OpenFlame.Editing.Encodings

/-!
# The subtitles of canonical timelines

`subtitles_round_trip_iff`: **what comes back from the subtitle files of a canonical timeline.**
-/

set_option linter.all false

namespace OpenFlame.Editing
open Guard Text Json

/-- **What the subtitle files of a canonical timeline carry**: the cues come back with their times and shown texts
iff every shown text is carried and the file is no larger than the parsers allow. -/
theorem subtitles_round_trip_iff {F : Type} (lib : Library) (fl : Floats F) (kind : SubtitleKind) (parsed : Text)
    (cues : List TimelineCue) (language : Text) (t : CanonicalTimeline) (texts : Option (Text → Option Text))
    (h : canonicalTimeline lib fl cues language = .ok t) :
    RoundTrips lib parsed kind t.cues texts ↔ (∀ c ∈ t.cues, Carried (shownText texts c)) ∧
      utf8Size (kind.file t.cues texts) ≤ MAX_SUBTITLE_BYTES := by
  obtain ⟨-, hcues, harr, -, rfl⟩ := canonicalTimeline_eq_ok.mp h
  refine roundTrips_iff (harr.validateOrder hcues) (fun c hc => ?_)
  obtain ⟨i, hi⟩ := List.getElem?_of_mem hc
  have hend : c.end_ms ≤ MAX_TIMELINE_MILLISECONDS := (harr.fits i c hi).2.2.1
  exact Nat.lt_of_le_of_lt hend (by decide)

/-! ## runs -/

/-- one cue -/
def oneCue (text : Text) (h : ValidText text) : TimelineCue where
  id := "c1".toList
  order := 0
  start_ms := 250
  end_ms := 1500
  source_text := text
  source_language := "en".toList
  speaker_id := none
  valid_id := by decide
  valid_times := by decide
  valid_text := h
  valid_speaker := valid_noSpeaker

/-- the timeline of one cue -/
def oneCueTimeline (text : Text) (h : ValidText text) (digest : Sha256) : CanonicalTimeline where
  language := "en".toList
  cues := [oneCue text h]
  cues_json := timelineJson Floats.texts [oneCue text h]
  cues_sha256 := digest.1

theorem oneCueTimeline_canonical {text : Text} (h : ValidText text) (digest : Sha256)
    (hsize : utf8Size (timelineJson Floats.texts [oneCue text h]) ≤ MAX_TIMELINE_JSON_BYTES) :
    canonicalTimeline (.fixed digest) Floats.texts [oneCue text h] "en".toList =
      .ok (oneCueTimeline text h digest) := by
  refine canonicalTimeline_eq_ok.mpr ⟨by decide, ⟨List.cons_ne_nil _ _, by simp [MAX_CUES]⟩, ⟨fun i c hc => ?_,
    List.pairwise_singleton _ _, List.isChain_singleton _⟩, hsize, rfl⟩
  match i, hc with
  | 0, hc =>
    obtain rfl := Option.some.inj hc
    exact ⟨rfl, by show isCueId "c1".toList = true; decide, by show 1500 ≤ MAX_TIMELINE_MILLISECONDS; decide, rfl, nofun⟩

/-- the digest of the timeline of one word -/
def helloDigest : Sha256 := ⟨"3815d9d6dd5016dc359334ff2db496265069564e65246835968516c437f55048".toList, by rw [String.toList_ofList]; decide +kernel⟩

theorem carried_hello : Carried "Hello".toList := by
  have hplain : "Hello".toList.all (fun c => !Text.isBreak c && !isControl c) = true := by decide +kernel
  have hchar : ∀ c ∈ "Hello".toList, Text.isBreak c = false ∧ isControl c = false := fun c hc => by
    have h := List.all_eq_true.mp hplain c hc
    rwa [Bool.and_eq_true, Bool.not_eq_true', Bool.not_eq_true'] at h
  refine ⟨by decide, by decide, fun c hc hbreak => ?_, fun c hc => (hchar c hc).2, by decide⟩
  rw [(hchar c hc).1] at hbreak
  cases hbreak

/-- it comes back from both formats -/
theorem subtitles_round_trip_hello :
    RoundTrips (.fixed helloDigest) "und".toList .srt (oneCueTimeline "Hello".toList (by decide) helloDigest).cues none ∧
      RoundTrips (.fixed helloDigest) "und".toList .vtt (oneCueTimeline "Hello".toList (by decide) helloDigest).cues
        none := by
  have htimeline := oneCueTimeline_canonical (by decide : ValidText "Hello".toList) helloDigest (by decide +kernel)
  have hcues : ∀ c ∈ (oneCueTimeline "Hello".toList (by decide) helloDigest).cues, Carried (shownText none c) := by
    intro c hc
    rw [List.mem_singleton.mp hc]
    exact carried_hello
  constructor
  · exact (subtitles_round_trip_iff _ Floats.texts .srt _ _ "en".toList _ none htimeline).mpr
      ⟨hcues, by decide +kernel⟩
  · exact (subtitles_round_trip_iff _ Floats.texts .vtt _ _ "en".toList _ none htimeline).mpr
      ⟨hcues, by decide +kernel⟩

/-- the digest of the timeline of a text with a blank line -/
def blankLineDigest : Sha256 := ⟨"a9352544263ca7bd0d3bf8717c1898a4d8dc6589663d315b82ed81a41ac46b80".toList, by rw [String.toList_ofList]; decide +kernel⟩

/-- **A blank line ends a cue**: the timeline is canonical, and neither format gives it back. -/
theorem subtitles_blank_line_lost : ∃ cues t,
    canonicalTimeline (.fixed blankLineDigest) Floats.texts cues "en".toList = .ok t ∧
      ∀ kind, ¬ RoundTrips (.fixed blankLineDigest) "und".toList kind t.cues none := by
  refine ⟨_, _, oneCueTimeline_canonical (by decide : ValidText ['a', '\n', '\n', 'b']) blankLineDigest
    (by decide +kernel), fun kind h => ?_⟩
  have hshort : ∀ c ∈ [oneCue ['a', '\n', '\n', 'b'] (by decide)], ShortTimes c := by
    intro c hc
    rw [List.mem_singleton.mp hc]
    show 1500 < 3600000 * 1000
    decide
  have hcarried := ((roundTrips_iff (by decide) hshort).mp h).1 _ (List.mem_singleton_self _)
  exact hcarried.no_blank_line ⟨['a'], ['b'], rfl⟩

end OpenFlame.Editing
