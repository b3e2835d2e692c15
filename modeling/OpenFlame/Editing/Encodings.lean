import OpenFlame.Editing.Pipeline
import OpenFlame.Editing.Subtitles

/-!
# Stored AI requests and timelines are exact encodings

`AiOptions.items_parse`   the options of a request are parsed back from the value they are written as
`canonicalAiRequest_iff`  what a request that is made consists of

`decode_request`, `decode_timeline`   **what is stored is decoded to itself.**
-/

set_option linter.all false

namespace OpenFlame.Editing
open Guard Text Json

section
variable {F : Type}

/-! ## values -/

theorem identifier_str (i : Identifier) : identifier (F := F) (.str i.1) = .ok i := by
  simp only [identifier, bind_eq_ok, fetch_eq_ok, ensure_eq_ok]
  exact ⟨i.1, rfl, rfl⟩

theorem providerToken_str (t : ProviderToken) : providerToken (F := F) (.str t.1) = .ok t := by
  simp only [providerToken, bind_eq_ok, fetch_eq_ok, ensure_eq_ok]
  exact ⟨t.1, rfl, rfl⟩

theorem language_str (l : Language) : language (F := F) (.str l.1) = .ok l := by
  simp only [language, bind_eq_ok, fetch_eq_ok, ensure_eq_ok]
  exact ⟨l.1, rfl, rfl⟩

theorem term_str (t : Term) : term (F := F) (.str t.1) = .ok t := by
  simp only [term, bind_eq_ok, fetch_eq_ok, require_eq_ok, ensure_eq_ok]
  exact ⟨t.1, rfl, ⟨⟩, t.2.1, t.2.2.2.2⟩

/-! ## options -/

theorem parseClip_items (c : Option Clip) (rest : List (String × Value F))
    (h : rest.lookup "clip_start_ms" = none ∧ rest.lookup "clip_end_ms" = none) :
    parseClip (get (record (clipItems c ++ rest)) "clip_start_ms") (get (record (clipItems c ++ rest)) "clip_end_ms") =
      .ok c := by
  rw [get_record, get_record]
  cases c with
  | none =>
    show parseClip ((rest.lookup _).getD _) ((rest.lookup _).getD _) = _
    rw [h.1, h.2]
    rfl
  | some c =>
    show parseClip (.int c.clip_start_ms) (.int c.clip_end_ms) = _
    simp only [parseClip, bind_eq_ok, fetch_eq_ok, ensure_eq_ok, pure_eq_ok]
    exact ⟨_, rfl, _, rfl, ⟨(), c.valid⟩, trivial, rfl⟩

theorem parseTranscription_items (o : Transcription) :
    parseTranscription (F := F) .null (record (AiOptions.transcribe o).items) = .ok o := by
  obtain ⟨spoken, vad, word_timestamps, clip⟩ := o
  have hkeys : HasKeys (record (AiOptions.transcribe ⟨spoken, vad, word_timestamps, clip⟩).items (F := F)) []
      ["language", "word_timestamps", "vad", "clip_start_ms", "clip_end_ms"] := by
    cases clip with
    | none => exact (hasKeys_record ["language", "vad", "word_timestamps"] rfl).mpr (by decide)
    | some c =>
      exact (hasKeys_record ["clip_end_ms", "clip_start_ms", "language", "vad", "word_timestamps"] rfl).mpr
        (by decide)
  have hlang : get (record (AiOptions.transcribe ⟨spoken, vad, word_timestamps, clip⟩).items (F := F)) "language" =
      ofOption (spoken.map Subtype.val) := by
    rw [get_record]
    cases clip <;> rfl
  have hvad : getOr (record (AiOptions.transcribe ⟨spoken, vad, word_timestamps, clip⟩).items (F := F)) "vad"
      (.bool true) = .bool vad := by
    rw [getOr_record]
    cases clip <;> rfl
  have hword : getOr (record (AiOptions.transcribe ⟨spoken, vad, word_timestamps, clip⟩).items (F := F))
      "word_timestamps" (.bool true) = .bool word_timestamps := by
    rw [getOr_record]
    cases clip <;> rfl
  have hclip := parseClip_items (F := F) clip [("language", ofOption (spoken.map Subtype.val)), ("vad", .bool vad),
    ("word_timestamps", .bool word_timestamps)] ⟨rfl, rfl⟩
  have hspoken : spokenLanguage (F := F) (ofOption (spoken.map Subtype.val)) = .ok spoken := by
    cases spoken with
    | none => rfl
    | some l =>
      show (language (F := F) (.str l.1)).map some = _
      rw [language_str]
      rfl
  have hitems : record (AiOptions.transcribe ⟨spoken, vad, word_timestamps, clip⟩).items (F := F) =
    record (clipItems clip ++ [("language", ofOption (spoken.map Subtype.val)), ("vad", .bool vad),
      ("word_timestamps", .bool word_timestamps)]) := rfl
  unfold parseTranscription
  rw [require_pos rfl, ok_bind, require_pos hkeys, ok_bind, hlang, hspoken, ok_bind, hvad, hword, hitems]
  show (parseClip _ _ >>= _) = _
  rw [hclip]
  rfl

theorem glossary_thread (done glossary : List (Term × Term)) (h : ((done ++ glossary).map (·.1.1)).Nodup) :
    thread glossaryStep done (glossary.map (fun g => Value.arr (F := F) [.str g.1.1, .str g.2.1])) =
      .ok (done ++ glossary) := by
  induction glossary generalizing done with
  | nil =>
    rw [List.append_nil]
    rfl
  | cons g glossary ih =>
    have hnew : g.1.1 ∉ done.map (·.1.1) := by
      rw [List.map_append, List.map_cons] at h
      intro hmem
      exact (List.nodup_append.mp h).2.2 _ hmem _ List.mem_cons_self rfl
    have hstep : glossaryStep (F := F) done (.arr [.str g.1.1, .str g.2.1]) = .ok (done ++ [g]) := by
      simp only [glossaryStep, term_str, ok_bind]
      rw [require_pos hnew]
      rfl
    rw [List.map_cons, thread, hstep]
    show thread glossaryStep (done ++ [g]) _ = _
    rw [ih _ (by rw [List.append_assoc]; exact h), List.append_assoc]
    rfl

theorem parseTranslation_items (o : Translation) :
    parseTranslation (F := F) (.str o.source_revision_id.1) (record (AiOptions.translate o).items) = .ok o := by
  have hkeys : HasKeys (record (AiOptions.translate o).items (F := F)) ["source_language", "target_language"]
      ["source_language", "target_language", "glossary"] :=
    (hasKeys_record ["glossary", "source_language", "target_language"] rfl).mpr (by decide)
  have hsource : get (record (AiOptions.translate o).items (F := F)) "source_language" = .str o.source_language.1 :=
    get_record _ _
  have htarget : get (record (AiOptions.translate o).items (F := F)) "target_language" = .str o.target_language.1 :=
    get_record _ _
  have hglossary : getOr (record (AiOptions.translate o).items (F := F)) "glossary" (.arr []) =
      .arr (o.glossary.map (fun g => .arr [.str g.1.1, .str g.2.1])) := getOr_record _ _ _
  have hthread := glossary_thread (F := F) [] o.glossary o.valid_glossary.2
  have hlen : (o.glossary.map (fun g => Value.arr (F := F) [.str g.1.1, .str g.2.1])).length ≤ MAX_GLOSSARY_ITEMS := by
    rw [List.length_map]
    exact o.valid_glossary.1
  unfold parseTranslation
  rw [identifier_str, ok_bind, require_pos hkeys, ok_bind, hsource, language_str, ok_bind, htarget, language_str,
    ok_bind, hglossary]
  simp only [bind_eq_ok, ensure_eq_ok, require_eq_ok, pure_eq_ok]
  exact ⟨⟨(), o.valid_languages⟩, trivial, _, rfl, ⟨⟩, hlen, o.glossary, hthread, ⟨(), o.valid_glossary⟩, trivial, rfl⟩

/-- **Options are parsed back.** -/
theorem parseOptions_items (o : AiOptions) :
    parseOptions (F := F) (.str o.operation.name) (ofOption o.source_revision_id) (record o.items) = .ok o := by
  have hop : (text? (F := F) (.str o.operation.name)).bind TaskOperation.ofText = some o.operation :=
    TaskOperation.ofText_name _
  unfold parseOptions
  rw [hop]
  cases o with
  | transcribe o =>
    show (parseTranscription (F := F) .null _).map AiOptions.transcribe = _
    rw [parseTranscription_items]
    rfl
  | translate o =>
    show (parseTranslation (F := F) (.str o.source_revision_id.1) _).map AiOptions.translate = _
    rw [parseTranslation_items]
    rfl

/-! ## requests -/

variable {lib : Library} {fl : Floats F}

theorem canonical_ofOption (o : Option Text) : Canonical (F := F) (ofOption o) := by
  cases o with
  | none => exact .null
  | some s => exact .str s

theorem canonical_options (o : AiOptions) : Canonical (F := F) (.obj (record o.items)) := by
  cases o with
  | transcribe o =>
    obtain ⟨spoken, vad, word_timestamps, clip⟩ := o
    have htail : ∀ m ∈ [("language", ofOption (F := F) (spoken.map Subtype.val)), ("vad", .bool vad),
        ("word_timestamps", .bool word_timestamps)], Canonical m.2 := by
      simp only [List.forall_mem_cons]
      exact ⟨canonical_ofOption _, .bool _, .bool _, fun m hm => nomatch hm⟩
    cases clip with
    | none => exact canonical_record ["language", "vad", "word_timestamps"] rfl (by decide) htail
    | some c =>
      refine canonical_record ["clip_end_ms", "clip_start_ms", "language", "vad", "word_timestamps"] rfl
        (by decide) (fun m hm => ?_)
      rcases List.mem_cons.mp hm with rfl | hm
      · exact .int _
      · rcases List.mem_cons.mp hm with rfl | hm
        · exact .int _
        · exact htail m hm
  | translate o =>
    refine canonical_record ["glossary", "source_language", "target_language"] rfl (by decide) ?_
    show ∀ m ∈ [("glossary", Value.arr (o.glossary.map (fun g => .arr [.str g.1.1, .str g.2.1]))),
        ("source_language", .str o.source_language.1), ("target_language", .str o.target_language.1)], Canonical m.2
    simp only [List.forall_mem_cons]
    refine ⟨.arr (fun v hv => ?_), .str _, .str _, fun m hm => nomatch hm⟩
    obtain ⟨g, -, rfl⟩ := List.mem_map.mp hv
    refine .arr ?_
    simp only [List.forall_mem_cons]
    exact ⟨.str _, .str _, fun v hv => nomatch hv⟩

namespace CanonicalAiRequest

variable (lib)

/-- the items of a request -/
def items (c : CanonicalAiRequest fl) : List (String × Value F) :=
  requestItems c.project_id c.provider_id c.model_id c.options c.authorization

/-- a request is exactly what it says -/
structure Exact (c : CanonicalAiRequest fl) : Prop where
  authorized : ∀ a ∈ c.authorization, Authorizes c.provider_id c.model_id c.options a
  encoded : c.request_json = dumps fl (.obj (record c.items))
  size : utf8Size c.request_json ≤ MAX_AI_REQUEST_BYTES
  digest : c.request_sha256 = lib.sha256 c.request_json

variable {lib} {c : CanonicalAiRequest fl}

theorem names (c : CanonicalAiRequest fl) : c.items.map Prod.fst =
    if c.authorization.isSome then
      ["authorization", "model_id", "operation", "options", "project_id", "provider_id", "source_revision_id"]
    else ["model_id", "operation", "options", "project_id", "provider_id", "source_revision_id"] := by
  obtain ⟨_, _, _, _, a, _, _⟩ := c
  cases a <;> rfl

theorem canonical (c : CanonicalAiRequest fl) : Canonical (.obj (record c.items)) := by
  have htail : ∀ m ∈ [("model_id", Value.str c.model_id.1), ("operation", .str c.options.operation.name),
      ("options", .obj (record c.options.items)), ("project_id", .str c.project_id.1),
      ("provider_id", .str c.provider_id.1), ("source_revision_id", ofOption c.options.source_revision_id)],
      Canonical (F := F) m.2 := by
    simp only [List.forall_mem_cons]
    exact ⟨.str _, .str _, canonical_options _, .str _, .str _, canonical_ofOption _, fun m hm => nomatch hm⟩
  have hsorted : ((if c.authorization.isSome then
      ["authorization", "model_id", "operation", "options", "project_id", "provider_id", "source_revision_id"]
      else ["model_id", "operation", "options", "project_id", "provider_id", "source_revision_id"]).map
        String.toList).Pairwise (fun a b => before a b = true) := by
    generalize c.authorization.isSome = b
    cases b <;> decide
  refine canonical_record _ c.names hsorted (fun m hm => ?_)
  rcases List.mem_append.mp hm with hm | hm
  · cases ha : c.authorization with
    | none =>
      rw [ha] at hm
      cases hm
    | some a =>
      rw [ha] at hm
      rw [List.mem_singleton.mp hm]
      exact canonical_toDict a
  · exact htail m hm

/-- the authorization in the value of a request -/
theorem get_authorization (c : CanonicalAiRequest fl) :
    parseOperationAuthorization fl (get (record c.items) "authorization") = .ok c.authorization := by
  obtain ⟨_, _, _, _, a, _, _⟩ := c
  rw [get_record]
  cases a with
  | none => rfl
  | some a => exact parse_toDict a

theorem get_items (c : CanonicalAiRequest fl) :
    get (record c.items) "project_id" = .str c.project_id.1 ∧
      get (record c.items) "operation" = .str c.options.operation.name ∧
      get (record c.items) "provider_id" = .str c.provider_id.1 ∧
      get (record c.items) "model_id" = .str c.model_id.1 ∧
      get (record c.items) "source_revision_id" = ofOption c.options.source_revision_id ∧
      get (record c.items) "options" = .obj (record c.options.items) := by
  obtain ⟨_, _, _, _, a, _, _⟩ := c
  simp only [get_record]
  cases a <;> exact ⟨rfl, rfl, rfl, rfl, rfl, rfl⟩

end CanonicalAiRequest

variable {project_id operation provider_id model_id source_revision_id options authorization : Value F}
  {c : CanonicalAiRequest fl}

/-- a request that is made is exact -/
theorem exact_of_canonicalAiRequest (h : canonicalAiRequest lib fl project_id operation provider_id model_id
    source_revision_id options authorization = .ok c) : c.Exact lib := by
  simp only [canonicalAiRequest, bind_eq_ok, require_eq_ok, pure_eq_ok] at h
  obtain ⟨project, -, provider, -, model, -, _, -, o, -, a, -, _, hauth, _, hsize, rfl⟩ := h
  exact ⟨hauth, rfl, hsize, rfl⟩

/-- an exact request is made of its items -/
theorem canonicalAiRequest_items (h : c.Exact lib) :
    canonicalAiRequest lib fl (get (record c.items) "project_id") (get (record c.items) "operation")
      (get (record c.items) "provider_id") (get (record c.items) "model_id")
      (get (record c.items) "source_revision_id") (get (record c.items) "options")
      (get (record c.items) "authorization") = .ok c := by
  obtain ⟨hproject, hop, hprovider, hmodel, hrevision, hoptions⟩ := c.get_items
  rw [hproject, hop, hprovider, hmodel, hrevision, hoptions]
  simp only [canonicalAiRequest, bind_eq_ok, require_eq_ok, pure_eq_ok, c.get_authorization]
  refine ⟨_, identifier_str _, _, providerToken_str _, _, providerToken_str _, _, rfl, _, parseOptions_items _, _, rfl,
    ⟨⟩, h.authorized, ⟨⟩, ?_, ?_⟩
  · have hsize := h.size
    rw [h.encoded] at hsize
    exact hsize
  · have hdigest := h.digest
    rw [h.encoded] at hdigest
    obtain ⟨_, _, _, _, _, json, sha⟩ := c
    have hjson : json = _ := h.encoded
    have hsha : sha = _ := hdigest
    rw [hjson, hsha]
    rfl

/-- an authorization that is written is not `null` -/
theorem not_nullAuthorization (c : CanonicalAiRequest fl) : ¬ ("authorization".toList ∈ keys (record c.items) ∧
    (get (record c.items) "authorization" matches .null) = true) := by
  rintro ⟨hmem, hnull⟩
  rw [keys_record, c.names] at hmem
  rw [get_record] at hnull
  have hsome : c.authorization.isSome = true := by
    revert hmem
    generalize c.authorization.isSome = b
    cases b <;> decide
  obtain ⟨_, _, _, _, a, _, _⟩ := c
  cases a with
  | none => cases hsome
  | some a => exact absurd hnull Bool.false_ne_true

/-- **A stored request is decoded to itself.** -/
theorem decode_request (h : c.Exact lib) : decodeAiRequest lib fl c.request_json c.request_sha256 = .ok c := by
  have hraw : (loads fl c.request_json).bind object? = some (record c.items) := by
    rw [h.encoded, loads_dumps c.canonical]
    rfl
  have hkeys : HasKeys (record c.items)
      ["model_id", "operation", "options", "project_id", "provider_id", "source_revision_id"]
      ["model_id", "operation", "options", "project_id", "provider_id", "source_revision_id", "authorization"] := by
    refine (hasKeys_record _ c.names).mpr ?_
    generalize c.authorization.isSome = b
    cases b <;> decide
  simp only [decodeAiRequest, bind_eq_ok, require_eq_ok, fetch_eq_ok, pure_eq_ok]
  refine ⟨⟨⟩, ⟨?_, h.size⟩, _, hraw, ⟨⟩, hkeys, ⟨⟩, not_nullAuthorization c, c, canonicalAiRequest_items h, ⟨⟩, ⟨rfl, rfl⟩, rfl⟩
  rw [h.digest]
  exact lib.hex_sha256 _

/-! ## timelines -/

variable {language : Text} {cues done out : List TimelineCue} {cue : TimelineCue} {t : CanonicalTimeline}

/-- a cue is made again of its fields -/
theorem again_self (cue : TimelineCue) : cue.again = .ok cue := by
  have horder : 0 ≤ (cue.order : Int) ∧ 0 ≤ (cue.start_ms : Int) ∧ (cue.start_ms : Int) < (cue.end_ms : Int) := by
    have := cue.valid_times
    omega
  unfold TimelineCue.again TimelineCue.make
  rw [dif_pos cue.valid_id, dif_pos horder, dif_pos cue.valid_text, dif_pos cue.valid_speaker]
  rfl

/-- cues in the order of a canonical timeline -/
structure Arranged (language : Text) (cues : List TimelineCue) : Prop where
  fits : ∀ i c, cues[i]? = some c → CueFits language i c
  ids : (cues.map (·.id)).Nodup
  times : cues.IsChain (fun a b => a.start_ms ≤ b.start_ms)

/-- what the next cue needs, after those that are arranged -/
theorem arranged_concat : Arranged language (done ++ [cue]) ↔ Arranged language done ∧
    CueFits language done.length cue ∧ cue.id ∉ done.map (·.id) ∧ ∀ c ∈ done.getLast?, c.start_ms ≤ cue.start_ms := by
  constructor
  · rintro ⟨hfits, hids, htimes⟩
    rw [List.map_append, List.nodup_append] at hids
    rw [List.isChain_append] at htimes
    refine ⟨⟨fun i c hc => hfits i c ?_, hids.1, htimes.1⟩, hfits _ _ List.getElem?_concat_length, fun hmem => ?_,
      fun c hc => htimes.2.2 c hc cue rfl⟩
    · rw [List.getElem?_append_left (List.getElem?_eq_some_iff.mp hc).1]
      exact hc
    · exact hids.2.2 _ hmem _ (List.mem_singleton_self _) rfl
  · rintro ⟨⟨hfits, hids, htimes⟩, hcue, hnew, hlast⟩
    refine ⟨fun i c hc => ?_, ?_, ?_⟩
    · rcases Nat.lt_trichotomy i done.length with h | h | h
      · rw [List.getElem?_append_left h] at hc
        exact hfits i c hc
      · subst h
        rw [List.getElem?_concat_length] at hc
        obtain rfl := Option.some.inj hc
        exact hcue
      · rw [List.getElem?_eq_none (by rw [List.length_append, List.length_singleton]; omega)] at hc
        cases hc
    · rw [List.map_append, List.nodup_append]
      refine ⟨hids, List.pairwise_singleton _ _, fun a ha b hb => ?_⟩
      rw [List.mem_singleton.mp hb]
      rintro rfl
      exact hnew ha
    · rw [List.isChain_append]
      refine ⟨htimes, List.isChain_singleton _, fun c hc d hd => ?_⟩
      cases hd
      exact hlast c hc

theorem Arranged.front (h : Arranged language (done ++ cues)) : Arranged language done := by
  obtain ⟨hfits, hids, htimes⟩ := h
  rw [List.map_append, List.nodup_append] at hids
  rw [List.isChain_append] at htimes
  refine ⟨fun i c hc => hfits i c ?_, hids.1, htimes.1⟩
  rw [List.getElem?_append_left (List.getElem?_eq_some_iff.mp hc).1]
  exact hc

/-- **The loop keeps the cues as they are**, and ends iff they are arranged. -/
theorem thread_timelineStep (hdone : Arranged language done) :
    thread (timelineStep language) done cues = .ok out ↔ Arranged language (done ++ cues) ∧ out = done ++ cues := by
  induction cues generalizing done with
  | nil =>
    rw [List.append_nil]
    exact ⟨fun h => by cases h; exact ⟨hdone, rfl⟩, fun h => by rw [h.2]; rfl⟩
  | cons cue cues ih =>
    have hstep : ∀ mid, timelineStep language done cue = .ok mid ↔ Arranged language (done ++ [cue]) ∧ mid = done ++ [cue] := by
      intro mid
      simp only [timelineStep, bind_eq_ok, require_eq_ok, pure_eq_ok, again_self, arranged_concat]
      constructor
      · rintro ⟨_, hchecks, c, hc, rfl⟩
        cases hc
        exact ⟨⟨hdone, hchecks⟩, rfl⟩
      · rintro ⟨⟨-, hchecks⟩, rfl⟩
        exact ⟨⟨⟩, hchecks, cue, rfl, rfl⟩
    have hassoc : done ++ cue :: cues = (done ++ [cue]) ++ cues := by simp
    rw [hassoc, thread]
    constructor
    · intro h
      split at h
      · cases h
      · next mid hmid =>
        obtain ⟨harr, rfl⟩ := (hstep mid).mp hmid
        exact (ih harr).mp h
    · rintro ⟨harr, rfl⟩
      have hmid := (hstep (done ++ [cue])).mpr ⟨harr.front, rfl⟩
      rw [hmid]
      exact (ih harr.front).mpr ⟨harr, rfl⟩

/-- arranged cues are in the order that the serializers want -/
theorem Arranged.validateOrder (h : Arranged language cues) (hcues : cues ≠ [] ∧ cues.length ≤ MAX_CUES) :
    validateOrder cues = .ok cues := validateOrder_eq_ok.mpr ⟨hcues, h.times, rfl⟩

/-- **What a canonical timeline is.** -/
theorem canonicalTimeline_eq_ok : canonicalTimeline lib fl cues language = .ok t ↔
    isLanguage language = true ∧ (cues ≠ [] ∧ cues.length ≤ MAX_CUES) ∧ Arranged language cues ∧
      utf8Size (timelineJson fl cues) ≤ MAX_TIMELINE_JSON_BYTES ∧
      t = { language, cues, cues_json := timelineJson fl cues, cues_sha256 := lib.sha256 (timelineJson fl cues) } := by
  have hthread : ∀ out, thread (timelineStep language) [] cues = .ok out ↔ Arranged language cues ∧ out = cues :=
    fun out => thread_timelineStep ⟨fun i c hc => (nomatch hc), List.nodup_nil, List.isChain_nil⟩
  simp only [canonicalTimeline, bind_eq_ok, require_eq_ok, pure_eq_ok, hthread]
  constructor
  · rintro ⟨_, hlang, _, hcues, normalized, ⟨harr, rfl⟩, _, hsize, _, -, rfl⟩
    exact ⟨hlang, hcues, harr, hsize, rfl⟩
  · rintro ⟨hlang, hcues, harr, hsize, rfl⟩
    have hshow : serializeWebvtt cues none = .ok (String.ofList (SubtitleKind.vtt.file cues none)).toByteArray :=
      (serializeWebvtt_eq_ok (harr.validateOrder hcues)).mpr ⟨fun c _ => ⟨c.valid_text.1, c.valid_text.2.1⟩, rfl⟩
    exact ⟨⟨⟩, hlang, ⟨⟩, hcues, cues, ⟨harr, rfl⟩, ⟨⟩, hsize, _, by rw [hshow]; rfl, rfl⟩

theorem canonical_cue (cue : TimelineCue) : Canonical (F := F) (.obj (record cue.items)) := by
  refine canonical_record ["end_ms", "id", "order", "source_language", "source_text", "speaker_id",
    "start_ms"] rfl (by decide) ?_
  unfold TimelineCue.items
  simp only [List.forall_mem_cons]
  exact ⟨.int _, .str _, .int _, .str _, .str _, canonical_ofOption _, .int _, fun m hm => nomatch hm⟩

/-- a cue is decoded from what it is written as -/
theorem decodeCue_items (cue : TimelineCue) : decodeCue (F := F) (.obj (record cue.items)) = .ok cue := by
  have hkeys : HasKeys (record cue.items (F := F))
      ["end_ms", "id", "order", "source_language", "source_text", "speaker_id", "start_ms"]
      ["end_ms", "id", "order", "source_language", "source_text", "speaker_id", "start_ms"] :=
    (hasKeys_record ["end_ms", "id", "order", "source_language", "source_text", "speaker_id", "start_ms"]
      rfl).mpr (by decide)
  have hspeaker : optionalText? (F := F) (ofOption cue.speaker_id) = some cue.speaker_id := by
    cases cue.speaker_id <;> rfl
  have hagain : TimelineCue.make cue.id cue.order cue.start_ms cue.end_ms cue.source_text cue.source_language
      cue.speaker_id = .ok cue := again_self cue
  have htimes := cue.valid_times
  have hget : ∀ key, get (record (cue.items (F := F))) key = (cue.items.lookup key).getD .null := get_record _
  have horder : get (record (cue.items (F := F))) "order" = .int cue.order := hget _
  have hstart : get (record (cue.items (F := F))) "start_ms" = .int cue.start_ms := hget _
  have hend : get (record (cue.items (F := F))) "end_ms" = .int cue.end_ms := hget _
  have hid : get (record (cue.items (F := F))) "id" = .str cue.id := hget _
  have htext : get (record (cue.items (F := F))) "source_text" = .str cue.source_text := hget _
  have hlang : get (record (cue.items (F := F))) "source_language" = .str cue.source_language := hget _
  have hspk : get (record (cue.items (F := F))) "speaker_id" = ofOption cue.speaker_id := hget _
  have hobj : object? (.obj (record cue.items (F := F))) = some (record cue.items) := rfl
  simp only [decodeCue, hobj, bind_eq_ok, fetch_eq_ok, require_eq_ok, Option.some.injEq, exists_eq_left', horder, hstart,
    hend, hid, htext, hlang, hspk, hspeaker]
  refine ⟨⟨⟩, hkeys, cue.order, rfl, cue.start_ms, rfl, cue.end_ms, rfl, cue.id, rfl, ⟨⟩,
    ⟨cue.valid_id, by omega, by omega, by omega⟩, cue.source_text, rfl, cue.source_language, rfl, ?_⟩
  rw [hagain]
  rfl

theorem each_decodeCue (cues : List TimelineCue) :
    each decodeCue (cues.map (fun c => Value.obj (F := F) (record c.items))) = .ok cues := by
  induction cues with
  | nil => rfl
  | cons c cues ih => exact each_cons_eq_ok.mpr ⟨c, cues, decodeCue_items c, ih, rfl⟩

theorem loads_timelineJson (cues : List TimelineCue) :
    loads fl (timelineJson fl cues) = some (.arr (cues.map (fun c => .obj (record c.items)))) := by
  refine loads_dumps (.arr (fun v hv => ?_))
  obtain ⟨c, -, rfl⟩ := List.mem_map.mp hv
  exact canonical_cue c

/-- **A stored timeline is decoded to itself.** -/
theorem decode_timeline (h : canonicalTimeline lib fl cues language = .ok t) :
    decodeTimeline lib fl t.cues_json t.cues_sha256 t.language = .ok t := by
  obtain ⟨hlang, hcues, harr, hsize, rfl⟩ := canonicalTimeline_eq_ok.mp h
  simp only [decodeTimeline, bind_eq_ok, require_eq_ok, fetch_eq_ok, pure_eq_ok]
  refine ⟨⟨⟩, ⟨lib.hex_sha256 _, hsize⟩, ⟨⟩, hlang, _, ?_, ⟨⟩, ?_, cues, each_decodeCue cues, _, h, ⟨⟩, ⟨rfl, rfl⟩, rfl⟩
  · rw [loads_timelineJson]
    rfl
  · simpa using hcues.1

/-- the text of a timeline tells its cues -/
theorem timelineJson_injective {cues' : List TimelineCue} (h : timelineJson fl cues = timelineJson fl cues') :
    cues = cues' := by
  have hloads : loads fl (timelineJson fl cues) = some _ := loads_timelineJson cues
  rw [h, loads_timelineJson] at hloads
  have hvalues := (Value.arr.inj (Option.some.inj hloads)).symm
  have heach := each_decodeCue (F := F) cues
  rw [hvalues, each_decodeCue] at heach
  exact (Except.ok.inj heach).symm

/-! ### translations -/

/-- a cue that is made has the fields it is made of -/
theorem make_fields {id : Text} {order start stop : Nat} {source_text source_language : Text} {speaker_id : Option Text}
    {c : TimelineCue} (h : TimelineCue.make id order start stop source_text source_language speaker_id = .ok c) :
    c.id = id ∧ c.order = order ∧ c.start_ms = start ∧ c.end_ms = stop ∧ c.speaker_id = speaker_id := by
  unfold TimelineCue.make at h
  split at h
  · split at h
    · split at h
      · split at h
        · cases h
          exact ⟨rfl, rfl, rfl, rfl, rfl⟩
        · cases h
      · cases h
    · cases h
  · cases h

/-- **A translation keeps the cues of its parent.** -/
theorem translation_valid {parent : CanonicalTimeline} {revision : TranslationRevision}
    {provider_id model_id source_language target_language : Text}
    (h : translationTimeline lib fl parent revision provider_id model_id source_language target_language = .ok t) :
    validateTranslationTimeline parent t = .ok ⟨⟩ ∧ canonicalTimeline lib fl t.cues t.language = .ok t := by
  simp only [translationTimeline, bind_eq_ok, require_eq_ok] at h
  obtain ⟨_, -, _, -, cues, heach, hcanon⟩ := h
  obtain ⟨-, -, -, -, rfl⟩ := canonicalTimeline_eq_ok.mp hcanon
  refine ⟨?_, hcanon⟩
  have hrel := List.forall₂_iff_zip.mp (each_forall₂ heach)
  simp only [validateTranslationTimeline, bind_eq_ok, require_eq_ok]
  refine ⟨⟨⟩, hrel.1, fun x hx => ?_⟩
  obtain ⟨cue, c⟩ := x
  have hcue := hrel.2 hx
  simp only [bind_eq_ok, mapError_eq_ok] at hcue
  obtain ⟨item, -, hmake⟩ := hcue
  obtain ⟨hid, horder, hstart, hend, hspeaker⟩ := make_fields hmake
  exact ⟨hid.symm, horder.symm, hstart.symm, hend.symm, hspeaker.symm⟩

/-! ## exact encodings -/

variable (lib fl)

/-- a request that `canonical_ai_request` makes -/
def RequestMade (c : CanonicalAiRequest fl) : Prop :=
  ∃ project_id operation provider_id model_id source_revision_id options authorization,
    canonicalAiRequest lib fl project_id operation provider_id model_id source_revision_id options authorization = .ok c

/-- a timeline that `canonical_timeline` makes -/
def TimelineMade (t : CanonicalTimeline) : Prop := ∃ cues language, canonicalTimeline lib fl cues language = .ok t

variable {lib fl}

theorem RequestMade.decode {c : CanonicalAiRequest fl} (h : RequestMade lib fl c) :
    decodeAiRequest lib fl c.request_json c.request_sha256 = .ok c := by
  obtain ⟨_, _, _, _, _, _, _, h⟩ := h
  exact decode_request (exact_of_canonicalAiRequest h)

theorem requestMade_of_decode {c : CanonicalAiRequest fl} {json sha : Text}
    (h : decodeAiRequest lib fl json sha = .ok c) :
    RequestMade lib fl c ∧ c.request_json = json ∧ c.request_sha256 = sha := by
  simp only [decodeAiRequest, bind_eq_ok, require_eq_ok, pure_eq_ok] at h
  obtain ⟨_, -, raw, -, _, -, _, -, c', hc, _, hsame, rfl⟩ := h
  exact ⟨⟨_, _, _, _, _, _, _, hc⟩, hsame⟩

theorem TimelineMade.decode (h : TimelineMade lib fl t) :
    decodeTimeline lib fl t.cues_json t.cues_sha256 t.language = .ok t := by
  obtain ⟨_, _, h⟩ := h
  exact decode_timeline h

theorem timelineMade_of_decode {json sha : Text} (h : decodeTimeline lib fl json sha language = .ok t) :
    TimelineMade lib fl t ∧ t.cues_json = json ∧ t.cues_sha256 = sha ∧ t.language = language := by
  simp only [decodeTimeline, bind_eq_ok, require_eq_ok, pure_eq_ok] at h
  obtain ⟨_, -, _, -, raw, -, _, -, cues, -, t', ht, _, hsame, rfl⟩ := h
  obtain ⟨-, -, -, -, rfl⟩ := canonicalTimeline_eq_ok.mp ht
  exact ⟨⟨_, _, ht⟩, hsame.1, hsame.2, rfl⟩

/-- timelines of one text are the same -/
theorem TimelineMade.eq_of_json {t' : CanonicalTimeline} (h : TimelineMade lib fl t) (h' : TimelineMade lib fl t')
    (e : t.cues_json = t'.cues_json) : t = t' := by
  obtain ⟨cues, language, h⟩ := h
  obtain ⟨cues', language', h'⟩ := h'
  obtain ⟨-, ⟨hne, -⟩, harr, -, rfl⟩ := canonicalTimeline_eq_ok.mp h
  obtain ⟨-, -, harr', -, rfl⟩ := canonicalTimeline_eq_ok.mp h'
  obtain rfl := timelineJson_injective e
  -- every cue names the language
  obtain ⟨c, cs, rfl⟩ := List.exists_cons_of_ne_nil hne
  have hlang : language = language' :=
    (harr.fits 0 c rfl).2.2.2.1.symm.trans (harr'.fits 0 c rfl).2.2.2.1
  rw [hlang]

end

/-- **AI requests and timelines are stored as exact encodings**: each is decoded to itself, nothing else is decoded,
and where SHA-256 has no collision equal digests mean equal requests and timelines; and a translation that is
accepted is one of its parent and is its own encoding. -/
theorem canonical_encodings {F : Type} (lib : Library) (fl : Floats F) :
    (∀ c, RequestMade lib fl c → decodeAiRequest lib fl c.request_json c.request_sha256 = .ok c) ∧
    (∀ json sha c, decodeAiRequest lib fl json sha = .ok c →
      RequestMade lib fl c ∧ c.request_json = json ∧ c.request_sha256 = sha) ∧
    (∀ c c', RequestMade lib fl c → RequestMade lib fl c' →
      (lib.sha256 c.request_json = lib.sha256 c'.request_json → c.request_json = c'.request_json) →
      c.request_sha256 = c'.request_sha256 → c = c') ∧
    (∀ t, TimelineMade lib fl t → decodeTimeline lib fl t.cues_json t.cues_sha256 t.language = .ok t) ∧
    (∀ json sha language t, decodeTimeline lib fl json sha language = .ok t →
      TimelineMade lib fl t ∧ t.cues_json = json ∧ t.cues_sha256 = sha ∧ t.language = language) ∧
    (∀ t t', TimelineMade lib fl t → TimelineMade lib fl t' →
      (lib.sha256 t.cues_json = lib.sha256 t'.cues_json → t.cues_json = t'.cues_json) →
      t.cues_sha256 = t'.cues_sha256 → t = t') ∧
    ∀ parent revision provider_id model_id source_language target_language t,
      translationTimeline lib fl parent revision provider_id model_id source_language target_language = .ok t →
        validateTranslationTimeline parent t = .ok ⟨⟩ ∧ canonicalTimeline lib fl t.cues t.language = .ok t := by
  refine ⟨fun c h => h.decode, fun _ _ _ h => requestMade_of_decode h, fun c c' h h' hsha e => ?_,
    fun t h => h.decode, fun _ _ _ _ h => timelineMade_of_decode h, fun t t' h h' hsha e => ?_,
    fun _ _ _ _ _ _ _ h => translation_valid h⟩
  · have hdigest : ∀ c : CanonicalAiRequest fl, RequestMade lib fl c → c.request_sha256 = lib.sha256 c.request_json := by
      rintro c ⟨_, _, _, _, _, _, _, h⟩
      exact (exact_of_canonicalAiRequest h).digest
    have hjson := hsha (by rw [← hdigest c h, ← hdigest c' h', e])
    have hdecode := h.decode
    rw [hjson, e, h'.decode] at hdecode
    exact (Except.ok.inj hdecode).symm
  · have hdigest : ∀ t, TimelineMade lib fl t → t.cues_sha256 = lib.sha256 t.cues_json := by
      rintro t ⟨_, _, h⟩
      obtain ⟨-, -, -, -, rfl⟩ := canonicalTimeline_eq_ok.mp h
      rfl
    exact h.eq_of_json h' (hsha (by rw [← hdigest t h, ← hdigest t' h', e]))

/-! ## runs -/

/-- a library in which one digest stands for all texts -/
def Library.fixed (digest : Sha256) : Library where
  digits := .ascii
  sha256 _ := digest.1
  hex_sha256 _ := digest.2

/-- the digest of the request below -/
def requestDigest : Sha256 := ⟨"1650e9e4db74ea0ea6c90d41a2daca6b2f3ebbacdc2cca9b0fde35c426532795".toList, by rw [String.toList_ofList]; decide +kernel⟩

/-- a request for a transcription -/
def transcriptionRequest : Except PipelineErr (CanonicalAiRequest Floats.texts) :=
  canonicalAiRequest (.fixed requestDigest) Floats.texts (.str (List.replicate 32 'a')) (.str "transcribe".toList)
    (.str "local".toList) (.str "m2m100".toList) .null (.obj (record [("language", .str "en".toList)])) .null

/-- it is stored and decoded -/
theorem canonical_encodings_transcription : ∃ c, transcriptionRequest = .ok c ∧
    decodeAiRequest (.fixed requestDigest) Floats.texts c.request_json c.request_sha256 = .ok c := by
  have hsome : transcriptionRequest.toOption.isSome = true := by decide +kernel
  cases hok : transcriptionRequest with
  | error e =>
    rw [hok] at hsome
    cases hsome
  | ok c =>
    exact ⟨c, rfl, (canonical_encodings (.fixed requestDigest) Floats.texts).1 c ⟨_, _, _, _, _, _, _, hok⟩⟩

end OpenFlame.Editing
