import OpenFlame.Workflow.Profile
import OpenFlame.Upload.Metadata

/-!
# Workflow presets

A preset is a reusable template of a workflow: the profile without its authorizations and sessions, and publish times
that are relative to the moment of use.  All presets are in one JSON file.

`currentProfile`      a profile that a workflow could be run with, in normal form
`secretFreeProfile`   what a preset keeps of it
`storedProfile`       the checks of what a file has for a profile
`recordOf`            the checks of a whole record
`readRecords`, `createPreset`, `getPreset`, `materialize`   the operations of the store

Values are those of JSON, the keys of their objects sorted.
-/

set_option linter.all false

namespace OpenFlame.Workflow.Presets
open Guard Text Json Editing
open Upload (Mode Platform OptionKey Options)

/-- `WorkflowPresetError`, by its code, or another exception -/
inductive PresetErr where
  | workflow_preset_invalid | workflow_preset_not_found | workflow_preset_conflict
  | workflow_preset_authorization_changed | workflow_preset_storage_unavailable | uncaught
  deriving DecidableEq, Repr

/-- `_SCHEMA` and `_LEGACY_SCHEMA` -/
inductive Schema where
  | legacy | current
  deriving DecidableEq, Repr

def MAX_RECORDS : Nat := 50
def MAX_PROFILE_BYTES : Nat := 128 * 1024
def MAX_STORAGE_BYTES : Nat := 8 * 1024 * 1024

abbrev Members (F : Type) := List (Text × Value F)

/-! ## texts and copies -/

section
variable {F : Type}

/-- `members.pop(key, None)` -/
def erase (key : String) (ms : Members F) : Members F := ms.filter (fun m => m.1 != key.toList)

/-- `_id` -/
def presetId (value : Value F) : Except PresetErr HexIdentifier := hexIdentifier .workflow_preset_invalid value

/-- `_digest` -/
def presetDigest (value : Value F) : Except PresetErr Sha256 := do
  ensure _ (← fetch (text? value) .workflow_preset_invalid) .workflow_preset_invalid

/-- `_SAFE_NAME` -/
def isSafeName (s : Text) : Bool :=
  s.head?.any (fun c => !isSpace c) && s.getLast?.any (fun c => !isSpace c) && !s.contains '\n'

/-- `_name` -/
def presetName (value : Value F) : Except PresetErr Text := do
  let s ← fetch (text? value) .workflow_preset_invalid
  require (1 ≤ (strip s).length ∧ (strip s).length ≤ 100 ∧ isSafeName (strip s) = true) .workflow_preset_invalid
  require ((strip s).all (fun c => 32 ≤ c.toNat) = true) .workflow_preset_invalid
  return strip (strip s)

/-- `_canonical` -/
def canonicalText (fl : Floats F) (value : Value F) : Except PresetErr Text := do
  require (finite fl value = true) .workflow_preset_invalid
  return dumps fl value

/-- `json.loads(_canonical(value))` -/
def copied (fl : Floats F) (value : Value F) : Except PresetErr (Value F) := do
  fetch (loads fl (← canonicalText fl value)) .uncaught

/-- `_json_object` -/
def jsonObject (pairs : Members F) : Option (Members F) := if (keys pairs).Nodup then some (dict pairs) else none

end

/-! ## what an override may say -/

section
variable {F : Type}

/-- `TARGET_OVERRIDE_KEYS` -/
def targetOverrideKeys : List String :=
  ["account_id", "title", "description", "tags", "category_id", "mode", "copyright", "source_credit",
    "cover_landscape_asset_id", "cover_portrait_asset_id", "publish_at_unix", "publish_timezone_offset_minutes",
    "platform_options"]

/-- the keys of platform options, by their names -/
def optionName : OptionKey → String
  | .dynamic => "dynamic"
  | .noReprint => "no_reprint"
  | .closeComments => "close_comments"
  | .closeDanmu => "close_danmu"
  | .declaration => "declaration"
  | .shortTitle => "short_title"
  | .contentLabel => "content_label"
  | .unknown name => name

def optionKey (name : Text) : OptionKey :=
  ([OptionKey.dynamic, .noReprint, .closeComments, .closeDanmu, .declaration, .shortTitle, .contentLabel].find?
    (fun k => (optionName k).toList == name)).getD (.unknown (String.ofList name))

mutual

/-- a value as the upload domain is given it -/
def rawValue : Value F → Upload.Raw
  | .null => .none
  | .bool b => .bool b
  | .int i => .int i
  | .float _ => .other
  | .str s => .str s
  | .arr vs => .list (rawValues vs)
  | .obj ms => .dict (rawMembers ms)

def rawValues : List (Value F) → List Upload.Raw
  | [] => []
  | v :: vs => rawValue v :: rawValues vs

def rawMembers : List (Text × Value F) → List (OptionKey × Upload.Raw)
  | [] => []
  | (k, v) :: ms => (optionKey k, rawValue v) :: rawMembers ms

end

/-- any error of the upload domain -/
def uploadChecked {α : Type} (x : Except Upload.Code α) : Except PresetErr α :=
  x.mapError (fun _ => .workflow_preset_invalid)

/-- `normalize_upload_text` -/
def overrideText (maximum : Nat) (required : Bool) (value : Value F) : Except PresetErr (Value F) := do
  return .str (← uploadChecked (Upload.normalizeUploadText (rawValue value) maximum required))

/-- `normalize_upload_tags` -/
def overrideTags (value : Value F) : Except PresetErr (Value F) := do
  return .arr ((← uploadChecked (Upload.normalizeUploadTags (rawValue value))).map .str)

/-- an integer from 1 -/
def overrideNumber (maximum : Int) (value : Value F) : Except PresetErr (Value F) := do
  let i ← fetch (int? value) .workflow_preset_invalid
  require (1 ≤ i ∧ i ≤ maximum) .workflow_preset_invalid
  return value

/-- `draft` or `publish`; a value that cannot be hashed raises a `TypeError` -/
def overrideMode (value : Value F) : Except PresetErr (Value F) := do
  let _ ← member? modeOfText PresetErr.workflow_preset_invalid .uncaught value
  return value

/-- the identifier of a cover, or `None` -/
def overrideCover (value : Value F) : Except PresetErr (Value F) :=
  match value with
  | .null => .ok .null
  | v => do
    let _ ← presetId v
    return v

/-- an option that may be `None` -/
def optionalText : Option Text → Value F
  | none => .null
  | some s => .str s

/-- the parsed options, by their names -/
def optionValues : Options → List (String × Value F)
  | .bilibili dynamic no_reprint close_comments close_danmu =>
    [("dynamic", .str dynamic), ("no_reprint", .bool no_reprint), ("close_comments", .bool close_comments),
      ("close_danmu", .bool close_danmu)]
  | .douyin declaration => [("declaration", optionalText declaration)]
  | .tencent short_title content_label =>
    [("short_title", optionalText short_title), ("content_label", optionalText content_label)]
  | .empty => []

/-- the first platform that knows all the options -/
def optionsPlatform (options : Members F) : Option Platform :=
  [Platform.bilibili, .douyin, .tencent].find? (fun p =>
    (keys options).all (fun k => (Upload.PLATFORM_OPTION_KEYS p).contains (optionKey k)))

/-- platform options, of a platform that has them all, or `None` -/
def overrideOptions (value : Value F) : Except PresetErr (Value F) :=
  match value with
  | .null => .ok .null
  | v => do
    let options ← fetch (object? v) .workflow_preset_invalid
    let platform ← fetch (optionsPlatform options) .workflow_preset_invalid
    let parsed ← uploadChecked (Upload.normalizePlatformOptions platform (rawValue (.obj options)))
    return .obj (options.map (fun m => (m.1, get (record (optionValues parsed)) (String.ofList m.1))))

/-- how one member of an override is normalized -/
def overrideField (key : Text) (value : Value F) : Except PresetErr (Value F) :=
  if key = "title".toList then overrideText 100 true value
  else if key = "description".toList then overrideText 2000 false value
  else if key = "source_credit".toList then overrideText 200 false value
  else if key = "tags".toList then overrideTags value
  else if key = "category_id".toList then overrideNumber 10000 value
  else if key = "copyright".toList then overrideNumber 2 value
  else if key = "mode".toList then overrideMode value
  else if key = "cover_landscape_asset_id".toList then overrideCover value
  else if key = "cover_portrait_asset_id".toList then overrideCover value
  else if key = "platform_options".toList then overrideOptions value
  else .ok value

/-- one iteration of `_upload_overrides` -/
def normalizeOverride (raw : Members F) : Except PresetErr (Members F) := do
  require ((∀ k ∈ keys raw, k ∈ targetOverrideKeys.map String.toList) ∧ keys raw ≠ ["account_id".toList])
    .workflow_preset_invalid
  let item ← each (fun m => do return (m.1, ← overrideField m.1 m.2)) raw
  let _ ← uploadChecked (Upload.validatePublishSchedule .bilibili (rawValue (get item "publish_at_unix"))
    (rawValue (get item "publish_timezone_offset_minutes")) 0 false)
  return item

/-- `_upload_overrides` -/
def uploadOverrides (upload : Members F) : Except PresetErr (Members F) := do
  let tags ← overrideTags (get upload "tags")
  let raws ← fetch (array? (get upload "target_overrides")) .uncaught
  let normalized ← each (fun raw => do normalizeOverride (← fetch (object? raw) .uncaught)) raws
  return insert "target_overrides".toList (.arr (normalized.map .obj)) (insert "tags".toList tags upload)

end

/-! ## profiles of presets -/

section
variable {F : Type} {fl : Floats F} (py : Python fl)

/-- any error of the code that a preset calls -/
def invalidated {ε α : Type} (x : Except ε α) : Except PresetErr α := x.mapError (fun _ => .workflow_preset_invalid)

/-- the values from which the temporary flag of `template_only` is derived -/
def templateAuthorizations (ms : Members F) (r : Recipe py) : List (Value F) :=
  (match get ms "ai" with
    | .obj ai => [get ai "transcription_authorization", get ai "translation_authorization"]
    | _ => []) ++ (r.dubbing.authorization.map (·.toDict)).toList

/-- `isinstance(item, Mapping) and item.get("execution") == "remote"` -/
def isRemote : Value F → Bool
  | .obj ms => text? (get ms "execution") == some "remote".toList
  | _ => false

/-- `candidate` -/
def templateCandidate (template_only : Bool) (profile : Value F) : Except PresetErr (Value F) :=
  match template_only, profile with
  | true, .obj ms => do
    let _ ← fetch (bool? (get ms "ai_data_egress_accepted")) .workflow_preset_invalid
    let recipe ← invalidated (recipeFromMapping py.rates py.isalnum (get ms "edit_recipe"))
    return .obj (insert "ai_data_egress_accepted".toList (.bool ((templateAuthorizations py ms recipe).any isRemote)) ms)
  | _, v => .ok v

/-- `bound` -/
def boundAccounts (profile : Value F) : Bool :=
  match object? profile with
  | none => false
  | some ms =>
    match object? (get ms "upload") with
    | none => false
    | some upload => decide ("account_bindings".toList ∈ keys upload)

/-- `normalized["upload"]` -/
def uploadOf (ms : Members F) : Except PresetErr (Members F) := fetch (object? (get ms "upload")) .uncaught

/-- `_current_profile` -/
def currentProfile (template_only : Bool) (profile : Value F) : Except PresetErr (Members F) := do
  let candidate ← templateCandidate py template_only profile
  let normalized ← invalidated (normalizeWorkflowProfile py (boundAccounts profile) true candidate)
  let ms ← fetch (object? normalized.1) .uncaught
  let upload ← invalidated (do uploadOverrides (erase "account_bindings" (← uploadOf ms)))
  return insert "upload".toList (.obj upload) ms

/-- `_AI_KEYS` -/
def presetAiKeys : List String :=
  ["transcription_provider", "transcription_model", "transcription_authorization_sha256",
    "translation_authorization_sha256"]

/-- a member that is there or not -/
def keptItem (ms : Members F) (key : String) : List (String × Value F) :=
  if key.toList ∈ keys ms then [(key, get ms key)] else []

/-- the AI contract of a preset, beside what its synthesis was authorized for -/
def presetAi (source_ai : Members F) (synthesis_sha256 : Text) : List (String × Value F) :=
  [("synthesis_authorization_sha256", .str synthesis_sha256),
    ("transcription_authorization_sha256", get source_ai "transcription_authorization_sha256")] ++
    keptItem source_ai "transcription_mode" ++
    [("transcription_model", get source_ai "transcription_model"),
      ("transcription_provider", get source_ai "transcription_provider"),
      ("translation_authorization_sha256", get source_ai "translation_authorization_sha256")]

/-- the AI contract of a preset, or `None` -/
def reusableAi (normalized : Members F) : Except PresetErr (Value F) :=
  match get normalized "ai" with
  | .null => .ok .null
  | v => do
    let source_ai ← fetch (object? v) .uncaught
    let recipe ← (recipeFromMapping py.rates py.isalnum (get normalized "edit_recipe")).mapError (fun _ => .uncaught)
    let authorization ← fetch recipe.dubbing.authorization .uncaught
    return .obj (record (presetAi source_ai (authorizationSha256 py authorization)))

/-- `_secret_free_profile` -/
def secretFreeProfile (template_only : Bool) (profile : Value F) : Except PresetErr (Members F) := do
  let normalized ← currentProfile py template_only profile
  let recipe ← fetch (object? (get normalized "edit_recipe")) .uncaught
  let dubbing ← fetch (object? (get recipe "dubbing")) .uncaught
  let ai ← reusableAi py normalized
  return record [("ai", ai), ("auto_confirm_edit", get normalized "auto_confirm_edit"),
    ("auto_confirm_upload", get normalized "auto_confirm_upload"),
    ("download_credential_mode", get normalized "download_credential_mode"),
    ("edit_recipe", .obj (insert "dubbing".toList (.obj (erase "authorization" dubbing)) recipe)),
    ("upload", get normalized "upload")]

/-- `_PROFILE_KEYS` -/
def presetProfileKeys : List String :=
  ["download_credential_mode", "edit_recipe", "ai", "upload", "auto_confirm_edit", "auto_confirm_upload"]

/-- a legacy preset does not say whether it prefers the cover of the download -/
def isLegacyUpload (raw_upload : Value F) : Bool :=
  match object? raw_upload with
  | none => true
  | some ms => decide ("prefer_download_cover".toList ∉ keys ms)

/-- the AI contract of a candidate, its synthesis digest checked and taken out -/
def candidateAi (schema : Schema) (raw_ai : Value F) : Except PresetErr (Value F) :=
  match raw_ai with
  | .null => .ok .null
  | v => do
    let ms ← fetch (object? v) .workflow_preset_invalid
    require (HasKeys ms presetAiKeys (presetAiKeys ++ ["transcription_mode", "synthesis_authorization_sha256"]))
      .workflow_preset_invalid
    require (schema = .legacy → "transcription_mode".toList ∉ keys ms) .workflow_preset_invalid
    if "synthesis_authorization_sha256".toList ∈ keys ms then
      let _ ← presetDigest (get ms "synthesis_authorization_sha256")
      return .obj (erase "synthesis_authorization_sha256" ms)
    else return .obj ms

/-- the recipe of a preset has no authorization -/
def checkPresetRecipe (raw_recipe : Value F) : Except PresetErr Unit := do
  let recipe ← fetch (object? raw_recipe) .workflow_preset_invalid
  let dubbing ← fetch (object? (get recipe "dubbing")) .workflow_preset_invalid
  require ("authorization".toList ∉ keys dubbing) .workflow_preset_invalid

/-- `_stored_profile` -/
def storedProfile (schema : Schema) (profile : Value F) : Except PresetErr (Members F) := do
  let ms ← fetch (object? profile) .workflow_preset_invalid
  require (HasKeys ms presetProfileKeys presetProfileKeys) .workflow_preset_invalid
  let encoded ← canonicalText fl profile
  require (utf8Size encoded ≤ MAX_PROFILE_BYTES) .workflow_preset_invalid
  let original ← fetch ((loads fl encoded).bind object?) .uncaught
  require (schema = .legacy → isLegacyUpload (get original "upload") = true) .workflow_preset_invalid
  let ai ← candidateAi schema (get original "ai")
  checkPresetRecipe (get original "edit_recipe")
  let egress := (object? ai).isSome
  let normalized ← invalidated (normalizeWorkflowProfile py false false
    (.obj (insert "ai_data_egress_accepted".toList (.bool egress) (insert "ai".toList ai original))))
  let checked ← fetch (object? normalized.1) .uncaught
  let _ ← invalidated (do uploadOverrides (← uploadOf checked))
  return original

end

/-! ## relative schedules -/

/-- the local time zone, and how texts are read as moments -/
structure Calendar where
  /-- `fromisoformat`, in microseconds, of a text that names UTC -/
  instant : Text → Option Int
  /-- `utcoffset` of the local time zone at a timestamp, in seconds, if it is a whole number of them -/
  utcoffset : Int → Option Int

structure SchedulePolicy where
  account_id : HexIdentifier
  platform : Platform
  delay_seconds : Int
  deriving DecidableEq

/-- `_MIN_DELAY_SECONDS` -/
def MIN_DELAY_SECONDS (platform : Platform) : Int :=
  (Upload.SCHEDULE_LEAD_SECONDS platform + 60 * 60 - 1) / (60 * 60) * (60 * 60)

/-- `_MAX_DELAY_SECONDS` -/
def MAX_DELAY_SECONDS : Platform → Int
  | .bilibili | .douyin => 365 * 24 * 60 * 60
  | .tencent => Upload.TENCENT_SCHEDULE_MAX_SECONDS - 60 * 60

section
variable {F : Type}

def SchedulePolicy.toDict (p : SchedulePolicy) : Value F :=
  .obj (record [("account_id", .str p.account_id.1), ("delay_seconds", .int p.delay_seconds),
    ("platform", .str (platformName p.platform))])

/-- `target_by_account.get(account_id, {})` -/
def targetOf (targets : List (Value F)) (account_id : HexIdentifier) : Members F :=
  ((targets.filterMap object?).reverse.find? (fun ms => overrideAccount ms == some account_id.1)).getD []

/-- one iteration of `_schedule_policies` -/
def policyStep (account_ids targets : List (Value F)) (mode : Value F) (policies : List SchedulePolicy) (raw : Value F) :
    Except PresetErr (List SchedulePolicy) := do
  let invalid := PresetErr.workflow_preset_invalid
  let ms ← fetch (object? raw) invalid
  require (HasKeys ms ["account_id", "platform", "delay_seconds"] ["account_id", "platform", "delay_seconds"]) invalid
  let account_id ← presetId (get ms "account_id")
  require (some account_id.1 ∈ account_ids.map text? ∧ account_id ∉ policies.map (·.account_id)) invalid
  let platform ← fetch ((text? (get ms "platform")).bind platformOfText) invalid
  let delay_seconds ← fetch (int? (get ms "delay_seconds")) invalid
  require (delay_seconds % (60 * 60) = 0 ∧ MIN_DELAY_SECONDS platform ≤ delay_seconds ∧
    delay_seconds ≤ MAX_DELAY_SECONDS platform) invalid
  require (text? (getOr (targetOf targets account_id) "mode" mode) = some (modeName .publish)) invalid
  return policies ++ [⟨account_id, platform, delay_seconds⟩]

/-- `_schedule_policies` -/
def schedulePolicies (value : Value F) (profile : Members F) : Except PresetErr (List SchedulePolicy) := do
  let invalid := PresetErr.workflow_preset_invalid
  let upload ← fetch (object? (get profile "upload")) invalid
  let account_ids ← fetch (array? (get upload "account_ids")) invalid
  let raws ← fetch (array? value) invalid
  require (raws.length ≤ account_ids.length) invalid
  let targets ← fetch (array? (get upload "target_overrides")) invalid
  let policies ← thread (policyStep account_ids targets (get upload "mode")) [] raws
  return account_ids.filterMap (fun id => policies.find? (fun p => text? id == some p.account_id.1))

/-- an override without its absolute schedule -/
def unscheduled (ms : Members F) : Members F :=
  erase "publish_timezone_offset_minutes" (erase "publish_at_unix" ms)

/-- an override, unscheduled if its account has a relative schedule -/
def withoutSchedule (policies : List SchedulePolicy) (ms : Members F) : Members F :=
  if policies.any (fun p => overrideAccount ms == some p.account_id.1) then unscheduled ms else ms

/-- `_without_absolute_schedules` -/
def withoutAbsoluteSchedules (fl : Floats F) (profile : Members F) (policies : List SchedulePolicy) :
    Except PresetErr (Members F) := do
  let result ← fetch (object? (← copied fl (.obj profile))) .uncaught
  let upload ← uploadOf result
  let targets ← fetch (array? (get upload "target_overrides")) .uncaught
  let overrides ← each (fun v => fetch (object? v) PresetErr.uncaught) targets
  return insert "upload".toList (.obj (insert "target_overrides".toList
    (.arr (overrides.map (fun ms => .obj (withoutSchedule policies ms)))) upload)) result

/-- `_local_offset_minutes` -/
def localOffsetMinutes (cal : Calendar) (timestamp : Int) : Except PresetErr Int := do
  let seconds ← fetch (cal.utcoffset timestamp) .workflow_preset_invalid
  require (seconds % 60 = 0) .workflow_preset_invalid
  require (-840 ≤ seconds / 60 ∧ seconds / 60 ≤ 840) .workflow_preset_invalid
  return seconds / 60

/-- the first of so many minutes, from `candidate` on, that begins an hour of the local time -/
def wholeHour (cal : Calendar) : Nat → Int → Except PresetErr Int
  | 0, _ => .error .workflow_preset_invalid
  | n + 1, candidate => do
    let offset ← localOffsetMinutes cal candidate
    if (candidate + offset * 60) % (60 * 60) = 0 then return candidate else wholeHour cal n (candidate + 60)

/-- `_relative_publish_schedule` -/
def relativePublishSchedule (cal : Calendar) (platform : Platform) (delay_seconds schedule_base_unix : Int) :
    Except PresetErr (Int × Int) := do
  let earliest := schedule_base_unix + delay_seconds
  let minute := (earliest + 59) / 60 * 60
  -- from the minute itself to three hours later
  let publish_at ← if platform = .tencent then wholeHour cal 181 minute else .ok minute
  let offset ← localOffsetMinutes cal publish_at
  let _ ← uploadChecked (Upload.validatePublishSchedule platform (.int publish_at) (.int offset) schedule_base_unix true)
  return (publish_at, offset)

/-- an override with a schedule -/
def scheduled (publish_at offset : Int) (ms : Members F) : Members F :=
  insert "publish_timezone_offset_minutes".toList (.int offset) (insert "publish_at_unix".toList (.int publish_at) ms)

/-- the overrides with a schedule for one account -/
def fillSchedule (account_id : HexIdentifier) (publish_at offset : Int) (overrides : List (Members F)) :
    List (Members F) :=
  if overrides.any (fun ms => overrideAccount ms == some account_id.1) then
    overrides.map (fun ms => if overrideAccount ms == some account_id.1 then scheduled publish_at offset ms else ms)
  else overrides ++ [scheduled publish_at offset [("account_id".toList, .str account_id.1)]]

/-- one iteration of `_materialize_schedules` -/
def scheduleStep (cal : Calendar) (schedule_base_unix : Int) (overrides : List (Members F)) (policy : SchedulePolicy) :
    Except PresetErr (List (Members F)) := do
  let (publish_at, offset) ← relativePublishSchedule cal policy.platform policy.delay_seconds schedule_base_unix
  return fillSchedule policy.account_id publish_at offset overrides

/-- `_materialize_schedules` -/
def materializeSchedules (fl : Floats F) (cal : Calendar) (upload : Value F) (policies : List SchedulePolicy)
    (schedule_base_unix : Value F) : Except PresetErr (Members F) :=
  match policies with
  | [] => do fetch (object? (← copied fl upload)) .uncaught
  | _ => do
    let base ← fetch (int? schedule_base_unix) .workflow_preset_invalid
    require (1700000000 ≤ base ∧ base ≤ 4102444800) .workflow_preset_invalid
    let result ← fetch (object? (← copied fl upload)) .uncaught
    let targets ← fetch (array? (get result "target_overrides")) .uncaught
    let overrides ← each (fun v => fetch (object? v) PresetErr.uncaught) targets
    let filled ← thread (scheduleStep cal base) overrides policies
    return insert "target_overrides".toList (.arr (filled.map .obj)) result

end

/-! ## records -/

structure PresetRecord (F : Type) where
  id : HexIdentifier
  name : Text
  profile : Members F
  profile_sha256 : Text
  schedule_policies : List SchedulePolicy
  schedule_policies_sha256 : Text
  revision : Int
  created_at : Text
  updated_at : Text

section
variable {F : Type} {fl : Floats F} (py : Python fl) (cal : Calendar)

def policiesValue (policies : List SchedulePolicy) : Value F := .arr (policies.map SchedulePolicy.toDict)

def PresetRecord.toDict (r : PresetRecord F) : Value F :=
  .obj (record [("created_at", .str r.created_at), ("id", .str r.id.1), ("name", .str r.name),
    ("profile", .obj r.profile), ("profile_sha256", .str r.profile_sha256), ("revision", .int r.revision),
    ("schedule_policies", policiesValue r.schedule_policies),
    ("schedule_policies_sha256", .str r.schedule_policies_sha256), ("updated_at", .str r.updated_at)])

/-- `_sha256` -/
def canonicalSha256 (value : Value F) : Except PresetErr Text := do
  return py.sha256 (← canonicalText fl value)

/-- `base_keys` -/
def baseKeys : List String := ["id", "name", "profile", "profile_sha256", "revision", "created_at", "updated_at"]

/-- `expected_keys` -/
def recordKeys : Schema → List String
  | .legacy => baseKeys
  | .current => baseKeys ++ ["schedule_policies", "schedule_policies_sha256"]

/-- an override with a relative schedule has no absolute one -/
def IsRelative (policies : List SchedulePolicy) (target : Value F) : Prop :=
  ∀ ms, object? target = some ms → (∃ p ∈ policies, overrideAccount ms = some p.account_id.1) →
    "publish_at_unix".toList ∉ keys ms ∧ "publish_timezone_offset_minutes".toList ∉ keys ms

instance (policies : List SchedulePolicy) (target : Value F) : Decidable (IsRelative policies target) :=
  match target with
  | .obj ms => decidable_of_iff ((∃ p ∈ policies, overrideAccount ms = some p.account_id.1) →
      "publish_at_unix".toList ∉ keys ms ∧ "publish_timezone_offset_minutes".toList ∉ keys ms)
      ⟨fun h _ e => Option.some.inj e ▸ h, fun h => h ms rfl⟩
  | .null => .isTrue (fun _ e => nomatch e)
  | .bool _ => .isTrue (fun _ e => nomatch e)
  | .int _ => .isTrue (fun _ e => nomatch e)
  | .float _ => .isTrue (fun _ e => nomatch e)
  | .str _ => .isTrue (fun _ e => nomatch e)
  | .arr _ => .isTrue (fun _ e => nomatch e)

/-- the schedule policies of a record, and their digest -/
def recordPolicies (schema : Schema) (ms profile : Members F) : Except PresetErr (List SchedulePolicy × Text) :=
  match schema with
  | .legacy => do return ([], ← canonicalSha256 py (policiesValue []))
  | .current => do
    let policies ← schedulePolicies (get ms "schedule_policies") profile
    let digest ← presetDigest (get ms "schedule_policies_sha256")
    require (digest.1 = (← canonicalSha256 py (policiesValue policies))) .workflow_preset_invalid
    let targets ← fetch (array? (get (← uploadOf profile) "target_overrides")) .uncaught
    require (∀ t ∈ targets, IsRelative policies t) .workflow_preset_invalid
    return (policies, digest.1)

/-- one of the moments of a record -/
def recordMoment (value : Value F) : Except PresetErr (Text × Int) := do
  let raw ← fetch (text? value) .workflow_preset_invalid
  require (raw.length ≤ 40 ∧ raw.getLast? = some 'Z') .workflow_preset_invalid
  let moment ← fetch (cal.instant raw) .workflow_preset_invalid
  return (raw, moment)

/-- `_record` -/
def recordOf (schema : Schema) (value : Value F) : Except PresetErr (PresetRecord F) := do
  let invalid := PresetErr.workflow_preset_invalid
  let ms ← fetch (object? value) invalid
  require (HasKeys ms (recordKeys schema) (recordKeys schema)) invalid
  let profile ← storedProfile py schema (get ms "profile")
  let profile_sha256 ← presetDigest (get ms "profile_sha256")
  require (profile_sha256.1 = (← canonicalSha256 py (.obj profile))) invalid
  let (schedule_policies, schedule_policies_sha256) ← recordPolicies py schema ms profile
  let revision ← fetch (int? (get ms "revision")) invalid
  require (1 ≤ revision ∧ revision ≤ 2 ^ 31 - 1) invalid
  let (created_at, created) ← recordMoment cal (get ms "created_at")
  let (updated_at, updated) ← recordMoment cal (get ms "updated_at")
  require (created ≤ updated) invalid
  let id ← presetId (get ms "id")
  let name ← presetName (get ms "name")
  return {
    id, name, profile, profile_sha256 := profile_sha256.1, schedule_policies, schedule_policies_sha256, revision
    created_at, updated_at }

/-! ## the store -/

/-- `presets.json`, if it is there -/
abbrev File := Option ByteArray

/-- the schema that a file names -/
def schemaOf (value : Value F) : Option Schema :=
  match value with
  | .int 1 => some .legacy
  | .int 2 => some .current
  | _ => none

/-- the records of a file that is there -/
def decodeRecords (encoded : ByteArray) : Except PresetErr (List (PresetRecord F)) := do
  let unavailable := PresetErr.workflow_preset_storage_unavailable
  require (encoded.size ≤ MAX_STORAGE_BYTES) unavailable
  let text ← fetch encoded.utf8Decode? unavailable
  let ms ← fetch ((loadsWith fl jsonObject text.toList).bind object?) unavailable
  require (HasKeys ms ["schema", "presets"] ["schema", "presets"]) unavailable
  let schema ← fetch (schemaOf (get ms "schema")) unavailable
  let presets ← fetch (array? (get ms "presets")) unavailable
  require (presets.length ≤ MAX_RECORDS) unavailable
  let records ← (each (recordOf py cal schema) presets).mapError (fun _ => unavailable)
  require (records.map (·.id)).Nodup unavailable
  return records

/-- `_read`, also `list` -/
def readRecords (file : File) : Except PresetErr (List (PresetRecord F)) :=
  match file with
  | none => .ok []
  | some encoded => decodeRecords py cal encoded

/-- what `_write` puts into the file -/
def storedValue (records : List (PresetRecord F)) : Value F :=
  .obj (record [("presets", .arr (records.map PresetRecord.toDict)), ("schema", .int 2)])

/-- `_write`, where the replacing of the file may fail -/
def writeRecords (fl : Floats F) (replaced : Bool) (records : List (PresetRecord F)) : Except PresetErr File := do
  let payload ← canonicalText fl (storedValue records)
  require (utf8Size payload ≤ MAX_STORAGE_BYTES) .workflow_preset_conflict
  require (replaced = true) .workflow_preset_storage_unavailable
  return some (String.ofList payload).toByteArray

/-- `get` -/
def getPreset (file : File) (preset_id : Value F) : Except PresetErr (PresetRecord F) := do
  let id ← presetId preset_id
  let records ← readRecords py cal file
  fetch (records.find? (fun r => r.id == id)) .workflow_preset_not_found

/-- a call of `create`, with the identifier and the moment that it draws -/
structure CreateCall (F : Type) where
  name : Value F
  profile : {v : Value F // Canonical v}
  schedule_policies : {v : Value F // Canonical v}
  id : HexIdentifier
  now : Text
  /-- whether the file can be replaced -/
  replaced : Bool

/-- the record that a call describes -/
def describedRecord (c : CreateCall F) : Except PresetErr (PresetRecord F) := do
  let reusable ← secretFreeProfile py true c.profile.1
  let policies ← schedulePolicies (match c.schedule_policies.1 with
    | .null => .arr []
    | v => v) reusable
  let profile ← withoutAbsoluteSchedules fl reusable policies
  let profile_sha256 ← canonicalSha256 py (.obj profile)
  let schedule_policies_sha256 ← canonicalSha256 py (policiesValue policies)
  let name ← presetName c.name
  recordOf py cal .current (.obj (record [("created_at", .str c.now), ("id", .str c.id.1), ("name", .str name),
    ("profile", .obj profile), ("profile_sha256", .str profile_sha256), ("revision", .int 1),
    ("schedule_policies", policiesValue policies), ("schedule_policies_sha256", .str schedule_policies_sha256),
    ("updated_at", .str c.now)]))

/-- `create`: the record that it returns, and the file after it -/
def createPreset (c : CreateCall F) (file : File) : Except PresetErr (PresetRecord F × File) := do
  let r ← describedRecord py cal c
  let records ← readRecords py cal file
  match records.find? (fun e => e.name == r.name && e.profile_sha256 == r.profile_sha256 &&
      e.schedule_policies_sha256 == r.schedule_policies_sha256) with
  | some existing => return (existing, file)
  | none =>
    require (records.length + 1 ≤ MAX_RECORDS) .workflow_preset_conflict
    return (r, ← writeRecords fl c.replaced (r :: records))

/-- an AI contract without the keys that authorize nothing -/
def aiBinding (ai : Value F) : Value F :=
  match ai with
  | .obj ms => .obj (erase "transcription_mode" ms)
  | v => v

/-- the recipe of a preset with the authorization of the current recipe -/
def authorizedRecipe (fl : Floats F) (saved_recipe current_recipe : Value F) : Except PresetErr (Value F) := do
  let recipe ← fetch (object? (← copied fl saved_recipe)) .uncaught
  let current_dubbing ← fetch ((object? current_recipe).bind (fun ms => object? (get ms "dubbing"))) .uncaught
  if "authorization".toList ∈ keys current_dubbing then
    let dubbing ← fetch (object? (get recipe "dubbing")) .uncaught
    return .obj (insert "dubbing".toList
      (.obj (insert "authorization".toList (get current_dubbing "authorization") dubbing)) recipe)
  else return .obj recipe

/-- the current AI contract with the mode of transcription of the preset -/
def transcribedAi (saved_ai current_ai : Value F) : Except PresetErr (Value F) :=
  match saved_ai with
  | .null => .ok current_ai
  | v => do
    let saved ← fetch (object? v) .uncaught
    let ms ← fetch (object? current_ai) .uncaught
    let bare := erase "transcription_mode" ms
    if "transcription_mode".toList ∈ keys saved then
      return .obj (insert "transcription_mode".toList (get saved "transcription_mode") bare)
    else return .obj bare

/-- `materialize` of a preset that was found -/
def materializeRecord (preset : PresetRecord F) (profile : Value F) (schedule_base_unix : Value F) :
    Except PresetErr (Members F) := do
  let normalized ← currentProfile py false profile
  let current ← secretFreeProfile py false profile
  let saved := preset.profile
  require (equals py (aiBinding (get saved "ai")) (aiBinding (get current "ai")) = true)
    .workflow_preset_authorization_changed
  let recipe ← authorizedRecipe fl (get saved "edit_recipe") (get normalized "edit_recipe")
  let ai ← transcribedAi (get saved "ai") (get normalized "ai")
  let upload ← materializeSchedules fl cal (get saved "upload") preset.schedule_policies schedule_base_unix
  currentProfile py false (.obj (insert "upload".toList (.obj upload)
    (insert "ai".toList ai (insert "edit_recipe".toList recipe normalized))))

/-- `materialize` -/
def materialize (file : File) (preset_id profile schedule_base_unix : Value F) : Except PresetErr (Members F) := do
  let preset ← getPreset py cal file preset_id
  materializeRecord py cal preset profile schedule_base_unix

end

end OpenFlame.Workflow.Presets
