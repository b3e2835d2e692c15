import OpenFlame.Upload.Identity

/-!
# Upload targets: one account's share of a request, normalized

* `normalizeTarget`          `_normalize_target`: the target of one account, or the first error;
* `validateJobDefinition`    `_validate_job_definition_in`: a stored job still is what it normalizes to;
* `Env`                      what one call reads outside the store: the clock, the files, the runtime.
-/

set_option linter.all false

namespace OpenFlame.Upload
open Guard

/-! ## what a call reads outside the store -/

/-- how the check of the recorded bytes of a managed file fails -/
inductive FileFault where
  | missing | changed | unavailable | unsafeFile
  deriving DecidableEq, Repr

def FileFault.sourceCode : FileFault → Code
  | .changed => "source_changed"
  | .missing | .unavailable => "source_unavailable"
  | .unsafeFile => "unsafe_upload_file"

def FileFault.coverCode : FileFault → Code
  | .missing => "cover_reimport_required"
  | .changed => "cover_changed"
  | .unavailable => "cover_unavailable"
  | .unsafeFile => "unsafe_upload_file"

structure Env where
  /-- `int(time.time())` -/
  now : Int
  /-- `backend.inspect()["ready"]` -/
  ready : Bool
  /-- the recorded bytes of a source, a cover -/
  source_file : Source → Option FileFault
  cover_file : Asset → Option FileFault
  /-- the double-precision comparison of a cover's ratio with 4/3 or 3/4 -/
  landscape_ratio : Asset → Bool
  portrait_ratio : Asset → Bool
  /-- the product and adapter identity, when they can be read -/
  runtime : Option RuntimeIdentity

/-- a check made outside the store -/
def checked (fault : Option FileFault) (code : FileFault → Code) : Except Code PUnit :=
  match fault with
  | none => return
  | some f => throw (code f)

def verifiedSourceMediaPath (env : Env) (source : Source) : Except Code PUnit := do
  require (source.media_state = .present) "source_reimport_required"
  checked (env.source_file source) FileFault.sourceCode

def verifiedCoverRow (env : Env) (db : DB) : Option Ident → Except Code (Option Asset)
  | none => return none
  | some asset_id => do
    let asset ← fetch (db.assets.get asset_id) "cover_not_found"
    require (asset.media_state = .present) "cover_reimport_required"
    checked (env.cover_file asset) FileFault.coverCode
    return some asset

def verifiedJobCoverRows (env : Env) (db : DB) (platform : Platform) (landscape_id portrait_id : Option Ident) :
    Except Code (Option Asset × Option Asset) := do
  require (portrait_id.isSome = true → platform ≠ .bilibili) "portrait_cover_unsupported"
  require (¬ (platform = .douyin ∧ landscape_id.isSome = true ∧ portrait_id.isSome = true))
    "multiple_covers_unsupported"
  let landscape ← verifiedCoverRow env db landscape_id
  let portrait ← verifiedCoverRow env db portrait_id
  require (platform = .bilibili → ∀ a ∈ landscape, a.height ≤ a.width) "bilibili_cover_orientation_invalid"
  require (platform = .douyin → (∀ a ∈ landscape, a.height ≤ a.width) ∧ ∀ a ∈ portrait, a.width < a.height)
    "douyin_cover_orientation_invalid"
  require (platform = .tencent →
    (∀ a ∈ landscape, env.landscape_ratio a = true) ∧ ∀ a ∈ portrait, env.portrait_ratio a = true)
    "tencent_cover_ratio_invalid"
  return (landscape, portrait)

/-! ## raw targets -/

/-- an identifier as a client sends it -/
inductive RawIdent where
  | none
  | ident (id : Ident)
  | malformed
  deriving DecidableEq, Repr

/-- `_identifier` -/
def identifier : RawIdent → Except Code Ident
  | .ident id => return id
  | .none | .malformed => throw "invalid_identifier"

/-- the mapping `base` -/
structure RawTarget where
  title : Raw
  description : Raw
  tags : Raw
  category_id : Raw
  mode : Raw
  copyright : Raw
  source_credit : Raw
  cover_landscape_asset_id : RawIdent
  cover_portrait_asset_id : RawIdent
  publish_at_unix : Raw
  publish_timezone_offset_minutes : Raw
  platform_options : Raw

/-- one element of `target_overrides`: the keys it has, and the names of those outside
`TARGET_OVERRIDE_KEYS` -/
structure TargetOverride where
  account_id : Option RawIdent := none
  title : Option Raw := none
  description : Option Raw := none
  tags : Option Raw := none
  category_id : Option Raw := none
  mode : Option Raw := none
  copyright : Option Raw := none
  source_credit : Option Raw := none
  cover_landscape_asset_id : Option RawIdent := none
  cover_portrait_asset_id : Option RawIdent := none
  publish_at_unix : Option Raw := none
  publish_timezone_offset_minutes : Option Raw := none
  platform_options : Option Raw := none
  extra_keys : List String := []

/-- some key of `TARGET_OVERRIDE_KEYS` other than the account is there -/
def TargetOverride.overrides (o : TargetOverride) : Bool :=
  o.title.isSome || o.description.isSome || o.tags.isSome || o.category_id.isSome || o.mode.isSome ||
    o.copyright.isSome || o.source_credit.isSome || o.cover_landscape_asset_id.isSome ||
    o.cover_portrait_asset_id.isSome || o.publish_at_unix.isSome || o.publish_timezone_offset_minutes.isSome ||
    o.platform_options.isSome

/-- `set(override) == {"account_id"}` -/
def TargetOverride.isBare (o : TargetOverride) : Bool :=
  o.account_id.isSome && !o.overrides && o.extra_keys.isEmpty

/-- `{**base, **override}` -/
def RawTarget.merge (base : RawTarget) (o : TargetOverride) : RawTarget where
  title := o.title.getD base.title
  description := o.description.getD base.description
  tags := o.tags.getD base.tags
  category_id := o.category_id.getD base.category_id
  mode := o.mode.getD base.mode
  copyright := o.copyright.getD base.copyright
  source_credit := o.source_credit.getD base.source_credit
  cover_landscape_asset_id := o.cover_landscape_asset_id.getD base.cover_landscape_asset_id
  cover_portrait_asset_id := o.cover_portrait_asset_id.getD base.cover_portrait_asset_id
  publish_at_unix := o.publish_at_unix.getD base.publish_at_unix
  publish_timezone_offset_minutes := o.publish_timezone_offset_minutes.getD base.publish_timezone_offset_minutes
  platform_options := o.platform_options.getD base.platform_options

/-! ## scalar fields -/

/-- `mode not in {"publish", "draft"}`; an unhashable value is a `TypeError` of the set -/
def parseMode : Raw → Except Code Mode
  | .str s =>
    if s = "publish".toList then return .publish
    else if s = "draft".toList then return .draft
    else throw "invalid_metadata"
  | .list _ | .dict _ => throw "TypeError"
  | _ => throw "invalid_metadata"

def parseCategory : Raw → Except Code (Option Int)
  | .none => return none
  | .int n => do
    require (1 ≤ n ∧ n ≤ 10000) "invalid_metadata"
    return some n
  | _ => throw "invalid_metadata"

def parseCopyright : Raw → Except Code (Option Int)
  | .none => return none
  | .int n => do
    require (n = 1 ∨ n = 2) "invalid_metadata"
    return some n
  | _ => throw "invalid_metadata"

def parseCover : RawIdent → Except Code (Option Ident)
  | .none => return none
  | id => do return some (← identifier id)

/-- category, copyright and credit: checked for one platform, fixed for the others -/
def platformRights (platform : Platform) (tags : List Text) (category_id copyright : Option Int)
    (source_credit : Text) : Except Code (Option Int × Int × Text) :=
  match platform with
  | .bilibili => do
    require (category_id ≠ none) "bilibili_category_required"
    let c ← fetch copyright "bilibili_copyright_required"
    require (tags ≠ []) "bilibili_tags_required"
    require (¬ (c = 2 ∧ source_credit = [])) "source_credit_required"
    require (¬ (c = 1 ∧ source_credit ≠ [])) "source_credit_not_allowed"
    return (category_id, c, source_credit)
  | .douyin | .tencent => return (none, 1, [])

/-- the cover checks of `_normalize_target`: on the assets, or on the slots alone -/
def checkCovers (env : Env) (db : DB) (platform : Platform) (landscape_id portrait_id : Option Ident)
    (verify_assets : Bool) : Except Code PUnit :=
  if verify_assets then do
    let _ ← verifiedJobCoverRows env db platform landscape_id portrait_id
  else do
    require (portrait_id.isSome = true → platform ≠ .bilibili) "portrait_cover_unsupported"
    require (¬ (platform = .douyin ∧ landscape_id.isSome = true ∧ portrait_id.isSome = true))
      "multiple_covers_unsupported"

section
variable (u : Unicode)

/-- the short title of the one platform that has one -/
def settleShortTitle (accept_normalized_short_title : Bool) (title : Text) : Options → Options
  | .tencent short_title content_label =>
    match short_title with
    | some s =>
      if accept_normalized_short_title && isTencentShortTitleOutput u s then .tencent (some s) content_label
      else .tencent (some (normalizeTencentShortTitle u s)) content_label
    | none => .tencent (some (normalizeTencentShortTitle u title)) content_label
  | o => o

/-- the flags of `_normalize_target` -/
structure Checks where
  verify_assets : Bool := true
  enforce_schedule : Bool := true
  accept_normalized_short_title : Bool := false

/-- `_normalize_target` -/
def normalizeTarget (env : Env) (db : DB) (account : Account) (base : RawTarget) (o : TargetOverride)
    (checks : Checks) : Except Code Target := do
  let platform := account.platform
  require (platform = .bilibili ∨
    (o.category_id.isSome || o.copyright.isSome || o.source_credit.isSome) = false) "unsupported_platform_field"
  let raw := base.merge o
  let title ← normalizeUploadText raw.title 100 true
  require (title.length ≤ TITLE_LIMITS platform) "title_too_long"
  let description ← normalizeUploadText raw.description 2000 false
  let tags ← normalizeUploadTags raw.tags
  let mode ← parseMode raw.mode
  require (mode = .draft → platform = .tencent) "draft_mode_unsupported"
  let credit ← normalizeUploadText raw.source_credit 200 false
  let category ← parseCategory raw.category_id
  let copy ← parseCopyright raw.copyright
  let rights ← platformRights platform tags category copy credit
  let landscape_id ← parseCover raw.cover_landscape_asset_id
  let portrait_id ← parseCover raw.cover_portrait_asset_id
  checkCovers env db platform landscape_id portrait_id checks.verify_assets
  let schedule ← validatePublishSchedule platform raw.publish_at_unix raw.publish_timezone_offset_minutes
    (if checks.enforce_schedule then env.now else 0) checks.enforce_schedule
  require (mode = .draft → schedule.1 = none) "draft_schedule_unsupported"
  let options ← normalizePlatformOptions platform raw.platform_options
  return {
    account_id := account.id, platform, title, description, tags, category_id := rights.1, mode,
    copyright := rights.2.1, source_credit := rights.2.2, cover_landscape_asset_id := landscape_id,
    cover_portrait_asset_id := portrait_id, publish_at_unix := schedule.1,
    publish_timezone_offset_minutes := schedule.2,
    platform_options := settleShortTitle u checks.accept_normalized_short_title title options }

/-! ## rechecking a stored job -/

def RawIdent.ofIdent : Option Ident → RawIdent
  | .none => .none
  | .some id => .ident id

def Mode.raw : Mode → Raw
  | .publish => .str "publish".toList
  | .draft => .str "draft".toList

/-- `persisted_target` -/
def Content.raw (c : Content) : RawTarget where
  title := .str c.title
  description := .str c.description
  tags := .list (c.tags.map Raw.str)
  category_id := .ofInt c.category_id
  mode := c.mode.raw
  copyright := .int c.copyright
  source_credit := .str c.source_credit
  cover_landscape_asset_id := .ofIdent c.cover_landscape_asset_id
  cover_portrait_asset_id := .ofIdent c.cover_portrait_asset_id
  publish_at_unix := .ofInt c.publish_at_unix
  publish_timezone_offset_minutes := .ofInt c.publish_timezone_offset_minutes
  platform_options := c.platform_options.raw

/-- the flags under which a stored job is normalized again -/
def recheck : Checks := ⟨false, false, true⟩

def validateJobDefinition (env : Env) (db : DB) (j : Job) (require_ready_account : Bool) :
    Except Code PUnit := do
  let account ← fetch (db.accounts.get j.account_id)
    (if require_ready_account then "account_not_found" else "account_disconnected")
  require (account.lifecycle_state = .active) "account_disconnected"
  require (require_ready_account = true → account.auth_state = .ready) "account_not_ready"
  let normalized ← normalizeTarget u env db account j.target.raw {} recheck
  require (normalized = j.target) "invalid_metadata"
  let _ ← validatePublishSchedule j.platform (.ofInt j.target.publish_at_unix)
    (.ofInt j.target.publish_timezone_offset_minutes) env.now true
  let source ← fetch (db.sources.get j.source_id) "source_not_found"
  verifiedSourceMediaPath env source
  let _ ← verifiedJobCoverRows env db j.platform j.target.cover_landscape_asset_id
    j.target.cover_portrait_asset_id

end

end OpenFlame.Upload
