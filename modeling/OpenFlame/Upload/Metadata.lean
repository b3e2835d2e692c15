import OpenFlame.Base.Guard
import OpenFlame.Upload.Contracts

/-!
# Upload metadata: text, tags, platform options, schedules and short titles

The values a client sends are `Raw`: a call may pass any JSON value for any field, and the
normalizers reject the wrong ones.  What they return is typed.

* `normalizeUploadText`, `normalizeUploadTags`, `normalizePlatformOptions`, `validatePublishSchedule`;
* `normalizeTencentShortTitle`, `isTencentShortTitleOutput`: the short title of one platform.

`Unicode` is the character database behind `str.isalnum`, with what this code relies on.
-/

set_option linter.all false

namespace OpenFlame.Upload
open Guard

abbrev Text := List Char

/-- the keys of a `platform_options` mapping -/
inductive OptionKey where
  | dynamic | noReprint | closeComments | closeDanmu | declaration | shortTitle | contentLabel
  | unknown (name : String)
  deriving DecidableEq, Repr

/-- a value as a client sends it; `other` is a value of none of these types -/
inductive Raw where
  | none
  | bool (b : Bool)
  | int (n : Int)
  | str (s : Text)
  | list (xs : List Raw)
  | dict (items : List (OptionKey × Raw))
  | other

/-- the options a job stores; `empty` is the `{}` of a row migrated from schema 1 -/
inductive Options where
  | bilibili (dynamic : Text) (no_reprint close_comments close_danmu : Bool)
  | douyin (declaration : Option Text)
  | tencent (short_title content_label : Option Text)
  | empty
  deriving DecidableEq, Repr

/-! ## limits -/

def TITLE_LIMITS : Platform → Nat
  | .bilibili => 80
  | .douyin => 30
  | .tencent => 100

def SCHEDULE_LEAD_SECONDS : Platform → Int
  | .bilibili => 6 * 60 * 60 + 5 * 60
  | .douyin | .tencent => 4 * 60 * 60 + 5 * 60

def TENCENT_SCHEDULE_MAX_SECONDS : Int := 28 * 24 * 60 * 60

def DOUYIN_DECLARATIONS : List Text :=
  ["内容由AI生成".toList, "内容为转载信息".toList, "内容为个人观点或见解".toList]

def TENCENT_CONTENT_LABELS : List Text := ["含AI生成内容".toList]

def PLATFORM_OPTION_KEYS : Platform → List OptionKey
  | .bilibili => [.dynamic, .noReprint, .closeComments, .closeDanmu]
  | .douyin => [.declaration]
  | .tencent => [.shortTitle, .contentLabel]

/-! ## text and tags -/

/-- the control characters no metadata text may hold -/
def isControl (c : Char) : Bool := c.toNat < 32 && c != '\n' && c != '\t' && c != '\r'

/-- the checks of `normalize_upload_text` on a text -/
def normalizeText (s : Text) (maximum : Nat) (required : Bool) : Except Code Text := do
  require (s.length ≤ maximum ∧ s.all (fun c => !isControl c) = true) "invalid_metadata"
  require (required = true → Text.isBlank s = false) "invalid_metadata"
  return Text.strip s

def normalizeUploadText (value : Raw) (maximum : Nat) (required : Bool) : Except Code Text :=
  match value with
  | .str s => normalizeText s maximum required
  | _ => throw "invalid_metadata"

/-- `",，#＃\n\r\t"` -/
def isTagSeparator (c : Char) : Bool :=
  c == ',' || c == '，' || c == '#' || c == '＃' || c == '\n' || c == '\r' || c == '\t'

def normalizeUploadTags (tags : Raw) : Except Code (List Text) :=
  match tags with
  | .list xs => do
    require (xs.length ≤ 10) "invalid_tags"
    let normalized ← each (fun tag => normalizeUploadText tag 20 true) xs
    require (normalized.Nodup ∧ ∀ tag ∈ normalized, tag.all (fun c => !isTagSeparator c) = true) "invalid_tags"
    return normalized
  | _ => throw "invalid_tags"

/-! ## platform options -/

/-- the bytes `json.dumps(.., ensure_ascii=False)` spends on a character of a text -/
def jsonCharSize (c : Char) : Nat :=
  if c == '"' || c == '\\' || c == '\n' || c == '\t' || c == '\r' then 2
  else if c.toNat < 32 then 6
  else c.utf8Size

def jsonTextSize (s : Text) : Nat := 2 + (s.map jsonCharSize).sum

def jsonBoolSize (b : Bool) : Nat := if b then 4 else 5

def jsonOptionSize : Option Text → Nat
  | none => 4
  | some s => jsonTextSize s

/-- the bytes of the compact JSON of an options mapping -/
def jsonSize : Options → Nat
  | .bilibili dynamic no_reprint close_comments close_danmu =>
    2 + 10 + jsonTextSize dynamic + 1 + 13 + jsonBoolSize no_reprint + 1 + 17 + jsonBoolSize close_comments +
      1 + 14 + jsonBoolSize close_danmu
  | .douyin declaration => 2 + 14 + jsonOptionSize declaration
  | .tencent short_title content_label =>
    2 + 14 + jsonOptionSize short_title + 1 + 16 + jsonOptionSize content_label
  | .empty => 2

/-- `value.get(key, default)` -/
def getKey (items : List (OptionKey × Raw)) (key : OptionKey) (fallback : Raw) : Raw :=
  ((items.find? (fun item => item.1 == key)).map Prod.snd).getD fallback

/-- a flag of the bilibili options -/
def normalizeFlag (items : List (OptionKey × Raw)) (key : OptionKey) : Except Code Bool :=
  match getKey items key (.bool false) with
  | .bool b => return b
  | _ => throw "invalid_platform_option"

/-- a text option that may be absent -/
def normalizeChoice (value : Raw) (maximum : Nat) : Except Code (Option Text) :=
  match value with
  | .none => return none
  | v => do return some (← normalizeUploadText v maximum true)

def normalizeOptionItems (platform : Platform) (items : List (OptionKey × Raw)) : Except Code Options :=
  match platform with
  | .bilibili => do
    let dynamic ← match getKey items .dynamic (.str []) with
      | .none => pure []
      | v => normalizeUploadText v 250 false
    return .bilibili dynamic (← normalizeFlag items .noReprint) (← normalizeFlag items .closeComments)
      (← normalizeFlag items .closeDanmu)
  | .douyin => do
    let declaration ← normalizeChoice (getKey items .declaration .none) 30
    require (∀ d ∈ declaration, d ∈ DOUYIN_DECLARATIONS) "unsupported_declaration"
    return .douyin declaration
  | .tencent => do
    let short_title ← normalizeChoice (getKey items .shortTitle .none) 15
    require (∀ s ∈ short_title, 7 ≤ s.length) "tencent_short_title_length"
    let content_label ← normalizeChoice (getKey items .contentLabel .none) 30
    require (∀ l ∈ content_label, l ∈ TENCENT_CONTENT_LABELS) "unsupported_content_label"
    return .tencent short_title content_label

def normalizePlatformOptions (platform : Platform) (value : Raw) : Except Code Options := do
  let items ← match value with
    | .none => pure []
    | .dict items => pure items
    | _ => throw "unsupported_platform_option"
  require (∀ item ∈ items, item.1 ∈ PLATFORM_OPTION_KEYS platform) "unsupported_platform_option"
  let options ← normalizeOptionItems platform items
  require (jsonSize options ≤ 4096) "platform_options_too_large"
  return options

/-! ## schedules -/

/-- the checks on a publication time, relative to `now` -/
def checkPublishTime (platform : Platform) (publish_at offset now : Int) (enforce_tencent_horizon : Bool) :
    Except Code PUnit := do
  require (1700000000 ≤ publish_at ∧ publish_at ≤ 4102444800 ∧ -840 ≤ offset ∧ offset ≤ 840)
    "invalid_publish_time"
  require (now + SCHEDULE_LEAD_SECONDS platform < publish_at) "publish_time_too_soon"
  require (publish_at % 60 = 0) "publish_time_precision_unsupported"
  require (platform = .tencent → (publish_at + offset * 60) % 3600 = 0) "tencent_schedule_requires_whole_hour"
  require (platform = .tencent → enforce_tencent_horizon = true →
    publish_at ≤ now + TENCENT_SCHEDULE_MAX_SECONDS) "tencent_schedule_too_far"

def validatePublishSchedule (platform : Platform) (publish_at_unix offset_minutes : Raw) (now : Int)
    (enforce_tencent_horizon : Bool) : Except Code (Option Int × Option Int) :=
  match publish_at_unix, offset_minutes with
  | .none, .none => return (none, none)
  | .none, _ => throw "publish_timezone_without_time"
  | .int publish_at, .int offset => do
    checkPublishTime platform publish_at offset now enforce_tencent_horizon
    return (some publish_at, some offset)
  | _, _ => throw "invalid_publish_time"

/-! ## short titles -/

/-- `str.isalnum` of one character, and what the short-title rules rely on: no alphanumeric character
is a space or a comma, and the ideographs of the filler are alphanumeric -/
structure Unicode where
  isalnum : Char → Bool
  alnum_not_space : ∀ c, isalnum c = true → Text.isSpace c = false
  comma_not_alnum : isalnum ',' = false
  wide_comma_not_alnum : isalnum '，' = false
  filler_alnum : ∀ c ∈ "精彩内容分享视频".toList, isalnum c = true

/-- `"《》“”:+?%°"` -/
def SHORT_TITLE_ALLOWED : Text := "《》“”:+?%°".toList

def SHORT_TITLE_FILLER : Text := "，精彩内容分享".toList

def SHORT_TITLE_DEFAULT : Text := "精彩视频内容分享".toList

section
variable (u : Unicode)

/-- what the short title keeps of a character -/
def shortTitleChar (c : Char) : Option Char :=
  if u.isalnum c || SHORT_TITLE_ALLOWED.contains c then some c else if c == ',' then some ' ' else none

def normalizeTencentShortTitle (value : Text) : Text :=
  let filtered := (Text.strip (value.filterMap (shortTitleChar u))).take 15
  if filtered.length < 7 then
    if filtered.isEmpty then SHORT_TITLE_DEFAULT else (filtered ++ SHORT_TITLE_FILLER).take 7
  else filtered

/-- `ordinary` in `is_tencent_short_title_output` -/
def isOrdinary (c : Char) : Bool := u.isalnum c || SHORT_TITLE_ALLOWED.contains c || c == ' '

def isTencentShortTitleOutput (value : Text) : Bool :=
  if 7 ≤ value.length ∧ value.length ≤ 15 ∧ value = Text.strip value then
    if value.contains '，' then
      let comma := value.idxOf '，'
      let head := value.take comma
      value.length == 7 && value.count '，' == 1 && 1 ≤ head.length && head.length ≤ 6 && head == Text.strip head &&
        head.all (isOrdinary u) && value.drop comma == SHORT_TITLE_FILLER.take (7 - comma)
    else value.all (isOrdinary u)
  else false

/-- `legacy_migrated_platform_options` -/
def legacyMigratedPlatformOptions (platform : Platform) (title : Text) : Options :=
  match platform with
  | .douyin => .douyin (some "内容由AI生成".toList)
  | .tencent => .tencent (some (normalizeTencentShortTitle u title)) (some "含AI生成内容".toList)
  | .bilibili => .empty

end

/-! ## the mappings the normalizer reads back from a stored job -/

def Raw.ofText : Option Text → Raw
  | .none => .none
  | .some s => .str s

def Raw.ofInt : Option Int → Raw
  | .none => .none
  | .some n => .int n

def Options.raw : Options → Raw
  | .bilibili dynamic no_reprint close_comments close_danmu =>
    .dict [(.dynamic, .str dynamic), (.noReprint, .bool no_reprint), (.closeComments, .bool close_comments),
      (.closeDanmu, .bool close_danmu)]
  | .douyin declaration => .dict [(.declaration, .ofText declaration)]
  | .tencent short_title content_label =>
    .dict [(.shortTitle, .ofText short_title), (.contentLabel, .ofText content_label)]
  | .empty => .dict []

end OpenFlame.Upload
