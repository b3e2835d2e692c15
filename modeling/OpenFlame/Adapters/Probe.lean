import OpenFlame.Base.Guard
import OpenFlame.Base.PointsJson

/-!
# The output of a probe

`safeText`, `safeNumber`, `safeMetadata`   what is kept of a value
`mediaKey`, `probeItem`, `collectItems`    the items of a probe
`parseProbeResult`                         `_parse_probe_result`
`validateExpectedMediaKeys`                what a download expects of the keys

Numbers with too many digits and values nested too deep are read as the interpreter reads them, by its `Limits`.
-/

set_option linter.all false

namespace OpenFlame.Adapters
open Guard Points

inductive ProbeFailure where
  /-- `AdapterFailure` -/
  | adapter (code message : String)
  /-- the `ValueError` of `int` -/
  | valueError
  /-- the `UnicodeEncodeError` of a text with half of a surrogate pair -/
  | unicodeEncode
  deriving DecidableEq

def extractorBroken (message : String) : ProbeFailure := .adapter "EXTRACTOR_BROKEN" message

def validationFailed (message : String) : ProbeFailure := .adapter "VALIDATION_FAILED" message

/-- what the parser calls of the standard library; a date that does not exist is none -/
structure ProbeLib (F : Type) extends Json.Floats F where
  isfinite : F → Bool
  /-- `0 <= value <= 10**12` -/
  inRange : F → Bool
  lower : Text → Text
  /-- the ISO form of `datetime.fromtimestamp(value, tz=UTC)` -/
  fromtimestamp : Value F → Option Text
  /-- the ISO form of `datetime.strptime(text, "%Y%m%d").date()` -/
  strptime : Text → Option Text
  /-- the hexadecimal digest of a text encoded as UTF-8 -/
  sha256 : List Char → List Char
  hex_sha256 : ∀ s, (sha256 s).length = 64 ∧ (sha256 s).all (fun c => c.isDigit || ('a' ≤ c && c ≤ 'f')) = true

structure ProbeRequest where
  canonical_url : List Char
  platform : Text
  source_type : Text
  max_items : Int

structure ProbeItem (F : Type) where
  canonical_url : List Char
  media_key : Text
  media_kind : String
  source_id : Text
  title : Option Text
  metadata : List (String × Value F)

structure ProbeResult (F : Type) where
  sanitized_source : List (String × Value F)
  items : List (ProbeItem F)
  expected_item_count : Nat
  discovery_snapshot_hash : List Char

def MAX_DOWNLOAD_ITEMS : Nat := 50

def IMAGE_EXTENSIONS : List Text :=
  [".avif", ".bmp", ".gif", ".jpe", ".jpeg", ".jpg", ".png", ".webp"].map Points.text

section
variable {F : Type}

/-! ## what is kept of a value -/

/-- a character that is no control stays -/
def cleanPoint (p : Point) : Point := if 0x20 ≤ p.toNat ∧ p.toNat ≠ 0x7F then p else .scalar ' '

/-- `_safe_text` -/
def safeText (max_chars : Nat) (value : Value F) : Option Text :=
  match text? value with
  | none => none
  | some s => if strip (s.map cleanPoint) = [] then none else some ((strip (s.map cleanPoint)).take max_chars)

variable (lib : ProbeLib F)

/-- `_safe_number` -/
def safeNumber : Value F → Option (Value F)
  | .int i => if 0 ≤ i ∧ i ≤ 10 ^ 12 then some (.int i) else none
  | .float f => if lib.isfinite f = true ∧ lib.inRange f = true then some (.float f) else none
  | _ => none

/-- the members of some keys, where something is kept of their value -/
def keptMembers (keep : Value F → Option (Value F)) (keys : List String) (info : List (Text × Value F)) :
    List (String × Value F) :=
  keys.filterMap (fun key => (keep (get info key)).map (fun v => (key, v)))

def keptText (max_chars : Nat) (value : Value F) : Option (Value F) := (safeText max_chars value).map .str

/-- `_safe_probe_metadata` -/
def safeProbeMetadata (info : List (Text × Value F)) : List (String × Value F) :=
  keptMembers (keptText 256)
    ["uploader", "uploader_id", "channel", "channel_id", "extractor_key", "live_status", "ext"] info ++
  keptMembers (safeNumber lib) ["duration", "timestamp", "width", "height"] info

/-- `_safe_published_at` -/
def safePublishedAt (info : List (Text × Value F)) : Option Text :=
  (safeNumber lib (get info "timestamp")).bind lib.fromtimestamp |>.or
    ((safeText 8 (get info "upload_date")).bind lib.strptime)

/-- `_media_kind_from_info` -/
def mediaKindFromInfo (info : List (Text × Value F)) : String :=
  if (safeText 16 (get info "ext")).any
      (fun ext => decide (Point.scalar '.' :: (lib.lower ext).dropWhile (· == .scalar '.') ∈ IMAGE_EXTENSIONS)) = true then
    "image"
  else if safeText 64 (get info "vcodec") = some (Points.text "none") ∧
      safeText 64 (get info "acodec") ∉ [none, some (Points.text "none")] then "audio"
  else "video"

/-- `_derived_media_key` -/
def derivedMediaKey (canonical_url : List Char) (ordinal : Nat) : Text :=
  Points.text "derived-" ++ ofChars ((lib.sha256 (canonical_url ++ '\x00' :: (toString ordinal).toList)).take 24)

/-! ## items -/

section
variable (request : ProbeRequest)

def mediaKey (ordinal : Nat) (entry : List (Text × Value F)) : Text :=
  (safeText 256 (get entry "id")).getD (derivedMediaKey lib request.canonical_url ordinal)

def probeItem (ordinal : Nat) (entry : List (Text × Value F)) : ProbeItem F where
  canonical_url := request.canonical_url
  media_key := mediaKey lib request ordinal entry
  media_kind := mediaKindFromInfo lib entry
  source_id := mediaKey lib request ordinal entry
  title := safeText 512 (get entry "title")
  metadata := safeProbeMetadata lib entry

/-- the loop over the entries, from the `ordinal`-th -/
def collectItems : Nat → List Text → List (List (Text × Value F)) → Except ProbeFailure (List (ProbeItem F))
  | _, _, [] => .ok []
  | ordinal, media_keys, entry :: entries => do
    require (mediaKey lib request ordinal entry ∉ media_keys)
      (validationFailed "yt-dlp probe returned duplicate media identifiers")
    let items ← collectItems (ordinal + 1) (mediaKey lib request ordinal entry :: media_keys) entries
    return probeItem lib request ordinal entry :: items

/-- the entries of a root: itself if it has none -/
def entriesOf (raw : List (Text × Value F)) : Except ProbeFailure (List (List (Text × Value F))) :=
  match get raw "entries" with
  | .null => .ok [raw]
  | .arr vs => fetch (vs.mapM object?) (extractorBroken "yt-dlp probe returned an invalid item collection")
  | _ => throw (extractorBroken "yt-dlp probe returned an invalid item collection")

/-- the entries of a payload that are made items -/
def acceptedEntries (raw : List (Text × Value F)) : Except ProbeFailure (List (List (Text × Value F))) := do
  let entries ← entriesOf raw
  require (entries ≠ []) (.adapter "CONTENT_UNAVAILABLE" "yt-dlp probe returned no downloadable items")
  require ((entries.length : Int) ≤ request.max_items) (validationFailed "yt-dlp probe exceeded the requested item limit")
  return entries

def sanitizedSource (raw : List (Text × Value F)) (item_count : Nat) : List (String × Value F) :=
  [("platform", .str request.platform), ("source_type", .str request.source_type),
    ("canonical_url", .str (ofChars request.canonical_url)), ("item_count", .int item_count)] ++
  keptMembers (keptText 512)
    ["title", "uploader", "uploader_id", "channel", "channel_id", "extractor_key", "live_status"] raw ++
  keptMembers (safeNumber lib) ["duration", "timestamp", "width", "height"] raw ++
  (((safeText 512 (get raw "uploader")).or (safeText 512 (get raw "channel"))).map (fun s => ("author", .str s))).toList ++
  ((safePublishedAt lib raw).map (fun s => ("published_at", .str s))).toList

/-! ## the snapshot -/

def ofOption : Option Text → Value F
  | some s => .str s
  | none => .null

def ProbeItem.snapshot (item : ProbeItem F) : Value F :=
  .obj (record [("media_key", .str item.media_key), ("media_kind", .str (Points.text item.media_kind)),
    ("metadata", .obj (record item.metadata)), ("source_id", .str item.source_id), ("title", ofOption item.title)])

def snapshot (canonical_url : List Char) (items : List (ProbeItem F)) : Value F :=
  .obj (record [("canonical_url", .str (ofChars canonical_url)), ("items", .arr (items.map ProbeItem.snapshot))])

/-- the hash of a snapshot, if UTF-8 has all its characters -/
def discoveryHash (canonical_url : List Char) (items : List (ProbeItem F)) : Option (List Char) :=
  (scalars? (dumps lib.repr (snapshot canonical_url items))).map lib.sha256

/-! ## the result -/

/-- the root object of a payload -/
def loadRoot (limits : Limits) (payload : ByteArray) : Except ProbeFailure (List (Text × Value F)) := do
  let decoded ← fetch payload.utf8Decode? (extractorBroken "yt-dlp probe returned invalid bounded JSON")
  let raw ← (loads lib.toFloats limits decoded.toList).mapError (fun e =>
    match e with
    | .value => .valueError
    | _ => extractorBroken "yt-dlp probe returned invalid bounded JSON")
  fetch (object? raw) (extractorBroken "yt-dlp probe JSON root is not an object")

/-- `_parse_probe_result` -/
def parseProbeResult (limits : Limits) (max_bytes : Nat) (payload : ByteArray) : Except ProbeFailure (ProbeResult F) := do
  require (payload.size ≤ max_bytes) (extractorBroken "yt-dlp probe exceeded the bounded JSON limit")
  let raw ← loadRoot lib limits payload
  let entries ← acceptedEntries request raw
  let items ← collectItems lib request 0 [] entries
  let discovery_hash ← fetch (discoveryHash lib request.canonical_url items) .unicodeEncode
  return ⟨sanitizedSource lib request raw items.length, items, items.length, discovery_hash⟩

end

/-- `_validate_expected_media_keys` -/
def validateExpectedMediaKeys (expected : List Text) : Except ProbeFailure Unit :=
  require ((1 ≤ expected.length ∧ expected.length ≤ MAX_DOWNLOAD_ITEMS) ∧
    (∀ media_key ∈ expected, safeText 256 (.str media_key : Value Unit) = some media_key) ∧ expected.Nodup)
    (validationFailed "download expectations must contain 1 to 50 unique media keys")

end

end OpenFlame.Adapters
