import OpenFlame.Base.Guard
import OpenFlame.Base.PointsJson

/-!
# The control files of a backup

A backup is a directory of files with a manifest, whose digest is in a record of its own.

`readJsonMapping`         `_read_json_mapping`
`validatedRelativePath`   `_validated_relative_path`
`readEntry`               one entry of a manifest, in the words of either restore

* `readJsonMapping_raises`         what is read of a mapping raises `BackupRestoreError` iff it is within the limits;
* `validatedRelativePath_raises`   a path raises it unless it is a dot;
* `readEntry_raises`               an entry raises it unless its path is a dot, or is one that the file system cannot name.
-/

set_option linter.all false

namespace OpenFlame.Backup
open Guard Points

/-- the exceptions, by the class that a handler sees -/
inductive Raised where
  /-- `BackupRestoreError`, which is `UploadBackupError` too -/
  | restore (message : String)
  /-- `UploadSchemaError` -/
  | schema
  /-- `sqlite3.Error` -/
  | sqlite
  | os
  | value
  | type
  | index
  | recursion
  /-- any other one -/
  | other
  deriving DecidableEq

def Raised.Declared (e : Raised) : Prop := ∃ message, e = .restore message

theorem declared (message : String) : (Raised.restore message).Declared := ⟨message, rfl⟩

/-- what the modules call of the standard library and of the interpreter -/
structure Python (F : Type) extends Json.Floats F where
  limits : Limits
  /-- a float `==` a whole number -/
  equalsInt : F → Int → Bool
  casefold : Text → Text
  /-- the file system can encode the path -/
  encodes : Text → Bool
  /-- `datetime.fromisoformat` gives a time with an offset -/
  isAware : Text → Bool

structure Entry where
  path : Text
  size_bytes : Int
  sha256 : Text
  deriving DecidableEq

/-- what is found in the directory of a backup; a text is the message of a `BackupRestoreError` -/
structure Source where
  hash_record : Except String (List UInt8)
  /-- `_sha256_regular_file` of the manifest -/
  manifest_sha256 : Except String (List Char)
  manifest : Except String ByteArray
  /-- `_verify_regular_file` of an entry -/
  verify : Entry → Except String Unit
  /-- `_scan_backup_files` -/
  scan : Except Raised (List Text)
  metadata : Except String ByteArray

section
variable {F : Type} (py : Python F)

/-! ## control files -/

/-- what only raises `BackupRestoreError` -/
def control {α : Type} (x : Except String α) : Except Raised α := x.mapError .restore

/-- `bytes.decode("ascii", errors="strict")` -/
def decodeAscii (raw : List UInt8) : Except Raised (List Char) :=
  if raw.all (· < 128) then .ok (raw.map (fun b => Char.ofNat b.toNat)) else .error .value

def isHexDigit (c : Char) : Bool := c.isDigit || ('a' ≤ c && c ≤ 'f')

/-- `[0-9a-f]{64}\n` -/
def isHashRecord (s : List Char) : Bool := (s.take 64).all isHexDigit && s.length == 65 && s.getLast? == some '\n'

/-- `[0-9a-f]{64}` -/
def isSha256 (s : Text) : Bool := s.length == 64 && s.all (fun p => p.scalar?.any isHexDigit)

/-- `json.loads` in `_read_json_mapping` -/
def loadMapping (text : List Char) : Except Raised (Value F) :=
  match loads py.toFloats py.limits text with
  | .ok v => .ok v
  | .error .decode => .error (.restore "JSON control file is invalid")
  | .error .value => .error .value
  | .error .recursion => .error .recursion

/-- `_read_json_mapping` -/
def readJsonMapping (raw : Except String ByteArray) : Except Raised (List (Text × Value F)) := do
  let bytes ← control raw
  let text ← fetch bytes.utf8Decode? (.restore "JSON control file is invalid")
  let v ← loadMapping py text.toList
  fetch (object? v) (.restore "JSON control file must be an object")

/-- `value == n` -/
def equals (v : Value F) (n : Int) : Bool := match v with
  | .int i => i == n
  | .bool b => (if b then 1 else 0) == n
  | .float f => py.equalsInt f n
  | _ => false

/-- `value == s` -/
def isText (v : Value F) (s : String) : Bool := text? v == some (text s)

/-! ## paths -/

/-- `PurePosixPath(value).parts` of a relative path -/
def pathParts (s : Text) : List Text := (s.splitOn (.scalar '/')).filter (fun p => p ≠ [] ∧ p ≠ text ".")

/-- `as_posix()` -/
def asPosix (parts : List Text) : Text := if parts = [] then text "." else List.intercalate (text "/") parts

/-- `relative_to` -/
def relativeTo (front parts : List Text) : Option (List Text) :=
  if front.isPrefixOf parts then some (parts.drop front.length) else none

/-- `_validated_relative_path` -/
def validatedRelativePath (v : Value F) : Except Raised Text := do
  let s ← fetch (text? v) (.restore "relative path is invalid")
  require (s ≠ [] ∧ s.length ≤ 4096) (.restore "relative path is invalid")
  require (.scalar '\\' ∉ s ∧ .scalar '\x00' ∉ s) (.restore "relative path is invalid")
  require (s.head? ≠ some (.scalar '/') ∧ text ".." ∉ pathParts s) (.restore "relative path escapes its root")
  require (asPosix (pathParts s) = s) (.restore "relative path is not canonical")
  -- `path.parts[0]`
  let first ← fetch (pathParts s).head? .index
  require (.scalar ':' ∉ first) (.restore "relative path is not canonical")
  return s

/-! ## entries -/

/-- `_verify_regular_file`: a path that the file system cannot encode raises `UnicodeEncodeError` -/
def verifyRegularFile (source : Source) (entry : Entry) : Except Raised Unit :=
  if py.encodes entry.path then control (source.verify entry) else .error .value

def ENTRY_KEYS : List String := ["path", "size_bytes", "sha256"]

/-- the size and the digest of an entry -/
def entryOf (path : Text) (ms : List (Text × Value F)) : Option Entry := do
  let size ← int? (get ms "size_bytes")
  let digest ← text? (get ms "sha256")
  if 0 ≤ size ∧ isSha256 digest = true then some ⟨path, size, digest⟩ else none

/-- the paths seen so far, casefolded, and the entries -/
abbrev Seen : Type := List Text × List Entry

/-- one entry; what a restore checks of its path, and the messages that it has for it -/
def readEntry (source : Source) (check : Text → Except String Unit) (invalid duplicate : String) (seen : Seen)
    (raw : Value F) : Except Raised Seen := do
  let ms ← fetch (object? raw) (.restore invalid)
  require (HasKeys ms ENTRY_KEYS ENTRY_KEYS) (.restore invalid)
  let path ← validatedRelativePath (get ms "path")
  control (check path)
  let entry ← fetch (entryOf path ms) (.restore invalid)
  require (py.casefold path ∉ seen.1) (.restore duplicate)
  verifyRegularFile py source entry
  return (seen.1 ++ [py.casefold path], seen.2 ++ [entry])

/-! ## what is raised -/

variable {py}

/-- the declared exceptions are among these -/
def Covers (p : Raised → Prop) : Prop := ∀ message, p (.restore message)

theorem covers_declared : Covers Raised.Declared := declared

theorem control_covers {p : Raised → Prop} (hp : Covers p) {α : Type} (x : Except String α) : Raises (control x) p :=
  raises_mapError (fun message _ => hp message)

theorem control_raises {α : Type} (x : Except String α) : Raises (control x) Raised.Declared :=
  control_covers covers_declared x

theorem decodeAscii_raises {raw : List UInt8} : Raises (decodeAscii raw) Raised.Declared ↔ raw.all (· < 128) = true := by
  unfold decodeAscii
  split
  · next h => exact iff_of_true raises_ok h
  · next h =>
    refine iff_of_false (fun hraises => ?_) h
    obtain ⟨message, hmessage⟩ := hraises _ rfl
    cases hmessage

/-- a control file that is JSON, when it is, is within the limits of the interpreter -/
def Limited (py : Python F) (raw : Except String ByteArray) : Prop :=
  ∀ bytes, raw = .ok bytes → ∀ text, bytes.utf8Decode? = some text →
    loads py.toFloats py.limits text.toList ≠ .error .value ∧ loads py.toFloats py.limits text.toList ≠ .error .recursion

theorem loadMapping_raises {s : List Char} : Raises (loadMapping py s) Raised.Declared ↔
    loads py.toFloats py.limits s ≠ .error .value ∧ loads py.toFloats py.limits s ≠ .error .recursion := by
  unfold loadMapping
  split
  · next h =>
    rw [h]
    exact iff_of_true raises_ok ⟨nofun, nofun⟩
  · next h =>
    rw [h]
    refine iff_of_true ?_ ⟨nofun, nofun⟩
    intro e he
    cases he
    exact declared _
  · next h =>
    refine iff_of_false (fun hraises => ?_) (fun hne => hne.1 h)
    obtain ⟨message, hmessage⟩ := hraises _ rfl
    cases hmessage
  · next h =>
    refine iff_of_false (fun hraises => ?_) (fun hne => hne.2 h)
    obtain ⟨message, hmessage⟩ := hraises _ rfl
    cases hmessage

/-- a control file raises, besides what is declared, what its JSON raises -/
theorem readJsonMapping_covers {p : Raised → Prop} (hp : Covers p) {raw : Except String ByteArray} :
    Raises (readJsonMapping py raw) p ↔ ∀ bytes, raw = .ok bytes → ∀ text, bytes.utf8Decode? = some text →
      Raises (loadMapping py text.toList) p := by
  unfold readJsonMapping
  rw [raises_bind]
  constructor
  · rintro ⟨-, h⟩ bytes hraw text htext
    have hbytes : control raw = .ok bytes := by rw [hraw]; rfl
    have hload := h bytes hbytes
    rw [raises_bind] at hload
    have hloaded := hload.2 text (by rw [htext]; rfl)
    rw [raises_bind] at hloaded
    exact hloaded.1
  · intro h
    refine ⟨control_covers hp raw, fun bytes hbytes => ?_⟩
    have hraw : raw = .ok bytes := mapError_eq_ok.mp hbytes
    rw [raises_bind]
    refine ⟨raises_fetch (hp _), fun text htext => ?_⟩
    rw [raises_bind]
    exact ⟨h bytes hraw text (fetch_eq_ok.mp htext), fun v _ => raises_fetch (hp _)⟩

/-- **A control file raises `BackupRestoreError`, if it raises, iff it is within the limits.** -/
theorem readJsonMapping_raises {raw : Except String ByteArray} :
    Raises (readJsonMapping py raw) Raised.Declared ↔ Limited py raw := by
  rw [readJsonMapping_covers covers_declared]
  exact forall₄_congr (fun _ _ _ _ => loadMapping_raises)

/-- a path raises, besides what is declared, `IndexError` when it is a dot -/
theorem validatedRelativePath_covers {p : Raised → Prop} (hp : Covers p) {v : Value F} :
    Raises (validatedRelativePath v) p ↔ (text? v = some (text ".") → p .index) := by
  by_cases hdot : text? v = some (text ".")
  · have hindex : validatedRelativePath v = .error .index := by
      unfold validatedRelativePath
      rw [hdot]
      rfl
    rw [hindex]
    refine ⟨fun h _ => h .index rfl, fun h e he => ?_⟩
    cases he
    exact h hdot
  · refine iff_of_true ?_ (fun h => absurd h hdot)
    unfold validatedRelativePath
    simp only [raises_bind]
    refine ⟨raises_fetch (hp _), fun s hs => ⟨raises_require (hp _), fun _ _ =>
      ⟨raises_require (hp _), fun _ _ => ⟨raises_require (hp _), fun _ _ =>
      ⟨raises_require (hp _), fun _ hposix => ⟨?_, fun first _ => ⟨raises_require (hp _), fun _ _ => raises_pure⟩⟩⟩⟩⟩⟩⟩
    cases hparts : pathParts s with
    | nil =>
      rw [require_eq_ok, hparts] at hposix
      rw [fetch_eq_ok, ← hposix] at hs
      exact absurd hs hdot
    | cons part parts => exact raises_ok

/-- **A path raises `BackupRestoreError`, if it raises, unless it is a dot.** -/
theorem validatedRelativePath_raises {v : Value F} :
    Raises (validatedRelativePath v) Raised.Declared ↔ text? v ≠ some (text ".") := by
  rw [validatedRelativePath_covers covers_declared]
  refine imp_congr_right (fun _ => iff_of_false (fun hdeclared => ?_) not_false)
  obtain ⟨message, hmessage⟩ := hdeclared
  cases hmessage

theorem verifyRegularFile_raises {source : Source} {entry : Entry} :
    Raises (verifyRegularFile py source entry) Raised.Declared ↔ py.encodes entry.path = true := by
  unfold verifyRegularFile
  split
  · next h => exact iff_of_true (control_raises _) h
  · next h =>
    refine iff_of_false (fun hraises => ?_) h
    obtain ⟨message, hmessage⟩ := hraises _ rfl
    cases hmessage

/-- the members of an entry with its three keys -/
def entryMembers (raw : Value F) : Option (List (Text × Value F)) :=
  (object? raw).filter (fun ms => HasKeys ms ENTRY_KEYS ENTRY_KEYS)

/-- an entry's path is not a dot; and one that is good, new and complete can be encoded -/
def Named (py : Python F) (check : Text → Except String Unit) (seen : Seen) (raw : Value F) : Prop :=
  ∀ ms, entryMembers raw = some ms → text? (get ms "path") ≠ some (text ".") ∧
    ∀ path entry, validatedRelativePath (get ms "path") = .ok path → check path = .ok () → entryOf path ms = some entry →
      py.casefold path ∉ seen.1 → py.encodes path = true

theorem entryOf_path {path : Text} {ms : List (Text × Value F)} {entry : Entry} (h : entryOf path ms = some entry) :
    entry.path = path := by
  unfold entryOf at h
  obtain ⟨size, -, h⟩ := Option.bind_eq_some_iff.mp h
  obtain ⟨digest, -, h⟩ := Option.bind_eq_some_iff.mp h
  split at h
  · rw [← Option.some.inj h]
  · cases h

/-- an entry raises, besides what is declared, what its path raises and what looking at its file raises -/
theorem readEntry_covers {p : Raised → Prop} (hp : Covers p) {source : Source} {check : Text → Except String Unit}
    {invalid duplicate : String} {seen : Seen} {raw : Value F} :
    Raises (readEntry py source check invalid duplicate seen raw) p ↔ ∀ ms, entryMembers raw = some ms →
      Raises (validatedRelativePath (get ms "path")) p ∧ ∀ path entry, validatedRelativePath (get ms "path") = .ok path →
        check path = .ok () → entryOf path ms = some entry → py.casefold path ∉ seen.1 →
          Raises (verifyRegularFile py source entry) p := by
  have hmembers (ms : List (Text × Value F)) : entryMembers raw = some ms ↔
      object? raw = some ms ∧ HasKeys ms ENTRY_KEYS ENTRY_KEYS := by
    unfold entryMembers
    rw [Option.filter_eq_some_iff, decide_eq_true_eq]
  unfold readEntry
  simp only [raises_bind, fetch_eq_ok, require_eq_ok]
  constructor
  · rintro ⟨-, h⟩ ms hms
    obtain ⟨hobject, hkeys⟩ := (hmembers ms).mp hms
    obtain ⟨hpath, hrest⟩ := (h ms hobject).2 ⟨⟩ hkeys
    refine ⟨hpath, fun path entry hvalid hcheck hentry hnew => ?_⟩
    have hcontrol : control (check path) = .ok () := by rw [hcheck]; rfl
    obtain ⟨-, hverify⟩ := ((hrest path hvalid).2 () hcontrol).2 entry hentry
    exact (hverify ⟨⟩ hnew).1
  · intro h
    refine ⟨raises_fetch (hp _), fun ms hobject => ⟨raises_require (hp _), fun _ hkeys => ?_⟩⟩
    obtain ⟨hpath, hverify⟩ := h ms ((hmembers ms).mpr ⟨hobject, hkeys⟩)
    exact ⟨hpath, fun path hvalid => ⟨control_covers hp _, fun _ hcheck =>
      ⟨raises_fetch (hp _), fun entry hentry => ⟨raises_require (hp _), fun _ hnew =>
        ⟨hverify path entry hvalid (mapError_eq_ok.mp hcheck) hentry hnew, fun _ _ => raises_pure⟩⟩⟩⟩⟩

/-- **An entry raises `BackupRestoreError`, if it raises, iff its path can be named.** -/
theorem readEntry_raises {source : Source} {check : Text → Except String Unit} {invalid duplicate : String} {seen : Seen}
    {raw : Value F} : Raises (readEntry py source check invalid duplicate seen raw) Raised.Declared ↔
      Named py check seen raw := by
  rw [readEntry_covers covers_declared]
  refine forall₂_congr (fun ms _ => and_congr validatedRelativePath_raises ?_)
  refine forall₄_congr (fun path entry _ _ => forall₂_congr (fun hentry _ => ?_))
  rw [verifyRegularFile_raises, entryOf_path hentry]

/-- **The entries raise `BackupRestoreError`, if they raise, iff each can be named when it is its turn.** -/
theorem readEntries_raises {source : Source} {check : Text → Except String Unit} {invalid duplicate : String} {seen : Seen}
    {raws : List (Value F)} : Raises (thread (readEntry py source check invalid duplicate) seen raws) Raised.Declared ↔
      ∀ front raw back, raws = front ++ raw :: back → ∀ seen', thread (readEntry py source check invalid duplicate) seen front =
        .ok seen' → Named py check seen' raw := by
  rw [raises_thread_iff]
  exact forall₅_congr (fun front raw back _ seen' => forall_congr' (fun _ => readEntry_raises))

end

end OpenFlame.Backup
