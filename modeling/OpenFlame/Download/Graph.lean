import Mathlib.Algebra.Ring.Nat
import Mathlib.Data.List.Nodup
import OpenFlame.Download.Store

/-!
# The attachments of an X post

`buildXAttachmentDiscovery`: probe items become ordered members with derived identities.

`GraphCodec` is what the standard library computes for it: digests, percent-encoding and the Unicode
category of a character.

`buildXAttachmentDiscovery_spec`: **between 1 and 50 members, numbered in order, with distinct keys and
selectors and the identities of their keys.**
-/

set_option linter.all false

namespace OpenFlame.Download
open Guard

def MAX_DISCOVERY_ITEMS : Nat := 50
def MAX_KEY_CHARS : Nat := 256
def MAX_MEDIA_KIND_CHARS : Nat := 32

structure GraphCodec where
  /-- `"xatt:v1:" + sha256(json(["x", "x_post", parent]) + "\0" + stable_key)` -/
  source_id : String → String → String
  /-- `urllib.parse.quote(key, safe="")` -/
  quote : String → String
  /-- `sha256` of `x_attachment_members_json` -/
  snapshot_hash : List MemberPayload → String
  /-- `unicodedata.category(c).startswith("C")` -/
  is_control : Char → Bool

/-- `XAttachmentProbeItem` -/
structure ProbeItem where
  stable_key : String
  selector_key : String
  expected_media_key : String
  media_kind : String

/-- `XAttachmentMember` -/
structure Member where
  ordinal : Nat
  source_id : String
  canonical_url : String
  stable_key : String
  selector_key : String
  expected_media_key : String
  media_kind : String
  deriving DecidableEq, Repr

def Member.payload (m : Member) : MemberPayload := ⟨m.source_id, m.media_kind, m.selector_key⟩

/-- `XAttachmentDiscovery` -/
structure GraphDiscovery where
  members : List Member
  snapshot_hash : String

/-- `_validate_plain_key` -/
def validatePlainKey (codec : GraphCodec) (value label : String) : Txn Unit := do
  require (1 ≤ value.length ∧ value.length ≤ MAX_KEY_CHARS) (.graphValidation (label ++ " length is invalid"))
  require (value.toList.any codec.is_control = false)
    (.graphValidation (label ++ " contains unsafe characters"))

/-- `_MEDIA_KIND.fullmatch` -/
def isMediaKind (value : String) : Bool :=
  match value.toList with
  | [] => false
  | c :: cs => c.isLower && cs.all (fun d => d.isLower || d.isDigit || d == '_') &&
      decide (cs.length < MAX_MEDIA_KIND_CHARS)

/-- `XPostIdentity` -/
def validXPostIdentity (source_id : String) : Bool :=
  1 ≤ source_id.length && source_id.length ≤ 64 && source_id.toList.all Char.isDigit

def xPostUrl (parent : String) : String := "https://x.com/i/status/" ++ parent

/-- one iteration of the loop of `build_x_attachment_discovery` -/
def addMember (codec : GraphCodec) (parent parent_canonical_url : String) (members : List Member)
    (item : ProbeItem) : Txn (List Member) := do
  require (members.length < MAX_DISCOVERY_ITEMS)
    (.graphValidation "attachment discovery count is outside the limit")
  validatePlainKey codec item.stable_key "stable attachment key"
  validatePlainKey codec item.selector_key "attachment selector"
  validatePlainKey codec item.expected_media_key "expected media key"
  require (item.stable_key ∉ members.map Member.stable_key)
    (.graphValidation "stable attachment keys must be unique")
  require (item.selector_key ∉ members.map Member.selector_key)
    (.graphValidation "attachment selectors must be unique")
  require (parent_canonical_url = xPostUrl parent) (.graphValidation "X parent canonical URL is invalid")
  require (isMediaKind item.media_kind = true) (.graphValidation "attachment media kind is invalid")
  return members ++ [{
    ordinal := members.length
    source_id := codec.source_id parent item.stable_key
    canonical_url := xPostUrl parent ++ "#vdc-media=" ++ codec.quote item.stable_key
    stable_key := item.stable_key
    selector_key := item.selector_key
    expected_media_key := item.expected_media_key
    media_kind := item.media_kind }]

/-- `build_x_attachment_discovery` -/
def buildXAttachmentDiscovery (codec : GraphCodec) (parent parent_canonical_url : String)
    (probe_items : List ProbeItem) : Txn GraphDiscovery := do
  require (validXPostIdentity parent = true) (.graphValidation "X parent source identity is invalid")
  let members ← thread (addMember codec parent parent_canonical_url) [] probe_items
  require (members ≠ []) (.graphValidation "attachment discovery count is outside the limit")
  return ⟨members, codec.snapshot_hash (members.map Member.payload)⟩

/-- the members of a discovery under construction -/
structure WellFormed (codec : GraphCodec) (parent : String) (members : List Member) : Prop where
  count : members.length ≤ MAX_DISCOVERY_ITEMS
  ordinals : members.map Member.ordinal = List.range members.length
  keys : (members.map Member.stable_key).Nodup
  selectors : (members.map Member.selector_key).Nodup
  identity : ∀ m ∈ members, m.source_id = codec.source_id parent m.stable_key

theorem addMember_wellFormed {codec : GraphCodec} {parent url : String} {members members' : List Member}
    {item : ProbeItem} (h : addMember codec parent url members item = .ok members')
    (hwf : WellFormed codec parent members) : WellFormed codec parent members' := by
  simp only [addMember, bind_eq_ok, require_eq_ok, pure_eq_ok] at h
  obtain ⟨-, hcount, -, -, -, -, -, -, -, hkey, -, hselector, -, -, -, -, rfl⟩ := h
  have hnodup : ∀ {l : List String} {k : String}, l.Nodup → k ∉ l → (l ++ [k]).Nodup := by
    intro l k hl hk
    refine List.nodup_append.mpr ⟨hl, List.nodup_singleton k, ?_⟩
    rintro a ha b hb rfl
    rw [List.mem_singleton] at hb
    exact hk (hb ▸ ha)
  constructor
  case count =>
    rw [List.length_append]
    exact hcount
  case ordinals => simp [List.range_succ, hwf.ordinals]
  case keys => simpa using hnodup hwf.keys hkey
  case selectors => simpa using hnodup hwf.selectors hselector
  case identity =>
    intro m hm
    rcases List.mem_append.mp hm with hm | hm
    · exact hwf.identity m hm
    · rw [List.mem_singleton] at hm
      rw [hm]

theorem buildXAttachmentDiscovery_spec {codec : GraphCodec} {parent url : String} {items : List ProbeItem}
    {d : GraphDiscovery} (h : buildXAttachmentDiscovery codec parent url items = .ok d) :
    d.members ≠ [] ∧ WellFormed codec parent d.members ∧
      d.snapshot_hash = codec.snapshot_hash (d.members.map Member.payload) := by
  simp only [buildXAttachmentDiscovery, bind_eq_ok, require_eq_ok, pure_eq_ok] at h
  obtain ⟨-, -, members, hmembers, -, hne, rfl⟩ := h
  refine ⟨hne, ?_, rfl⟩
  refine thread_induct (WellFormed codec parent) (fun _ _ _ _ hstep hwf => addMember_wellFormed hstep hwf)
    hmembers ⟨Nat.zero_le _, rfl, List.nodup_nil, List.nodup_nil, fun m hm => absurd hm List.not_mem_nil⟩

end OpenFlame.Download
