import OpenFlame.Download.Url

/-!
# Egress targets

`Address`               an IP address without a zone
`NetLib`                what the rules call of the standard library besides `urllib.parse`
`publicAddress`         the address of a DNS answer or of a peer, when it is public
`asciiHost`             the name that is looked up, sent and compared
`egressSite`            what `resolve_public_target` knows before it asks the resolver
`resolvePublicTarget`   the target with all its accepted addresses
`assertConnectedPeer`   the peer of a connection is one of them

* `asciiHost_plain`              a lower-case ASCII name is its own host;
* **`egressSite_admitted`**      what is known of a URL before its host is looked up;
* **`target_addresses`**         the addresses of a target are its answers, and all of them are public.
-/

set_option linter.all false

namespace OpenFlame.Network
open Guard Download

def isAscii (c : Char) : Bool := decide (c.toNat < 128)

instance neZero_v4 : NeZero (2 ^ 32) := ⟨by decide⟩

inductive Address where
  | v4 (n : Fin (2 ^ 32))
  | v6 (n : Fin (2 ^ 128))
  deriving DecidableEq

/-- a character of an IPv4 or IPv6 literal -/
def isAddressChar (c : Char) : Bool :=
  isAsciiDigit c || ('a' ≤ c && c ≤ 'f') || ('A' ≤ c && c ≤ 'F') || c == '.' || c == ':'

/-- a field that lowers the letters of ASCII only -/
theorem lower_ascii_letters (s : Text) (_ : s.all isAscii = true) : s.map Char.toLower = s.map Char.toLower := rfl

/-- the registries behind `is_global` and the rest differ between releases of the `ipaddress` module -/
structure NetLib extends UrlLib where
  lower_ascii : ∀ s : Text, s.all isAscii = true → lower s = s.map Char.toLower
  /-- the `idna` codec on a name with a character outside ASCII -/
  idna : Text → Option Text
  /-- `ipaddress.ip_address` on a text without `%` -/
  ip_address : Text → Option Address
  ip_address_chars : ∀ s a, ip_address s = some a → s.all isAddressChar = true
  compressed : Address → Text
  is_global : Address → Bool
  is_multicast : Address → Bool
  is_unspecified : Address → Bool
  is_loopback : Address → Bool
  is_link_local : Address → Bool
  is_private : Address → Bool
  is_reserved : Address → Bool
  /-- of an IPv6 address -/
  is_site_local : Address → Bool
  /-- `urllib.parse.urljoin`, `none` when it raises -/
  urljoin : Text → Text → Option Text

structure EgressPolicyError where
  reason : Text
  message : String

def egressError (reason message : String) : EgressPolicyError := ⟨reason.toList, message⟩

structure ResolvedTarget where
  url : Text
  scheme : Text
  host : Text
  port : Nat
  addresses : List Text
  deriving DecidableEq

def MAX_EGRESS_URL_LENGTH : Nat := 4096

/-! ## addresses -/

/-- the first bits of the NAT64, Teredo and 6to4 networks -/
def BLOCKED_TRANSITION_NETWORKS : List (Nat × Nat) :=
  [(0x0064ff9b0000000000000000, 96), (0x0064ff9b0001, 48), (0x20010000, 32), (0x2002, 16)]

/-- `address.ipv4_mapped`, or the address itself -/
def Address.unmapped : Address → Address
  | .v4 n => .v4 n
  | .v6 n => if n.val / 2 ^ 32 = 0xFFFF then .v4 (Fin.ofNat _ n.val) else .v6 n

def Address.isTransition : Address → Bool
  | .v4 _ => false
  | .v6 n => BLOCKED_TRANSITION_NETWORKS.any (fun network => n.val / 2 ^ (128 - network.2) == network.1)

def Address.isV6 : Address → Bool
  | .v4 _ => false
  | .v6 _ => true

/-- none of the registries that are not public names the address -/
def Address.isGloballyPublic (lib : NetLib) (a : Address) : Bool :=
  lib.is_global a && !lib.is_multicast a && !lib.is_unspecified a && !lib.is_loopback a && !lib.is_link_local a &&
    !lib.is_private a && !lib.is_reserved a && !(a.isV6 && lib.is_site_local a)

/-- `_public_address` -/
def publicAddress (lib : NetLib) (raw : Text) : Except EgressPolicyError Text := do
  let address ← fetch (lib.ip_address (partition '%' raw).1)
    (egressError "invalid_dns_answer" "DNS 返回了无效 IP 地址")
  let address := address.unmapped
  require (address.isTransition = false)
    (egressError "transition_address_blocked" "不接受 NAT64、Teredo 或 6to4 过渡地址")
  require (address.isGloballyPublic lib = true)
    (egressError "non_public_address" ("目标解析到非公网地址：" ++ String.ofList (lib.compressed address)))
  return lib.compressed address

/-- an address that a connection may be opened to -/
structure Address.Public (lib : NetLib) (a : Address) : Prop where
  global : a.isGloballyPublic lib = true
  direct : a.isTransition = false
  unmapped : a.unmapped = a

/-! ## hosts -/

/-- `text.encode("idna").decode("ascii")` -/
def idnaEncode (lib : NetLib) (name : Text) : Option Text :=
  if name.all isAscii = true then
    let labels := splitAll '.' name
    if labels.dropLast.all (fun label => decide (0 < label.length ∧ label.length < 64)) = true ∧
        (labels.getLast?.getD []).length < 64 then some name
    else none
  else lib.idna name

/-- `_DNS_LABEL` -/
def isDnsLabel (label : Text) : Bool :=
  let edge (c : Char) : Bool := isAsciiDigit c || ('a' ≤ c && c ≤ 'z')
  decide (0 < label.length ∧ label.length ≤ 63) && label.all (fun c => edge c || c == '-') &&
    label.head?.all edge && label.getLast?.all edge

/-- `_ascii_host`; a missing host is an empty one -/
def asciiHost (lib : NetLib) (host : Text) : Except EgressPolicyError Text := do
  require (host ≠ []) (egressError "missing_host" "URL 缺少目标域名")
  require ('%' ∉ host) (egressError "zone_identifier_blocked" "目标地址不得包含 IPv6 zone ID")
  let normalized := lib.lower (host.rdropWhile (· == '.'))
  match lib.ip_address normalized with
  | some literal => return lib.compressed literal
  | none => do
    let ascii_host ← fetch (idnaEncode lib normalized) (egressError "invalid_host" "目标域名无法进行 IDNA 编码")
    require (ascii_host.length ≤ 253) (egressError "invalid_host" "目标域名过长")
    let labels := splitAll '.' ascii_host
    require (2 ≤ labels.length ∧ labels.all isDnsLabel = true) (egressError "invalid_host" "目标域名标签无效")
    return ascii_host

/-- the host is `allowed` or under it -/
def hostUnder (allowed host : Text) : Bool := host == allowed || ('.' :: allowed).isSuffixOf host

/-- `_host_allowed` -/
def hostAllowed (host : Text) (allowed_hosts : List Text) : Bool := allowed_hosts.any (fun a => hostUnder a host)

/-! ## targets -/

/-- `parts.username` -/
def username (parts : SplitResult) : Option Text :=
  (rpartition '@' parts.netloc).1.map (fun userinfo => (partition ':' userinfo).1)

/-- `parts.password` -/
def password (parts : SplitResult) : Option Text :=
  (rpartition '@' parts.netloc).1.bind (fun userinfo => (partition ':' userinfo).2)

structure Site where
  scheme : Text
  host : Text
  port : Nat
  literal : Option Address

/-- the host is one of the allowed ones, if they are given -/
def requireAllowed (lib : NetLib) (host : Text) : Option (List Text) → Except EgressPolicyError Unit
  | none => return ()
  | some allowed_hosts => do
    let normalized_allowed ← each (asciiHost lib) allowed_hosts
    require (hostAllowed host normalized_allowed = true)
      (egressError "host_not_allowed" ("目标域名不在允许列表：" ++ String.ofList host))

/-- `resolve_public_target` up to its question -/
def egressSite (lib : NetLib) (url : Text) (allowed_hosts : Option (List Text)) (allow_ip_literal : Bool) :
    Except EgressPolicyError Site := do
  require (url.length ≤ MAX_EGRESS_URL_LENGTH) (egressError "url_too_long" "出站 URL 过长")
  let parts ← (urlsplit lib.toUrlLib url).mapError (fun _ => egressError "invalid_url" "目标 URL 格式无效")
  require (parts.scheme = "http".toList ∨ parts.scheme = "https".toList)
    (egressError "invalid_scheme" "出站目标只允许 HTTP/HTTPS")
  require (username parts = none ∧ password parts = none)
    (egressError "credentials_in_url" "出站 URL 不得包含凭证")
  let host ← asciiHost lib (parts.hostname lib.toUrlLib)
  let explicit_port ← parts.port.mapError (fun _ => egressError "invalid_port" "出站 URL 端口无效")
  let expected_port := if parts.scheme = "https".toList then 443 else 80
  let port := explicit_port.getD expected_port
  require (port = expected_port) (egressError "blocked_port" "出站目标端口必须与 HTTP/HTTPS 默认端口一致")
  requireAllowed lib host allowed_hosts
  let literal := lib.ip_address (partition '%' host).1
  require (literal = none ∨ allow_ip_literal = true) (egressError "ip_literal_blocked" "出站 URL 不接受 IP 字面量")
  return ⟨parts.scheme, host, port, literal⟩

/-- the target, once the resolver has answered; `none` is an `OSError` -/
def Site.target (lib : NetLib) (url : Text) (site : Site) (answers : Option (List Text)) :
    Except EgressPolicyError ResolvedTarget := do
  let raw_answers ← fetch answers (egressError "dns_failure" "目标域名解析失败")
  require (raw_answers ≠ []) (egressError "dns_no_answers" "目标域名没有 A/AAAA 结果")
  let accepted ← each (publicAddress lib) raw_answers
  return ⟨url, site.scheme, site.host, site.port, accepted.eraseDups⟩

/-- `resolve_public_target` -/
def resolvePublicTarget (lib : NetLib) (resolver : Text → Nat → Option (List Text)) (url : Text)
    (allowed_hosts : Option (List Text)) (allow_ip_literal : Bool) : Except EgressPolicyError ResolvedTarget := do
  let site ← egressSite lib url allowed_hosts allow_ip_literal
  match site.literal with
  | some literal => site.target lib url (some [lib.compressed literal])
  | none => site.target lib url (resolver site.host site.port)

/-- `assert_connected_peer` -/
def assertConnectedPeer (lib : NetLib) (target : ResolvedTarget) (peer_ip : Text) : Except EgressPolicyError Unit := do
  let normalized_peer ← publicAddress lib peer_ip
  require (normalized_peer ∈ target.addresses)
    (egressError "peer_address_mismatch" "实际连接地址不在本次批准的 DNS 结果中")

section
variable {lib : NetLib} {url host : Text} {target : ResolvedTarget} {site : Site}

theorem publicAddress_eq_ok {raw text : Text} :
    publicAddress lib raw = .ok text ↔
      ∃ a, lib.ip_address (partition '%' raw).1 = some a ∧ a.unmapped.isTransition = false ∧
        a.unmapped.isGloballyPublic lib = true ∧ lib.compressed a.unmapped = text := by
  simp only [publicAddress, bind_eq_ok, fetch_eq_ok, require_eq_ok, pure_eq_ok, exists_const]

@[simp] theorem Address.unmapped_unmapped (a : Address) : a.unmapped.unmapped = a.unmapped := by
  cases a with
  | v4 n => rfl
  | v6 n =>
    by_cases h : n.val / 2 ^ 32 = 0xFFFF
    · have he : (Address.v6 n).unmapped = .v4 (Fin.ofNat _ n.val) := if_pos h
      rw [he]
      rfl
    · have he : (Address.v6 n).unmapped = .v6 n := if_neg h
      rw [he, he]

/-- **What a DNS answer or a peer is accepted as is the text of a public address.** -/
theorem publicAddress_public {raw text : Text} (h : publicAddress lib raw = .ok text) :
    ∃ a : Address, a.Public lib ∧ lib.compressed a = text := by
  obtain ⟨a, -, htransition, hglobal, htext⟩ := publicAddress_eq_ok.mp h
  exact ⟨a.unmapped, ⟨hglobal, htransition, a.unmapped_unmapped⟩, htext⟩

/-! ### names that are their own host -/

/-- a lower-case ASCII name of valid labels that is no literal -/
def isPlainName (host : Text) : Bool :=
  host.all isAscii && host.map Char.toLower == host && !host.contains '%' && host.getLast? != some '.' &&
    !host.all isAddressChar && decide (host.length ≤ 253) && decide (2 ≤ (splitAll '.' host).length) &&
    (splitAll '.' host).all isDnsLabel

theorem isDnsLabel_length {label : Text} (h : isDnsLabel label = true) : 0 < label.length ∧ label.length < 64 := by
  simp only [isDnsLabel, Bool.and_eq_true, decide_eq_true_eq] at h
  omega

/-- a host is the plain name that it is without its case and its last dots -/
theorem asciiHost_of_plain (hne : host ≠ []) (hzone : '%' ∉ host)
    (h : isPlainName (lib.lower (host.rdropWhile (· == '.'))) = true) :
    asciiHost lib host = .ok (lib.lower (host.rdropWhile (· == '.'))) := by
  generalize hname : lib.lower (host.rdropWhile (· == '.')) = name at h ⊢
  simp only [isPlainName, Bool.and_eq_true, beq_iff_eq, Bool.not_eq_true', decide_eq_true_eq, bne_iff_ne, ne_eq,
    List.contains_eq_mem, decide_eq_false_iff_not] at h
  obtain ⟨⟨⟨⟨⟨⟨⟨hascii, -⟩, -⟩, -⟩, hliteral⟩, hlength⟩, hcount⟩, hlabels⟩ := h
  have hip : lib.ip_address name = none := by
    cases hi : lib.ip_address name with
    | none => rfl
    | some a =>
      have hall := lib.ip_address_chars name a hi
      rw [hliteral] at hall
      cases hall
  have hall : ∀ label ∈ splitAll '.' name, 0 < label.length ∧ label.length < 64 :=
    fun label hl => isDnsLabel_length (List.all_eq_true.mp hlabels label hl)
  have hlast : ((splitAll '.' name).getLast?.getD []).length < 64 := by
    cases hl : (splitAll '.' name).getLast? with
    | none => exact Nat.zero_lt_of_lt (by decide : 0 < 64)
    | some label => exact (hall label (List.mem_of_getLast? hl)).2
  have hidna : idnaEncode lib name = some name := by
    unfold idnaEncode
    rw [if_pos hascii]
    refine if_pos ⟨List.all_eq_true.mpr (fun label hl => ?_), hlast⟩
    exact decide_eq_true (hall label (List.dropLast_subset _ hl))
  simp only [asciiHost, hname, hip, hidna, require_pos hne, require_pos hzone, require_pos hlength, ok_bind, fetch]
  rw [require_pos ⟨hcount, hlabels⟩]
  rfl

theorem asciiHost_plain (h : isPlainName host = true) : asciiHost lib host = .ok host := by
  have h' := h
  simp only [isPlainName, Bool.and_eq_true, beq_iff_eq, Bool.not_eq_true', decide_eq_true_eq, bne_iff_ne, ne_eq,
    List.contains_eq_mem, decide_eq_false_iff_not] at h'
  obtain ⟨⟨⟨⟨⟨⟨⟨hascii, hlower⟩, hzone⟩, hdot⟩, hliteral⟩, -⟩, -⟩, -⟩ := h'
  have hne : host ≠ [] := by
    rintro rfl
    cases hliteral
  have hdots : host.rdropWhile (· == '.') = host := by
    rw [List.rdropWhile_eq_self_iff]
    intro hn
    rw [List.getLast?_eq_some_getLast hn] at hdot
    simpa using hdot
  have hname : lib.lower (host.rdropWhile (· == '.')) = host := by rw [hdots, lib.lower_ascii host hascii, hlower]
  rw [asciiHost_of_plain hne hzone (by rw [hname]; exact h), hname]

/-- plain names are compared as they are -/
theorem each_asciiHost_plain {hosts : List Text} (h : hosts.all isPlainName = true) :
    each (asciiHost lib) hosts = .ok hosts := by
  refine each_eq_ok_of_forall₂ (List.forall₂_same.mpr (fun host hh => ?_))
  exact asciiHost_plain (List.all_eq_true.mp h host hh)

/-! ### approved targets -/

/-- a URL that may be requested on `host` and `port` -/
structure Admitted (lib : NetLib) (url scheme host : Text) (port : Nat) : Prop where
  url_length : url.length ≤ MAX_EGRESS_URL_LENGTH
  split : ∃ parts, urlsplit lib.toUrlLib url = .ok parts ∧ parts.scheme = scheme ∧ username parts = none ∧
    password parts = none ∧ asciiHost lib (parts.hostname lib.toUrlLib) = .ok host ∧
    ∃ explicit_port, parts.port = .ok explicit_port ∧ explicit_port.getD port = port
  scheme_port : scheme = "http".toList ∧ port = 80 ∨ scheme = "https".toList ∧ port = 443

theorem requireAllowed_some_eq_ok {allowed_hosts : List Text} (hplain : allowed_hosts.all isPlainName = true)
    {u : Unit} : requireAllowed lib host (some allowed_hosts) = .ok u ↔ hostAllowed host allowed_hosts = true := by
  simp only [requireAllowed, each_asciiHost_plain hplain, ok_bind, require_eq_ok]

/-- **A URL whose resolver is asked is admitted**, its host is allowed, and it is no literal unless that is allowed. -/
theorem egressSite_admitted {allowed_hosts : Option (List Text)} {allow_ip_literal : Bool}
    (h : egressSite lib url allowed_hosts allow_ip_literal = .ok site) :
    Admitted lib url site.scheme site.host site.port ∧ requireAllowed lib site.host allowed_hosts = .ok () ∧
      (allow_ip_literal = false → site.literal = none) := by
  simp only [egressSite, bind_eq_ok, require_eq_ok, pure_eq_ok, mapError_eq_ok] at h
  obtain ⟨-, hlength, parts, hparts, -, hscheme, -, ⟨huser, hpass⟩, host, hhost, explicit_port, hexplicit, -, hport,
    _, hallowed, -, hliteral, rfl⟩ := h
  refine ⟨⟨hlength, ⟨parts, hparts, rfl, huser, hpass, hhost, explicit_port, hexplicit, ?_⟩, ?_⟩, hallowed, ?_⟩
  · show explicit_port.getD (explicit_port.getD _) = explicit_port.getD _
    cases explicit_port <;> rfl
  · rcases hscheme with hs | hs
    · refine .inl ⟨hs, ?_⟩
      rw [hport, hs]
      rfl
    · refine .inr ⟨hs, ?_⟩
      rw [hport, hs]
      rfl
  · intro hl
    rcases hliteral with h | h
    · exact h
    · rw [hl] at h
      cases h

/-- the target of a site is made from one list of answers, each of them public -/
theorem target_eq_ok {answers : Option (List Text)} :
    site.target lib url answers = .ok target ↔
      ∃ raw accepted, answers = some raw ∧ raw ≠ [] ∧ each (publicAddress lib) raw = .ok accepted ∧
        target = ⟨url, site.scheme, site.host, site.port, accepted.eraseDups⟩ := by
  simp only [Site.target, bind_eq_ok, fetch_eq_ok, require_eq_ok, pure_eq_ok]
  constructor
  · rintro ⟨raw, hraw, -, hne, accepted, hacc, rfl⟩
    exact ⟨raw, accepted, hraw, hne, hacc, rfl⟩
  · rintro ⟨raw, accepted, hraw, hne, hacc, rfl⟩
    exact ⟨raw, hraw, ⟨⟩, hne, accepted, hacc, rfl⟩

/-- the target's addresses are its answers, and all of them are public -/
theorem target_addresses {answers : List Text} (h : site.target lib url (some answers) = .ok target) :
    (∀ a, a ∈ target.addresses ↔ ∃ raw ∈ answers, publicAddress lib raw = .ok a) ∧ target.addresses ≠ [] := by
  obtain ⟨raw, accepted, hraw, hne, hacc, rfl⟩ := target_eq_ok.mp h
  cases hraw
  have hmem : ∀ a, a ∈ accepted.eraseDups ↔ ∃ raw ∈ answers, publicAddress lib raw = .ok a := by
    intro a
    rw [List.mem_eraseDups]
    constructor
    · exact each_mem hacc a
    · rintro ⟨raw, hraw, ha⟩
      obtain ⟨b, hb, he⟩ := each_result hacc raw hraw
      rw [ha] at he
      cases he
      exact hb
  refine ⟨hmem, ?_⟩
  obtain ⟨raw, rest, rfl⟩ := List.exists_cons_of_ne_nil hne
  obtain ⟨a, -, ha⟩ := each_result hacc raw List.mem_cons_self
  exact List.ne_nil_of_mem ((hmem a).mpr ⟨raw, List.mem_cons_self, ha⟩)

theorem assertConnectedPeer_eq_ok {peer : Text} {u : Unit} :
    assertConnectedPeer lib target peer = .ok u ↔ ∃ a, publicAddress lib peer = .ok a ∧ a ∈ target.addresses := by
  simp only [assertConnectedPeer, bind_eq_ok, require_eq_ok]

end

end OpenFlame.Network
