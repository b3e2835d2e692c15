import OpenFlame.Base.Dialogue
import OpenFlame.Network.Egress

/-!
# Short links, one hop at a time

`Ask`           what the resolver asks: the clock, the resolver of names, the transport
`Failure`       the exceptions that pass through it
`approvedTarget`, `validateResponse`, `singleLocation`, `canonicalRedirect`   the checks of one hop
`redirect`      one hop: a request, its response, and the target that the response names
`hops`          the hops that are left
`resolve`       a submitted URL to the post it stands for

A moment and a duration are of any type `T` with a difference and an order.
-/

set_option linter.all false

namespace OpenFlame.ShortLink
open Guard Download Network

def REDIRECT_STATUSES : List Int := [301, 302, 303, 307, 308]

/-- `_HEADER_NAME` -/
def isHeaderName (name : Text) : Bool :=
  name != [] && name.all (fun c => isAsciiDigit c || isAsciiLetter c || "!#$%&'*+-.^_`|~".toList.contains c)

/-- `_ERROR_REASON` -/
def isErrorReason (reason : Text) : Bool :=
  match reason with
  | [] => false
  | c :: cs => ('a' ≤ c && c ≤ 'z') && decide (cs.length ≤ 95) &&
      cs.all (fun c => ('a' ≤ c && c ≤ 'z') || isAsciiDigit c || c == '_')

def REQUEST_HEADERS : List (Text × Text) :=
  [("Accept", "text/html,application/xhtml+xml;q=0.9,*/*;q=0.1"), ("Range", "bytes=0-1023"),
    ("User-Agent", "VDC-ShortLink-Resolver/0.7")].map (fun h => (h.1.toList, h.2.toList))

structure ShortLinkLimits (T : Type) [Zero T] [LE T] [LT T] where
  max_redirects : Nat
  max_dns_answers : Nat
  max_header_bytes : Nat
  max_body_bytes : Nat
  max_location_chars : Nat
  request_timeout_seconds : T
  dns_timeout_seconds : T
  total_timeout_seconds : T
  redirects : 0 < max_redirects ∧ max_redirects ≤ 10
  dns_answers : 0 < max_dns_answers ∧ max_dns_answers ≤ 64
  header_bytes : 0 < max_header_bytes ∧ max_header_bytes ≤ 64 * 1024
  body_bytes : 0 < max_body_bytes ∧ max_body_bytes ≤ 64 * 1024
  location_chars : 0 < max_location_chars ∧ max_location_chars ≤ 8 * 1024
  positive : 0 < request_timeout_seconds ∧ 0 < dns_timeout_seconds ∧ 0 < total_timeout_seconds
  within : request_timeout_seconds ≤ total_timeout_seconds ∧ dns_timeout_seconds ≤ total_timeout_seconds

/-- what a transport returns; a field of another type than it should have is `none` -/
structure ShortLinkResponse where
  status : Option Int
  headers : Option (List (Option (Option Text × Option Text)))
  body : Option (List UInt8)
  peer_ip : Option Text
  effective_url : Option Text

structure TransportRequest (T : Type) where
  target : ResolvedTarget
  method : Text
  headers : List (Text × Text)
  max_header_bytes : Nat
  max_body_bytes : Nat
  timeout_seconds : T

inductive Ask (T : Type) : Type → Type where
  /-- `self.monotonic()` -/
  | now : Ask T T
  /-- the first answers of the resolver, one more than it may give -/
  | lookup (host : Text) (port : Nat) (timeout_seconds : T) : Ask T (List Text)
  | request (r : TransportRequest T) : Ask T ShortLinkResponse

inductive Failure where
  /-- `ShortLinkResolutionError`; a reason that is no text is `none` -/
  | resolution (reason : Option Text) (message : String)
  | other

def shortLinkError (reason message : String) : Failure := .resolution (some reason.toList) message

/-- an `EgressPolicyError` under its new name -/
def egressFailure (message : String) (e : EgressPolicyError) : Failure :=
  .resolution (some ("egress_".toList ++ e.reason)) message

structure PlatformPolicy where
  start_hosts : List Text
  allowed_hosts : List Text
  exact_hosts : Bool

def POLICIES : Platform → Option PlatformPolicy
  | .x => some ⟨["t.co".toList], ["t.co".toList, "x.com".toList, "twitter.com".toList], false⟩
  | .bilibili => some ⟨["b23.tv".toList], ["b23.tv".toList, "bilibili.com".toList], false⟩
  | .douyin => some ⟨["v.douyin.com".toList], ["v.douyin.com".toList, "douyin.com".toList], false⟩
  | .tiktok =>
    some ⟨["vm.tiktok.com".toList, "vt.tiktok.com".toList],
      ["vm.tiktok.com".toList, "vt.tiktok.com".toList, "tiktok.com".toList, "www.tiktok.com".toList,
        "m.tiktok.com".toList], true⟩
  | .youtube | .instagram => none

structure ShortLinkResolution where
  /-- `normalized.submitted_url` -/
  submitted_url : Text
  normalized : NormalizedURL
  platform : Platform
  redirect_count : Nat
  policy_hosts : List Text

/-! ## the checks of a hop -/

/-- `_canonical_redirect` -/
def canonicalRedirect (lib : NetLib) (url : Text) : Except Failure Text := do
  let parts ← (urlsplit lib.toUrlLib url).mapError (fun _ => shortLinkError "invalid_redirect" "短链重定向地址无效")
  require (parts.scheme ≠ [] ∧ parts.netloc ≠ []) (shortLinkError "invalid_redirect" "短链重定向必须产生绝对地址")
  let path := if parts.path = [] then ['/'] else parts.path
  return lib.lower parts.scheme ++ "://".toList ++ lib.lower parts.netloc ++
    (if path.head? = some '/' then path else '/' :: path) ++ (if parts.query = [] then [] else '?' :: parts.query)

/-- `_redirect_identity` -/
def redirectIdentity (lib : NetLib) (url : Text) : Except Failure Text := canonicalRedirect lib url

/-- `len(text.encode("utf-8"))` -/
def utf8Length (text : Text) : Nat := (text.map Char.utf8Size).sum

section
variable {T : Type} [Zero T] [LE T] [LT T]

/-- one header of a response, and the size so far -/
def validateHeader (limits : ShortLinkLimits T) (header_bytes : Nat) (header : Option (Option Text × Option Text)) :
    Except Failure Nat := do
  let invalid := shortLinkError "invalid_header" "短链响应头无效"
  let (name, value) ← fetch header invalid
  let name ← fetch name invalid
  let value ← fetch value invalid
  require (isHeaderName name = true ∧ '\r' ∉ value ∧ '\n' ∉ value ∧ '\x00' ∉ value) invalid
  require (name.length + value.length + 4 ≤ limits.max_header_bytes) (shortLinkError "header_limit" "短链响应头超过限制")
  let header_bytes := header_bytes + name.length + utf8Length value + 4
  require (header_bytes ≤ limits.max_header_bytes) (shortLinkError "header_limit" "短链响应头超过限制")
  return header_bytes

/-- `_validate_response` -/
def validateResponse (lib : NetLib) (limits : ShortLinkLimits T) (target : ResolvedTarget)
    (response : ShortLinkResponse) : Except Failure Unit := do
  let status ← fetch response.status (shortLinkError "invalid_status" "短链响应状态无效")
  require (100 ≤ status ∧ status ≤ 599) (shortLinkError "invalid_status" "短链响应状态无效")
  require (response.effective_url = some target.url)
    (shortLinkError "transport_followed_redirect" "短链 transport 不得自动跟随重定向")
  let peer_ip ← fetch response.peer_ip (shortLinkError "invalid_peer" "短链 transport 返回的连接 peer 无效")
  (assertConnectedPeer lib target peer_ip).mapError (egressFailure "短链连接 peer 未通过受控出站策略")
  let body ← fetch response.body (shortLinkError "invalid_body" "短链响应体类型无效")
  require (body.length ≤ limits.max_body_bytes) (shortLinkError "body_limit" "短链响应体超过限制")
  let headers ← fetch response.headers (shortLinkError "invalid_header" "短链响应头无效")
  let _ ← thread (validateHeader limits) 2 headers
  return ()

/-- the values of the `Location` headers -/
def locations (lib : NetLib) (response : ShortLinkResponse) : List Text :=
  (response.headers.getD []).filterMap (fun header =>
    match header with
    | some (some name, some value) => if lib.lower name = "location".toList then some (Text.strip value) else none
    | _ => none)

/-- `_single_location` -/
def singleLocation (lib : NetLib) (limits : ShortLinkLimits T) (response : ShortLinkResponse) : Except Failure Text :=
  match locations lib response with
  | [location] => do
    require (location ≠ []) (shortLinkError "invalid_location" "短链重定向必须包含唯一 Location")
    require (location.length ≤ limits.max_location_chars ∧ location.all (fun c => decide (0x20 ≤ c.toNat)) = true)
      (shortLinkError "invalid_location" "短链 Location 无效或过长")
    return location
  | _ => throw (shortLinkError "invalid_location" "短链重定向必须包含唯一 Location")

end

/-! ## the program -/

/-- the resolver keeps no store -/
inductive NoOp : Type → Type

abbrev Program (T α : Type) := Process NoOp (Ask T) Failure α

section
variable {T : Type} [Zero T] [LE T] [LT T] [Sub T] [Min T] [DecidableLE T] [DecidableLT T]

def timedOut : Failure := shortLinkError "total_timeout" "短链展开超过总时限"

/-- the time that is left, if there is any -/
def remainingTime (total started : T) : Program T T := do
  let now ← Process.query .now
  let remaining := total - (now - started)
  Process.lift (require (¬ remaining ≤ 0) timedOut)
  return remaining

/-- the time is not over -/
def checkTime (total started : T) : Program T Unit := do
  let now ← Process.query .now
  Process.lift (require (¬ total < now - started) timedOut)

/-- `_BoundedResolver.resolve`: every failure is an `OSError` -/
def boundedAnswers (limits : ShortLinkLimits T) (host : Text) (port : Nat) (timeout_seconds : T) :
    Program T (Option (List Text)) :=
  Process.handle (fun _ => some (pure none)) (do
    let answers ← Process.query (.lookup host port timeout_seconds)
    return if answers.length ≤ limits.max_dns_answers then some answers else none)

/-- `_approved_target` -/
def approvedTarget (lib : NetLib) (limits : ShortLinkLimits T) (url : Text) (policy : PlatformPolicy)
    (dns_timeout_seconds : T) : Program T ResolvedTarget := do
  let parts ← Process.lift
    ((urlsplit lib.toUrlLib url).mapError (fun _ => shortLinkError "invalid_redirect" "短链重定向地址无效"))
  Process.lift (require (parts.scheme = "https".toList) (shortLinkError "https_required" "短链解析只允许 HTTPS"))
  let host := parts.hostname lib.toUrlLib
  Process.lift (require
    (policy.exact_hosts = false ∨ host ≠ [] ∧ lib.lower (host.rdropWhile (· == '.')) ∈ policy.allowed_hosts)
    (shortLinkError "egress_host_not_allowed" "短链目标域名不在精确允许列表"))
  let refused := egressFailure "短链目标未通过受控出站策略"
  let site ← Process.lift ((egressSite lib url (some policy.allowed_hosts) false).mapError refused)
  match site.literal with
  | some literal => Process.lift ((site.target lib url (some [lib.compressed literal])).mapError refused)
  | none => do
    let answers ← boundedAnswers limits site.host site.port dns_timeout_seconds
    Process.lift ((site.target lib url answers).mapError refused)

/-- `self.transport.request(..)`, its failures redacted -/
def transportRequest (limits : ShortLinkLimits T) (target : ResolvedTarget) (timeout_seconds : T) :
    Program T ShortLinkResponse :=
  Process.handle
    (fun e =>
      match e with
      | .resolution _ _ => none
      | .other => some (Process.raise (shortLinkError "transport_failure" "短链请求失败")))
    (Process.query (.request ⟨target, "GET".toList, REQUEST_HEADERS, limits.max_header_bytes, limits.max_body_bytes,
      timeout_seconds⟩))

/-- where the loop is -/
structure Hop where
  current_url : Text
  current_target : ResolvedTarget
  seen : List Text
  policy_path : List Text

/-- one turn of the loop up to the next approved target -/
def redirect (lib : NetLib) (limits : ShortLinkLimits T) (policy : PlatformPolicy) (total started : T) (hop : Hop) :
    Program T Hop := do
  let remaining ← remainingTime total started
  let response ← transportRequest limits hop.current_target (min limits.request_timeout_seconds remaining)
  checkTime total started
  Process.lift (validateResponse lib limits hop.current_target response)
  Process.lift (require (∃ status ∈ response.status, status ∈ REDIRECT_STATUSES)
    (shortLinkError "redirect_expected" "短链服务没有返回可接受的重定向"))
  let location ← Process.lift (singleLocation lib limits response)
  let joined ← Process.lift (fetch (lib.urljoin hop.current_url location) .other)
  let next_url ← Process.lift (canonicalRedirect lib joined)
  let identity ← Process.lift (redirectIdentity lib next_url)
  Process.lift (require (identity ∉ hop.seen) (shortLinkError "redirect_loop" "短链重定向出现环路"))
  let remaining ← remainingTime total started
  let next_target ← approvedTarget lib limits next_url policy (min limits.dns_timeout_seconds remaining)
  checkTime total started
  return ⟨next_url, next_target, identity :: hop.seen,
    if next_target.host ∈ hop.policy_path then hop.policy_path else hop.policy_path ++ [next_target.host]⟩

/-- the post that a URL stands for, if it is one of the platform -/
def landed (lib : NetLib) (platform : Platform) (url : Text) : Except Failure (Option NormalizedURL) :=
  match normalizeUrl lib.toUrlLib url with
  | .ok normalized => do
    require (normalized.platform = platform) (shortLinkError "cross_platform" "短链最终目标跨越了平台边界")
    return if normalized.source_type = .shortLink then none else some normalized
  | .error (.normalization _ _) => return none
  | .error .valueError => throw .other

/-- the loop, with `n` redirects left -/
def hops (lib : NetLib) (limits : ShortLinkLimits T) (policy : PlatformPolicy) (initial : NormalizedURL)
    (total started : T) : (n redirect_count : Nat) → Hop → Program T ShortLinkResolution
  | 0, _, _ => Process.raise (shortLinkError "redirect_limit" "短链重定向超过跳数限制")
  | n + 1, redirect_count, hop => do
    let hop ← redirect lib limits policy total started hop
    match ← Process.lift (landed lib initial.platform hop.current_url) with
    | some normalized =>
      return ⟨initial.canonical_url.toList, normalized, initial.platform, redirect_count, hop.policy_path⟩
    | none => hops lib limits policy initial total started n (redirect_count + 1) hop

/-- what a submitted URL is normalized to -/
def normalizedStart (lib : NetLib) (submitted_url : Text) : Except Failure NormalizedURL :=
  match normalizeUrl lib.toUrlLib submitted_url with
  | .ok initial => return initial
  | .error (.normalization _ _) => throw (shortLinkError "invalid_start" "输入不是受支持的平台短链")
  | .error .valueError => throw .other

/-- the start of a short link: what it is normalized to, and its platform's policy -/
def startOf (lib : NetLib) (submitted_url : Text) : Except Failure (NormalizedURL × PlatformPolicy × Text) := do
  let initial ← normalizedStart lib submitted_url
  let policy ← fetch (if initial.source_type = .shortLink then POLICIES initial.platform else none)
    (shortLinkError "not_short_link" "输入不是需要展开的受支持平台短链")
  let parts ← (urlsplit lib.toUrlLib initial.canonical_url.toList).mapError (fun _ => .other)
  let initial_host := parts.hostname lib.toUrlLib
  require (initial_host ∈ policy.start_hosts) (shortLinkError "invalid_start" "短链起点与平台策略不匹配")
  return (initial, policy, initial_host)

/-- `_resolve` -/
def resolveWithin (lib : NetLib) (limits : ShortLinkLimits T) (submitted_url : Text) (total : T) :
    Program T ShortLinkResolution := do
  let (initial, policy, initial_host) ← Process.lift (startOf lib submitted_url)
  let started ← Process.query .now
  let current_url := initial.canonical_url.toList
  let remaining ← remainingTime total started
  let current_target ← approvedTarget lib limits current_url policy (min limits.dns_timeout_seconds remaining)
  let identity ← Process.lift (redirectIdentity lib current_url)
  hops lib limits policy initial total started limits.max_redirects 1
    ⟨current_url, current_target, [identity], [initial_host]⟩

/-- the argument `timeout_seconds` -/
inductive Timeout (T : Type) where
  | unset
  /-- a bool, something else than a number, or a number that is not finite -/
  | invalid
  | seconds (t : T)

/-- the time a call has -/
def totalTimeout (limits : ShortLinkLimits T) : Timeout T → Except Failure T
  | .unset => return limits.total_timeout_seconds
  | .invalid => throw timedOut
  | .seconds t => do
    require (¬ t ≤ 0) timedOut
    return min limits.total_timeout_seconds t

/-- the reason that leaves the resolver -/
def publicReason : Failure → Text
  | .resolution (some reason) _ => if isErrorReason reason = true then reason else "resolution_failure".toList
  | .resolution none _ | .other => "resolution_failure".toList

/-- `ControlledShortLinkResolver.resolve` -/
def resolve (lib : NetLib) (limits : ShortLinkLimits T) (submitted_url : Text) (timeout_seconds : Timeout T) :
    Program T ShortLinkResolution :=
  Process.handle
    (fun e => some (Process.raise (.resolution (some (publicReason e)) "短链未通过受控展开策略")))
    (do
      let total_timeout_seconds ← Process.lift (totalTimeout limits timeout_seconds)
      resolveWithin lib limits submitted_url total_timeout_seconds)

end

end OpenFlame.ShortLink
