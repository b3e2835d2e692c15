import Mathlib.Algebra.Ring.Nat
import Mathlib.Data.Rat.Floor
import OpenFlame.Base.JsonAscii
import OpenFlame.ShortLink.Resolver

/-!
# The signed short-link exchange: its packets

`TransportLimits`, `FetchRequest`          what both sides are configured with, and what is asked for
`validatedTarget`, `validatedFetchRequest` the checks that both sides make
`httpRequestBytes`, `parseHead`            the request that goes upstream and the head that comes back
`strictJsonMapping`                        a packet is the canonical text of its members
`encodeRequest`, `decodeRequest`           a request and its packet
`encodeResponse`, `decodeResponse`         a response and its packet

Bytes are characters below 256.  Durations are exact, and a reading of a clock is its milliseconds.
-/

set_option linter.all false

namespace OpenFlame.ShortLink
open Guard Download Network Json

/-- `_NONCE` and `_DIGEST` -/
def isDigest (s : Text) : Bool :=
  s.length == 64 && s.all (fun c => isAsciiDigit c || ('a' ≤ c && c ≤ 'f'))

/-- SHA-256 and HMAC-SHA256, as hexadecimal digests -/
structure Crypto where
  sha256 : Text → Text
  hmac : Text → Text → Text
  hmac_digest : ∀ key message, isDigest (hmac key message) = true

/-- `int(seconds * 1000)` of a duration that is not negative -/
def milliseconds (seconds : ℚ) : Int := ⌊seconds * 1000⌋

structure TransportLimits where
  max_addresses : Nat
  max_request_headers : Nat
  max_response_headers : Nat
  max_request_header_bytes : Nat
  max_response_header_bytes : Nat
  max_body_bytes : Nat
  max_request_frame_bytes : Nat
  max_response_frame_bytes : Nat
  max_timeout_seconds : ℚ
  max_validity_seconds : ℚ
  clock_skew_seconds : ℚ
  positive : 0 < max_addresses ∧ 0 < max_request_headers ∧ 0 < max_response_headers ∧ 0 < max_request_header_bytes ∧
    0 < max_response_header_bytes ∧ 0 < max_body_bytes ∧ 0 < max_request_frame_bytes ∧ 0 < max_response_frame_bytes
  capped : max_addresses ≤ 64 ∧ max_request_headers ≤ 64 ∧ max_response_headers ≤ 256 ∧
    max_request_header_bytes ≤ 64 * 1024 ∧ max_response_header_bytes ≤ 256 * 1024 ∧ max_body_bytes ≤ 64 * 1024 ∧
    max_request_frame_bytes ≤ 256 * 1024 ∧ max_response_frame_bytes ≤ 512 * 1024
  timeout : 0 < max_timeout_seconds ∧ max_timeout_seconds ≤ 60
  validity : max_timeout_seconds + 1 ≤ max_validity_seconds ∧ max_validity_seconds ≤ 120
  skew : 0 ≤ clock_skew_seconds ∧ clock_skew_seconds ≤ 30
  covers : max_request_header_bytes ≤ max_request_frame_bytes ∧ max_response_header_bytes ≤ max_response_frame_bytes

structure FetchRequest where
  target : ResolvedTarget
  method : Text
  headers : List (Text × Text)
  max_header_bytes : Nat
  max_body_bytes : Nat
  timeout_seconds : ℚ
  deriving DecidableEq

def ALLOWED_REQUEST_HEADERS : List Text := ["accept".toList, "range".toList, "user-agent".toList]

def REQUEST_DOMAIN : Text := "vdc-short-link-request-v1\x00".toList

def RESPONSE_DOMAIN : Text := "vdc-short-link-response-v1\x00".toList

/-- a visible ASCII character that a URL may have on the wire -/
def isUrlByte (c : Char) : Bool := decide (0x21 ≤ c.toNat ∧ c.toNat ≤ 0x7E) && c != '\\'

/-- a character that a header value may have -/
def isHeaderByte (c : Char) : Bool := decide (0x20 ≤ c.toNat) && c.toNat != 0x7F

/-! ## requests -/

section
variable (lib : NetLib) (limits : TransportLimits)

/-- `_validated_target` -/
def validatedTarget (target : ResolvedTarget) : Except String ResolvedTarget := do
  require (target.scheme = "https".toList ∧ target.port = 443 ∧ 1 ≤ target.addresses.length ∧
    target.addresses.length ≤ limits.max_addresses ∧ target.addresses.Nodup ∧ target.url.all isUrlByte = true)
    "target_invalid"
  let parts ← (urlsplit lib.toUrlLib target.url).mapError (fun _ => "target_invalid")
  let fragment := (partition '#' target.url).2.getD []
  require (fragment = [] ∧ parts.hostname lib.toUrlLib = target.host ∧
    (parts.path = [] ∨ parts.path.head? = some '/') ∧ ¬ ("//".toList <+: parts.path)) "target_invalid"
  let independently_checked ← (resolvePublicTarget lib (fun _ _ => some target.addresses) target.url
    (some [target.host]) false).mapError (fun _ => "target_invalid")
  require (independently_checked = target) "target_invalid"
  return target

/-- `_http_request_bytes` -/
def httpRequestBytes (request : FetchRequest) : Except String Text := do
  let parts ← (urlsplit lib.toUrlLib request.target.url).mapError (fun _ => "transport_failure")
  let path := (if parts.path = [] then ['/'] else parts.path) ++ (if parts.query = [] then [] else '?' :: parts.query)
  require (path.head? = some '/' ∧ ¬ ("//".toList <+: path) ∧ path.all isUrlByte = true) "request_invalid"
  require (request.target.host.all isAscii = true ∧
    request.headers.all (fun h => h.1.all (fun c => decide (c.toNat < 256)) && h.2.all (fun c => decide (c.toNat < 256)))
      = true) "request_invalid"
  return "GET ".toList ++ path ++ " HTTP/1.1\r\n".toList ++ "Host: ".toList ++ request.target.host ++ "\r\n".toList ++
    request.headers.flatMap (fun h => h.1 ++ ": ".toList ++ h.2 ++ "\r\n".toList) ++ "Connection: close\r\n\r\n".toList

/-- one header of a request: what was seen, how many bytes it takes, what is kept -/
def validateRequestHeader (state : List Text × Nat × List (Text × Text)) (header : Option (Option Text × Option Text)) :
    Except String (List Text × Nat × List (Text × Text)) := do
  let (seen, header_bytes, normalized) := state
  let (name, value) ← fetch header "headers_invalid"
  let name ← fetch name "headers_invalid"
  let value ← fetch value "headers_invalid"
  require (isHeaderName name = true ∧ value.all isHeaderByte = true) "headers_invalid"
  let lowered := lib.lower name
  require (lowered ∉ seen ∧ lowered ∈ ALLOWED_REQUEST_HEADERS) "headers_invalid"
  require (value.all (fun c => decide (c.toNat < 256)) = true) "headers_invalid"
  let header_bytes := header_bytes + name.length + value.length + 4
  require (header_bytes ≤ limits.max_request_header_bytes) "request_header_limit"
  return (lowered :: seen, header_bytes, normalized ++ [(name, value)])

/-- what a caller passes; an argument of another type than it should have is `none` -/
structure FetchArguments where
  target : ResolvedTarget
  method : Option Text
  headers : Option (List (Option (Option Text × Option Text)))
  max_header_bytes : Option Int
  max_body_bytes : Option Int
  timeout_seconds : Option ℚ

/-- `_valid_int` -/
def validInt (value : Option Int) (minimum maximum : Int) : Except String Int := do
  let i ← fetch value "schema_invalid"
  require (minimum ≤ i ∧ i ≤ maximum) "schema_invalid"
  return i

/-- `_valid_timeout` -/
def validTimeout (value : Option ℚ) (maximum : ℚ) : Except String ℚ := do
  let t ← fetch value "schema_invalid"
  require (0 < t ∧ t ≤ maximum) "schema_invalid"
  return t

/-- `_validated_fetch_request` -/
def validatedFetchRequest (a : FetchArguments) : Except String FetchRequest := do
  require (a.method = some "GET".toList) "method_invalid"
  let headers ← fetch a.headers "headers_invalid"
  require (headers.length ≤ limits.max_request_headers) "request_header_limit"
  let (_, _, normalized_headers) ← thread (validateRequestHeader lib limits) ([], 0, []) headers
  let header_limit ← validInt a.max_header_bytes 1 limits.max_response_header_bytes
  let body_limit ← validInt a.max_body_bytes 0 limits.max_body_bytes
  let timeout ← validTimeout a.timeout_seconds limits.max_timeout_seconds
  let target ← validatedTarget lib limits a.target
  let request : FetchRequest :=
    ⟨target, "GET".toList, normalized_headers, header_limit.toNat, body_limit.toNat, timeout⟩
  let bytes ← httpRequestBytes lib request
  require (bytes.length ≤ limits.max_request_header_bytes) "request_header_limit"
  return request

end

/-! ## packets -/

section
variable {F : Type} (fl : Floats F) (cr : Crypto) (lib : NetLib) (limits : TransportLimits) (shared_key : Text)

/-- `_strict_json_mapping` -/
def strictJsonMapping (packet : Text) : Except String (List (Text × Value F)) := do
  require (packet.all isAscii = true) "schema_invalid"
  let value ← fetch (loads fl packet) "schema_invalid"
  require (noConstant fl value = true ∧ dumpsAscii fl value = packet) "schema_invalid"
  match value with
  | .obj envelope => return envelope
  | _ => throw "schema_invalid"

/-- `_mac` -/
def mac (domain : Text) (unsigned : List (Text × Value F)) : Text :=
  cr.hmac shared_key (domain ++ dumpsAscii fl (.obj unsigned))

def headerValue (h : Text × Text) : Value F := .arr [.str h.1, .str h.2]

/-- `_request_payload` -/
def requestPayload (request : FetchRequest) : List (Text × Value F) :=
  record [("headers", .arr (request.headers.map headerValue)),
    ("max_body_bytes", .int request.max_body_bytes),
    ("max_header_bytes", .int request.max_header_bytes),
    ("method", .str request.method),
    ("target", .obj (record [("addresses", .arr (request.target.addresses.map .str)), ("host", .str request.target.host),
      ("port", .int request.target.port), ("scheme", .str request.target.scheme), ("url", .str request.target.url)])),
    ("timeout_ms", .int (milliseconds request.timeout_seconds))]

/-- the members of a request, with its signature or without -/
def requestMembers (mac : List (String × Value F)) (request : FetchRequest) (nonce : Text)
    (issued_at_ms expires_at_ms : Int) : List (Text × Value F) :=
  record ([("expires_at_ms", .int expires_at_ms), ("issued_at_ms", .int issued_at_ms), ("kind", .str "request".toList)] ++
    mac ++ [("nonce", .str nonce), ("payload", .obj (requestPayload request)), ("version", .int 1)])

/-- `_encode_request` -/
def encodeRequest (request : FetchRequest) (nonce : Text) (issued_at_ms expires_at_ms : Int) : Text :=
  let unsigned := requestMembers [] request nonce issued_at_ms expires_at_ms
  let signature := mac fl cr shared_key REQUEST_DOMAIN unsigned
  dumpsAscii fl (.obj (requestMembers [("mac", .str signature)] request nonce issued_at_ms expires_at_ms))

def textOf : Value F → Option Text
  | .str s => some s
  | _ => none

def intOf? : Value F → Option Int
  | .int i => some i
  | _ => none

/-- `name, value = header` of a list that was read -/
def headerOf : Value F → Option (Option Text × Option Text)
  | .arr [name, value] => some (textOf name, textOf value)
  | _ => none

def headersOf : Value F → Option (List (Option (Option Text × Option Text)))
  | .arr headers => some (headers.map headerOf)
  | _ => none

/-- the value is the number -/
def isNumber (n : Int) : Value F → Bool
  | .int i => i == n
  | .float f => fl.equals f n
  | _ => false

def withoutMac (envelope : List (Text × Value F)) : List (Text × Value F) :=
  envelope.filter (fun m => m.1 != "mac".toList)

def addressesOf : Value F → Option (List Text)
  | .arr vs => vs.mapM textOf
  | _ => none

/-- the target of a payload; a field that is no text, or no port, is one that no valid target has -/
def targetOf (payload : Value F) : Except String ResolvedTarget :=
  match payload with
  | .obj target => do
    require (HasKeys target ["url", "scheme", "host", "port", "addresses"] ["url", "scheme", "host", "port", "addresses"])
      "schema_invalid"
    let addresses ← fetch (addressesOf (get target "addresses")) "schema_invalid"
    return ⟨(textOf (get target "url")).getD [], (textOf (get target "scheme")).getD [],
      (textOf (get target "host")).getD [], if isNumber fl 443 (get target "port") = true then 443 else 0, addresses⟩
  | _ => throw "schema_invalid"

def PAYLOAD_KEYS : List String := ["target", "method", "headers", "max_header_bytes", "max_body_bytes", "timeout_ms"]

/-- the request of a payload -/
def payloadRequest (payload : Value F) : Except String FetchRequest :=
  match payload with
  | .obj payload => do
    require (HasKeys payload PAYLOAD_KEYS PAYLOAD_KEYS) "schema_invalid"
    let target ← targetOf fl (get payload "target")
    let timeout_ms ← validInt (intOf? (get payload "timeout_ms")) 1 (milliseconds limits.max_timeout_seconds)
    validatedFetchRequest lib limits ⟨target, textOf (get payload "method"), headersOf (get payload "headers"),
      intOf? (get payload "max_header_bytes"), intOf? (get payload "max_body_bytes"), some (timeout_ms / 1000)⟩
  | _ => throw "schema_invalid"

def REQUEST_KEYS : List String := ["version", "kind", "nonce", "issued_at_ms", "expires_at_ms", "payload", "mac"]

/-- `_decode_request` -/
def decodeRequest (now_ms : Int) (packet : Text) : Except String (FetchRequest × Int × Int) := do
  let envelope ← strictJsonMapping fl packet
  require (HasKeys envelope REQUEST_KEYS REQUEST_KEYS) "schema_invalid"
  require (intOf? (get envelope "version") = some 1 ∧ textOf (get envelope "kind") = some "request".toList)
    "schema_invalid"
  let nonce ← fetch (textOf (get envelope "nonce")) "schema_invalid"
  let signature ← fetch (textOf (get envelope "mac")) "schema_invalid"
  require (isDigest nonce = true ∧ isDigest signature = true) "schema_invalid"
  require (signature = mac fl cr shared_key REQUEST_DOMAIN (withoutMac envelope)) "authentication"
  let issued_at_ms ← validInt (intOf? (get envelope "issued_at_ms")) 0 (2 ^ 63 - 1)
  let expires_at_ms ← validInt (intOf? (get envelope "expires_at_ms")) 0 (2 ^ 63 - 1)
  let skew_ms := milliseconds limits.clock_skew_seconds
  let validity_ms := milliseconds limits.max_validity_seconds
  require (issued_at_ms < expires_at_ms ∧ expires_at_ms - issued_at_ms ≤ validity_ms ∧
    issued_at_ms ≤ now_ms + skew_ms ∧ now_ms - skew_ms ≤ expires_at_ms) "freshness"
  let request ← payloadRequest fl lib limits (get envelope "payload")
  return (request, issued_at_ms, expires_at_ms)

/-- how long a request is valid -/
def validityMs (timeout_seconds : ℚ) : Int :=
  min (milliseconds limits.max_validity_seconds) (max 1000 (milliseconds timeout_seconds + 1000))

/-- what the client knows of its request -/
structure Expected where
  nonce : Text
  request_hash : Text
  target : ResolvedTarget
  issued_at_ms : Int
  expires_at_ms : Int
  requested_header_bytes : Nat
  deriving DecidableEq

/-- `_request` up to the exchange: what is asked for, what is expected, and the packet -/
def clientRequest (a : FetchArguments) (nonce : Text) (issued_at_ms : Int) :
    Except String (FetchRequest × Expected × Text) := do
  let request ← validatedFetchRequest lib limits a
  require (isDigest nonce = true) "nonce_invalid"
  let expires_at_ms := issued_at_ms + validityMs limits request.timeout_seconds
  let packet := encodeRequest fl cr shared_key request nonce issued_at_ms expires_at_ms
  require (packet.length ≤ limits.max_request_frame_bytes) "request_frame_limit"
  return (request, ⟨nonce, cr.sha256 packet, request.target, issued_at_ms, expires_at_ms, request.max_header_bytes⟩,
    packet)

/-! ## responses -/

/-- what `_fetch` hands back: no body, and of the headers only `Location` -/
structure FetchedResponse where
  status : Int
  headers : List (Text × Text)
  peer_ip : Text
  effective_url : Text

/-- `_EGRESS_RESPONSE_REASONS` -/
def EGRESS_RESPONSE_REASONS : List String :=
  ["authentication", "clock_invalid", "connect_failed", "connect_timeout", "deadline", "freshness", "headers_invalid",
    "method_invalid", "peer_mismatch", "replay", "replay_store_failure", "request_frame_limit", "request_header_limit",
    "request_invalid", "response_body_framing", "response_body_incomplete", "response_body_limit",
    "response_header_limit", "response_headers_invalid", "response_status_invalid", "schema_invalid", "target_invalid",
    "transport_failure", "upstream_failure"]

/-- the payload of a failure, or of a response -/
def responsePayload : Except String FetchedResponse → List (Text × Value F)
  | .error reason =>
    record [("ok", .bool false),
      ("reason", .str (if reason ∈ EGRESS_RESPONSE_REASONS then reason else "transport_failure").toList)]
  | .ok response =>
    record [("effective_url", .str response.effective_url), ("headers", .arr (response.headers.map headerValue)),
      ("ok", .bool true), ("peer_ip", .str response.peer_ip), ("status", .int response.status)]

def responseMembers (mac : List (String × Value F)) (result : Except String FetchedResponse) (nonce request_hash : Text)
    (issued_at_ms : Int) : List (Text × Value F) :=
  record ([("issued_at_ms", .int issued_at_ms), ("kind", .str "response".toList)] ++ mac ++
    [("nonce", .str nonce), ("payload", .obj (responsePayload result)), ("request_hash", .str request_hash),
      ("version", .int 1)])

/-- `_encode_response` -/
def encodeResponse (result : Except String FetchedResponse) (nonce request_hash : Text) (issued_at_ms : Int) : Text :=
  let unsigned := responseMembers [] result nonce request_hash issued_at_ms
  let signature := mac fl cr shared_key RESPONSE_DOMAIN unsigned
  dumpsAscii fl (.obj (responseMembers [("mac", .str signature)] result nonce request_hash issued_at_ms))

/-- why a request fails: by a reason of the client's own, or by the one that the service signed -/
inductive ExchangeFailure where
  | transport (reason : String)
  | egress (reason : Text)

/-- one header of a response, and the size so far -/
def decodeHeader (requested_header_bytes : Nat) (state : Nat × List (Text × Text))
    (header : Option (Option Text × Option Text)) : Except String (Nat × List (Text × Text)) := do
  let (name, value) ← fetch header "response_schema"
  let name ← fetch name "response_schema"
  let value ← fetch value "response_schema"
  require (isHeaderName name = true ∧ lib.lower name = "location".toList ∧ value.all isHeaderByte = true)
    "response_schema"
  let header_bytes := state.1 + name.length + utf8Length value + 4
  require (header_bytes ≤ requested_header_bytes) "response_header_limit"
  return (header_bytes, state.2 ++ [(name, value)])

/-- the response of a payload -/
def payloadResponse (expected : Expected) (payload : List (Text × Value F)) : Except String FetchedResponse := do
  require (HasKeys payload ["ok", "status", "headers", "peer_ip", "effective_url"]
    ["ok", "status", "headers", "peer_ip", "effective_url"]) "response_schema"
  let status ← (validInt (intOf? (get payload "status")) 100 599)
  let raw_headers ← fetch (headersOf (get payload "headers")) "response_schema"
  let (_, headers) ← thread (decodeHeader lib expected.requested_header_bytes) (2, []) raw_headers
  require (headers.length ≤ limits.max_response_headers) "response_header_limit"
  let peer_ip ← fetch (textOf (get payload "peer_ip")) "response_attestation"
  require (textOf (get payload "effective_url") = some expected.target.url) "response_attestation"
  (assertConnectedPeer lib expected.target peer_ip).mapError (fun _ => "response_attestation")
  return ⟨status, headers, peer_ip, expected.target.url⟩

/-- a payload that says how it went -/
def payloadResult (expected : Expected) (payload : Value F) : Except ExchangeFailure FetchedResponse :=
  match payload with
  | .obj payload =>
    match payload.lookup "ok".toList with
    | some (.bool false) => do
      require (HasKeys payload ["ok", "reason"] ["ok", "reason"]) (.transport "response_schema")
      let reason ← fetch (textOf (get payload "reason")) (.transport "response_schema")
      throw (.egress reason)
    | some (.bool true) => (payloadResponse lib limits expected payload).mapError .transport
    | _ => throw (.transport "response_schema")
  | _ => throw (.transport "response_schema")

def RESPONSE_KEYS : List String := ["version", "kind", "nonce", "request_hash", "issued_at_ms", "payload", "mac"]

/-- the members of a response that is signed and bound to the request -/
def responseEnvelope (expected : Expected) (now_ms : Int) (packet : Text) : Except String (List (Text × Value F)) := do
  require (1 ≤ packet.length ∧ packet.length ≤ limits.max_response_frame_bytes) "response_frame_limit"
  let envelope ← strictJsonMapping fl packet
  require (HasKeys envelope RESPONSE_KEYS RESPONSE_KEYS) "response_schema"
  require (intOf? (get envelope "version") = some 1 ∧ textOf (get envelope "kind") = some "response".toList)
    "response_schema"
  let signature ← fetch (textOf (get envelope "mac")) "response_authentication"
  require (isDigest signature = true) "response_authentication"
  require (signature = mac fl cr shared_key RESPONSE_DOMAIN (withoutMac envelope)) "response_authentication"
  require (textOf (get envelope "nonce") = some expected.nonce ∧
    textOf (get envelope "request_hash") = some expected.request_hash) "response_binding"
  let issued_at_ms ← validInt (intOf? (get envelope "issued_at_ms")) 0 (2 ^ 63 - 1)
  let skew_ms := milliseconds limits.clock_skew_seconds
  require (now_ms ≤ expected.expires_at_ms + skew_ms ∧ expected.issued_at_ms - skew_ms ≤ issued_at_ms ∧
    issued_at_ms ≤ expected.expires_at_ms + skew_ms ∧ issued_at_ms ≤ now_ms + skew_ms) "response_freshness"
  return envelope

/-- `_decode_response` -/
def decodeResponse (expected : Expected) (now_ms : Int) (packet : Text) : Except ExchangeFailure FetchedResponse := do
  let envelope ← (responseEnvelope fl cr limits shared_key expected now_ms packet).mapError .transport
  payloadResult lib limits expected (get envelope "payload")

end

/-! ## the head of an upstream response -/

/-- `bytes.split(b"\r\n")` -/
def splitCrlf : Text → List Text
  | [] => [[]]
  | '\r' :: '\n' :: s => [] :: splitCrlf s
  | c :: s =>
    match splitCrlf s with
    | [] => [[c]]
    | line :: lines => (c :: line) :: lines

/-- `HTTP/1\.[01] ([1-5][0-9]{2})(?: [\x20-\x7e]*)?` -/
def statusLine (line : Text) : Option Int :=
  match line with
  | 'H' :: 'T' :: 'T' :: 'P' :: '/' :: '1' :: '.' :: version :: ' ' :: a :: b :: c :: rest =>
    if (version = '0' ∨ version = '1') ∧ ('1' ≤ a ∧ a ≤ '5') ∧ isAsciiDigit b = true ∧ isAsciiDigit c = true ∧
        (rest = [] ∨ rest.head? = some ' ' ∧ rest.all (fun c => decide (0x20 ≤ c.toNat ∧ c.toNat ≤ 0x7E)) = true) then
      some (decimal [a, b, c])
    else none
  | _ => none

/-- `value.strip(b" \t")` -/
def stripBlanks (s : Text) : Text :=
  (s.dropWhile (fun c => c == ' ' || c == '\t')).rdropWhile (fun c => c == ' ' || c == '\t')

/-- a header line of an upstream response -/
def headerLine (line : Text) : Except String (Text × Text) := do
  require (line.head? ≠ some ' ' ∧ line.head? ≠ some '\t') "response_headers_invalid"
  let (name, rest) := partition ':' line
  let value ← fetch rest "response_headers_invalid"
  let value := stripBlanks value
  require (isHeaderName name = true ∧ value.all isHeaderByte = true) "response_headers_invalid"
  return (name, value)

/-- `_read_http_response` up to the body; `raw` ends with the first empty line -/
def parseHead (max_header_bytes max_headers : Nat) (raw : Text) : Except String (Int × List (Text × Text)) := do
  require (raw.length ≤ max_header_bytes) "response_header_limit"
  match splitCrlf (raw.take (raw.length - 4)) with
  | [] => throw "response_headers_invalid"
  | first :: lines => do
    require (lines.length ≤ max_headers) "response_headers_invalid"
    let status ← fetch (statusLine first) "response_status_invalid"
    let headers ← each headerLine lines
    return (status, headers)

/-- what `_fetch` discloses of a response -/
def disclosed (lib : NetLib) (headers : List (Text × Text)) : List (Text × Text) :=
  headers.filter (fun h => lib.lower h.1 == "location".toList)

end OpenFlame.ShortLink
