import OpenFlame.Base.StreamReader
import OpenFlame.ShortLink.Transport

/-!
# The upstream response: its reader, and what a response is

`readTrailers`, `readChunkedBody`, `readToEnd`   the loops of the reader
`readHttpBody`, `readHttpResponse`               the reader
`HeaderField`, `HttpHead`, `Chunk`               what a response is made of
`HttpContent`, `HttpResponse`                    the body in its framing, and a response whose head declares it
`HttpHead.Within`, `HttpContent.Within`           what is within the limits

Bytes are characters below 256, so a text decoded as Latin-1 is its bytes.
-/

set_option linter.all false

namespace OpenFlame.ShortLink
open Guard Download Network

/-- `_TransportFailure`, the `ValueError` of `int`, or no fuel left -/
inductive ReadFailure where
  | transport (reason : String)
  | valueError
  | unfinished
  deriving DecidableEq

/-- the limits of a read, that of the stream reader, and the digits that `int` takes if they are limited -/
structure ReadLimits where
  max_header_bytes : Nat
  max_body_bytes : Nat
  max_headers : Nat
  stream_limit : Nat
  int_digits : Option Nat

def crlf : Text := ['\r', '\n']

/-! ## Latin-1 texts -/

/-- `str.lower` -/
def lowerChar (c : Char) : Char :=
  if ('A' ≤ c ∧ c ≤ 'Z') ∨ (0xC0 ≤ c.toNat ∧ c.toNat ≤ 0xDE ∧ c.toNat ≠ 0xD7) then Char.ofNat (c.toNat + 32) else c

/-- `str.isdigit` of one character: the superscripts are digits too -/
def isLatinDigit (c : Char) : Bool := isAsciiDigit c || [0xB2, 0xB3, 0xB9].contains c.toNat

/-- `str.isspace` of one character -/
def isLatinSpace (c : Char) : Bool :=
  decide (9 ≤ c.toNat ∧ c.toNat ≤ 13 ∨ 0x1C ≤ c.toNat ∧ c.toNat ≤ 0x20) || [0x85, 0xA0].contains c.toNat

/-- `str.strip` -/
def latinStrip (s : Text) : Text := (s.dropWhile isLatinSpace).rdropWhile isLatinSpace

/-- `int(text)` of a text that `isdigit` accepted -/
def intOf (int_digits : Option Nat) (s : Text) : Except ReadFailure Nat := do
  require (s.all isAsciiDigit = true ∧ ∀ n ∈ int_digits, s.length ≤ n) .valueError
  return decimal s

def isHexDigit (c : Char) : Bool := isAsciiDigit c || ('a' ≤ c && c ≤ 'f') || ('A' ≤ c && c ≤ 'F')

def hexDigit (c : Char) : Nat :=
  if c ≤ '9' then c.toNat - 48 else if c ≤ 'F' then c.toNat - 55 else c.toNat - 87

/-- `int(text, 16)` -/
def hexadecimal (s : Text) : Nat := s.foldl (fun n c => 16 * n + hexDigit c) 0

/-- `_header_values` -/
def headerValues (headers : List (Text × Text)) (name : Text) : List Text :=
  (headers.filter (fun h => h.1.map lowerChar == name)).map Prod.snd

/-! ## the reader -/

section
variable (limits : ReadLimits)

/-- `readuntil`, with both its errors caught -/
def readLine (separator : Text) (reason : String) (reader : StreamReader Char) :
    Except ReadFailure (Text × StreamReader Char) :=
  (reader.readuntil limits.stream_limit separator).mapError (fun _ => .transport reason)

/-- `readexactly`, with its error caught -/
def readBytes (n : Nat) (reader : StreamReader Char) : Except ReadFailure (Text × StreamReader Char) :=
  (reader.readexactly n).mapError (fun _ => .transport "response_body_incomplete")

/-- the loop of `_read_trailers` -/
def readTrailers (max_header_bytes max_headers : Nat) : Nat → Nat → Nat → StreamReader Char →
    Except ReadFailure (StreamReader Char)
  | 0, _, _, _ => throw .unfinished
  | fuel + 1, total, count, reader => do
    let (line, reader) ← readLine limits crlf "response_body_framing" reader
    require (total + line.length ≤ max_header_bytes) (.transport "response_header_limit")
    if line = crlf then return reader
    else
      require (count + 1 ≤ max_headers) (.transport "response_body_framing")
      let _ ← (headerLine (line.take (line.length - 2))).mapError (fun _ => .transport "response_body_framing")
      readTrailers max_header_bytes max_headers fuel (total + line.length) (count + 1) reader

/-- the loop of `_read_chunked_body` -/
def readChunkedBody (max_header_bytes max_headers : Nat) : Nat → Text → StreamReader Char →
    Except ReadFailure (Text × StreamReader Char)
  | 0, _, _ => throw .unfinished
  | fuel + 1, body, reader => do
    let (line, reader) ← readLine limits crlf "response_body_framing" reader
    require (line.length ≤ 128 ∧ ';' ∉ line) (.transport "response_body_framing")
    let raw_size := line.take (line.length - 2)
    require (raw_size ≠ [] ∧ raw_size.all isHexDigit = true) (.transport "response_body_framing")
    let size := hexadecimal raw_size
    if size = 0 then
      let reader ← readTrailers limits max_header_bytes max_headers (reader.rest.length + 1) 0 0 reader
      return (body, reader)
    else
      require (body.length + size ≤ limits.max_body_bytes) (.transport "response_body_limit")
      let (chunk, reader) ← readBytes (size + 2) reader
      require (crlf <:+ chunk) (.transport "response_body_framing")
      readChunkedBody max_header_bytes max_headers fuel (body ++ chunk.take (chunk.length - 2)) reader

/-- the loop of `_read_http_body` up to the end of the stream -/
def readToEnd : Nat → Text → StreamReader Char → Except ReadFailure (Text × StreamReader Char)
  | 0, _, _ => throw .unfinished
  | fuel + 1, body, reader =>
    match reader.read (min 4096 (limits.max_body_bytes - body.length + 1)) with
    | ([], reader) => return (body, reader)
    | (chunk, reader) => do
      require ((body ++ chunk).length ≤ limits.max_body_bytes) (.transport "response_body_limit")
      readToEnd fuel (body ++ chunk) reader

def isBodyless (status : Int) : Bool := decide (100 ≤ status ∧ status < 200) || [204, 304].contains status

/-- `_read_http_body` -/
def readHttpBody (status : Int) (headers : List (Text × Text)) (max_header_bytes max_headers : Nat)
    (reader : StreamReader Char) : Except ReadFailure (Text × StreamReader Char) :=
  if isBodyless status = true then return ([], reader)
  else
    match headerValues headers "transfer-encoding".toList, headerValues headers "content-length".toList with
    | [], [] => readToEnd limits (reader.rest.length + 1) [] reader
    | [], length :: lengths => do
      require ((∀ l ∈ lengths, l = length) ∧ (length ≠ [] ∧ length.all isLatinDigit = true))
        (.transport "response_body_framing")
      let n ← intOf limits.int_digits length
      require (n ≤ limits.max_body_bytes) (.transport "response_body_limit")
      readBytes n reader
    | transfer :: transfers, [] => do
      require (transfers = [] ∧ (latinStrip transfer).map lowerChar = "chunked".toList) (.transport "response_body_framing")
      readChunkedBody limits max_header_bytes max_headers (reader.rest.length + 1) [] reader
    | _ :: _, _ :: _ => throw (.transport "response_body_framing")

/-- `_read_http_response` -/
def readHttpResponse (reader : StreamReader Char) :
    Except ReadFailure ((Int × List (Text × Text) × Text) × StreamReader Char) := do
  let (raw, reader) ← readLine limits (crlf ++ crlf) "response_headers_invalid" reader
  let (status, headers) ← (parseHead limits.max_header_bytes limits.max_headers raw).mapError .transport
  let (body, reader) ← readHttpBody limits status headers (limits.max_header_bytes - raw.length)
    (limits.max_headers - headers.length) reader
  return ((status, headers, body), reader)

end

/-! ## what a response is -/

/-- the white space around a field value -/
def isOws (c : Char) : Bool := c == ' ' || c == '\t'

/-- a field: a token, and a value without controls between white space -/
structure HeaderField where
  name : Text
  before : Text
  value : Text
  after : Text
  token : isHeaderName name = true
  white : before.all isOws = true ∧ after.all isOws = true
  visible : value.all isHeaderByte = true
  trimmed : (∀ c ∈ value.head?, isOws c = false) ∧ ∀ c ∈ value.getLast?, isOws c = false

def HeaderField.line (f : HeaderField) : Text := f.name ++ ':' :: (f.before ++ f.value ++ f.after)

def HeaderField.pair (f : HeaderField) : Text × Text := (f.name, f.value)

/-- fields, each with the end of its line -/
def fieldBytes (fields : List HeaderField) : Text := (fields.map (fun f => f.line ++ crlf)).flatten

/-- a status line and the fields that follow it -/
structure HttpHead where
  minor : Char
  code : Char × Char × Char
  /-- what follows the code and a space -/
  phrase : Option Text
  fields : List HeaderField
  version : minor = '0' ∨ minor = '1'
  digits : ('1' ≤ code.1 ∧ code.1 ≤ '5') ∧ isAsciiDigit code.2.1 = true ∧ isAsciiDigit code.2.2 = true
  printable : ∀ p ∈ phrase, p.all (fun c => decide (0x20 ≤ c.toNat ∧ c.toNat ≤ 0x7E)) = true

namespace HttpHead

def status (h : HttpHead) : Int := decimal [h.code.1, h.code.2.1, h.code.2.2]

def headers (h : HttpHead) : List (Text × Text) := h.fields.map HeaderField.pair

def line (h : HttpHead) : Text :=
  'H' :: 'T' :: 'T' :: 'P' :: '/' :: '1' :: '.' :: h.minor :: ' ' :: h.code.1 :: h.code.2.1 :: h.code.2.2 ::
    h.phrase.elim [] (fun p => ' ' :: p)

def bytes (h : HttpHead) : Text := h.line ++ crlf ++ fieldBytes h.fields ++ crlf

def transfers (h : HttpHead) : List Text := headerValues h.headers "transfer-encoding".toList

def lengths (h : HttpHead) : List Text := headerValues h.headers "content-length".toList

end HttpHead

/-- a chunk that is not the last: its size in hexadecimal digits, and its data -/
structure Chunk where
  size : Text
  data : Text
  hex : size ≠ [] ∧ size.all isHexDigit = true
  counts : hexadecimal size = data.length
  nonempty : data ≠ []

def Chunk.bytes (c : Chunk) : Text := c.size ++ crlf ++ c.data ++ crlf

/-- the size of the last chunk -/
abbrev LastSize := {s : Text // s ≠ [] ∧ s.all isHexDigit = true ∧ hexadecimal s = 0}

/-- a body in its framing -/
inductive HttpContent where
  | none
  | sized (body : Text)
  | chunked (chunks : List Chunk) (last : LastSize) (trailers : List HeaderField)
  | untilEnd (body : Text)

namespace HttpContent

def bytes : HttpContent → Text
  | none => []
  | sized body => body
  | chunked chunks last trailers => (chunks.map Chunk.bytes).flatten ++ last.1 ++ crlf ++ fieldBytes trailers ++ crlf
  | untilEnd body => body

def body : HttpContent → Text
  | none => []
  | sized body => body
  | chunked chunks _ _ => (chunks.map Chunk.data).flatten
  | untilEnd body => body

def trailers : HttpContent → List HeaderField
  | chunked _ _ trailers => trailers
  | _ => []

/-- the bytes of the trailers and of the line that ends them -/
def trailerBytes : HttpContent → Nat
  | chunked _ _ trailers => (fieldBytes trailers ++ crlf).length
  | _ => 0

/-- the sizes of the chunks, as they are written -/
def sizes : HttpContent → List Text
  | chunked chunks last _ => chunks.map Chunk.size ++ [last.1]
  | _ => []

end HttpContent

/-- the framing that a head declares -/
def HttpHead.Declares (h : HttpHead) : HttpContent → Prop
  | .none => isBodyless h.status = true
  | .sized body => isBodyless h.status = false ∧ h.transfers = [] ∧
      ∃ length, h.lengths ≠ [] ∧ (∀ l ∈ h.lengths, l = length) ∧ length ≠ [] ∧ length.all isAsciiDigit = true ∧
        decimal length = body.length
  | .chunked .. => isBodyless h.status = false ∧ h.lengths = [] ∧
      ∃ transfer, h.transfers = [transfer] ∧ transfer.map lowerChar = "chunked".toList
  | .untilEnd _ => isBodyless h.status = false ∧ h.transfers = [] ∧ h.lengths = []

/-- a response: a head, and a body in the framing that it declares -/
structure HttpResponse where
  head : HttpHead
  content : HttpContent
  declared : head.Declares content

namespace HttpResponse

def bytes (r : HttpResponse) : Text := r.head.bytes ++ r.content.bytes

/-- what is read of a response -/
def read (r : HttpResponse) : Int × List (Text × Text) × Text := (r.head.status, r.head.headers, r.content.body)

end HttpResponse

/-- a head within the limits -/
structure HttpHead.Within (h : HttpHead) (limits : ReadLimits) : Prop where
  bytes : h.bytes.length ≤ limits.max_header_bytes
  headers : h.fields.length ≤ limits.max_headers
  line : h.bytes.length ≤ limits.stream_limit + 4

/-- a body whose trailers keep what the head left of the limits; a line that is read alone keeps its own limits -/
structure HttpContent.Within (c : HttpContent) (limits : ReadLimits) (h : HttpHead) : Prop where
  body : c.body.length ≤ limits.max_body_bytes
  bytes : h.bytes.length + c.trailerBytes ≤ limits.max_header_bytes
  headers : h.fields.length + c.trailers.length ≤ limits.max_headers
  sizes : ∀ s ∈ c.sizes, s.length + 2 ≤ 128 ∧ s.length ≤ limits.stream_limit
  lines : ∀ f ∈ c.trailers, f.line.length ≤ limits.stream_limit

end OpenFlame.ShortLink
