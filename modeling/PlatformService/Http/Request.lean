import Mathlib.Data.List.DropRight
import PlatformService.Lib.Decimal
import PlatformService.Lib.Search

/-!
# The request parser

`request.c`: `ps_http_request_parse` looks for the end of the request line and for
the blank line behind the headers, both below a configured limit, and only then
looks into the text. Positions are those of the code; the request line and the
header block are taken out as texts of their own, and a request holds copies
where the code holds pointers. `size_t` arithmetic wraps at 2⁶⁴.
-/

namespace PlatformService.Http

open Lib

/-- `ps_http_header_t` -/
structure Header where
  name : Bytes
  value : Bytes
  deriving DecidableEq, Repr

/-- `ps_http_request_t`: `query` and `body` are `none` for NULL. -/
structure Request where
  method : Bytes
  path : Bytes
  query : Option Bytes
  minorVersion : Nat
  headers : List Header
  body : Option Bytes
  deriving DecidableEq, Repr

/-- `ps_http_limits_t` -/
structure Limits where
  maxRequestLineBytes : Int
  maxHeaderBytes : Int
  maxHeaderCount : Int
  maxBodyBytes : Int
  deriving DecidableEq, Repr

/-- `ps_http_parse_error_t` without `PS_HTTP_ERR_NONE`. -/
inductive ParseErrorKind where
  | malformed
  | lineTooLong
  | tooManyHeaders
  | headersTooLarge
  | bodyTooLarge
  | chunkedUnsupported
  | contentLengthInvalid
  deriving DecidableEq, Repr

/-- What a failed parse reports. -/
structure ParseError where
  kind : ParseErrorKind
  message : String
  deriving DecidableEq, Repr

/-- `ps_http_parse_result_t` with what it reports. -/
inductive ParseResult where
  | ok (request : Request) (consumed : Nat)
  | incomplete
  | error (error : ParseError)
  deriving DecidableEq, Repr

/-- `PS_HTTP_MAX_HEADERS` -/
def maxHeaders : Nat := 64

/-- The conversion of an `int` to `size_t`. -/
def asSize (value : Int) : Nat := (value % 2 ^ 64).toNat

/-- `is_tchar` -/
def isTchar (c : UInt8) : Bool :=
  c ∈ ascii "!#$%&'*+-.^_`|~" || isDigit c || (65 ≤ c && c ≤ 90) || (97 ≤ c && c ≤ 122)

/-- `is_sp_or_htab` -/
def isSpOrHtab (c : UInt8) : Bool := c = 32 || c = 9

/-- `ci_equal` against a literal -/
def ciEqual (text : Bytes) (literal : String) : Bool :=
  text.map toLower = (ascii literal).map toLower

/-- `find_crlf` -/
def findCrlf (data : Bytes) (limit start : Nat) : Option Nat :=
  firstOccurrence [13, 10] data start limit

/-- `parse_nonneg_decimal` -/
def parseNonnegDecimal (text : Bytes) : Option Nat :=
  if text.length = 0 ∨ 18 < text.length then none
  else if text.all isDigit then some (natOfDigits text)
  else none

/-- `ps_http_request_header` -/
def Request.header (request : Request) (name : String) : Option Header :=
  request.headers.find? fun header => ciEqual header.name name

/-- A malformed request. -/
def malformed (message : String) : ParseError := ⟨.malformed, message⟩

/-- What the request line holds. -/
structure RequestLine where
  method : Bytes
  path : Bytes
  query : Option Bytes
  minorVersion : Nat
  deriving DecidableEq, Repr

/-- The request line, without its CRLF. -/
def parseRequestLine (line : Bytes) : Except ParseError RequestLine := do
  let method := line.takeWhile (· ≠ 32)
  if !method.all isTchar then throw (malformed "invalid method token")
  if method = [] ∨ line.length ≤ method.length then
    throw (malformed "malformed request line (method)")
  let afterMethod := line.drop (method.length + 1)
  let target := afterMethod.takeWhile (· ≠ 32)
  if target = [] ∨ afterMethod.length ≤ target.length then
    throw (malformed "malformed request line (target)")
  if target.head? ≠ some 47 then
    throw (malformed "only origin-form request targets are supported")
  let path := target.takeWhile (· ≠ 63)
  let query := if path.length < target.length then some (target.drop (path.length + 1)) else none
  let version := afterMethod.drop (target.length + 1)
  if version = ascii "HTTP/1.1" then return { method, path, query, minorVersion := 1 }
  else if version = ascii "HTTP/1.0" then return { method, path, query, minorVersion := 0 }
  else throw (malformed "unsupported or malformed HTTP version")

/-- What the header loop accumulates. -/
structure HeaderState where
  headers : List Header := []
  contentLength : Option Nat := none
  haveTransferEncoding : Bool := false
  transferEncodingChunked : Bool := false
  deriving DecidableEq, Repr

/-- The smuggling guard of the header loop, on the header just read. -/
def noteFraming (state : HeaderState) (header : Header) : Except ParseError HeaderState :=
  if ciEqual header.name "Content-Length" then
    if state.contentLength.isSome then
      .error ⟨.contentLengthInvalid, "duplicate Content-Length header"⟩
    else match parseNonnegDecimal header.value with
      | none => .error ⟨.contentLengthInvalid, "invalid Content-Length"⟩
      | some length => .ok { state with contentLength := some length }
  else if ciEqual header.name "Transfer-Encoding" then
    .ok { state with
      haveTransferEncoding := true
      transferEncodingChunked := state.transferEncodingChunked || ciEqual header.value "chunked" }
  else .ok state

/-- One turn of the header loop, on a line without its CRLF. -/
def parseHeaderLine (limits : Limits) (state : HeaderState) (line : Bytes) :
    Except ParseError HeaderState := do
  if line.head?.any isSpOrHtab then throw (malformed "obsolete line folding is not supported")
  let name := line.takeWhile (· ≠ 58)
  if !name.all isTchar then throw (malformed "invalid header name")
  if name = [] ∨ line.length ≤ name.length then throw (malformed "malformed header line")
  let value := ((line.drop (name.length + 1)).dropWhile isSpOrHtab).rdropWhile isSpOrHtab
  if maxHeaders ≤ state.headers.length ∨ limits.maxHeaderCount ≤ state.headers.length then
    throw ⟨.tooManyHeaders, "too many headers"⟩
  noteFraming { state with headers := state.headers ++ [⟨name, value⟩] } ⟨name, value⟩

/-- The lines of a block, each ended by CRLF, and what follows the last of them. -/
def splitCrlf : Bytes → List Bytes × Bytes
  | [] => ([], [])
  | 13 :: 10 :: rest => ([] :: (splitCrlf rest).1, (splitCrlf rest).2)
  | c :: rest =>
    match splitCrlf rest with
    | ([], last) => ([], c :: last)
    | (line :: lines, last) => ((c :: line) :: lines, last)

/-- The header loop over the header block, and the framing checks behind it. -/
def parseHeaders (limits : Limits) (block : Bytes) : Except ParseError HeaderState := do
  let lines := splitCrlf block
  let state ← lines.1.foldlM (parseHeaderLine limits) {}
  if lines.2 ≠ [] then throw (malformed "malformed headers")
  if state.contentLength.isSome && state.haveTransferEncoding then
    throw ⟨.contentLengthInvalid, "Content-Length and Transfer-Encoding must not both be present"⟩
  if state.haveTransferEncoding then
    if !state.transferEncodingChunked then throw (malformed "unsupported Transfer-Encoding")
    throw ⟨.chunkedUnsupported, "chunked request bodies are not supported"⟩
  return state

/-- The request without a body that its line and its headers make. -/
def assemble (line : RequestLine) (state : HeaderState) : Request where
  method := line.method
  path := line.path
  query := line.query
  minorVersion := line.minorVersion
  headers := state.headers
  body := none

/-- The body stage of `ps_http_request_parse`. -/
def parseBody (limits : Limits) (data : Bytes) (afterHeaders : Nat) (request : Request)
    (contentLength : Option Nat) : ParseResult :=
  let bodyLen := contentLength.getD 0
  if bodyLen = 0 then .ok request afterHeaders
  else if limits.maxBodyBytes < bodyLen then
    .error ⟨.bodyTooLarge, "request body exceeds the configured limit"⟩
  else if data.length - afterHeaders < bodyLen then .incomplete
  else .ok { request with body := some ((data.drop afterHeaders).take bodyLen) }
    (afterHeaders + bodyLen)

/-- The header and body stages of `ps_http_request_parse`, behind a request line that ends at
`lineEnd`. -/
def parseRest (limits : Limits) (data : Bytes) (lineEnd : Nat) (line : RequestLine) : ParseResult :=
  let headerStart := lineEnd + 2
  let headerLimit := (headerStart + asSize limits.maxHeaderBytes + 2) % 2 ^ 64
  -- the scan starts at the CRLF of the request line, for a request without headers
  match firstOccurrence [13, 10, 13, 10] data lineEnd (min data.length headerLimit) with
  | none =>
    if headerLimit ≤ data.length then .error ⟨.headersTooLarge, "headers too large"⟩
    else .incomplete
  | some terminator =>
    match parseHeaders limits ((data.drop headerStart).take (terminator + 2 - headerStart)) with
    | .error error => .error error
    | .ok state => parseBody limits data (terminator + 4) (assemble line state) state.contentLength

/-- `ps_http_request_parse` -/
def parse (limits : Limits) (data : Bytes) : ParseResult :=
  let lineLimit := asSize limits.maxRequestLineBytes
  match findCrlf data (min data.length lineLimit) 0 with
  | none =>
    if lineLimit ≤ data.length then .error ⟨.lineTooLong, "request line too long"⟩ else .incomplete
  | some lineEnd =>
    match parseRequestLine (data.take lineEnd) with
    | .error error => .error error
    | .ok line => parseRest limits data lineEnd line

end PlatformService.Http
