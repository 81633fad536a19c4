import PlatformService.Http.Request

/-!
# The request parser on positions

`ps_http_request_t` points into the read buffer. This is `ps_http_request_parse` with
its positions: every part of the request is a start and a length that the scans of the
code leave, and nothing is copied. The header block is found by one scan and cut into
lines by another, each on the whole buffer.
-/

namespace PlatformService.Http

open Lib

/-- A pointer into the buffer, and a length. -/
structure Slice where
  start : Nat
  length : Nat
  deriving DecidableEq, Repr

/-- The position behind a slice. -/
def Slice.stop (slice : Slice) : Nat := slice.start + slice.length

/-- The octets of a slice. -/
def Slice.read (slice : Slice) (data : Bytes) : Bytes := (data.drop slice.start).take slice.length

/-- The slice between two positions. -/
def Slice.between (start stop : Nat) : Slice := ⟨start, stop - start⟩

/-- Where a loop stops that runs from `start` to `limit` while it sees certain octets. -/
def scan (passes : UInt8 → Bool) (data : Bytes) (start limit : Nat) : Nat :=
  start + (((data.take limit).drop start).takeWhile passes).length

/-- Where a loop stops that runs from `limit` down to `start` while it sees certain octets. -/
def scanBack (passes : UInt8 → Bool) (data : Bytes) (start limit : Nat) : Nat :=
  start + (((data.take limit).drop start).rdropWhile passes).length

/-- `ps_http_header_t` -/
structure HeaderSlices where
  name : Slice
  value : Slice
  deriving DecidableEq, Repr

/-- The texts of a header. -/
def HeaderSlices.read (header : HeaderSlices) (data : Bytes) : Header :=
  ⟨header.name.read data, header.value.read data⟩

/-- `ps_http_request_t` -/
structure RequestSlices where
  method : Slice
  path : Slice
  query : Option Slice
  minorVersion : Nat
  headers : List HeaderSlices
  body : Option Slice
  deriving DecidableEq, Repr

/-- The texts of a request. -/
def RequestSlices.read (request : RequestSlices) (data : Bytes) : Request where
  method := request.method.read data
  path := request.path.read data
  query := request.query.map (·.read data)
  minorVersion := request.minorVersion
  headers := request.headers.map (·.read data)
  body := request.body.map (·.read data)

/-- `ps_http_parse_result_t` with what it reports. -/
inductive SlicesResult where
  | ok (request : RequestSlices) (consumed : Nat)
  | incomplete
  | error (error : ParseError)
  deriving DecidableEq, Repr

/-- The result with the texts of its request. -/
def SlicesResult.read (result : SlicesResult) (data : Bytes) : ParseResult :=
  match result with
  | .ok request consumed => .ok (request.read data) consumed
  | .incomplete => .incomplete
  | .error refusal => .error refusal

/-- What the request line holds. -/
structure LineSlices where
  method : Slice
  path : Slice
  query : Option Slice
  minorVersion : Nat
  deriving DecidableEq, Repr

/-- The texts of a request line. -/
def LineSlices.read (line : LineSlices) (data : Bytes) : RequestLine where
  method := line.method.read data
  path := line.path.read data
  query := line.query.map (·.read data)
  minorVersion := line.minorVersion

/-- The request line, which ends at `lineLen`. -/
def sliceRequestLine (data : Bytes) (lineLen : Nat) : Except ParseError LineSlices := do
  let methodEnd := scan (· ≠ 32) data 0 lineLen
  if !((Slice.between 0 methodEnd).read data).all isTchar then
    throw (malformed "invalid method token")
  if methodEnd = 0 ∨ lineLen ≤ methodEnd then
    throw (malformed "malformed request line (method)")
  let targetStart := methodEnd + 1
  let targetEnd := scan (· ≠ 32) data targetStart lineLen
  if targetEnd = targetStart ∨ lineLen ≤ targetEnd then
    throw (malformed "malformed request line (target)")
  if data[targetStart]? ≠ some 47 then
    throw (malformed "only origin-form request targets are supported")
  let pathEnd := scan (· ≠ 63) data targetStart targetEnd
  let query := if pathEnd < targetEnd then some (.between (pathEnd + 1) targetEnd) else none
  let version := (Slice.between (targetEnd + 1) lineLen).read data
  let method := Slice.between 0 methodEnd
  let path := Slice.between targetStart pathEnd
  if version = ascii "HTTP/1.1" then return { method, path, query, minorVersion := 1 }
  else if version = ascii "HTTP/1.0" then return { method, path, query, minorVersion := 0 }
  else throw (malformed "unsupported or malformed HTTP version")

/-- What the header loop accumulates. -/
structure HeaderPositions where
  headers : List HeaderSlices := []
  contentLength : Option Nat := none
  haveTransferEncoding : Bool := false
  transferEncodingChunked : Bool := false
  deriving DecidableEq, Repr

/-- What the header loop has read. -/
def HeaderPositions.read (state : HeaderPositions) (data : Bytes) : HeaderState where
  headers := state.headers.map (·.read data)
  contentLength := state.contentLength
  haveTransferEncoding := state.haveTransferEncoding
  transferEncodingChunked := state.transferEncodingChunked

/-- One turn of the header loop, at `cursor`, on a line that ends at `lineEnd`. -/
def sliceHeaderLine (limits : Limits) (data : Bytes) (state : HeaderPositions)
    (cursor lineEnd : Nat) : Except ParseError HeaderPositions := do
  if data[cursor]?.any isSpOrHtab then throw (malformed "obsolete line folding is not supported")
  let nameEnd := scan (· ≠ 58) data cursor lineEnd
  if !((Slice.between cursor nameEnd).read data).all isTchar then
    throw (malformed "invalid header name")
  if nameEnd = cursor ∨ lineEnd ≤ nameEnd then throw (malformed "malformed header line")
  let valueStart := scan isSpOrHtab data (nameEnd + 1) lineEnd
  let valueEnd := scanBack isSpOrHtab data valueStart lineEnd
  if maxHeaders ≤ state.headers.length ∨ limits.maxHeaderCount ≤ state.headers.length then
    throw ⟨.tooManyHeaders, "too many headers"⟩
  let header : HeaderSlices := ⟨.between cursor nameEnd, .between valueStart valueEnd⟩
  let pushed : HeaderPositions := { state with headers := state.headers ++ [header] }
  let noted ← noteFraming (pushed.read data) (header.read data)
  return { headers := pushed.headers
           contentLength := noted.contentLength
           haveTransferEncoding := noted.haveTransferEncoding
           transferEncodingChunked := noted.transferEncodingChunked }

/-- The header loop from `cursor` on, in a block that ends at `blockEnd`. -/
def sliceHeaderLines (limits : Limits) (data : Bytes) (blockEnd : Nat) (state : HeaderPositions)
    (cursor : Nat) : Except ParseError HeaderPositions :=
  if cursor < blockEnd then
    match found : findCrlf data blockEnd cursor with
    | none => .error (malformed "malformed headers")
    | some lineEnd =>
      have _ := (firstOccurrence_eq_some.mp found).1
      match sliceHeaderLine limits data state cursor lineEnd with
      | .error error => .error error
      | .ok state => sliceHeaderLines limits data blockEnd state (lineEnd + 2)
  else .ok state
termination_by blockEnd - cursor

/-- The framing checks behind the header loop. -/
def checkFraming (state : HeaderPositions) : Except ParseError HeaderPositions := do
  if state.contentLength.isSome && state.haveTransferEncoding then
    throw ⟨.contentLengthInvalid, "Content-Length and Transfer-Encoding must not both be present"⟩
  if state.haveTransferEncoding then
    if !state.transferEncodingChunked then throw (malformed "unsupported Transfer-Encoding")
    throw ⟨.chunkedUnsupported, "chunked request bodies are not supported"⟩
  return state

/-- The body stage of `ps_http_request_parse`. -/
def sliceBody (limits : Limits) (data : Bytes) (afterHeaders : Nat) (line : LineSlices)
    (state : HeaderPositions) : SlicesResult :=
  let request : RequestSlices :=
    ⟨line.method, line.path, line.query, line.minorVersion, state.headers, none⟩
  let bodyLen := state.contentLength.getD 0
  if bodyLen = 0 then .ok request afterHeaders
  else if limits.maxBodyBytes < bodyLen then
    .error ⟨.bodyTooLarge, "request body exceeds the configured limit"⟩
  else if data.length - afterHeaders < bodyLen then .incomplete
  else .ok { request with body := some ⟨afterHeaders, bodyLen⟩ } (afterHeaders + bodyLen)

/-- The header and body stages of `ps_http_request_parse`, behind a request line that ends at
`lineEnd`. -/
def sliceRest (limits : Limits) (data : Bytes) (lineEnd : Nat) (line : LineSlices) : SlicesResult :=
  let headerStart := lineEnd + 2
  let headerLimit := (headerStart + asSize limits.maxHeaderBytes + 2) % 2 ^ 64
  match firstOccurrence [13, 10, 13, 10] data lineEnd (min data.length headerLimit) with
  | none =>
    if headerLimit ≤ data.length then .error ⟨.headersTooLarge, "headers too large"⟩
    else .incomplete
  | some terminator =>
    match sliceHeaderLines limits data (terminator + 2) {} headerStart >>= checkFraming with
    | .error error => .error error
    | .ok state => sliceBody limits data (terminator + 4) line state

/-- `ps_http_request_parse` -/
def parseSlices (limits : Limits) (data : Bytes) : SlicesResult :=
  let lineLimit := asSize limits.maxRequestLineBytes
  match findCrlf data (min data.length lineLimit) 0 with
  | none =>
    if lineLimit ≤ data.length then .error ⟨.lineTooLong, "request line too long"⟩ else .incomplete
  | some lineEnd =>
    match sliceRequestLine data lineEnd with
    | .error error => .error error
    | .ok line => sliceRest limits data lineEnd line

end PlatformService.Http
