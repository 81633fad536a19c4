import PlatformService.Http.Request
import PlatformService.Http.Router

/-!
# The connection loop

`ps_conn_handle` after the handshake, with no timeout and every response written:
it parses what it holds, reads when that is incomplete, answers a request, and
slides what is left to the front. A read is a chunk of the peer's stream; what the
loop does is a list of events and the reason for which it ends.

Which response a request gets is kept as far as the loop decides it: the answer to
OPTIONS, the router's two refusals, or the dispatch of a route.
-/

namespace PlatformService.Http

/-- `ps_conn_limits_t` without the timeouts. -/
structure ConnLimits where
  keepaliveMaxRequests : Int
  httpLimits : Limits
  deriving DecidableEq, Repr

/-- `ps_conn_close_reason_t` -/
inductive CloseReason where
  | byPeer
  | maxRequests
  | timeout
  | error
  | connectionHeader
  deriving DecidableEq, Repr

/-- `header_value_equals_ci` -/
def headerValueEqualsCi (header : Option Header) (token : String) : Bool :=
  header.any fun header => ciEqual header.value token

/-- `connection_should_stay_alive` -/
def connectionShouldStayAlive (request : Request) (completedAfter maxRequests : Int) : Bool :=
  if maxRequests ≤ completedAfter then false
  else if headerValueEqualsCi (request.header "Connection") "close" then false
  else if request.minorVersion = 0 then
    headerValueEqualsCi (request.header "Connection") "keep-alive"
  else true

/-- `error_status_and_code` -/
def errorStatusAndCode : ParseErrorKind → Int × String
  | .bodyTooLarge => (413, "PAYLOAD_TOO_LARGE")
  | .chunkedUnsupported => (501, "NOT_IMPLEMENTED")
  | .malformed => (400, "BAD_REQUEST")
  | .lineTooLong => (400, "BAD_REQUEST")
  | .tooManyHeaders => (400, "BAD_REQUEST")
  | .headersTooLarge => (400, "BAD_REQUEST")
  | .contentLengthInvalid => (400, "BAD_REQUEST")

/-- How the loop answers a request. -/
inductive Answer where
  /-- `OPTIONS`: 204 where CORS is configured, else 405. -/
  | options (status : Int)
  /-- The router's 404. -/
  | notFound
  /-- The router's 405. -/
  | methodNotAllowed
  /-- The route's handler is called. -/
  | dispatched (routeId : Int) (params : List RouteParam)
  deriving DecidableEq, Repr

/-- What the loop serves connections with. -/
structure Server where
  limits : ConnLimits
  routes : List RouteEntry
  /-- `ps_cors_enabled` -/
  corsEnabled : Bool
  deriving DecidableEq, Repr

/-- The answer to a request. -/
def Server.answer (server : Server) (request : Request) : Answer :=
  if request.method = ascii "OPTIONS" then .options (if server.corsEnabled then 204 else 405)
  else match routerMatch server.routes request.method request.path with
    | .matched routeId params => .dispatched routeId params
    | .notFound => .notFound
    | .methodNotAllowed => .methodNotAllowed

/-- What happens on a connection. -/
inductive Event where
  | answered (request : Request) (answer : Answer)
  | refused (error : ParseError) (status : Int) (code : String)
  deriving DecidableEq, Repr

/-- The answer to a parse error. -/
def refusal (error : ParseError) : Event :=
  .refused error (errorStatusAndCode error.kind).1 (errorStatusAndCode error.kind).2

/-- Where the loop stands between two reads. -/
inductive Standing where
  /-- It needs more data to what it holds, and may still serve some requests. -/
  | waiting (remaining : Nat) (buffer : Bytes)
  | closed (reason : CloseReason)
  deriving DecidableEq, Repr

/-- The turns of the loop up to its next read or its end. `remaining` is what is left of
`keepalive_max_requests`, so `completed` is the rest of it. -/
def serve (server : Server) : (remaining : Nat) → (buffer : Bytes) → List Event × Standing
  | 0, _ => ([], .closed .maxRequests)
  | remaining + 1, buffer =>
    match parse server.limits.httpLimits buffer with
    | .incomplete => ([], .waiting (remaining + 1) buffer)
    | .error error => ([refusal error], .closed .error)
    | .ok request consumed =>
      let maxRequests := server.limits.keepaliveMaxRequests
      let completedAfter := maxRequests - remaining
      if connectionShouldStayAlive request completedAfter maxRequests then
        let rest := serve server remaining (buffer.drop consumed)
        (.answered request (server.answer request) :: rest.1, rest.2)
      else
        ([.answered request (server.answer request)],
          .closed (if maxRequests ≤ completedAfter then .maxRequests else .connectionHeader))

/-- How the peer's stream ends. -/
inductive StreamEnd where
  | closeNotify
  | disconnect
  | failure
  deriving DecidableEq, Repr

/-- The reason `read_more` reports at the end of the stream. -/
def endReason (ending : StreamEnd) (buffer : Bytes) : CloseReason :=
  match ending with
  | .closeNotify => .byPeer
  | .disconnect => if buffer = [] then .byPeer else .error
  | .failure => .error

/-- What a connection does in all. -/
structure Outcome where
  events : List Event
  reason : CloseReason
  deriving DecidableEq, Repr

/-- The loop from where it stands, over the reads to come. -/
def handleFrom (server : Server) (ending : StreamEnd) (remaining : Nat) (buffer : Bytes)
    (chunks : List Bytes) : Outcome :=
  match chunks with
  | [] =>
    let served := serve server remaining buffer
    match served.2 with
    | .closed reason => ⟨served.1, reason⟩
    | .waiting _ buffer => ⟨served.1, endReason ending buffer⟩
  | chunk :: chunks =>
    let served := serve server remaining buffer
    match served.2 with
    | .closed reason => ⟨served.1, reason⟩
    | .waiting remaining buffer =>
      let rest := handleFrom server ending remaining (buffer ++ chunk) chunks
      ⟨served.1 ++ rest.events, rest.reason⟩

/-- `ps_conn_handle`, over the reads of a stream -/
def connHandle (server : Server) (ending : StreamEnd) (chunks : List Bytes) : Outcome :=
  handleFrom server ending server.limits.keepaliveMaxRequests.toNat [] chunks

end PlatformService.Http
