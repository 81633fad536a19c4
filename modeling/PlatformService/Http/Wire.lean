import PlatformService.Http.Response

/-!
# The connection loop and its responses

`ps_conn_handle` with the handlers it calls and the responses it writes, where every call of
`SSL_write` takes the whole of what it is given. A response that cannot be written closes the
connection. The handlers share a state, the tables of the service and what surrounds each call.
-/

namespace PlatformService.Http

variable {S : Type}

/-- What connections are served with: `dispatch` is `ps_routes_dispatch` on the state of the service. -/
structure Service (S : Type) where
  limits : ConnLimits
  routes : List RouteEntry
  cors : CorsPolicy
  dispatch : S → Int → Request → List RouteParam → Api.HandlerResult × S

namespace Service

/-- What the loop decides answers with. -/
def server (service : Service S) : Server := ⟨service.limits, service.routes, service.cors.enabled⟩

/-- What the handler of a request answers and leaves; a request that is not dispatched has none. -/
def handle (service : Service S) (state : S) (request : Request) : Api.HandlerResult × S :=
  match service.server.answer request with
  | .dispatched routeId params => service.dispatch state routeId request params
  | _ => (Api.internalErrorResult, state)

/-- The response to a request, and what its handler leaves. -/
def reply (service : Service S) (state : S) (request : Request) (keepAlive : Bool) : Response × S :=
  let handled := service.handle state request
  (answerResponse service.cors request keepAlive (fun _ _ => handled.1) (service.server.answer request),
    handled.2)

end Service

/-- The response to a parse error. -/
def refusalResponse (error : ParseError) : Response :=
  errorResponse (errorStatusAndCode error.kind).1 (errorStatusAndCode error.kind).2 error.message false

/-- What the loop has done up to its next read or its end. -/
structure Served (S : Type) where
  /-- The responses written, each by one `SSL_write`. -/
  responses : List Bytes
  state : S
  standing : Standing

/-- The turns of the loop up to its next read or its end, as `serve` counts them. -/
def serveWire (service : Service S) : (remaining : Nat) → (buffer : Bytes) → S → Served S
  | 0, _, state => ⟨[], state, .closed .maxRequests⟩
  | remaining + 1, buffer, state =>
    match parse service.limits.httpLimits buffer with
    | .incomplete => ⟨[], state, .waiting (remaining + 1) buffer⟩
    | .error error =>
      -- the loop ends whether or not the refusal can be written
      ⟨(httpResponseWrite (refusalResponse error)).toList, state, .closed .error⟩
    | .ok request consumed =>
      let maxRequests := service.limits.keepaliveMaxRequests
      let completedAfter := maxRequests - remaining
      let alive := connectionShouldStayAlive request completedAfter maxRequests
      let replied := service.reply state request alive
      match httpResponseWrite replied.1 with
      | none => ⟨[], replied.2, .closed .error⟩
      | some written =>
        if alive then
          let rest := serveWire service remaining (buffer.drop consumed) replied.2
          ⟨written :: rest.responses, rest.state, rest.standing⟩
        else
          ⟨[written], replied.2,
            .closed (if maxRequests ≤ completedAfter then .maxRequests else .connectionHeader)⟩

/-- What a connection has written and left in all. -/
structure Exchange (S : Type) where
  responses : List Bytes
  state : S
  reason : CloseReason

/-- The loop from where it stands, over the reads to come. -/
def exchangeFrom (service : Service S) (ending : StreamEnd) (remaining : Nat) (buffer : Bytes)
    (state : S) (chunks : List Bytes) : Exchange S :=
  let served := serveWire service remaining buffer state
  match chunks with
  | [] =>
    match served.standing with
    | .closed reason => ⟨served.responses, served.state, reason⟩
    | .waiting _ buffer => ⟨served.responses, served.state, endReason ending buffer⟩
  | chunk :: chunks =>
    match served.standing with
    | .closed reason => ⟨served.responses, served.state, reason⟩
    | .waiting remaining buffer =>
      let rest := exchangeFrom service ending remaining (buffer ++ chunk) served.state chunks
      ⟨served.responses ++ rest.responses, rest.state, rest.reason⟩

/-- `ps_conn_handle` over the reads of a stream, with what it writes. -/
def exchange (service : Service S) (ending : StreamEnd) (chunks : List Bytes) (state : S) :
    Exchange S :=
  exchangeFrom service ending service.limits.keepaliveMaxRequests.toNat [] state chunks

end PlatformService.Http
