import PlatformService.Api.Common
import PlatformService.Http.Conn
import PlatformService.Http.Cors

/-!
# Responses

`response.c`, and what `ps_conn_handle` makes a response from: the answer to a
request, the result of its handler, and the CORS policy (`apply_cors`). Appending to
the output buffer succeeds; a line that does not fit its fixed buffer fails the write.
-/

namespace PlatformService.Http

open Lib

/-- `ps_http_response_t`; `corsOrigin` is the buffer that is read as a C string. -/
structure Response where
  status : Int
  keepAlive : Bool
  noStore : Bool
  jsonBody : Option Json.Value
  corsOrigin : Option Bytes := none
  corsAllowCredentials : Bool := false
  corsAllowMethods : Option String := none
  corsAllowHeaders : Option String := none

/-- `reason_phrase` -/
def reasonPhrase (status : Int) : String :=
  if status = 200 then "OK"
  else if status = 202 then "Accepted"
  else if status = 204 then "No Content"
  else if status = 400 then "Bad Request"
  else if status = 401 then "Unauthorized"
  else if status = 403 then "Forbidden"
  else if status = 404 then "Not Found"
  else if status = 405 then "Method Not Allowed"
  else if status = 409 then "Conflict"
  else if status = 413 then "Payload Too Large"
  else if status = 429 then "Too Many Requests"
  else if status = 500 then "Internal Server Error"
  else if status = 501 then "Not Implemented"
  else if status = 503 then "Service Unavailable"
  else "Unknown"

/-- CR and LF. -/
def crlf : Bytes := [13, 10]

/-- What `snprintf` writes to a buffer of some size, unless it does not fit. -/
def formatted (size : Nat) (text : Bytes) : Option Bytes :=
  if text.length < size then some text else none

/-- The CORS headers of `ps_http_response_write`. -/
def corsHeaders (response : Response) : Option Bytes :=
  match response.corsOrigin with
  | none => some []
  | some origin => do
    let line ← formatted 320 (ascii "Access-Control-Allow-Origin: " ++ cString origin ++ crlf ++
      ascii "Vary: Origin" ++ crlf)
    let credentials :=
      if response.corsAllowCredentials then ascii "Access-Control-Allow-Credentials: true" ++ crlf
      else []
    let methods := response.corsAllowMethods.elim [] fun methods =>
      ascii "Access-Control-Allow-Methods: " ++ ascii methods ++ crlf
    let headers := response.corsAllowHeaders.elim [] fun headers =>
      ascii "Access-Control-Allow-Headers: " ++ ascii headers ++ crlf
    some (line ++ credentials ++ methods ++ headers)

/-- `ps_http_response_write` -/
def httpResponseWrite (response : Response) : Option Bytes := do
  let body ← response.jsonBody.elim (some []) Json.write
  let statusLine ← formatted 64 (ascii "HTTP/1.1 " ++ intDigits response.status ++ ascii " " ++
    ascii (reasonPhrase response.status) ++ crlf)
  let contentType :=
    if response.jsonBody.isSome then ascii "Content-Type: application/json" ++ crlf else []
  let contentLength ← formatted 64 (ascii "Content-Length: " ++ natDigits body.length ++ crlf)
  let connection :=
    (if response.keepAlive then ascii "Connection: keep-alive" else ascii "Connection: close") ++ crlf
  let sniffing := ascii "X-Content-Type-Options: nosniff" ++ crlf
  let caching := if response.noStore then ascii "Cache-Control: no-store" ++ crlf else []
  let cors ← corsHeaders response
  some (statusLine ++ contentType ++ contentLength ++ connection ++ sniffing ++ caching ++ cors ++
    crlf ++ body)

/-- The response that `ps_http_response_write_error` writes. -/
def errorResponse (status : Int) (code message : String) (keepAlive : Bool) : Response :=
  { status, keepAlive, noStore := true, jsonBody := some (Api.errorEnvelope code message) }

/-- The size of `origin_buf`. -/
def originBufLen : Nat := 256

/-- `apply_cors` -/
def applyCors (cors : CorsPolicy) (request : Request) (isPreflight : Bool) (response : Response) :
    Response :=
  if !cors.enabled then response
  else match request.header "Origin" with
    | none => response
    | some origin =>
      if !corsOriginAllowed cors origin.value then response
      else
        let copied := origin.value.take (min origin.value.length (originBufLen - 1))
        let echoed := { response with
          corsOrigin := some (copied ++ [0])
          corsAllowCredentials := cors.allowCredentials }
        if isPreflight then
          { echoed with
            corsAllowMethods := some "GET, POST, PUT, DELETE, OPTIONS"
            corsAllowHeaders := some "Content-Type, Authorization" }
        else echoed

/-- The response to OPTIONS before `apply_cors`. -/
def preflightResponse (keepAlive : Bool) : Response :=
  { status := 204, keepAlive, noStore := false, jsonBody := none }

/-- The response with the result of a handler, before `apply_cors`. -/
def resultResponse (result : Api.HandlerResult) (keepAlive : Bool) : Response :=
  { status := result.status, keepAlive, noStore := result.noStore, jsonBody := result.body }

/-- The response that `ps_conn_handle` writes for an answer. -/
def answerResponse (cors : CorsPolicy) (request : Request) (keepAlive : Bool)
    (dispatch : Int → List RouteParam → Api.HandlerResult) : Answer → Response
  | .options _ =>
    if cors.enabled then applyCors cors request true (preflightResponse keepAlive)
    else errorResponse 405 "METHOD_NOT_ALLOWED" "CORS is not configured" keepAlive
  | .notFound => errorResponse 404 "NOT_FOUND" "no such route" keepAlive
  | .methodNotAllowed =>
    errorResponse 405 "METHOD_NOT_ALLOWED" "path exists, method does not" keepAlive
  | .dispatched routeId params =>
    applyCors cors request false (resultResponse (dispatch routeId params) keepAlive)

end PlatformService.Http
