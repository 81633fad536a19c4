import PlatformService.Auth.Jwt
import PlatformService.Auth.Password
import PlatformService.Auth.Validate
import PlatformService.Platform.Config
import PlatformService.Platform.Ratelimit
import PlatformService.Store.Statements

/-!
# What the handlers share

The result type of the handlers, the application context, and the helpers at the
top of `auth_api.c`. What a run of a handler draws from outside (the clock, the
limiter's answers, the KDF slot, random bytes) is its `Env`. Allocation is assumed
to succeed, so a response body is always built.
-/

namespace PlatformService.Api

open Lib Json Store Crypto

/-- `ps_handler_result_t` -/
structure HandlerResult where
  status : Int
  body : Option Value := none
  noStore : Bool := true

/-- The object with some members, set in order. -/
def jsonObject (members : List (String × Value)) : Value :=
  .object (members.foldl (fun object member => objectSet object (ascii member.1) member.2) [])

/-- A C string literal as a JSON string. -/
def jsonText (text : String) : Value := .string (ascii text)

/-- `ps_error_envelope` -/
def errorEnvelope (code message : String) : Value :=
  jsonObject [("error", jsonObject [("code", jsonText code), ("message", jsonText message)])]

/-- `error_result` -/
def errorResult (status : Int) (code message : String) : HandlerResult :=
  { status := status, body := some (errorEnvelope code message) }

/-- `internal_error_result` -/
def internalErrorResult : HandlerResult := { status := 500 }

/-- `ps_app_ctx_t`, with the functions behind `crypto/`. -/
structure AppCtx where
  crypto : Primitives
  config : Config
  passwordDenylist : Option (List Bytes)

/-- The places that ask the limiter. -/
inductive LimitSite where
  | perIp
  | global
  | perUsername
  deriving DecidableEq, Repr

/-- What one run of a handler draws from its surroundings. -/
structure Env where
  /-- `time(NULL)`, read once by each handler -/
  now : Int
  /-- `peer_addr` -/
  peerAddr : Option Bytes
  /-- The answer of `ps_ratelimiter_allow` to a key and a budget. -/
  allow : LimitSite → Bytes → Int → Bool
  /-- The answer of `ps_kdf_semaphore_try_acquire`. -/
  kdfSlot : Bool
  salt : Option (Drawn 16)
  rawToken : Option (Drawn 32)
  familyId : Option (Drawn 16)
  jti : Option (Drawn 16)
  /-- Whether the allocations for an access token and a token pair succeed. -/
  memory : Bool := true

/-- `trim_into` -/
def trimInto (raw : Bytes) (outSize : Nat) : Bytes := (Validate.trim raw).take (outSize - 1)

/-- `lowercase_into` -/
def lowercaseInto (raw : Bytes) (outSize : Nat) : Bytes :=
  ((cString raw).take (outSize - 1)).map toLower

/-- The address part of `peer_addr`: between brackets, or before the last colon. -/
def peerIp (peerAddr : Option Bytes) : Bytes :=
  match peerAddr.map cString with
  | none => ascii "unknown"
  | some addr =>
    if addr.head? = some 91 ∧ 93 ∈ addr then addr.tail.takeWhile (· ≠ 93)
    else if 58 ∈ addr then (addr.rdropWhile (· ≠ 58)).dropLast
    else addr

/-- `namespaced_ip_key` into a buffer of `PS_RATELIMIT_KEY_MAX` octets. -/
def namespacedIpKey (ns : Bytes) (peerAddr : Option Bytes) : Bytes :=
  let room := Ratelimit.keyMax - 1
  let ip := (peerIp peerAddr).take room
  (((ns.take room) ++ [58]).take room ++ ip).take room

/-- `dev_relaxed_count` -/
def devRelaxedCount (config : Config) (configured : Int) : Int :=
  if config.devMode then configured * 20 else configured

/-- `dev_relaxed_interval_s` -/
def devRelaxedIntervalS (config : Config) (configured : Int) : Int :=
  if config.devMode then max (configured.tdiv 20) 0 else configured

/-- One hexadecimal digit in lower case. -/
def hexDigitLower (value : Nat) : UInt8 :=
  if value < 10 then (48 + value).toUInt8 else (87 + value).toUInt8

/-- `hex_encode_lower` -/
def hexEncodeLower (data : Bytes) : Bytes :=
  data.flatMap fun byte => [hexDigitLower (byte.toNat / 16), hexDigitLower (byte.toNat % 16)]

/-- `hex_nibble` -/
def hexNibble (c : UInt8) : Option Nat :=
  if 48 ≤ c ∧ c ≤ 57 then some (c.toNat - 48)
  else if 97 ≤ c ∧ c ≤ 102 then some (c.toNat - 97 + 10)
  else none

/-- `hex_decode` -/
def hexDecode : Bytes → Option Bytes
  | [] => some []
  | [_] => none
  | hi :: lo :: rest => do
    let hi ← hexNibble hi
    let lo ← hexNibble lo
    let bytes ← hexDecode rest
    some ((hi * 16 + lo).toUInt8 :: bytes)

/-- The name of a role in the `roles` table. -/
def roleName : Role → Bytes
  | .user => ascii "USER"
  | .admin => ascii "ADMIN"

/-- The mask of the roles a handler read: at most eight names. -/
def rolesMask (roles : List Role) : Nat := Claims.rolesFromNames ((roles.take 8).map roleName)

/-- `build_access_token` -/
def buildAccessToken (ctx : AppCtx) (userId : Int) (familyId : Bytes) (roles : Nat) (now : Int)
    (jti : Option (Drawn 16)) : Option Bytes := do
  let jtiRaw ← jti
  let claims : Claims :=
    { userId, roles, iat := now, nbf := now, exp := now + ctx.config.accessTokenTtlS,
      jti := hexEncodeLower jtiRaw.bytes, familyId := hexEncodeLower familyId }
  Jwt.encode ctx.crypto claims ctx.config.jwtIssuer ctx.config.jwtAudience
    (cString ctx.config.jwtSecret)

/-- The token for a drawn id. -/
theorem buildAccessToken_some (ctx : AppCtx) (userId : Int) (familyId : Bytes) (roles : Nat)
    (now : Int) (jti : Drawn 16) : buildAccessToken ctx userId familyId roles now (some jti) =
      Jwt.encode ctx.crypto
        { userId, roles, iat := now, nbf := now, exp := now + ctx.config.accessTokenTtlS,
          jti := hexEncodeLower jti.bytes, familyId := hexEncodeLower familyId }
        ctx.config.jwtIssuer ctx.config.jwtAudience (cString ctx.config.jwtSecret) := by
  unfold buildAccessToken
  rw [Option.bind_eq_bind, Option.bind_some]

/-- `token_pair_body` -/
def tokenPairBody (accessToken rawRefresh : Bytes) (accessTokenTtlS : Int) : Value :=
  jsonObject
    [("access_token", .string accessToken), ("refresh_token", .string (Base64url.encode rawRefresh)),
      ("token_type", jsonText "Bearer"), ("expires_in", .number (Binary64.ofInt accessTokenTtlS))]

/-- The end of login and refresh: a token pair for the roles read, or 500. -/
def tokenPairResult (ctx : AppCtx) (env : Env) (userId : Int) (familyId rawRefresh : Bytes)
    (roles : Option (List Role)) : HandlerResult :=
  let accessToken := roles.bind fun held =>
    buildAccessToken ctx userId familyId (rolesMask held) env.now env.jti
  match accessToken with
  | none => internalErrorResult
  | some token =>
    if env.memory then
      { status := 200, body := some (tokenPairBody token rawRefresh ctx.config.accessTokenTtlS) }
    else internalErrorResult

/-- `read_string_field` into a buffer of `outSize` octets: what does not fit is refused. -/
def readStringField (object : Value) (key : String) (outSize : Nat) : Option Bytes :=
  (stringField object (ascii key)).filter fun text => text.length < outSize

/-- A request body that parses to an object. -/
def parseBody (body : Bytes) : Except HandlerResult Value :=
  match Json.parse body with
  | some (.object members) => .ok (.object members)
  | _ => .error (errorResult 400 "BAD_REQUEST" "request body must be a JSON object")

/-- The hash of a token submitted in a field, as verify, refresh and logout read it. -/
def presentedHash (crypto : Primitives) (body : Bytes) (key : String) (malformed : HandlerResult) :
    Except HandlerResult Bytes := do
  let object ← parseBody body
  match readStringField object key 128 with
  | none => .error (errorResult 400 "BAD_REQUEST" (key ++ " is a required string field"))
  | some text =>
    match Base64url.decode (cString text) with
    | none => .error malformed
    | some raw => if raw.length = 32 then .ok (crypto.sha256 raw) else .error malformed

/-- `set_audit_source_ip` -/
def auditSourceIp (env : Env) : Option Bytes := env.peerAddr.map (boundedCopy 46)

/-- The detail column of a refused request: one reason. -/
def reasonDetail (reason : String) : Bytes := ascii ("\x7b\"reason\":\"" ++ reason ++ "\"\x7d")

/-- `insert_fresh_token`: the raw token, unless drawing or inserting it failed. -/
def insertFreshToken (ctx : AppCtx) (env : Env) (userId : Int) : Sql (Option Bytes) := do
  match env.rawToken with
  | none => return none
  | some raw =>
    if ← TokenStore.insert (ctx.crypto.sha256 raw.bytes) userId
        (env.now + ctx.config.verificationTtlS) env.now then
      return some raw.bytes
    else return none

/-- `send_verification_email`; its failure goes unnoticed. -/
def sendVerificationEmail (ctx : AppCtx) (env : Env) (rawToken toEmail : Bytes) : Sql Bool :=
  let body :=
    ascii "Welcome! To activate your account, submit this verification token to " ++
    ascii "POST /v1/auth/verify:\n\n" ++ Base64url.encode rawToken ++
    ascii "\n\nThis token expires in " ++ intDigits (ctx.config.verificationTtlS.tdiv 3600) ++
    ascii " hours."
  Mailer.send toEmail (ascii "Verify your account") (boundedCopy 512 body) env.now

end PlatformService.Api
