import PlatformService.Api.Common
import PlatformService.Store.Transaction

/-!
# Registration, verification and resending

`ps_auth_handle_register`, `ps_auth_handle_verify` and
`ps_auth_handle_resend_verification`. What a handler does before it touches the
database is a pure function `admission` of the request. The rest is cut where the code
gives up the database: a phase is a whole transaction or a single statement in
autocommit mode, and `step` runs the phase a handler is in.
-/

namespace PlatformService.Api

open Json Store

namespace Register

/-- What registration keeps of an admitted request. -/
structure Input where
  username : Bytes
  rawEmail : Bytes
  emailNormalized : Bytes
  hash : Password.Hash
  deriving DecidableEq, Repr

/-- `ps_auth_handle_register` up to its first use of the database. -/
def admission (ctx : AppCtx) (env : Env) (body : Bytes) : Except HandlerResult Input := do
  let config := ctx.config
  if !(env.allow .perIp (namespacedIpKey (ascii "register-ip") env.peerAddr)
        (devRelaxedCount config config.ratelimitRegisterPerMinute) &&
      env.allow .global (ascii "register:__global__")
        (devRelaxedCount config config.ratelimitRegisterGlobalPerMinute)) then
    throw (errorResult 429 "RATE_LIMITED" "too many registration attempts; try again later")
  let object ← parseBody body
  let some rawUsername := readStringField object "username" 512
    | throw (errorResult 400 "BAD_REQUEST" "username and email are required string fields")
  let some rawEmail := readStringField object "email" 512
    | throw (errorResult 400 "BAD_REQUEST" "username and email are required string fields")
  let some password := stringField object (ascii "password")
    | throw (errorResult 400 "BAD_REQUEST" "password is a required string field")
  let .valid username := Validate.username rawUsername Validate.usernameMax true
    | throw (errorResult 400 "BAD_REQUEST" "username is invalid")
  let .valid emailNormalized := Validate.email rawEmail Validate.emailMax
    | throw (errorResult 400 "BAD_REQUEST" "email is invalid")
  if Password.policyCheck password config.passwordMinLength config.passwordMaxLength
      ctx.passwordDenylist ≠ .ok then
    throw (errorResult 400 "WEAK_PASSWORD" "password does not meet the policy requirements")
  if !env.kdfSlot then
    throw (errorResult 503 "SERVICE_UNAVAILABLE"
      "too many concurrent registrations; try again shortly")
  let some hash := Password.hash ctx.crypto password config.kdfIterations env.salt
    | throw internalErrorResult
  return { username, rawEmail, emailNormalized, hash }

/-- `pending_verification_body` -/
def pendingVerificationBody : Value :=
  jsonObject [("status", jsonText "PENDING_VERIFICATION"),
    ("message", jsonText ("If this email address is not already registered, a " ++
      "verification link has been sent."))]

/-- The answer to an accepted registration, and to one for an address already registered. -/
def pendingResult : HandlerResult := { status := 202, body := some pendingVerificationBody }

/-- The row registration inserts, before its row number and times. -/
def newRow (input : Input) : UserRow where
  userId := 0
  username := boundedCopy Validate.usernameMax input.username
  email := trimInto input.rawEmail Validate.emailMax
  emailNormalized := boundedCopy Validate.emailMax input.emailNormalized
  passwordHash := input.hash.hash
  passwordSalt := input.hash.salt
  kdfIters := input.hash.iterations
  status := .pendingVerification
  failedLogins := 0
  lockedUntil := none
  createdAt := 0
  updatedAt := 0

/-- Why the transaction of a registration gave up. -/
inductive Refusal where
  | duplicateUsername
  | duplicateEmail
  | failed
  deriving DecidableEq, Repr

/-- The transaction of a registration: the raw verification token. -/
def write (ctx : AppCtx) (env : Env) (input : Input) : Sql (Except Refusal Bytes) :=
  Sql.transaction .failed do
    match ← UserStore.insert (newRow input) [ascii "USER"] env.now with
    | .duplicateUsername => return .error .duplicateUsername
    | .duplicateEmail => return .error .duplicateEmail
    | .error => return .error .failed
    | .ok userId =>
      match ← insertFreshToken ctx env userId with
      | none => return .error .failed
      | some rawToken =>
        if ← AuditStore.write
            { occurredAt := env.now, event := .register, outcome := .success,
              targetUserId := some userId, sourceIp := auditSourceIp env } then
          return .ok rawToken
        else return .error .failed

/-- Where a registration stands. -/
inductive Phase where
  | write
  | sendEmail (rawToken : Bytes)
  | findOwner
  | auditDuplicate (existing : Option UserRow)
  | mailOwner (existing : UserRow)
  | done (result : HandlerResult)

/-- The next phase of `ps_auth_handle_register`, with `notify_duplicate_registration` spelt out. -/
def step (ctx : AppCtx) (env : Env) (input : Input) : Phase → Sql Phase
  | .write => do
    match ← write ctx env input with
    | .ok rawToken => return .sendEmail rawToken
    | .error .duplicateUsername =>
      return .done (errorResult 409 "CONFLICT" "username is already taken")
    | .error .duplicateEmail => return .findOwner
    | .error .failed => return .done internalErrorResult
  | .sendEmail rawToken => do
    let _ ← sendVerificationEmail ctx env rawToken (newRow input).email
    return .done pendingResult
  | .findOwner => return .auditDuplicate (← UserStore.getByEmailNormalized input.emailNormalized)
  | .auditDuplicate existing => do
    let _ ← AuditStore.write
      { occurredAt := env.now, event := .register, outcome := .failure,
        targetUserId := existing.map UserRow.userId, sourceIp := auditSourceIp env,
        detail := some (reasonDetail "duplicate_email") }
    return match existing with
    | none => .done pendingResult
    | some owner => .mailOwner owner
  | .mailOwner existing => do
    let body :=
      ascii "Someone attempted to register a new account using your email address (" ++
      existing.email ++
      ascii "). If this wasn't you, no action is needed -- your existing account is unaffected."
    let _ ← Mailer.send existing.email (ascii "Registration attempt using your email")
      (boundedCopy 512 body) env.now
    return .done pendingResult
  | .done result => return .done result

end Register

namespace Verify

/-- The answer to every token that is not usable. -/
def invalidToken : HandlerResult :=
  errorResult 400 "INVALID_TOKEN" "invalid or expired verification token"

/-- `ps_auth_handle_verify` up to its first use of the database: the hash of the token. -/
def admission (ctx : AppCtx) (body : Bytes) : Except HandlerResult Bytes :=
  presentedHash ctx.crypto body "token" invalidToken

/-- A token that verification accepts. -/
def usable (now : Int) (token : VerificationTokenRow) : Bool :=
  nullAsZero token.consumedAt = 0 && now ≤ token.expiresAt

/-- The transaction of a verification. -/
def write (env : Env) (tokenHash : Bytes) (token : VerificationTokenRow) :
    Sql (Except Unit Unit) :=
  Sql.transaction () do
    let consumed ← TokenStore.consume tokenHash env.now
    if !consumed then return .error ()
    let updated ← UserStore.updateStatus token.userId .active env.now
    if !updated then return .error ()
    if ← AuditStore.write
        { occurredAt := env.now, event := .verify, outcome := .success,
          targetUserId := some token.userId, sourceIp := auditSourceIp env } then
      return .ok ()
    else return .error ()

/-- Where a verification stands. -/
inductive Phase where
  | lookup
  | auditFailure (found : Option VerificationTokenRow)
  | write (token : VerificationTokenRow)
  | done (result : HandlerResult)

/-- The answer to a verified token. -/
def activeResult : HandlerResult :=
  { status := 200, body := some (jsonObject [("status", jsonText "ACTIVE")]) }

/-- The next phase of `ps_auth_handle_verify`. -/
def step (env : Env) (tokenHash : Bytes) : Phase → Sql Phase
  | .lookup => do
    match ← TokenStore.getByHash tokenHash with
    | none => return .auditFailure none
    | some token => return if usable env.now token then .write token else .auditFailure (some token)
  | .auditFailure found => do
    let _ ← AuditStore.write
      { occurredAt := env.now, event := .verify, outcome := .failure,
        targetUserId := found.map VerificationTokenRow.userId, sourceIp := auditSourceIp env }
    return .done invalidToken
  | .write token => do
    match ← write env tokenHash token with
    | .ok _ => return .done activeResult
    | .error _ => return .done internalErrorResult
  | .done result => return .done result

end Verify

namespace Resend

/-- `ps_auth_handle_resend_verification` up to its first use of the database: the address. -/
def admission (body : Bytes) : Except HandlerResult Bytes := do
  let object ← parseBody body
  let some rawEmail := readStringField object "email" 512
    | throw (errorResult 400 "BAD_REQUEST" "email is a required string field")
  let .valid emailNormalized := Validate.email rawEmail Validate.emailMax
    | throw (errorResult 400 "BAD_REQUEST" "email is invalid")
  return emailNormalized

/-- The answer of every resend that did not fail inside. -/
def resendResult : HandlerResult :=
  { status := 202, body := some (jsonObject [("message", jsonText
      "If this email address requires verification, a new link has been sent.")]) }

/-- The transaction of a resend: the raw verification token. -/
def write (ctx : AppCtx) (env : Env) (user : UserRow) : Sql (Except Unit Bytes) :=
  Sql.transaction () do
    let invalidated ← TokenStore.invalidateAllForUser user.userId env.now
    if !invalidated then return .error ()
    match ← insertFreshToken ctx env user.userId with
    | none => return .error ()
    | some rawToken =>
      if ← AuditStore.write
          { occurredAt := env.now, event := .resendRequested, outcome := .success,
            targetUserId := some user.userId, sourceIp := auditSourceIp env } then
        return .ok rawToken
      else return .error ()

/-- Where a resend stands. -/
inductive Phase where
  | lookup
  | auditFailure (userId : Option Int) (reason : String)
  | countMinute (user : UserRow)
  | countDay (user : UserRow) (recentMinute : Nat)
  | write (user : UserRow)
  | sendEmail (user : UserRow) (rawToken : Bytes)
  | done (result : HandlerResult)

/-- The next phase of `ps_auth_handle_resend_verification`. -/
def step (ctx : AppCtx) (env : Env) (email : Bytes) : Phase → Sql Phase
  | .lookup => do
    match ← UserStore.getByEmailNormalized email with
    | none => return .auditFailure none "no_such_account"
    | some user =>
      if user.status ≠ .pendingVerification then
        return .auditFailure (some user.userId) "not_pending"
      else return .countMinute user
  | .auditFailure userId reason => do
    let _ ← AuditStore.write
      { occurredAt := env.now, event := .resendRequested, outcome := .failure,
        targetUserId := userId, sourceIp := auditSourceIp env,
        detail := some (reasonDetail reason) }
    return .done resendResult
  | .countMinute user => do
    let interval := devRelaxedIntervalS ctx.config ctx.config.resendMinIntervalS
    match ← TokenStore.countCreatedSince user.userId (env.now - interval) with
    | none => return .done internalErrorResult
    | some recentMinute => return .countDay user recentMinute
  | .countDay user recentMinute => do
    match ← TokenStore.countCreatedSince user.userId (env.now - 24 * 60 * 60) with
    | none => return .done internalErrorResult
    | some recentDay =>
      if 0 < recentMinute ∨
          devRelaxedCount ctx.config ctx.config.resendMaxPerDay ≤ (recentDay : Int) then
        return .auditFailure (some user.userId) "throttled"
      else return .write user
  | .write user => do
    match ← write ctx env user with
    | .ok rawToken => return .sendEmail user rawToken
    | .error _ => return .done internalErrorResult
  | .sendEmail user rawToken => do
    let _ ← sendVerificationEmail ctx env rawToken user.email
    return .done resendResult
  | .done result => return .done result

end Resend

end PlatformService.Api
