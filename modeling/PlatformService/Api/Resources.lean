import PlatformService.Api.Routes
import PlatformService.Lib.Lending
import PlatformService.Platform.DbPool

/-!
# Handlers with what they lease

The handlers once more, from their first line to their answer, with the connection they
take from the pool, the KDF slot they take from the semaphore, and every point where
they give one back: each early return of the source is a `return` here, with the releases
in front of it. An allocation whose failure leads to a return of its own is `allocated`.
`Handler.handle` is the handler that `ps_routes_dispatch` calls. `Threads` run handlers side
by side, over the pool and the semaphore of the service.
-/

namespace PlatformService.Api

open Lib Lib.Leasing Json Store

/-- A program over the connections of the pool, which issues SQL on the one it holds. -/
abbrev Leased (α : Type) : Type 1 := Leasing Nat Sql α

/-- `ps_db_pool_acquire` -/
def acquireConn : Leased Nat := .acquire .done

/-- `ps_db_pool_release` -/
def releaseConn (conn : Nat) : Leased Unit := .release conn (.done ())

/-- `ps_kdf_semaphore_try_acquire` -/
def tryAcquireSlot : Leased Bool := .tryPermit .done

/-- `ps_kdf_semaphore_release` -/
def releaseSlot : Leased Unit := .returnPermit (.done ())

/-- SQL on a connection. -/
def onConn {β : Type} (conn : Nat) (command : Sql β) : Leased β := .use conn command .done

/-- Whether an allocation succeeds. -/
def allocated : Leased Bool := .allocate .done

/-- `ps_json_parse` of a body that must be an object. -/
def parsedBody (body : Bytes) : Leased (Except HandlerResult Value) := do
  if !(← allocated) then
    return .error (errorResult 400 "BAD_REQUEST" "request body must be a JSON object")
  return parseBody body

/-- The hash of a token submitted in a field. -/
def presentedToken (ctx : AppCtx) (body : Bytes) (key : String) (malformed : HandlerResult) :
    Leased (Except HandlerResult Bytes) := do
  match ← parsedBody body with
  | .error refusal => return .error refusal
  | .ok object =>
    let some text := readStringField object key 128
      | return .error (errorResult 400 "BAD_REQUEST" (key ++ " is a required string field"))
    if !(← allocated) then return .error malformed
    let some raw := Base64url.decode (cString text) | return .error malformed
    if raw.length ≠ 32 then return .error malformed
    return .ok (ctx.crypto.sha256 raw)

namespace Register

/-- `notify_duplicate_registration` -/
def notifyDuplicate (conn : Nat) (env : Env) (emailNormalized : Bytes) : Leased Unit := do
  let found ← onConn conn (UserStore.getByEmailNormalized emailNormalized)
  let _ ← onConn conn (AuditStore.write
    { occurredAt := env.now, event := .register, outcome := .failure,
      targetUserId := found.map UserRow.userId, sourceIp := auditSourceIp env,
      detail := some (reasonDetail "duplicate_email") })
  let some existing := found | return
  let body :=
    ascii "Someone attempted to register a new account using your email address (" ++
    existing.email ++
    ascii "). If this wasn't you, no action is needed -- your existing account is unaffected."
  let _ ← onConn conn (Mailer.send existing.email (ascii "Registration attempt using your email")
    (boundedCopy 512 body) env.now)

/-- `ps_auth_handle_register` from its use of the database on. -/
def handleAdmitted (ctx : AppCtx) (env : Env) (input : Input) : Leased HandlerResult := do
  let conn ← acquireConn
  if !(← onConn conn Sql.begin) then
    releaseConn conn
    return internalErrorResult
  match ← onConn conn (UserStore.insert (newRow input) [ascii "USER"] env.now) with
  | .duplicateUsername =>
    onConn conn Sql.rollback
    releaseConn conn
    return errorResult 409 "CONFLICT" "username is already taken"
  | .duplicateEmail =>
    onConn conn Sql.rollback
    notifyDuplicate conn env input.emailNormalized
    releaseConn conn
    return pendingResult
  | .error =>
    onConn conn Sql.rollback
    releaseConn conn
    return internalErrorResult
  | .ok userId =>
    match ← onConn conn (insertFreshToken ctx env userId) with
    | none =>
      onConn conn Sql.rollback
      releaseConn conn
      return internalErrorResult
    | some rawToken =>
      let audited ← onConn conn (AuditStore.write
        { occurredAt := env.now, event := .register, outcome := .success,
          targetUserId := some userId, sourceIp := auditSourceIp env })
      if !audited then
        onConn conn Sql.rollback
        releaseConn conn
        return internalErrorResult
      if !(← onConn conn Sql.commit) then
        releaseConn conn
        return internalErrorResult
      let _ ← onConn conn (sendVerificationEmail ctx env rawToken (newRow input).email)
      releaseConn conn
      return pendingResult

/-- `ps_auth_handle_register` -/
def handle (ctx : AppCtx) (env : Env) (body : Bytes) : Leased HandlerResult := do
  let config := ctx.config
  if !(env.allow .perIp (namespacedIpKey (ascii "register-ip") env.peerAddr)
        (devRelaxedCount config config.ratelimitRegisterPerMinute) &&
      env.allow .global (ascii "register:__global__")
        (devRelaxedCount config config.ratelimitRegisterGlobalPerMinute)) then
    return errorResult 429 "RATE_LIMITED" "too many registration attempts; try again later"
  match ← parsedBody body with
  | .error refusal => return refusal
  | .ok object =>
    let some rawUsername := readStringField object "username" 512
      | return errorResult 400 "BAD_REQUEST" "username and email are required string fields"
    let some rawEmail := readStringField object "email" 512
      | return errorResult 400 "BAD_REQUEST" "username and email are required string fields"
    let some password := stringField object (ascii "password")
      | return errorResult 400 "BAD_REQUEST" "password is a required string field"
    let .valid username := Validate.username rawUsername Validate.usernameMax true
      | return errorResult 400 "BAD_REQUEST" "username is invalid"
    let .valid emailNormalized := Validate.email rawEmail Validate.emailMax
      | return errorResult 400 "BAD_REQUEST" "email is invalid"
    if !(← allocated) then return internalErrorResult
    if Password.policyCheck password config.passwordMinLength config.passwordMaxLength
        ctx.passwordDenylist ≠ .ok then
      return errorResult 400 "WEAK_PASSWORD" "password does not meet the policy requirements"
    if !(← tryAcquireSlot) then
      return errorResult 503 "SERVICE_UNAVAILABLE"
        "too many concurrent registrations; try again shortly"
    let hashed := Password.hash ctx.crypto password config.kdfIterations env.salt
    releaseSlot
    let some hash := hashed | return internalErrorResult
    handleAdmitted ctx env { username, rawEmail, emailNormalized, hash }

end Register

namespace Verify

/-- `ps_auth_handle_verify` -/
def handle (ctx : AppCtx) (env : Env) (body : Bytes) : Leased HandlerResult := do
  match ← presentedToken ctx body "token" invalidToken with
  | .error refusal => return refusal
  | .ok tokenHash =>
    let conn ← acquireConn
    let found ← onConn conn (TokenStore.getByHash tokenHash)
    let some token := found.filter (usable env.now)
      | let _ ← onConn conn (AuditStore.write
          { occurredAt := env.now, event := .verify, outcome := .failure,
            targetUserId := found.map VerificationTokenRow.userId, sourceIp := auditSourceIp env })
        releaseConn conn
        return invalidToken
    if !(← onConn conn Sql.begin) then
      releaseConn conn
      return internalErrorResult
    let written ← onConn conn do
      let consumed ← TokenStore.consume tokenHash env.now
      if !consumed then return .error ()
      let updated ← UserStore.updateStatus token.userId .active env.now
      if !updated then return .error ()
      if ← AuditStore.write
          { occurredAt := env.now, event := .verify, outcome := .success,
            targetUserId := some token.userId, sourceIp := auditSourceIp env } then
        return .ok ()
      else return .error ()
    match (written : Except Unit Unit) with
    | .error _ =>
      onConn conn Sql.rollback
      releaseConn conn
      return internalErrorResult
    | .ok _ =>
      if !(← onConn conn Sql.commit) then
        releaseConn conn
        return internalErrorResult
      releaseConn conn
      return activeResult

end Verify

namespace Resend

/-- `audit_resend` of a refused resend -/
def auditRefusal (conn : Nat) (env : Env) (userId : Option Int) (reason : String) : Leased Unit := do
  let _ ← onConn conn (AuditStore.write
    { occurredAt := env.now, event := .resendRequested, outcome := .failure,
      targetUserId := userId, sourceIp := auditSourceIp env,
      detail := some (reasonDetail reason) })

/-- `ps_auth_handle_resend_verification` from its transaction on. -/
def handlePending (ctx : AppCtx) (env : Env) (conn : Nat) (user : UserRow) : Leased HandlerResult := do
  if !(← onConn conn Sql.begin) then
    releaseConn conn
    return internalErrorResult
  let written ← onConn conn do
    let invalidated ← TokenStore.invalidateAllForUser user.userId env.now
    if !invalidated then return .error ()
    match ← insertFreshToken ctx env user.userId with
    | none => return .error ()
    | some rawToken =>
      if ← AuditStore.write
          { occurredAt := env.now, event := .resendRequested, outcome := .success,
            targetUserId := some user.userId, sourceIp := auditSourceIp env } then
        return .ok rawToken
      else return .error ()
  match (written : Except Unit Bytes) with
  | .error _ =>
    onConn conn Sql.rollback
    releaseConn conn
    return internalErrorResult
  | .ok rawToken =>
    if !(← onConn conn Sql.commit) then
      releaseConn conn
      return internalErrorResult
    let _ ← onConn conn (sendVerificationEmail ctx env rawToken user.email)
    releaseConn conn
    return resendResult

/-- `ps_auth_handle_resend_verification` from its use of the database on. -/
def handleAdmitted (ctx : AppCtx) (env : Env) (emailNormalized : Bytes) : Leased HandlerResult := do
  let conn ← acquireConn
  let some user ← onConn conn (UserStore.getByEmailNormalized emailNormalized)
    | auditRefusal conn env none "no_such_account"
      releaseConn conn
      return resendResult
  if user.status ≠ .pendingVerification then
    auditRefusal conn env (some user.userId) "not_pending"
    releaseConn conn
    return resendResult
  let interval := devRelaxedIntervalS ctx.config ctx.config.resendMinIntervalS
  let some recentMinute ← onConn conn (TokenStore.countCreatedSince user.userId (env.now - interval))
    | releaseConn conn
      return internalErrorResult
  let some recentDay ←
      onConn conn (TokenStore.countCreatedSince user.userId (env.now - 24 * 60 * 60))
    | releaseConn conn
      return internalErrorResult
  if 0 < recentMinute ∨
      devRelaxedCount ctx.config ctx.config.resendMaxPerDay ≤ (recentDay : Int) then
    auditRefusal conn env (some user.userId) "throttled"
    releaseConn conn
    return resendResult
  handlePending ctx env conn user

/-- `ps_auth_handle_resend_verification` -/
def handle (ctx : AppCtx) (env : Env) (body : Bytes) : Leased HandlerResult := do
  match ← parsedBody body with
  | .error refusal => return refusal
  | .ok object =>
    let some rawEmail := readStringField object "email" 512
      | return errorResult 400 "BAD_REQUEST" "email is a required string field"
    let .valid emailNormalized := Validate.email rawEmail Validate.emailMax
      | return errorResult 400 "BAD_REQUEST" "email is invalid"
    handleAdmitted ctx env emailNormalized

end Resend

namespace Login

/-- The transaction of a refused login. -/
def handleRefused (ctx : AppCtx) (env : Env) (conn : Nat) (found : Option UserRow)
    (passwordOk : Bool) : Leased HandlerResult := do
  if !(← onConn conn Sql.begin) then
    releaseConn conn
    return internalErrorResult
  let written ← onConn conn do
    match ← recordFailure ctx env found passwordOk with
    | none => return .error ()
    | some justLocked =>
      let audited ← AuditStore.write
        { occurredAt := env.now, event := .login, outcome := .failure,
          targetUserId := found.map UserRow.userId, sourceIp := auditSourceIp env,
          detail := some (reasonDetail (reason env found passwordOk)) }
      if !audited then return .error ()
      if !justLocked then return .ok ()
      if ← AuditStore.write
          { occurredAt := env.now, event := .accountLocked, outcome := .success,
            targetUserId := found.map UserRow.userId, sourceIp := auditSourceIp env } then
        return .ok ()
      else return .error ()
  match (written : Except Unit Unit) with
  | .error _ =>
    onConn conn Sql.rollback
    releaseConn conn
    return internalErrorResult
  | .ok _ =>
    if !(← onConn conn Sql.commit) then
      releaseConn conn
      return internalErrorResult
    releaseConn conn
    return unauthorized

/-- The transaction of an accepted login, and its token pair. -/
def handleAccepted (ctx : AppCtx) (env : Env) (conn : Nat) (user : UserRow) :
    Leased HandlerResult := do
  if !(← onConn conn Sql.begin) then
    releaseConn conn
    return internalErrorResult
  let written ← onConn conn do
    let cleared ← UserStore.setLoginFailureState user.userId 0 0 env.now
    if !cleared then return .error ()
    match ← Session.create ctx.crypto user.userId ctx.config.refreshAbsoluteTtlS
        ctx.config.refreshIdleTtlS env.now env.familyId env.rawToken with
    | none => return .error ()
    | some session =>
      if ← AuditStore.write
          { occurredAt := env.now, event := .login, outcome := .success,
            targetUserId := some user.userId, sourceIp := auditSourceIp env } then
        return .ok session
      else return .error ()
  match (written : Except Unit Session.Created) with
  | .error _ =>
    onConn conn Sql.rollback
    releaseConn conn
    return internalErrorResult
  | .ok session =>
    if !(← onConn conn Sql.commit) then
      releaseConn conn
      return internalErrorResult
    let roles ← onConn conn (UserStore.getRoles user.userId)
    let pair := tokenPairResult ctx env user.userId session.familyId session.rawRefreshToken roles
    releaseConn conn
    return pair

/-- `ps_auth_handle_login` once it has a KDF slot. -/
def handleAdmitted (ctx : AppCtx) (env : Env) (input : Input) : Leased HandlerResult := do
  let conn ← acquireConn
  let found ← onConn conn (UserStore.getByUsername input.username)
  let decided := decision ctx env input found
  releaseSlot
  match decided with
  | .refuse found passwordOk => handleRefused ctx env conn found passwordOk
  | .accept user => handleAccepted ctx env conn user

/-- `ps_auth_handle_login` -/
def handle (ctx : AppCtx) (env : Env) (body : Bytes) : Leased HandlerResult := do
  let config := ctx.config
  if !env.allow .perIp (namespacedIpKey (ascii "login-ip") env.peerAddr)
      (devRelaxedCount config config.ratelimitLoginPerMinute) then
    return errorResult 429 "RATE_LIMITED" "too many login attempts; try again later"
  match ← parsedBody body with
  | .error refusal => return refusal
  | .ok object =>
    let some username := readStringField object "username" 512
      | return errorResult 400 "BAD_REQUEST" "username and password are required string fields"
    let some password := stringField object (ascii "password")
      | return errorResult 400 "BAD_REQUEST" "username and password are required string fields"
    if !env.allow .perUsername (lowercaseInto username Ratelimit.keyMax)
        (devRelaxedCount config config.ratelimitLoginUsernamePerMinute) then
      return errorResult 429 "RATE_LIMITED" "too many login attempts; try again later"
    if !(← tryAcquireSlot) then
      return errorResult 503 "SERVICE_UNAVAILABLE" "too many concurrent logins; try again shortly"
    handleAdmitted ctx env { username, password }

end Login

namespace Refresh

/-- `ps_auth_handle_refresh` -/
def handle (ctx : AppCtx) (env : Env) (body : Bytes) : Leased HandlerResult := do
  match ← presentedToken ctx body "refresh_token" unauthorized with
  | .error refusal => return refusal
  | .ok tokenHash =>
    let conn ← acquireConn
    if !(← onConn conn Sql.begin) then
      releaseConn conn
      return internalErrorResult
    let (result, refreshed) ← onConn conn (Session.refresh ctx.crypto tokenHash
      ctx.config.refreshIdleTtlS env.now env.rawToken)
    if result = .error then
      onConn conn Sql.rollback
      releaseConn conn
      return internalErrorResult
    if !(← onConn conn (AuditStore.write (auditEntry env result refreshed))) then
      onConn conn Sql.rollback
      releaseConn conn
      return internalErrorResult
    if !(← onConn conn Sql.commit) then
      releaseConn conn
      return internalErrorResult
    if result ≠ .ok then
      releaseConn conn
      return unauthorized
    let roles ← onConn conn (UserStore.getRoles refreshed.userId)
    let pair := tokenPairResult ctx env refreshed.userId refreshed.familyId
      refreshed.rawRefreshToken roles
    releaseConn conn
    return pair

end Refresh

namespace Logout

/-- `ps_auth_handle_logout` -/
def handle (ctx : AppCtx) (env : Env) (claims : Claims) (body : Bytes) : Leased HandlerResult := do
  match ← presentedToken ctx body "refresh_token"
    (errorResult 400 "BAD_REQUEST" "refresh_token is invalid") with
  | .error refusal => return refusal
  | .ok tokenHash =>
    let conn ← acquireConn
    let some token ← onConn conn (SessionStore.getToken tokenHash)
      | releaseConn conn
        return noContent
    let some family ← onConn conn (SessionStore.getFamily token.familyId)
      | releaseConn conn
        return internalErrorResult
    if family.userId ≠ claims.userId then
      releaseConn conn
      return errorResult 403 "FORBIDDEN" "refresh token does not belong to this account"
    if !(← onConn conn Sql.begin) then
      releaseConn conn
      return internalErrorResult
    let written ← onConn conn do
      let revoked ← SessionStore.revokeFamily token.familyId .logout env.now
      if !revoked then return .error ()
      if ← AuditStore.write
          { occurredAt := env.now, event := .logout, outcome := .success,
            targetUserId := some family.userId, sourceIp := auditSourceIp env } then
        return .ok ()
      else return .error ()
    match (written : Except Unit Unit) with
    | .error _ =>
      onConn conn Sql.rollback
      releaseConn conn
      return internalErrorResult
    | .ok _ =>
      if !(← onConn conn Sql.commit) then
        releaseConn conn
        return internalErrorResult
      releaseConn conn
      return noContent

end Logout

namespace PasswordChange

/-- `ps_auth_handle_password_change` from its transaction on. -/
def handleVerified (env : Env) (claims : Claims) (conn : Nat) (newHash : Password.Hash)
    (survivingFamilyId : Bytes) : Leased HandlerResult := do
  if !(← onConn conn Sql.begin) then
    releaseConn conn
    return internalErrorResult
  let written ← onConn conn do
    let updated ← UserStore.setPassword claims.userId newHash.hash newHash.salt newHash.iterations
      env.now
    if !updated then return .error ()
    match ← SessionStore.revokeAllForUser claims.userId (some survivingFamilyId) .passwordChange
        env.now with
    | none => return .error ()
    | some revokedCount =>
      if ← AuditStore.write
          { occurredAt := env.now, event := .passwordChange, outcome := .success,
            targetUserId := some claims.userId, sourceIp := auditSourceIp env,
            detail := some (ascii "\x7b\"sessions_revoked\":" ++ Lib.natDigits revokedCount ++
              ascii "\x7d") } then
        return .ok ()
      else return .error ()
  match (written : Except Unit Unit) with
  | .error _ =>
    onConn conn Sql.rollback
    releaseConn conn
    return internalErrorResult
  | .ok _ =>
    if !(← onConn conn Sql.commit) then
      releaseConn conn
      return internalErrorResult
    releaseConn conn
    return { status := 204 }

/-- `ps_auth_handle_password_change` from its use of the database on. -/
def handleAdmitted (ctx : AppCtx) (env : Env) (claims : Claims) (input : Input) :
    Leased HandlerResult := do
  let conn ← acquireConn
  let found ← onConn conn (UserStore.getById claims.userId)
  if !env.allow .perUsername (limiterKey claims found)
      (devRelaxedCount ctx.config ctx.config.ratelimitLoginUsernamePerMinute) then
    releaseConn conn
    return errorResult 429 "RATE_LIMITED" "too many attempts; try again later"
  if !(← tryAcquireSlot) then
    releaseConn conn
    return errorResult 503 "SERVICE_UNAVAILABLE"
      "too many concurrent password changes; try again shortly"
  let currentOk := found.any fun user =>
    Password.verify ctx.crypto input.currentPassword (storedHash user)
  let hashed := if currentOk then
      Password.hash ctx.crypto input.newPassword ctx.config.kdfIterations env.salt
    else none
  releaseSlot
  if !currentOk then
    let _ ← onConn conn (AuditStore.write
      { occurredAt := env.now, event := .passwordChange, outcome := .failure,
        targetUserId := some claims.userId, sourceIp := auditSourceIp env,
        detail := some (reasonDetail "wrong_current_password") })
    releaseConn conn
    return errorResult 401 "UNAUTHORIZED" "current password is incorrect"
  let some newHash := hashed
    | releaseConn conn
      return internalErrorResult
  let some survivingFamilyId := hexDecode claims.familyId
    | releaseConn conn
      return internalErrorResult
  handleVerified env claims conn newHash survivingFamilyId

/-- `ps_auth_handle_password_change` -/
def handle (ctx : AppCtx) (env : Env) (claims : Claims) (body : Bytes) : Leased HandlerResult := do
  match ← parsedBody body with
  | .error refusal => return refusal
  | .ok object =>
    let (some currentPassword, some newPassword) :=
        (stringField object (ascii "current_password"), stringField object (ascii "new_password"))
      | return errorResult 400 "BAD_REQUEST"
          "current_password and new_password are required string fields"
    if !(← allocated) then return internalErrorResult
    if Password.policyCheck newPassword ctx.config.passwordMinLength ctx.config.passwordMaxLength
        ctx.passwordDenylist ≠ .ok then
      return errorResult 400 "WEAK_PASSWORD" "password does not meet the policy requirements"
    handleAdmitted ctx env claims { currentPassword, newPassword }

end PasswordChange

namespace Users

/-- `ps_user_handle_get_user` -/
def handle (env : Env) (claims : Claims) (targetUserId : Int) : Leased HandlerResult := do
  let conn ← acquireConn
  let some target ← onConn conn (UserStore.getById targetUserId)
    | releaseConn conn
      return errorResult 404 "NOT_FOUND" "no such user"
  if claims.userId ≠ targetUserId then
    let _ ← onConn conn (AuditStore.write
      { occurredAt := env.now, event := .adminUserRead, outcome := .success,
        actorUserId := some claims.userId, targetUserId := some targetUserId,
        sourceIp := auditSourceIp env })
  releaseConn conn
  let view := if claims.userId = targetUserId then writeSelf target else writeAdmin target
  return { status := 200, body := some view }

end Users

namespace Admin

/-- `ps_admin_handle_count_users` -/
def handleCount : Leased HandlerResult := do
  let conn ← acquireConn
  let counted ← onConn conn UserStore.count
  releaseConn conn
  let some count := counted | return internalErrorResult
  return { status := 200, body := some (jsonObject [("count", .number (Binary64.ofInt count))]) }

/-- `ps_admin_handle_list_users` -/
def handleList (env : Env) (claims : Claims) (query : Option Bytes) : Leased HandlerResult := do
  match page query with
  | .error refusal => return refusal
  | .ok page =>
    let conn ← acquireConn
    let some rows ← onConn conn (UserStore.listAfter page.afterId page.limit)
      | releaseConn conn
        return internalErrorResult
    let _ ← onConn conn (AuditStore.write
      { occurredAt := env.now, event := .adminUserList, outcome := .success,
        actorUserId := some claims.userId, sourceIp := auditSourceIp env,
        detail := some (ascii "\x7b\"after_id\":" ++ intDigits page.afterId ++
          ascii ",\"limit\":" ++ natDigits page.limit ++ ascii "\x7d") })
    releaseConn conn
    return { status := 200, body := some (pageBody page rows) }

end Admin

/-- The handler that `ps_routes_dispatch` calls. -/
def Handler.handle (ctx : AppCtx) (env : Env) (draining : Bool) (request : Http.Request) :
    Handler → Leased HandlerResult
  | .healthz => return statusBody 200 "ok"
  | .readyz => return if draining then statusBody 503 "draining" else statusBody 200 "ok"
  | .register => Register.handle ctx env (request.body.getD [])
  | .verify => Verify.handle ctx env (request.body.getD [])
  | .resendVerification => Resend.handle ctx env (request.body.getD [])
  | .login => Login.handle ctx env (request.body.getD [])
  | .refresh => Refresh.handle ctx env (request.body.getD [])
  | .logout claims => Logout.handle ctx env claims (request.body.getD [])
  | .passwordChange claims => PasswordChange.handle ctx env claims (request.body.getD [])
  | .getUser claims targetUserId => Users.handle env claims targetUserId
  | .countUsers _ => Admin.handleCount
  | .listUsers claims => Admin.handleList env claims request.query

/-- What the handlers share. -/
structure Shared where
  dbPool : DbPool
  kdfSemaphore : KdfSemaphore

/-- The function of the pool or of the semaphore behind a step of a handler. -/
def Shared.Serves (shared : Shared) : Lease Nat → Shared → Prop
  | .took conn, after =>
    ∃ dbPool, shared.dbPool.acquire = some (conn, dbPool) ∧ after = { shared with dbPool }
  | .gave conn, after =>
    ∃ dbPool, shared.dbPool.release conn = some dbPool ∧ after = { shared with dbPool }
  | .tookPermit, after =>
    ∃ kdfSemaphore, shared.kdfSemaphore.tryAcquire = some kdfSemaphore ∧
      after = { shared with kdfSemaphore }
  | .refusedPermit, after => shared.kdfSemaphore.tryAcquire = none ∧ after = shared
  | .gavePermit, after => after = { shared with kdfSemaphore := shared.kdfSemaphore.release }
  | .silent, after => after = shared

/-- The programs of the handlers. -/
def IsHandler (program : Leased HandlerResult) : Prop :=
  ∃ ctx env draining request, ∃ handler : Handler,
    program = handler.handle ctx env draining request

/-- Threads that run at most one handler each. -/
abbrev Threads (n : Nat) : Type 1 := Shop (Fin n) Shared Nat Sql HandlerResult

/-- No handler runs yet. -/
def Threads.initial (n connections : Nat) (kdfSemaphore : KdfSemaphore) : Threads n :=
  ⟨⟨DbPool.create connections, kdfSemaphore⟩, fun _ => none⟩

/-- A step of one thread. -/
def Threads.Step {n : Nat} : Threads n → Threads n → Prop := Shop.Step Shared.Serves IsHandler

end PlatformService.Api
