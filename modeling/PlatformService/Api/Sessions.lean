import PlatformService.Api.Common
import PlatformService.Auth.Session
import PlatformService.Store.Transaction

/-!
# Login, refresh, logout and password change

`ps_auth_handle_login`, `ps_auth_handle_refresh`, `ps_auth_handle_logout` and
`ps_auth_handle_password_change`, cut into phases where the code gives up the
database. Login and password change read the user row in one phase, run the KDF
outside the database, and write in a later phase.
-/

namespace PlatformService.Api

open Json Store

/-- The stored password of a row, as the code hands it to `ps_password_verify`. -/
def storedHash (user : UserRow) : Password.Hash :=
  ⟨user.passwordSalt, user.passwordHash, user.kdfIters⟩

namespace Login

/-- What login keeps of an admitted request. -/
structure Input where
  username : Bytes
  password : Bytes
  deriving DecidableEq, Repr

/-- `ps_auth_handle_login` up to its first use of the database. -/
def admission (ctx : AppCtx) (env : Env) (body : Bytes) : Except HandlerResult Input := do
  let config := ctx.config
  if !env.allow .perIp (namespacedIpKey (ascii "login-ip") env.peerAddr)
      (devRelaxedCount config config.ratelimitLoginPerMinute) then
    throw (errorResult 429 "RATE_LIMITED" "too many login attempts; try again later")
  let object ← parseBody body
  let some username := readStringField object "username" 512
    | throw (errorResult 400 "BAD_REQUEST" "username and password are required string fields")
  let some password := stringField object (ascii "password")
    | throw (errorResult 400 "BAD_REQUEST" "username and password are required string fields")
  if !env.allow .perUsername (lowercaseInto username Ratelimit.keyMax)
      (devRelaxedCount config config.ratelimitLoginUsernamePerMinute) then
    throw (errorResult 429 "RATE_LIMITED" "too many login attempts; try again later")
  if !env.kdfSlot then
    throw (errorResult 503 "SERVICE_UNAVAILABLE" "too many concurrent logins; try again shortly")
  return { username, password }

/-- Whether the row is locked at a time. -/
def locked (now : Int) (user : UserRow) : Bool :=
  nullAsZero user.lockedUntil ≠ 0 && now < nullAsZero user.lockedUntil

/-- What login concludes from the row it read and the verdict on the password. -/
inductive Decision where
  | refuse (found : Option UserRow) (passwordOk : Bool)
  | accept (user : UserRow)
  deriving DecidableEq, Repr

/-- The decision of a login, made before its transaction begins. -/
def decision (ctx : AppCtx) (env : Env) (input : Input) (found : Option UserRow) : Decision :=
  match found with
  | none => .refuse none false
  | some user =>
    let passwordOk := Password.verify ctx.crypto input.password (storedHash user)
    if passwordOk && user.status = .active && !locked env.now user then .accept user
    else .refuse (some user) passwordOk

/-- The reason recorded for a refused login. -/
def reason (env : Env) (found : Option UserRow) (passwordOk : Bool) : String :=
  match found with
  | none => "no_such_user"
  | some user =>
    if locked env.now user then "locked" else if !passwordOk then "wrong_password" else "not_active"

/-- The counter and the lock that a wrong password leaves, from the row that was read. -/
def afterFailure (config : Config) (now : Int) (user : UserRow) : Int × Int :=
  let failed := user.failedLogins + 1
  (failed, if config.lockoutThreshold ≤ failed then now + config.lockoutDurationS else 0)

/-- The bookkeeping of a refused login: whether the account was just locked. -/
def recordFailure (ctx : AppCtx) (env : Env) (found : Option UserRow) (passwordOk : Bool) :
    Sql (Option Bool) := do
  match found with
  | none => return some false
  | some user =>
    if locked env.now user || passwordOk then return some false
    else
      let (failed, lockedUntil) := afterFailure ctx.config env.now user
      if ← UserStore.setLoginFailureState user.userId failed lockedUntil env.now then
        return some (decide (ctx.config.lockoutThreshold ≤ failed))
      else return none

/-- The transaction of a refused login. -/
def writeFailure (ctx : AppCtx) (env : Env) (found : Option UserRow) (passwordOk : Bool) :
    Sql (Except Unit Unit) :=
  Sql.transaction () do
    match ← recordFailure ctx env found passwordOk with
    | none => return .error ()
    | some justLocked =>
      let audited ← AuditStore.write
        { occurredAt := env.now, event := .login, outcome := .failure,
          targetUserId := found.map UserRow.userId, sourceIp := auditSourceIp env,
          detail := some (reasonDetail (reason env found passwordOk)) }
      if !audited then return .error ()
      if !justLocked then return .ok ()
      if ← AuditStore.write
          { occurredAt := env.now, event := .accountLocked, outcome := .success,
            targetUserId := found.map UserRow.userId, sourceIp := auditSourceIp env } then
        return .ok ()
      else return .error ()

/-- The transaction of an accepted login: the session it opened. -/
def writeSuccess (ctx : AppCtx) (env : Env) (userId : Int) :
    Sql (Except Unit Session.Created) :=
  Sql.transaction () do
    let cleared ← UserStore.setLoginFailureState userId 0 0 env.now
    if !cleared then return .error ()
    match ← Session.create ctx.crypto userId ctx.config.refreshAbsoluteTtlS
        ctx.config.refreshIdleTtlS env.now env.familyId env.rawToken with
    | none => return .error ()
    | some session =>
      if ← AuditStore.write
          { occurredAt := env.now, event := .login, outcome := .success,
            targetUserId := some userId, sourceIp := auditSourceIp env } then
        return .ok session
      else return .error ()

/-- Where a login stands. -/
inductive Phase where
  | lookup
  | write (decision : Decision)
  | readRoles (userId : Int) (session : Session.Created)
  | done (result : HandlerResult)

/-- The answer to every refused login. -/
def unauthorized : HandlerResult :=
  errorResult 401 "UNAUTHORIZED" "invalid username or password"

/-- The next phase of `ps_auth_handle_login`. -/
def step (ctx : AppCtx) (env : Env) (input : Input) : Phase → Sql Phase
  | .lookup => do
    return .write (decision ctx env input (← UserStore.getByUsername input.username))
  | .write (.refuse found passwordOk) => do
    match ← writeFailure ctx env found passwordOk with
    | .ok _ => return .done unauthorized
    | .error _ => return .done internalErrorResult
  | .write (.accept user) => do
    match ← writeSuccess ctx env user.userId with
    | .ok session => return .readRoles user.userId session
    | .error _ => return .done internalErrorResult
  | .readRoles userId session => do
    return .done (tokenPairResult ctx env userId session.familyId session.rawRefreshToken
      (← UserStore.getRoles userId))
  | .done result => return .done result

end Login

namespace Refresh

/-- The answer to every token that cannot be rotated. -/
def unauthorized : HandlerResult :=
  errorResult 401 "UNAUTHORIZED" "invalid or expired refresh token"

/-- `ps_auth_handle_refresh` up to its first use of the database: the hash of the token. -/
def admission (ctx : AppCtx) (body : Bytes) : Except HandlerResult Bytes :=
  presentedHash ctx.crypto body "refresh_token" unauthorized

/-- The audit row of a refresh. -/
def auditEntry (env : Env) (result : Session.RefreshResult) (refreshed : Session.Refreshed) :
    AuditEntry where
  occurredAt := env.now
  event := if result = .reuseDetected then .refreshReuseDetected else .tokenRefresh
  outcome := if result = .ok then .success else .failure
  targetUserId := if refreshed.userId ≠ 0 then some refreshed.userId else none
  sourceIp := auditSourceIp env

/-- The transaction of a refresh: what `ps_session_refresh` did persists whatever its verdict. -/
def write (ctx : AppCtx) (env : Env) (tokenHash : Bytes) :
    Sql (Except Unit (Session.RefreshResult × Session.Refreshed)) :=
  Sql.transaction () do
    let (result, refreshed) ← Session.refresh ctx.crypto tokenHash ctx.config.refreshIdleTtlS
      env.now env.rawToken
    if result = .error then return .error ()
    if ← AuditStore.write (auditEntry env result refreshed) then return .ok (result, refreshed)
    else return .error ()

/-- Where a refresh stands. -/
inductive Phase where
  | write
  | readRoles (refreshed : Session.Refreshed)
  | done (result : HandlerResult)

/-- The next phase of `ps_auth_handle_refresh`. -/
def step (ctx : AppCtx) (env : Env) (tokenHash : Bytes) : Phase → Sql Phase
  | .write => do
    match ← write ctx env tokenHash with
    | .ok (.ok, refreshed) => return .readRoles refreshed
    | .ok _ => return .done unauthorized
    | .error _ => return .done internalErrorResult
  | .readRoles refreshed => do
    return .done (tokenPairResult ctx env refreshed.userId refreshed.familyId
      refreshed.rawRefreshToken (← UserStore.getRoles refreshed.userId))
  | .done result => return .done result

end Refresh

namespace Logout

/-- `ps_auth_handle_logout` up to its first use of the database: the hash of the token. -/
def admission (ctx : AppCtx) (body : Bytes) : Except HandlerResult Bytes :=
  presentedHash ctx.crypto body "refresh_token"
    (errorResult 400 "BAD_REQUEST" "refresh_token is invalid")

/-- The transaction of a logout. -/
def write (env : Env) (familyId : Bytes) (ownerId : Int) : Sql (Except Unit Unit) :=
  Sql.transaction () do
    let revoked ← SessionStore.revokeFamily familyId .logout env.now
    if !revoked then return .error ()
    if ← AuditStore.write
        { occurredAt := env.now, event := .logout, outcome := .success,
          targetUserId := some ownerId, sourceIp := auditSourceIp env } then
      return .ok ()
    else return .error ()

/-- Where a logout stands. -/
inductive Phase where
  | findToken
  | findFamily (token : RefreshTokenRow)
  | write (token : RefreshTokenRow) (family : SessionFamilyRow)
  | done (result : HandlerResult)

/-- The answer to a finished logout. -/
def noContent : HandlerResult := { status := 204 }

/-- The next phase of `ps_auth_handle_logout`. -/
def step (env : Env) (claims : Claims) (tokenHash : Bytes) : Phase → Sql Phase
  | .findToken => do
    match ← SessionStore.getToken tokenHash with
    | none => return .done noContent
    | some token => return .findFamily token
  | .findFamily token => do
    match ← SessionStore.getFamily token.familyId with
    | none => return .done internalErrorResult
    | some family =>
      if family.userId ≠ claims.userId then
        return .done (errorResult 403 "FORBIDDEN" "refresh token does not belong to this account")
      else return .write token family
  | .write token family => do
    match ← write env token.familyId family.userId with
    | .ok _ => return .done noContent
    | .error _ => return .done internalErrorResult
  | .done result => return .done result

end Logout

namespace PasswordChange

/-- What a password change keeps of an admitted request. -/
structure Input where
  currentPassword : Bytes
  newPassword : Bytes
  deriving DecidableEq, Repr

/-- `ps_auth_handle_password_change` up to its first use of the database. -/
def admission (ctx : AppCtx) (body : Bytes) : Except HandlerResult Input := do
  let config := ctx.config
  let object ← parseBody body
  let (some currentPassword, some newPassword) :=
      (stringField object (ascii "current_password"), stringField object (ascii "new_password"))
    | throw (errorResult 400 "BAD_REQUEST"
        "current_password and new_password are required string fields")
  if Password.policyCheck newPassword config.passwordMinLength config.passwordMaxLength
      ctx.passwordDenylist ≠ .ok then
    throw (errorResult 400 "WEAK_PASSWORD" "password does not meet the policy requirements")
  return { currentPassword, newPassword }

/-- What a password change concludes from the row it read. -/
inductive Decision where
  | answer (result : HandlerResult)
  | auditFailure
  | write (user : UserRow) (newHash : Password.Hash) (survivingFamilyId : Bytes)

/-- The limiter key: that of the account's logins. -/
def limiterKey (claims : Claims) (found : Option UserRow) : Bytes :=
  match found with
  | some user => lowercaseInto user.username Ratelimit.keyMax
  | none => ascii "uid:" ++ Lib.intDigits claims.userId

/-- The decision of a password change, made before its transaction begins. -/
def decision (ctx : AppCtx) (env : Env) (claims : Claims) (input : Input)
    (found : Option UserRow) : Decision :=
  if !env.allow .perUsername (limiterKey claims found)
      (devRelaxedCount ctx.config ctx.config.ratelimitLoginUsernamePerMinute) then
    .answer (errorResult 429 "RATE_LIMITED" "too many attempts; try again later")
  else if !env.kdfSlot then
    .answer (errorResult 503 "SERVICE_UNAVAILABLE"
      "too many concurrent password changes; try again shortly")
  else match found with
    | none => .auditFailure
    | some user =>
      if !Password.verify ctx.crypto input.currentPassword (storedHash user) then .auditFailure
      else
        match Password.hash ctx.crypto input.newPassword ctx.config.kdfIterations env.salt with
        | none => .answer internalErrorResult
        | some newHash =>
          match hexDecode claims.familyId with
          | none => .answer internalErrorResult
          | some survivingFamilyId => .write user newHash survivingFamilyId

/-- The transaction of a password change. -/
def write (env : Env) (claims : Claims) (newHash : Password.Hash) (survivingFamilyId : Bytes) :
    Sql (Except Unit Unit) :=
  Sql.transaction () do
    let updated ← UserStore.setPassword claims.userId newHash.hash newHash.salt newHash.iterations
      env.now
    if !updated then return .error ()
    match ← SessionStore.revokeAllForUser claims.userId (some survivingFamilyId) .passwordChange
        env.now with
    | none => return .error ()
    | some revokedCount =>
      if ← AuditStore.write
          { occurredAt := env.now, event := .passwordChange, outcome := .success,
            targetUserId := some claims.userId, sourceIp := auditSourceIp env,
            detail := some (ascii "\x7b\"sessions_revoked\":" ++ Lib.natDigits revokedCount ++
              ascii "\x7d") } then
        return .ok ()
      else return .error ()

/-- Where a password change stands. -/
inductive Phase where
  | lookup
  | auditFailure
  | write (user : UserRow) (newHash : Password.Hash) (survivingFamilyId : Bytes)
  | done (result : HandlerResult)

/-- The phase a decision leads to. -/
def Decision.phase : Decision → Phase
  | .answer result => .done result
  | .auditFailure => .auditFailure
  | .write user newHash survivingFamilyId => .write user newHash survivingFamilyId

/-- The next phase of `ps_auth_handle_password_change`. -/
def step (ctx : AppCtx) (env : Env) (claims : Claims) (input : Input) : Phase → Sql Phase
  | .lookup => do
    return (decision ctx env claims input (← UserStore.getById claims.userId)).phase
  | .auditFailure => do
    let _ ← AuditStore.write
      { occurredAt := env.now, event := .passwordChange, outcome := .failure,
        targetUserId := some claims.userId, sourceIp := auditSourceIp env,
        detail := some (reasonDetail "wrong_current_password") }
    return .done (errorResult 401 "UNAUTHORIZED" "current password is incorrect")
  | .write _ newHash survivingFamilyId => do
    match ← write env claims newHash survivingFamilyId with
    | .ok _ => return .done { status := 204 }
    | .error _ => return .done internalErrorResult
  | .done result => return .done result

end PasswordChange

end PlatformService.Api
