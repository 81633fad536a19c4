import PlatformService.Auth.Password
import PlatformService.Auth.Validate
import PlatformService.Platform.Config
import PlatformService.Store.Statements
import PlatformService.Store.Transaction

/-!
# The first administrator

`bootstrap.c`: at every start, before any request is served, a database in which
nobody holds ADMIN gets one user with the roles USER and ADMIN. The credentials
come from the settings; wiping the password afterwards is left out, since every
start reads the settings anew.
-/

namespace PlatformService.Bootstrap

open Crypto Store

/-- The settings `bootstrap.*` of `ps_config_t`. -/
structure Settings where
  adminUsername : Bytes
  adminEmail : Bytes
  adminPassword : Bytes
  deriving DecidableEq, Repr

/-- `ps_bootstrap_result_t` -/
inductive Result where
  | ok
  | missingCredentials
  | weakPassword
  | error
  deriving DecidableEq, Repr

/-- `count_admins` -/
def countAdmins : Sql (Option Nat) :=
  Sql.query fun db => db.userRoles.count fun grant => grant.2 = .admin

/-- The row of the administrator, before its row number and times. -/
def adminRow (username emailNormalized : Bytes) (hash : Password.Hash) : UserRow where
  userId := 0
  username := boundedCopy Validate.usernameMax username
  email := boundedCopy Validate.emailMax emailNormalized
  emailNormalized := boundedCopy Validate.emailMax emailNormalized
  passwordHash := hash.hash
  passwordSalt := hash.salt
  kdfIters := hash.iterations
  status := .active
  failedLogins := 0
  lockedUntil := none
  createdAt := 0
  updatedAt := 0

/-- `ps_bootstrap_admin` between the count and the transaction: the row to insert. -/
def credentials (crypto : Primitives) (config : Config) (denylist : Option (List Bytes))
    (settings : Settings) (salt : Option (Drawn 16)) : Except Result UserRow := do
  let password := cString settings.adminPassword
  if cString settings.adminUsername = [] ∨ cString settings.adminEmail = [] ∨
      password = [] then
    throw .missingCredentials
  -- the one account that may carry a reserved name
  let .valid username := Validate.username settings.adminUsername Validate.usernameMax false
    | throw .missingCredentials
  let .valid emailNormalized := Validate.email settings.adminEmail Validate.emailMax
    | throw .missingCredentials
  if Password.policyCheck password config.passwordMinLength config.passwordMaxLength denylist ≠
      .ok then
    throw .weakPassword
  let some hash := Password.hash crypto password config.kdfIterations salt
    | throw .error
  return adminRow username emailNormalized hash

/-- The transaction of `ps_bootstrap_admin`. -/
def write (row : UserRow) (now : Int) : Sql (Except Unit Unit) :=
  Sql.transaction () do
    match ← UserStore.insert row [ascii "USER", ascii "ADMIN"] now with
    | .ok userId =>
      if ← AuditStore.write
          { occurredAt := now, event := .bootstrapAdminCreated, outcome := .success,
            targetUserId := some userId } then
        return .ok ()
      else return .error ()
    | _ => return .error ()

/-- `ps_bootstrap_admin` -/
def admin (crypto : Primitives) (config : Config) (denylist : Option (List Bytes))
    (settings : Settings) (salt : Option (Drawn 16)) (now : Int) : Sql Result := do
  match ← countAdmins with
  | none => return .error
  | some count =>
    if 0 < count then return .ok
    match credentials crypto config denylist settings salt with
    | .error result => return result
    | .ok row =>
      match ← write row now with
      | .ok _ => return .ok
      | .error _ => return .error

end PlatformService.Bootstrap
