import PlatformService.Store.Db

/-!
# The stores

`session_store.c`, `token_store.c`, `user_store.c`, `audit_store.c` and
`mailer_outbox.c`: one definition for each function, as the statement it
prepares. A C function that reports failure by `false` reports `false` here, and
one that also returns a row or a count returns an option. Lookups report a
failed statement and an absent row alike, as the code does. The error texts
written into the callers' buffers are left out: no handler reads them.
-/

namespace PlatformService

open Store Lib

/-- How the code reads a nullable integer column: NULL as zero. -/
def nullAsZero (column : Option Int) : Int := column.getD 0

namespace SessionStore

/-- `ps_session_store_create_family` -/
def createFamily (familyId : Bytes) (userId now absoluteExp : Int) : Sql Bool :=
  Sql.execute fun db => db.insertFamily
    { familyId, userId, createdAt := now, absoluteExp, revokedAt := none, revokeCause := none }

/-- `ps_session_store_get_family` -/
def getFamily (familyId : Bytes) : Sql (Option SessionFamilyRow) := do
  return (← Sql.query fun db => db.sessionFamilies.find? familyId).join

/-- The family of an id while it is live. -/
def liveFamily (familyId : Bytes) (family : SessionFamilyRow) : Bool :=
  family.familyId = familyId && family.revokedAt.isNone

/-- `ps_session_store_revoke_family`: only a family still live is touched. -/
def revokeFamily (familyId : Bytes) (cause : RevokeCause) (now : Int) : Sql Bool :=
  Sql.execute fun db => some (db.revokeFamilies (liveFamily familyId) now cause)

/-- `ps_session_store_insert_token` -/
def insertToken (tokenHash familyId : Bytes) (generation : Int32) (idleExp now : Int) : Sql Bool :=
  Sql.execute fun db => db.insertRefreshToken
    { tokenHash, familyId, generation, idleExp, consumedAt := none, issuedAt := now }

/-- `ps_session_store_get_token` -/
def getToken (tokenHash : Bytes) : Sql (Option RefreshTokenRow) := do
  return (← Sql.query fun db => db.refreshTokens.find? tokenHash).join

/-- The token of a hash while it is unconsumed. -/
def openToken (tokenHash : Bytes) (token : RefreshTokenRow) : Bool :=
  token.tokenHash = tokenHash && token.consumedAt.isNone

/-- `ps_session_store_try_consume_token`: whether this call claimed the token, or no answer when
the statement failed. -/
def tryConsumeToken (tokenHash : Bytes) (now : Int) : Sql (Option Bool) :=
  Sql.statement fun db =>
    some (decide (0 < db.refreshTokens.count (openToken tokenHash)),
      db.consumeRefreshTokens (openToken tokenHash) now)

/-- The live families of a user, but for one that may be spared. -/
def liveFamilyOf (userId : Int) (exceptFamilyId : Option Bytes) (family : SessionFamilyRow) : Bool :=
  family.userId = userId && family.revokedAt.isNone &&
    exceptFamilyId.all fun spared => family.familyId ≠ spared

/-- `ps_session_store_revoke_all_for_user`: the number of families revoked. -/
def revokeAllForUser (userId : Int) (exceptFamilyId : Option Bytes) (cause : RevokeCause)
    (now : Int) : Sql (Option Nat) :=
  Sql.statement fun db =>
    some (db.sessionFamilies.count (liveFamilyOf userId exceptFamilyId),
      db.revokeFamilies (liveFamilyOf userId exceptFamilyId) now cause)

end SessionStore

namespace TokenStore

/-- `ps_token_store_insert` -/
def insert (tokenHash : Bytes) (userId expiresAt now : Int) : Sql Bool :=
  Sql.execute fun db => db.insertVerificationToken
    { tokenHash, userId, expiresAt, consumedAt := none, createdAt := now }

/-- `ps_token_store_get_by_hash` -/
def getByHash (tokenHash : Bytes) : Sql (Option VerificationTokenRow) := do
  return (← Sql.query fun db => db.emailVerificationTokens.find? tokenHash).join

/-- `ps_token_store_consume`: the statement does not ask whether the token is outstanding. -/
def consume (tokenHash : Bytes) (now : Int) : Sql Bool :=
  Sql.execute fun db =>
    some (db.consumeVerificationTokens (fun token => token.tokenHash = tokenHash) now)

/-- The outstanding tokens of a user. -/
def outstandingOf (userId : Int) (token : VerificationTokenRow) : Bool :=
  token.userId = userId && token.consumedAt.isNone

/-- `ps_token_store_invalidate_all_for_user` -/
def invalidateAllForUser (userId now : Int) : Sql Bool :=
  Sql.execute fun db => some (db.consumeVerificationTokens (outstandingOf userId) now)

/-- `ps_token_store_count_created_since` -/
def countCreatedSince (userId since : Int) : Sql (Option Nat) :=
  Sql.query fun db => db.emailVerificationTokens.count fun token =>
    token.userId = userId && since ≤ token.createdAt

end TokenStore

namespace UserStore

/-- `ps_user_insert_result_t` -/
inductive InsertResult where
  | ok (userId : Int)
  | duplicateUsername
  | duplicateEmail
  | error
  deriving DecidableEq, Repr

/-- `SAVEPOINT`: nests in a transaction, and opens one in autocommit mode. -/
def savepoint : Sql Bool := do
  return (← Faulty.attempt fun conn => some ((), { conn with undo := conn.db :: conn.undo })).isSome

/-- `RELEASE` -/
def release : Sql Bool := do
  return (← Faulty.attempt fun conn => some ((), { conn with undo := conn.undo.tail })).isSome

/-- `rollback_insert`: `ROLLBACK TO` the savepoint and `RELEASE` it, assumed to work. -/
def rollbackInsert : Sql Unit := Faulty.always fun conn =>
  ((), { db := conn.undo.headD conn.db, undo := conn.undo.tail })

/-- `row_exists`: a failed statement reads as absence. -/
def rowExists (matching : UserRow → Bool) : Sql Bool := do
  return (← Sql.query fun db => db.users.rows.any matching).getD false

/-- The role of a name in the `roles` table. -/
def roleNamed (name : Bytes) : Option Role :=
  if name = ascii "USER" then some .user else if name = ascii "ADMIN" then some .admin else none

/-- The role loop of `ps_user_store_insert`: an unknown name inserts no row, which is refused. -/
def insertRoles (userId : Int) : List Bytes → Sql Bool
  | [] => pure true
  | name :: names => do
    let inserted ← Sql.statement fun db =>
      match roleNamed name with
      | none => some (false, db)
      | some role => (db.insertUserRole userId role).map fun after => (true, after)
    match inserted with
    | some true => insertRoles userId names
    | _ => return false

/-- `ps_user_store_insert`: the row and its roles inside one savepoint. -/
def insert (row : UserRow) (roleNames : List Bytes) (now : Int) : Sql InsertResult := do
  if !(← savepoint) then return .error
  if ← rowExists fun user => nocase user.username = nocase row.username then
    rollbackInsert
    return .duplicateUsername
  if ← rowExists fun user => user.emailNormalized = row.emailNormalized then
    rollbackInsert
    return .duplicateEmail
  match ← Sql.statement fun db => db.insertUser { row with createdAt := now, updatedAt := now } with
  | none =>
    rollbackInsert
    return .error
  | some userId =>
    if ← insertRoles userId roleNames then
      if ← release then return .ok userId else return .error
    else
      rollbackInsert
      return .error

/-- `ps_user_store_get_by_id` -/
def getById (userId : Int) : Sql (Option UserRow) := do
  return (← Sql.query fun db => db.users.find? userId).join

/-- `ps_user_store_get_by_username`, under the column's `NOCASE` collation. -/
def getByUsername (username : Bytes) : Sql (Option UserRow) := do
  return (← Sql.query fun db =>
    db.users.rows.find? fun user => nocase user.username = nocase username).join

/-- `ps_user_store_get_by_email_normalized` -/
def getByEmailNormalized (email : Bytes) : Sql (Option UserRow) := do
  return (← Sql.query fun db =>
    db.users.rows.find? fun user => user.emailNormalized = cString email).join

/-- `ps_user_store_get_roles` -/
def getRoles (userId : Int) : Sql (Option (List Role)) := Sql.query fun db => db.rolesOf userId

/-- `ps_user_store_count` -/
def count : Sql (Option Nat) := Sql.query fun db => db.users.rows.length

/-- The row of a page: `ps_user_brief_row_t`. -/
structure BriefRow where
  userId : Int
  username : Bytes
  deriving DecidableEq, Repr

/-- `ps_user_store_list_after`: the next users in the order of their ids. -/
def listAfter (afterId : Int) (limit : Nat) : Sql (Option (List BriefRow)) :=
  Sql.query fun db =>
    let following := db.users.rows.filter fun user => afterId < user.userId
    let ordered := following.mergeSort fun first second => first.userId ≤ second.userId
    (ordered.take limit).map fun user => ⟨user.userId, cString user.username⟩

/-- The columns `ps_user_store_update_status` sets. -/
def statusChange (status : UserStatus) (now : Int) : Db.UserChange where
  apply user := { user with status, updatedAt := now }
  keepsId _ := rfl
  keepsUsername _ := rfl
  keepsEmail _ := rfl

/-- `ps_user_store_update_status`: the statement does not ask for the status it replaces. -/
def updateStatus (userId : Int) (status : UserStatus) (now : Int) : Sql Bool :=
  Sql.execute fun db =>
    some (db.updateUsers (fun user => user.userId = userId) (statusChange status now))

/-- The columns `ps_user_store_set_login_failure_state` sets: a zero `lockedUntil` is NULL. -/
def loginFailureChange (failedLogins lockedUntil now : Int) : Db.UserChange where
  apply user := { user with
    failedLogins
    lockedUntil := if lockedUntil = 0 then none else some lockedUntil
    updatedAt := now }
  keepsId _ := rfl
  keepsUsername _ := rfl
  keepsEmail _ := rfl

/-- `ps_user_store_set_login_failure_state` -/
def setLoginFailureState (userId failedLogins lockedUntil now : Int) : Sql Bool :=
  Sql.execute fun db => some (db.updateUsers (fun user => user.userId = userId)
    (loginFailureChange failedLogins lockedUntil now))

/-- The columns `ps_user_store_set_password` sets. -/
def passwordColumns (passwordHash passwordSalt : Bytes) (kdfIters now : Int) : Db.UserChange where
  apply user := { user with passwordHash, passwordSalt, kdfIters, updatedAt := now }
  keepsId _ := rfl
  keepsUsername _ := rfl
  keepsEmail _ := rfl

/-- `ps_user_store_set_password` -/
def setPassword (userId : Int) (passwordHash passwordSalt : Bytes) (kdfIters now : Int) : Sql Bool :=
  Sql.execute fun db => some (db.updateUsers (fun user => user.userId = userId)
    (passwordColumns passwordHash passwordSalt kdfIters now))

end UserStore

namespace AuditStore

/-- `ps_audit_store_write` -/
def write (entry : AuditEntry) : Sql Bool := Sql.execute fun db => some (db.insertAudit entry)

end AuditStore

namespace Mailer

/-- `ps_mailer_send` -/
def send (toEmail subject body : Bytes) (now : Int) : Sql Bool :=
  Sql.execute fun db => some (db.insertOutbox { toEmail, subject, body, createdAt := now })

end Mailer

end PlatformService
