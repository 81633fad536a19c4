import PlatformService.Lib.Bytes
import PlatformService.Lib.Faulty
import PlatformService.Lib.Table

/-!
# The database

The tables of `schema/001_init.sql` with the constraints SQLite enforces on every
statement (`foreign_keys=ON`): primary keys, the two `UNIQUE` columns of `users`
and the foreign keys are fields of `Db`, so no statement can build a database
that breaks them. Each data-manipulation statement below keeps them; an
insertion that would break one has no result, and a deleted family takes its
refresh tokens with it (`ON DELETE CASCADE`).

A connection is the content it sees and the contents it would restore, innermost
first; an empty list means autocommit. `sqlite3_step` failing is a fault drawn
by `Faulty.attempt`: the statement changes nothing and an open transaction stays
open. The errors on which SQLite rolls the whole transaction back by itself (an
I/O error, a full disk, no memory) are left out.
-/

namespace PlatformService.Store

open Lib

/-- `users.status`, stored as the upper-case text of the same name. -/
inductive UserStatus where
  | pendingVerification
  | active
  | disabled
  deriving DecidableEq, Repr

/-- The rows of `roles`, fixed by the schema. -/
inductive Role where
  | user
  | admin
  deriving DecidableEq, Repr

/-- A row of `users`, one field for each column; `lockedUntil` is `none` for SQL NULL. -/
structure UserRow where
  userId : Int
  username : Bytes
  email : Bytes
  emailNormalized : Bytes
  passwordHash : Bytes
  passwordSalt : Bytes
  kdfIters : Int
  status : UserStatus
  failedLogins : Int
  lockedUntil : Option Int
  createdAt : Int
  updatedAt : Int
  deriving DecidableEq, Repr

/-- A row of `email_verification_tokens`; `consumedAt` is NULL while it is outstanding. -/
structure VerificationTokenRow where
  tokenHash : Bytes
  userId : Int
  expiresAt : Int
  consumedAt : Option Int
  createdAt : Int
  deriving DecidableEq, Repr

/-- `session_families.revoke_cause`. -/
inductive RevokeCause where
  | reuseDetected
  | logout
  | passwordChange
  deriving DecidableEq, Repr

/-- A row of `session_families`; `revokedAt` and `revokeCause` are NULL while it is live. -/
structure SessionFamilyRow where
  familyId : Bytes
  userId : Int
  createdAt : Int
  absoluteExp : Int
  revokedAt : Option Int
  revokeCause : Option RevokeCause
  deriving DecidableEq, Repr

/-- A row of `refresh_tokens`; `consumedAt` is NULL until it is rotated. The generation is an `int`
wherever the service reads and writes it. -/
structure RefreshTokenRow where
  tokenHash : Bytes
  familyId : Bytes
  generation : Int32
  idleExp : Int
  consumedAt : Option Int
  issuedAt : Int
  deriving DecidableEq, Repr

/-- A row of `dev_outbox` without its row number, which nothing reads. -/
structure OutboxRow where
  toEmail : Bytes
  subject : Bytes
  body : Bytes
  createdAt : Int
  deriving DecidableEq, Repr

/-- The events of the audit trail. -/
inductive AuditEvent where
  | register
  | verify
  | resendRequested
  | login
  | accountLocked
  | tokenRefresh
  | refreshReuseDetected
  | logout
  | passwordChange
  | adminUserRead
  | adminUserList
  | bootstrapAdminCreated
  deriving DecidableEq, Repr

/-- `SUCCESS` or `FAILURE`. -/
inductive AuditOutcome where
  | success
  | failure
  deriving DecidableEq, Repr

/-- `ps_audit_entry_t`: a row of `audit_log` without its row number. No writer sets `request_id`. -/
structure AuditEntry where
  occurredAt : Int
  event : AuditEvent
  outcome : AuditOutcome
  actorUserId : Option Int := none
  targetUserId : Option Int := none
  sourceIp : Option Bytes := none
  detail : Option Bytes := none
  deriving DecidableEq, Repr

/-- The content of the database, with the constraints of the schema. -/
structure Db where
  users : Table Int UserRow UserRow.userId
  userRoles : Table (Int × Role) (Int × Role) id
  emailVerificationTokens : Table Bytes VerificationTokenRow VerificationTokenRow.tokenHash
  sessionFamilies : Table Bytes SessionFamilyRow SessionFamilyRow.familyId
  refreshTokens : Table Bytes RefreshTokenRow RefreshTokenRow.tokenHash
  devOutbox : List OutboxRow
  auditLog : List AuditEntry
  /-- `username … UNIQUE COLLATE NOCASE` -/
  usernames : (users.rows.map fun user => nocase user.username).Nodup
  /-- `email_normalized … UNIQUE` -/
  emails : (users.rows.map UserRow.emailNormalized).Nodup
  /-- `user_roles.user_id REFERENCES users` -/
  roleOwners : ∀ grant ∈ userRoles, ∃ user ∈ users, user.userId = grant.1
  /-- `email_verification_tokens.user_id REFERENCES users` -/
  verificationOwners : ∀ token ∈ emailVerificationTokens, ∃ user ∈ users, user.userId = token.userId
  /-- `session_families.user_id REFERENCES users` -/
  familyOwners : ∀ family ∈ sessionFamilies, ∃ user ∈ users, user.userId = family.userId
  /-- `refresh_tokens.family_id REFERENCES session_families` -/
  tokenFamilies : ∀ token ∈ refreshTokens, ∃ family ∈ sessionFamilies,
    family.familyId = token.familyId

namespace Db

/-- The database right after the migration. -/
def initial : Db where
  users := Table.empty
  userRoles := Table.empty
  emailVerificationTokens := Table.empty
  sessionFamilies := Table.empty
  refreshTokens := Table.empty
  devOutbox := []
  auditLog := []
  usernames := List.nodup_nil
  emails := List.nodup_nil
  roleOwners := by simp
  verificationOwners := by simp
  familyOwners := by simp
  tokenFamilies := by simp

/-- The tables of the sessions. -/
def sessions (db : Db) : Table Bytes SessionFamilyRow SessionFamilyRow.familyId ×
    Table Bytes RefreshTokenRow RefreshTokenRow.tokenHash :=
  (db.sessionFamilies, db.refreshTokens)

/-- The roles a user holds. -/
def rolesOf (db : Db) (userId : Int) : List Role :=
  (db.userRoles.rows.filter fun grant => grant.1 = userId).map Prod.snd

/-- A role is held exactly when it is granted. -/
theorem mem_rolesOf {db : Db} {userId : Int} {role : Role} :
    role ∈ db.rolesOf userId ↔ (userId, role) ∈ db.userRoles := by
  simp only [rolesOf, List.mem_map, List.mem_filter, decide_eq_true_eq, Table.mem_def]
  constructor
  · rintro ⟨⟨owner, held⟩, ⟨stored, rfl⟩, rfl⟩
    exact stored
  · intro stored
    exact ⟨_, ⟨stored, rfl⟩, rfl⟩

/-- A change of a `users` row that leaves its constrained columns alone. -/
structure UserChange where
  /-- The new row. -/
  apply : UserRow → UserRow
  /-- The primary key stays. -/
  keepsId : ∀ user, (apply user).userId = user.userId
  /-- The username stays. -/
  keepsUsername : ∀ user, (apply user).username = user.username
  /-- The normalized email stays. -/
  keepsEmail : ∀ user, (apply user).emailNormalized = user.emailNormalized

/-- A changed row still owns what it owned. -/
private theorem owner_kept {users : Table Int UserRow UserRow.userId} {selected : UserRow → Bool}
    (change : UserChange) {id : Int} (owned : ∃ user ∈ users, user.userId = id) :
    ∃ user ∈ users.update selected change.apply change.keepsId, user.userId = id := by
  obtain ⟨user, stored, rfl⟩ := owned
  refine ⟨_, Table.mem_update.mpr ⟨user, stored, rfl⟩, ?_⟩
  split
  · exact change.keepsId user
  · rfl

/-- A column that every change keeps has the same values after an update. -/
private theorem column_kept {C : Type} {users : Table Int UserRow UserRow.userId}
    {selected : UserRow → Bool} (change : UserChange) (column : UserRow → C)
    (keeps : ∀ user, column (change.apply user) = column user) :
    (users.update selected change.apply change.keepsId).rows.map column = users.rows.map column := by
  simp only [Table.update, List.map_map]
  apply List.map_congr_left
  intro user _
  simp only [Function.comp_apply]
  split
  · exact keeps user
  · rfl

/-- `UPDATE users SET … WHERE …`. -/
def updateUsers (db : Db) (selected : UserRow → Bool) (change : UserChange) : Db :=
  { db with
    users := db.users.update selected change.apply change.keepsId
    usernames := by
      rw [column_kept change (fun user => nocase user.username)
        (fun user => by rw [change.keepsUsername])]
      exact db.usernames
    emails := by
      rw [column_kept change UserRow.emailNormalized change.keepsEmail]
      exact db.emails
    roleOwners := fun grant stored => owner_kept change (db.roleOwners grant stored)
    verificationOwners := fun token stored => owner_kept change (db.verificationOwners token stored)
    familyOwners := fun family stored => owner_kept change (db.familyOwners family stored) }

/-- A user found after an update is the one found before, changed when selected. -/
theorem find?_updateUsers (db : Db) (selected : UserRow → Bool) (change : UserChange) (userId : Int) :
    (db.updateUsers selected change).users.find? userId =
      (db.users.find? userId).map fun user => if selected user then change.apply user else user := by
  rw [updateUsers, Table.find?_update]

/-- Columns that a change keeps have the same values after an update. -/
theorem map_updateUsers {C : Type} (db : Db) (selected : UserRow → Bool) (change : UserChange)
    (column : UserRow → C) (keeps : ∀ user, column (change.apply user) = column user) :
    (db.updateUsers selected change).users.rows.map column = db.users.rows.map column :=
  column_kept change column keeps

/-- The row number SQLite assigns to a new user: one past the largest in use. -/
def nextUserId (db : Db) : Int := (db.users.rows.map UserRow.userId).max?.elim 1 (· + 1)

/-- The assigned row number is not in use. -/
theorem nextUserId_unused (db : Db) : db.nextUserId ∉ db.users.rows.map UserRow.userId := by
  intro used
  unfold nextUserId at used
  cases largest : (db.users.rows.map UserRow.userId).max? with
  | none => simp [List.max?_eq_none_iff.mp largest] at used
  | some top =>
    rw [largest] at used
    have below := (List.max?_eq_some_iff.mp largest).2 _ used
    simp only [Option.elim_some] at below
    omega

/-- `INSERT INTO users`: the new row number, or no result when a `UNIQUE` column clashes. -/
def insertUser (db : Db) (row : UserRow) : Option (Int × Db) :=
  if names : ∃ user ∈ db.users.rows, nocase user.username = nocase row.username then none
  else if mails : ∃ user ∈ db.users.rows, user.emailNormalized = row.emailNormalized then none
  else some (db.nextUserId,
    let users : Table Int UserRow UserRow.userId :=
      ⟨db.users.rows ++ [{ row with userId := db.nextUserId }], by
        simpa [List.nodup_append] using ⟨db.users.unique, by simpa using db.nextUserId_unused⟩⟩
    have kept : ∀ user ∈ db.users, user ∈ users := fun user stored => List.mem_append_left _ stored
    { db with
      users := users
      usernames := by
        simp only [users, List.map_append, List.map_singleton, List.nodup_append]
        refine ⟨db.usernames, List.nodup_singleton _, ?_⟩
        intro name stored other new same
        obtain ⟨user, member, rfl⟩ := List.mem_map.mp stored
        rw [List.mem_singleton] at new
        exact names ⟨user, member, same.trans new⟩
      emails := by
        simp only [users, List.map_append, List.map_singleton, List.nodup_append]
        refine ⟨db.emails, List.nodup_singleton _, ?_⟩
        intro mail stored other new same
        obtain ⟨user, member, rfl⟩ := List.mem_map.mp stored
        rw [List.mem_singleton] at new
        exact mails ⟨user, member, same.trans new⟩
      roleOwners := fun grant stored =>
        let ⟨user, member, same⟩ := db.roleOwners grant stored
        ⟨user, kept user member, same⟩
      verificationOwners := fun token stored =>
        let ⟨user, member, same⟩ := db.verificationOwners token stored
        ⟨user, kept user member, same⟩
      familyOwners := fun family stored =>
        let ⟨user, member, same⟩ := db.familyOwners family stored
        ⟨user, kept user member, same⟩ })

/-- What a successful insertion into `users` leaves. -/
theorem insertUser_eq_some {db after : Db} {row : UserRow} {userId : Int}
    (done : db.insertUser row = some (userId, after)) :
    db.users.insert { row with userId } = some after.users := by
  unfold insertUser at done
  split at done
  · contradiction
  split at done
  · contradiction
  cases done
  exact dif_neg db.nextUserId_unused

/-- A new user leaves the sessions alone. -/
theorem sessions_insertUser {db after : Db} {row : UserRow} {userId : Int}
    (done : db.insertUser row = some (userId, after)) : after.sessions = db.sessions := by
  unfold insertUser at done
  split at done
  · contradiction
  split at done
  · contradiction
  cases done
  rfl

/-- `INSERT INTO user_roles`: no result for a missing user or a role already held. -/
def insertUserRole (db : Db) (userId : Int) (role : Role) : Option Db :=
  if owned : ∃ user ∈ db.users.rows, user.userId = userId then
    match done : db.userRoles.insert (userId, role) with
    | none => none
    | some userRoles => some { db with
        userRoles := userRoles
        roleOwners := fun grant stored =>
          (((Table.mem_insert done).1 grant).mp stored).elim (db.roleOwners grant) fun new =>
            new ▸ owned }
  else none

/-- Granting a role leaves the users and the sessions alone. -/
theorem insertUserRole_eq_some {db after : Db} {userId : Int} {role : Role}
    (done : db.insertUserRole userId role = some after) :
    after.users = db.users ∧ after.sessions = db.sessions := by
  unfold insertUserRole at done
  split at done
  · split at done
    · contradiction
    · cases done
      exact ⟨rfl, rfl⟩
  · contradiction

/-- Granting a stored user a role it does not hold succeeds. -/
theorem insertUserRole_isSome {db : Db} {userId : Int} {role : Role}
    (owned : ∃ user ∈ db.users, user.userId = userId) (fresh : (userId, role) ∉ db.userRoles) :
    ∃ after, db.insertUserRole userId role = some after := by
  have absent : ∀ grant ∈ db.userRoles, id grant ≠ id (userId, role) := by
    intro grant stored same
    have own : grant = (userId, role) := same
    rw [own] at stored
    exact fresh stored
  obtain ⟨grants, inserted⟩ := Table.insert_isSome absent
  unfold insertUserRole
  split
  · split
    · rename_i refused
      rw [inserted] at refused
      contradiction
    · exact ⟨_, rfl⟩
  · rename_i orphan
    exact absurd owned orphan

/-- `INSERT INTO email_verification_tokens`. -/
def insertVerificationToken (db : Db) (row : VerificationTokenRow) : Option Db :=
  if owned : ∃ user ∈ db.users.rows, user.userId = row.userId then
    match done : db.emailVerificationTokens.insert row with
    | none => none
    | some tokens => some { db with
        emailVerificationTokens := tokens
        verificationOwners := fun token stored =>
          (((Table.mem_insert done).1 token).mp stored).elim (db.verificationOwners token) fun new =>
            new ▸ owned }
  else none

/-- What a successful insertion into `email_verification_tokens` leaves. -/
theorem insertVerificationToken_eq_some {db after : Db} {row : VerificationTokenRow}
    (done : db.insertVerificationToken row = some after) :
    db.emailVerificationTokens.insert row = some after.emailVerificationTokens ∧
      after.users = db.users ∧ after.sessions = db.sessions := by
  unfold insertVerificationToken at done
  split at done
  · split at done
    · contradiction
    · rename_i tokens inserted
      cases done
      exact ⟨inserted, rfl, rfl⟩
  · contradiction

/-- An insertion of a new token of a stored user succeeds. -/
theorem insertVerificationToken_isSome {db : Db} {row : VerificationTokenRow}
    (owned : ∃ user ∈ db.users, user.userId = row.userId)
    (fresh : ∀ token ∈ db.emailVerificationTokens, token.tokenHash ≠ row.tokenHash) :
    ∃ after, db.insertVerificationToken row = some after := by
  obtain ⟨tokens, inserted⟩ := Table.insert_isSome fresh
  unfold insertVerificationToken
  split
  · split
    · rename_i refused
      rw [inserted] at refused
      contradiction
    · exact ⟨_, rfl⟩
  · rename_i orphan
    exact absurd owned orphan

/-- `UPDATE email_verification_tokens SET consumed_at = … WHERE …`. -/
def consumeVerificationTokens (db : Db) (selected : VerificationTokenRow → Bool) (now : Int) : Db :=
  { db with
    emailVerificationTokens := db.emailVerificationTokens.update selected
      (fun token => { token with consumedAt := some now }) fun _ => rfl
    verificationOwners := by
      intro token stored
      obtain ⟨old, member, rfl⟩ := Table.mem_update.mp stored
      split
      · exact db.verificationOwners old member
      · exact db.verificationOwners old member }

/-- The verification tokens after an update: the old ones, the selected ones consumed. -/
theorem mem_consumeVerificationTokens {db : Db} {selected : VerificationTokenRow → Bool} {now : Int}
    {token : VerificationTokenRow} :
    token ∈ (db.consumeVerificationTokens selected now).emailVerificationTokens ↔
      ∃ old ∈ db.emailVerificationTokens,
        token = if selected old then { old with consumedAt := some now } else old := by
  rw [consumeVerificationTokens, Table.mem_update]

/-- `DELETE FROM email_verification_tokens WHERE …`. -/
def deleteVerificationTokens (db : Db) (selected : VerificationTokenRow → Bool) : Db :=
  { db with
    emailVerificationTokens := db.emailVerificationTokens.delete selected
    verificationOwners := fun token stored =>
      db.verificationOwners token (Table.mem_delete.mp stored).1 }

/-- `INSERT INTO session_families`. -/
def insertFamily (db : Db) (row : SessionFamilyRow) : Option Db :=
  if owned : ∃ user ∈ db.users.rows, user.userId = row.userId then
    match done : db.sessionFamilies.insert row with
    | none => none
    | some families => some { db with
        sessionFamilies := families
        familyOwners := fun family stored =>
          (((Table.mem_insert done).1 family).mp stored).elim (db.familyOwners family) fun new =>
            new ▸ owned
        tokenFamilies := fun token stored =>
          let ⟨family, member, same⟩ := db.tokenFamilies token stored
          ⟨family, ((Table.mem_insert done).1 family).mpr (Or.inl member), same⟩ }
  else none

/-- What a successful insertion into `session_families` leaves. -/
theorem insertFamily_eq_some {db after : Db} {row : SessionFamilyRow}
    (done : db.insertFamily row = some after) :
    db.sessionFamilies.insert row = some after.sessionFamilies ∧ after.users = db.users ∧
      after.refreshTokens = db.refreshTokens := by
  unfold insertFamily at done
  split at done
  · split at done
    · contradiction
    · rename_i families inserted
      cases done
      exact ⟨inserted, rfl, rfl⟩
  · contradiction

/-- An insertion of a new family of a stored user succeeds. -/
theorem insertFamily_isSome {db : Db} {row : SessionFamilyRow}
    (owned : ∃ user ∈ db.users, user.userId = row.userId)
    (fresh : ∀ family ∈ db.sessionFamilies, family.familyId ≠ row.familyId) :
    ∃ after, db.insertFamily row = some after := by
  obtain ⟨families, inserted⟩ := Table.insert_isSome fresh
  unfold insertFamily
  split
  · split
    · rename_i refused
      rw [inserted] at refused
      contradiction
    · exact ⟨_, rfl⟩
  · rename_i orphan
    exact absurd owned orphan

/-- `UPDATE session_families SET revoked_at = …, revoke_cause = … WHERE …`. -/
def revokeFamilies (db : Db) (selected : SessionFamilyRow → Bool) (now : Int)
    (cause : RevokeCause) : Db :=
  { db with
    sessionFamilies := db.sessionFamilies.update selected
      (fun family => { family with revokedAt := some now, revokeCause := some cause }) fun _ => rfl
    familyOwners := by
      intro family stored
      obtain ⟨old, member, rfl⟩ := Table.mem_update.mp stored
      split
      · exact db.familyOwners old member
      · exact db.familyOwners old member
    tokenFamilies := by
      intro token stored
      obtain ⟨family, member, same⟩ := db.tokenFamilies token stored
      refine ⟨_, Table.mem_update.mpr ⟨family, member, rfl⟩, ?_⟩
      split
      · exact same
      · exact same }

/-- The families after an update: the old ones, the selected ones revoked. -/
theorem mem_revokeFamilies {db : Db} {selected : SessionFamilyRow → Bool} {now : Int}
    {cause : RevokeCause} {family : SessionFamilyRow} :
    family ∈ (db.revokeFamilies selected now cause).sessionFamilies ↔
      ∃ old ∈ db.sessionFamilies, family =
        if selected old then { old with revokedAt := some now, revokeCause := some cause } else old := by
  rw [revokeFamilies, Table.mem_update]

/-- `DELETE FROM session_families WHERE …`, with the cascade to `refresh_tokens`. -/
def deleteFamilies (db : Db) (selected : SessionFamilyRow → Bool) : Db :=
  { db with
    sessionFamilies := db.sessionFamilies.delete selected
    refreshTokens := db.refreshTokens.delete fun token =>
      db.sessionFamilies.rows.any fun family => family.familyId = token.familyId && selected family
    familyOwners := fun family stored => db.familyOwners family (Table.mem_delete.mp stored).1
    tokenFamilies := by
      intro token stored
      obtain ⟨member, spared⟩ := Table.mem_delete.mp stored
      obtain ⟨family, owner, same⟩ := db.tokenFamilies token member
      refine ⟨family, Table.mem_delete.mpr ⟨owner, ?_⟩, same⟩
      have others := List.any_eq_false.mp spared family owner
      simpa [same] using others }

/-- The refresh tokens after a deletion of families: those whose family is spared. -/
theorem mem_deleteFamilies {db : Db} {selected : SessionFamilyRow → Bool}
    {token : RefreshTokenRow} :
    token ∈ (db.deleteFamilies selected).refreshTokens ↔
      token ∈ db.refreshTokens ∧
        ∀ family ∈ db.sessionFamilies, family.familyId = token.familyId → selected family = false := by
  refine Table.mem_delete.trans (and_congr_right fun _ => ?_)
  simp [Table.mem_def]

/-- `INSERT INTO refresh_tokens`. -/
def insertRefreshToken (db : Db) (row : RefreshTokenRow) : Option Db :=
  if owned : ∃ family ∈ db.sessionFamilies.rows, family.familyId = row.familyId then
    match done : db.refreshTokens.insert row with
    | none => none
    | some tokens => some { db with
        refreshTokens := tokens
        tokenFamilies := fun token stored =>
          (((Table.mem_insert done).1 token).mp stored).elim (db.tokenFamilies token) fun new =>
            new ▸ owned }
  else none

/-- What a successful insertion into `refresh_tokens` leaves. -/
theorem insertRefreshToken_eq_some {db after : Db} {row : RefreshTokenRow}
    (done : db.insertRefreshToken row = some after) :
    db.refreshTokens.insert row = some after.refreshTokens ∧ after.users = db.users ∧
      after.sessionFamilies = db.sessionFamilies := by
  unfold insertRefreshToken at done
  split at done
  · split at done
    · contradiction
    · rename_i tokens inserted
      cases done
      exact ⟨inserted, rfl, rfl⟩
  · contradiction

/-- An insertion of a new token into a stored family succeeds. -/
theorem insertRefreshToken_isSome {db : Db} {row : RefreshTokenRow}
    (owned : ∃ family ∈ db.sessionFamilies, family.familyId = row.familyId)
    (fresh : ∀ token ∈ db.refreshTokens, token.tokenHash ≠ row.tokenHash) :
    ∃ after, db.insertRefreshToken row = some after := by
  obtain ⟨tokens, inserted⟩ := Table.insert_isSome fresh
  unfold insertRefreshToken
  split
  · split
    · rename_i refused
      rw [inserted] at refused
      contradiction
    · exact ⟨_, rfl⟩
  · rename_i orphan
    exact absurd owned orphan

/-- `UPDATE refresh_tokens SET consumed_at = … WHERE …`. -/
def consumeRefreshTokens (db : Db) (selected : RefreshTokenRow → Bool) (now : Int) : Db :=
  { db with
    refreshTokens := db.refreshTokens.update selected
      (fun token => { token with consumedAt := some now }) fun _ => rfl
    tokenFamilies := by
      intro token stored
      obtain ⟨old, member, rfl⟩ := Table.mem_update.mp stored
      split
      · exact db.tokenFamilies old member
      · exact db.tokenFamilies old member }

/-- The refresh tokens after an update: the old ones, the selected ones consumed. -/
theorem mem_consumeRefreshTokens {db : Db} {selected : RefreshTokenRow → Bool} {now : Int}
    {token : RefreshTokenRow} :
    token ∈ (db.consumeRefreshTokens selected now).refreshTokens ↔
      ∃ old ∈ db.refreshTokens,
        token = if selected old then { old with consumedAt := some now } else old := by
  rw [consumeRefreshTokens, Table.mem_update]

/-- Consuming no stored token changes nothing. -/
theorem consumeRefreshTokens_eq_self {db : Db} {selected : RefreshTokenRow → Bool} {now : Int}
    (unselected : ∀ token ∈ db.refreshTokens, selected token = false) :
    db.consumeRefreshTokens selected now = db := by
  have same : db.refreshTokens.update selected
      (fun token => { token with consumedAt := some now }) (fun _ => rfl) = db.refreshTokens :=
    Table.update_eq_self unselected
  cases db
  simp only [consumeRefreshTokens, mk.injEq, true_and, and_true]
  exact same

/-- `DELETE FROM refresh_tokens WHERE …`. -/
def deleteRefreshTokens (db : Db) (selected : RefreshTokenRow → Bool) : Db :=
  { db with
    refreshTokens := db.refreshTokens.delete selected
    tokenFamilies := fun token stored => db.tokenFamilies token (Table.mem_delete.mp stored).1 }

/-- `INSERT INTO audit_log`. -/
def insertAudit (db : Db) (entry : AuditEntry) : Db :=
  { db with auditLog := db.auditLog ++ [entry] }

/-- `INSERT INTO dev_outbox`. -/
def insertOutbox (db : Db) (row : OutboxRow) : Db :=
  { db with devOutbox := db.devOutbox ++ [row] }

end Db

/-- A connection: the content it sees, and what it would restore, innermost first. -/
structure Conn where
  db : Db
  /-- Empty in autocommit mode; the last entry is what `ROLLBACK` restores. -/
  undo : List Db

/-- SQL issued on a connection. -/
abbrev Sql := Faulty Conn

/-- What other connections see. -/
def Conn.committed (conn : Conn) : Db := conn.undo.getLastD conn.db

/-- A fresh connection in autocommit mode. -/
def Conn.of (db : Db) : Conn := ⟨db, []⟩

namespace Sql

variable {α : Type}

/-- One statement: it fails on a fault or a violated constraint, changing nothing. -/
def statement (run : Db → Option (α × Db)) : Sql (Option α) :=
  Faulty.attempt fun conn => (run conn.db).map fun (value, db) => (value, { conn with db := db })

/-- A `SELECT`. -/
def query (read : Db → α) : Sql (Option α) := statement fun db => some (read db, db)

/-- A statement of which only success or failure is reported. -/
def execute (run : Db → Option Db) : Sql Bool := do
  return (← statement fun db => (run db).map fun after => ((), after)).isSome

/-- `BEGIN IMMEDIATE`: refused inside a transaction. -/
def begin : Sql Bool := do
  return (← Faulty.attempt fun conn =>
    if conn.undo = [] then some ((), { conn with undo := [conn.db] }) else none).isSome

/-- `COMMIT`: a failed one leaves the transaction open. -/
def commit : Sql Bool := do
  return (← Faulty.attempt fun conn =>
    if conn.undo = [] then none else some ((), { conn with undo := [] })).isSome

/-- `ROLLBACK`, assumed to work. -/
def rollback : Sql Unit := Faulty.always fun conn => ((), Conn.of conn.committed)

end Sql

end PlatformService.Store
