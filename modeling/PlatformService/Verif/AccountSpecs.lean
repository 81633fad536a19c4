import PlatformService.Api.Account
import PlatformService.Verif.SessionSpecs

/-!
# What the account code does to the database

One statement for each transaction of registration, verification and resending:
the content it leaves when it commits. Registration inserts the user inside a
savepoint, so its transaction may still have the savepoint open when it gives up.
-/

namespace PlatformService.Verif

open Lib Store Crypto Api UserStore

variable {reliable : Prop}

/-- A new user has no role and no token yet. -/
theorem tables_of_insertUser {db after : Db} {row : UserRow} {userId : Int}
    (done : db.insertUser row = some (userId, after)) :
    after.userRoles = db.userRoles ∧
      after.emailVerificationTokens = db.emailVerificationTokens := by
  unfold Db.insertUser at done
  split at done
  · contradiction
  split at done
  · contradiction
  cases done
  exact ⟨rfl, rfl⟩

/-- Granting a role adds the grant and leaves the verification tokens alone. -/
theorem tables_of_insertUserRole {db after : Db} {userId : Int} {role : Role}
    (done : db.insertUserRole userId role = some after) :
    db.userRoles.insert (userId, role) = some after.userRoles ∧
      after.emailVerificationTokens = db.emailVerificationTokens := by
  unfold Db.insertUserRole at done
  split at done
  · split at done
    · contradiction
    · rename_i userRoles inserted
      cases done
      exact ⟨inserted, rfl⟩
  · contradiction

/-- The roles of some names granted to a user, one after the other. -/
def Grants (userId : Int) : List Bytes → Db → Db → Prop
  | [], db, after => after = db
  | name :: names, db, after => ∃ role granted, roleNamed name = some role ∧
      db.insertUserRole userId role = some granted ∧ Grants userId names granted after

/-- The role loop grants every role, or fails for its caller to roll back. -/
theorem insertRoles_spec (userId : Int) (names : List Bytes) (db : Db) :
    Sql.Guarantees reliable (insertRoles userId names) db fun done after =>
      done = true → Grants userId names db after := by
  induction names generalizing db with
  | nil => exact Sql.guarantees_pure fun _ => rfl
  | cons name names ih =>
    apply Sql.guarantees_statement
    · intro _
      exact Sql.guarantees_pure fun impossible => by contradiction
    · intro inserted after done
      cases known : roleNamed name with
      | none =>
        simp only [known, Option.some.injEq, Prod.mk.injEq] at done
        rw [← done.1]
        exact Sql.guarantees_pure fun impossible => by contradiction
      | some role =>
        simp only [known, Option.map_eq_some_iff, Prod.mk.injEq] at done
        obtain ⟨granted, grants, rfl, rfl⟩ := done
        exact (ih granted).mono fun _ _ rest ok => ⟨role, granted, known, grants, rest ok⟩

/-- Granting roles leaves the users and the sessions alone. -/
theorem Grants.kept {userId : Int} {names : List Bytes} {db after : Db}
    (h : Grants userId names db after) : after.users = db.users ∧ after.sessions = db.sessions := by
  induction names generalizing db with
  | nil =>
    have same : after = db := h
    rw [same]
    exact ⟨rfl, rfl⟩
  | cons name names ih =>
    obtain ⟨role, granted, _, grants, rest⟩ := h
    have first := Db.insertUserRole_eq_some grants
    have others := ih rest
    exact ⟨others.1.trans first.1, others.2.trans first.2⟩

/-- `SAVEPOINT` remembers the content it finds, or fails in place. -/
private theorem savepoint_spec (conn : Conn) :
    Faulty.Ensures reliable savepoint conn fun done after =>
      after = if done then ⟨conn.db, conn.db :: conn.undo⟩ else conn := by
  have attempted : Faulty.Ensures reliable (Faulty.attempt fun conn : Conn =>
      some ((), { conn with undo := conn.db :: conn.undo })) conn fun done after =>
        after = if done.isSome then ⟨conn.db, conn.db :: conn.undo⟩ else conn := by
    apply Faulty.ensures_attempt
    · intro _
      rfl
    · intro value after done
      exact (congrArg Prod.snd (Option.some.inj done)).symm
  exact Faulty.ensures_bind attempted fun _ _ reached => Faulty.ensures_pure reached

/-- `RELEASE` forgets a savepoint, or leaves it open. -/
private theorem release_spec (seen saved : Db) (undo : List Db) :
    Faulty.Ensures reliable release ⟨seen, saved :: undo⟩ fun done after =>
      after = if done then ⟨seen, undo⟩ else ⟨seen, saved :: undo⟩ := by
  have attempted : Faulty.Ensures reliable (Faulty.attempt fun conn : Conn =>
      some ((), { conn with undo := conn.undo.tail })) ⟨seen, saved :: undo⟩ fun done after =>
        after = if done.isSome then ⟨seen, undo⟩ else ⟨seen, saved :: undo⟩ := by
    apply Faulty.ensures_attempt
    · intro _
      rfl
    · intro value after done
      exact (congrArg Prod.snd (Option.some.inj done)).symm
  exact Faulty.ensures_bind attempted fun _ _ reached => Faulty.ensures_pure reached

/-- What `ps_user_store_insert` leaves when it succeeds: a user with the roles of some names. -/
def AddsUser (row : UserRow) (roleNames : List Bytes) (now : Int) (db : Db) (userId : Int)
    (after : Db) : Prop :=
  ∃ added, db.insertUser { row with createdAt := now, updatedAt := now } = some (userId, added) ∧
    Grants userId roleNames added after

/-- The users after the insertion of one. -/
def Inserts (row : UserRow) (now : Int) (db : Db) (userId : Int) (after : Db) : Prop :=
  db.users.insert { row with userId, createdAt := now, updatedAt := now } = some after.users

/-- A user is added to the users. -/
theorem AddsUser.inserts {row : UserRow} {roleNames : List Bytes} {now : Int} {db : Db} {userId : Int}
    {after : Db} (h : AddsUser row roleNames now db userId after) :
    Inserts row now db userId after := by
  obtain ⟨added, inserted, grants⟩ := h
  have users := Db.insertUser_eq_some inserted
  rw [← grants.kept.1] at users
  exact users

/-- A new user has no session yet. -/
theorem AddsUser.sessions {row : UserRow} {roleNames : List Bytes} {now : Int} {db : Db} {userId : Int}
    {after : Db} (h : AddsUser row roleNames now db userId after) : after.sessions = db.sessions := by
  obtain ⟨added, inserted, grants⟩ := h
  exact grants.kept.2.trans (Db.sessions_insertUser inserted)

/-- `SAVEPOINT` opens, unless something fails. -/
private theorem savepoint_sure (sure : reliable) (conn : Conn) :
    Faulty.Ensures reliable savepoint conn fun done after =>
      done = true ∧ after = ⟨conn.db, conn.db :: conn.undo⟩ := by
  have attempted : Faulty.Ensures reliable (Faulty.attempt fun conn : Conn =>
      some ((), { conn with undo := conn.db :: conn.undo })) conn fun done after =>
        done.isSome = true ∧ after = ⟨conn.db, conn.db :: conn.undo⟩ := by
    apply Faulty.ensures_attempt
    · intro cause
      exact absurd sure (cause.resolve_right (by simp))
    · intro value after done
      exact ⟨rfl, (congrArg Prod.snd (Option.some.inj done)).symm⟩
  exact Faulty.ensures_bind attempted fun _ _ reached => Faulty.ensures_pure reached

/-- `RELEASE` forgets a savepoint, unless something fails. -/
private theorem release_sure (sure : reliable) (seen saved : Db) (undo : List Db) :
    Faulty.Ensures reliable release ⟨seen, saved :: undo⟩ fun done after =>
      done = true ∧ after = ⟨seen, undo⟩ := by
  have attempted : Faulty.Ensures reliable (Faulty.attempt fun conn : Conn =>
      some ((), { conn with undo := conn.undo.tail })) ⟨seen, saved :: undo⟩ fun done after =>
        done.isSome = true ∧ after = ⟨seen, undo⟩ := by
    apply Faulty.ensures_attempt
    · intro cause
      exact absurd sure (cause.resolve_right (by simp))
    · intro value after done
      exact ⟨rfl, (congrArg Prod.snd (Option.some.inj done)).symm⟩
  exact Faulty.ensures_bind attempted fun _ _ reached => Faulty.ensures_pure reached

/-- What is owed by an insertion inside a transaction that began on some content. -/
private def Owed (row : UserRow) (roleNames : List Bytes) (now : Int) (db : Db)
    (result : InsertResult) (conn : Conn) : Prop :=
  conn.undo.getLast? = some db ∧
    ∀ userId, result = .ok userId → AddsUser row roleNames now db userId conn.db

/-- A refused insertion goes back to its savepoint and owes nothing. -/
private theorem refused_spec {row : UserRow} {roleNames : List Bytes} {now : Int} {db seen : Db}
    {result : InsertResult} (fails : ∀ userId, result ≠ .ok userId) :
    Faulty.Ensures reliable (do rollbackInsert; return result) ⟨seen, [db, db]⟩
      (Owed row roleNames now db) := by
  have undone : Faulty.Ensures reliable rollbackInsert ⟨seen, [db, db]⟩ fun _ conn =>
      conn = ⟨db, [db]⟩ := Faulty.ensures_always rfl
  apply Faulty.ensures_bind undone
  intro _ conn back
  rw [back]
  exact Faulty.ensures_pure ⟨rfl, fun userId same => absurd same (fails userId)⟩

/-- The end of an insertion: its savepoint is released. -/
private theorem released_spec {row : UserRow} {roleNames : List Bytes} {now userId : Int}
    {db seen : Db} (added : AddsUser row roleNames now db userId seen) :
    Faulty.Ensures reliable
      (do if ← release then return .ok userId else return .error) ⟨seen, [db, db]⟩
      (Owed row roleNames now db) := by
  apply Faulty.ensures_bind (release_spec seen db [db])
  intro done conn reached
  rw [reached]
  cases done with
  | true =>
    apply Faulty.ensures_pure
    refine ⟨rfl, fun other own => ?_⟩
    rw [← InsertResult.ok.inj own]
    exact added
  | false => exact Faulty.ensures_pure ⟨rfl, fun _ impossible => by contradiction⟩

/-- Asking for a user changes nothing. -/
private theorem rowExists_spec (matching : UserRow → Bool) (db : Db) :
    Sql.Guarantees reliable (rowExists matching) db fun _ after => after = db := by
  have asked : Sql.Keeps id (rowExists matching) :=
    Sql.keeps_bind (Sql.keeps_query _) fun _ => Sql.keeps_pure _
  exact asked reliable db

/-- `ps_user_store_insert` adds the user, or fails for its caller to roll back. -/
theorem insert_spec (row : UserRow) (roleNames : List Bytes) (now : Int) (db : Db) :
    Sql.Inside reliable (UserStore.insert row roleNames now) db fun result after =>
      ∀ userId, result = .ok userId → AddsUser row roleNames now db userId after := by
  apply Faulty.ensures_bind (savepoint_spec ⟨db, [db]⟩)
  intro saved conn started
  rw [started]
  cases saved with
  | false => exact Faulty.ensures_pure ⟨rfl, fun _ impossible => by contradiction⟩
  | true =>
    apply (rowExists_spec _ db).andThen
    intro taken seen same
    rw [same]
    cases taken with
    | true => exact refused_spec fun _ => by simp
    | false =>
      apply (rowExists_spec _ db).andThen
      intro taken seen same
      rw [same]
      cases taken with
      | true => exact refused_spec fun _ => by simp
      | false =>
        have stated : Sql.Guarantees reliable (Sql.statement fun db => db.insertUser
            { row with createdAt := now, updatedAt := now }) db fun answer added =>
              ∀ userId, answer = some userId → db.insertUser
                { row with createdAt := now, updatedAt := now } = some (userId, added) := by
          apply Sql.statement_spec
          · intro _ userId impossible
            contradiction
          · intro answer added inserted userId same
            rw [← Option.some.inj same]
            exact inserted
        apply stated.andThen
        intro answer seen inserted
        cases answer with
        | none => exact refused_spec fun _ => by simp
        | some userId =>
          apply (insertRoles_spec userId roleNames seen).andThen
          intro granted after grants
          cases granted with
          | true =>
            have added : AddsUser row roleNames now db userId after :=
              ⟨seen, inserted userId rfl, grants rfl⟩
            exact released_spec added
          | false => exact refused_spec fun _ => by simp

/-- The username of a row is taken, up to ASCII case. -/
def UsernameTaken (db : Db) (username : Bytes) : Prop :=
  ∃ user ∈ db.users, nocase user.username = nocase username

/-- What an insertion reports of the database when nothing fails: a taken username before a taken
address, and success where neither is. -/
def Reports (db : Db) (row : UserRow) : InsertResult → Db → Prop
  | .ok userId, after => ¬UsernameTaken db row.username ∧
      (∃ user ∈ after.users, user.userId = userId) ∧
      after.emailVerificationTokens = db.emailVerificationTokens
  | .duplicateUsername, _ => UsernameTaken db row.username
  | .duplicateEmail, _ => ¬UsernameTaken db row.username
  | .error, _ => False

/-- Asking for a user answers, unless something fails. -/
private theorem rowExists_sure (sure : reliable) (matching : UserRow → Bool) (db : Db) :
    Sql.Guarantees reliable (rowExists matching) db fun taken after =>
      after = db ∧ taken = db.users.rows.any matching := by
  apply Sql.guarantees_query
  · intro possible
    exact absurd sure possible
  · exact Sql.guarantees_pure ⟨rfl, rfl⟩

/-- A new user can be given the role USER. -/
private theorem insertRoles_sure (sure : reliable) {row : UserRow} {db added : Db} {userId : Int}
    (inserted : db.insertUser row = some (userId, added)) :
    Sql.Guarantees reliable (insertRoles userId [ascii "USER"]) added fun done after =>
      done = true ∧ (∃ user ∈ after.users, user.userId = userId) ∧
        after.emailVerificationTokens = db.emailVerificationTokens := by
  have users := Table.mem_insert (Db.insertUser_eq_some inserted)
  have owned : ∃ user ∈ added.users, user.userId = userId :=
    ⟨{ row with userId }, (users.1 _).mpr (Or.inr rfl), rfl⟩
  have tables := tables_of_insertUser inserted
  have fresh : (userId, Role.user) ∉ added.userRoles := by
    rw [tables.1]
    intro held
    obtain ⟨owner, stored, own⟩ := db.roleOwners _ held
    exact users.2 owner stored own
  obtain ⟨granted, grants⟩ := Db.insertUserRole_isSome owned fresh
  have named : roleNamed (ascii "USER") = some .user := by decide
  apply Sql.guarantees_statement
  · intro cause
    rw [named] at cause
    dsimp only at cause
    rw [grants] at cause
    exact absurd sure (cause.resolve_right (by simp))
  · intro answer after done
    rw [named] at done
    dsimp only at done
    rw [grants] at done
    cases done
    apply Sql.guarantees_pure
    refine ⟨rfl, ?_, (tables_of_insertUserRole grants).2.trans tables.2⟩
    rw [(Db.insertUserRole_eq_some grants).1]
    exact owned

/-- `ps_user_store_insert` reports what the database says of the row, unless something fails. -/
theorem insert_reports (sure : reliable) (row : UserRow) (now : Int) (db : Db) :
    Sql.Inside reliable (UserStore.insert row [ascii "USER"] now) db (Reports db row) := by
  have refused {seen : Db} {result : InsertResult} (reports : ∀ after, Reports db row result after) :
      Faulty.Ensures reliable (do rollbackInsert; return result) ⟨seen, [db, db]⟩
        fun result conn => conn.undo.getLast? = some db ∧ Reports db row result conn.db := by
    have undone : Faulty.Ensures reliable rollbackInsert ⟨seen, [db, db]⟩ fun _ conn =>
        conn = ⟨db, [db]⟩ := Faulty.ensures_always rfl
    apply Faulty.ensures_bind undone
    intro _ conn back
    rw [back]
    exact Faulty.ensures_pure ⟨rfl, reports _⟩
  apply Faulty.ensures_bind (savepoint_sure sure ⟨db, [db]⟩)
  intro saved conn started
  rw [started.1, started.2]
  apply (rowExists_sure sure _ db).andThen
  intro taken seen answer
  rw [answer.1]
  cases taken with
  | true =>
    have present : UsernameTaken db row.username := by
      obtain ⟨user, stored, same⟩ := List.any_eq_true.mp answer.2.symm
      exact ⟨user, stored, of_decide_eq_true same⟩
    exact refused fun _ => present
  | false =>
    have absent : ¬UsernameTaken db row.username := by
      intro taken
      obtain ⟨user, stored, same⟩ := taken
      exact List.any_eq_false.mp answer.2.symm user stored (decide_eq_true same)
    apply (rowExists_sure sure _ db).andThen
    intro taken seen other
    rw [other.1]
    cases taken with
    | true => exact refused fun _ => absent
    | false =>
      have unsent (user : UserRow) (stored : user ∈ db.users.rows) :
          user.emailNormalized ≠ row.emailNormalized := fun same =>
        List.any_eq_false.mp other.2.symm user stored (decide_eq_true same)
      have inserts : ∃ added, db.insertUser { row with createdAt := now, updatedAt := now } =
          some (db.nextUserId, added) := by
        unfold Db.insertUser
        split
        · rename_i names
          exact absurd names absent
        split
        · rename_i mails
          obtain ⟨user, stored, same⟩ := mails
          exact absurd same (unsent user stored)
        · exact ⟨_, rfl⟩
      obtain ⟨added, inserted⟩ := inserts
      have stated : Sql.Guarantees reliable (Sql.statement fun db => db.insertUser
          { row with createdAt := now, updatedAt := now }) db fun answer after =>
            answer = some db.nextUserId ∧ after = added := by
        apply Sql.statement_spec
        · intro cause
          rw [inserted] at cause
          exact absurd sure (cause.resolve_right (by simp))
        · intro answer after done
          rw [inserted] at done
          cases done
          exact ⟨rfl, rfl⟩
      apply stated.andThen
      intro answer seen reached
      rw [reached.1, reached.2]
      apply (insertRoles_sure sure inserted).andThen
      intro granted after grants
      rw [grants.1]
      apply Faulty.ensures_bind (release_sure sure after db [db])
      intro done conn released
      rw [released.1, released.2]
      exact Faulty.ensures_pure ⟨rfl, absent, grants.2⟩

/-- The row of a fresh verification token. -/
def freshToken (ctx : AppCtx) (now userId : Int) (rawToken : Bytes) : VerificationTokenRow where
  tokenHash := ctx.crypto.sha256 rawToken
  userId := userId
  expiresAt := now + ctx.config.verificationTtlS
  consumedAt := none
  createdAt := now

/-- `insert_fresh_token` inserts its token, or fails for its caller to roll back. -/
theorem insertFreshToken_spec (ctx : AppCtx) (env : Env) (userId : Int) (db : Db) :
    Sql.Guarantees reliable (insertFreshToken ctx env userId) db fun result after =>
      ∀ rawToken, result = some rawToken → env.rawToken.map Drawn.bytes = some rawToken ∧
        db.insertVerificationToken (freshToken ctx env.now userId rawToken) = some after := by
  unfold insertFreshToken
  cases env.rawToken with
  | none =>
    apply Sql.guarantees_pure
    intro _ impossible
    contradiction
  | some raw =>
    apply Sql.guarantees_execute
    · intro _
      apply Sql.guarantees_pure
      intro _ impossible
      contradiction
    · intro after inserted
      apply Sql.guarantees_pure
      intro rawToken same
      rw [← Option.some.inj same]
      exact ⟨rfl, inserted⟩

/-- The audit row of a request for an account that succeeded. -/
def accountEntry (env : Env) (event : AuditEvent) (userId : Int) : AuditEntry :=
  { occurredAt := env.now, event := event, outcome := .success, targetUserId := some userId,
    sourceIp := auditSourceIp env }

/-- What a registration leaves: a user with its role, a verification token and an audit row. -/
def RegisterEffect (ctx : AppCtx) (env : Env) (input : Register.Input) (db : Db) (rawToken : Bytes)
    (after : Db) : Prop :=
  env.rawToken.map Drawn.bytes = some rawToken ∧ ∃ userId added issued,
    AddsUser (Register.newRow input) [ascii "USER"] env.now db userId added ∧
    added.insertVerificationToken (freshToken ctx env.now userId rawToken) = some issued ∧
    after = issued.insertAudit (accountEntry env .register userId)

/-- The transaction of a registration leaves its whole effect or nothing. -/
theorem register_write_effect (ctx : AppCtx) (env : Env) (input : Register.Input) (db : Db) :
    Sql.Leaves reliable (Register.write ctx env input) db
      (Sql.AllOrNothing db (RegisterEffect ctx env input db)) := by
  apply Sql.leaves_of_inside
  apply Sql.inside_bind (insert_spec _ _ _ _)
  intro result added adds
  cases result with
  | duplicateUsername => exact Sql.guarantees_giveUp
  | duplicateEmail => exact Sql.guarantees_giveUp
  | error => exact Sql.guarantees_giveUp
  | ok userId =>
    apply Sql.guarantees_bind (insertFreshToken_spec ctx env userId added)
    intro answer issued fresh
    cases answer with
    | none => exact Sql.guarantees_giveUp
    | some rawToken =>
      obtain ⟨drawn, inserted⟩ := fresh rawToken rfl
      exact audited_spec ⟨drawn, userId, added, issued, adds userId rfl, inserted, rfl⟩

/-- A registration opens no session. -/
theorem RegisterEffect.sessions {ctx : AppCtx} {env : Env} {input : Register.Input} {db after : Db}
    {rawToken : Bytes} (h : RegisterEffect ctx env input db rawToken after) :
    after.sessions = db.sessions := by
  obtain ⟨_, userId, added, issued, adds, inserted, rfl⟩ := h
  exact (Db.insertVerificationToken_eq_some inserted).2.2.trans adds.sessions

/-- The transaction of a registration adds a user. -/
theorem register_write_spec (ctx : AppCtx) (env : Env) (input : Register.Input) (db : Db) :
    Sql.Leaves reliable (Register.write ctx env input) db (Sql.AllOrNothing db
      fun _ after => ∃ userId, Inserts (Register.newRow input) env.now db userId after) := by
  refine (register_write_effect ctx env input db).mono fun result after left => ?_
  cases result with
  | error reason => exact left
  | ok rawToken =>
    obtain ⟨_, userId, added, issued, adds, inserted, rfl⟩ := left
    have users := (Db.insertVerificationToken_eq_some inserted).2.1
    exact ⟨userId, adds.inserts.trans (congrArg some users.symm)⟩

/-- The content after a verification: the token consumed, the user active, an audit row. -/
def verifiedDb (env : Env) (tokenHash : Bytes) (userId : Int) (db : Db) : Db :=
  ((db.consumeVerificationTokens (fun row => row.tokenHash = tokenHash) env.now).updateUsers
    (fun user => user.userId = userId) (statusChange .active env.now)).insertAudit
    (accountEntry env .verify userId)

/-- The transaction of a verification consumes the token and activates the user. -/
theorem verify_write_spec (env : Env) (tokenHash : Bytes) (token : VerificationTokenRow) (db : Db) :
    Sql.Leaves reliable (Verify.write env tokenHash token) db (Sql.AllOrNothing db
      fun _ after => after = verifiedDb env tokenHash token.userId db) := by
  apply Sql.leaves_transaction
  apply Sql.guarantees_update
  · intro _
    exact Sql.guarantees_giveUp
  apply Sql.guarantees_update
  · intro _
    exact Sql.guarantees_giveUp
  · exact audited_spec rfl

/-- What a resend leaves: the outstanding tokens of a user replaced by a fresh one. -/
def ResendEffect (ctx : AppCtx) (env : Env) (userId : Int) (db : Db) (rawToken : Bytes)
    (after : Db) : Prop :=
  env.rawToken.map Drawn.bytes = some rawToken ∧ ∃ issued,
    (db.consumeVerificationTokens (TokenStore.outstandingOf userId) env.now).insertVerificationToken
      (freshToken ctx env.now userId rawToken) = some issued ∧
    after = issued.insertAudit (accountEntry env .resendRequested userId)

/-- The transaction of a resend leaves its whole effect or nothing. -/
theorem resend_write_effect (ctx : AppCtx) (env : Env) (user : UserRow) (db : Db) :
    Sql.Leaves reliable (Resend.write ctx env user) db
      (Sql.AllOrNothing db (ResendEffect ctx env user.userId db)) := by
  apply Sql.leaves_transaction
  apply Sql.guarantees_update
  · intro _
    exact Sql.guarantees_giveUp
  apply Sql.guarantees_bind (insertFreshToken_spec ctx env user.userId _)
  intro answer issued fresh
  cases answer with
  | none => exact Sql.guarantees_giveUp
  | some rawToken =>
    obtain ⟨drawn, inserted⟩ := fresh rawToken rfl
    exact audited_spec ⟨drawn, issued, inserted, rfl⟩

/-- A resend opens no session. -/
theorem ResendEffect.sessions {ctx : AppCtx} {env : Env} {userId : Int} {db after : Db}
    {rawToken : Bytes} (h : ResendEffect ctx env userId db rawToken after) :
    after.sessions = db.sessions := by
  obtain ⟨_, issued, inserted, rfl⟩ := h
  exact (Db.insertVerificationToken_eq_some inserted).2.2

/-- The transaction of a resend replaces the outstanding tokens of a user by a fresh one. -/
theorem resend_write_spec (ctx : AppCtx) (env : Env) (user : UserRow) (db : Db) :
    Sql.Leaves reliable (Resend.write ctx env user) db (Sql.AllOrNothing db
      fun rawToken after => env.rawToken.map Drawn.bytes = some rawToken ∧
        (db.consumeVerificationTokens (TokenStore.outstandingOf user.userId)
          env.now).emailVerificationTokens.insert (freshToken ctx env.now user.userId rawToken) =
            some after.emailVerificationTokens ∧ after.users = db.users) := by
  refine (resend_write_effect ctx env user db).mono fun result after left => ?_
  cases result with
  | error reason => exact left
  | ok rawToken =>
    obtain ⟨drawn, issued, inserted, rfl⟩ := left
    have tables := Db.insertVerificationToken_eq_some inserted
    exact ⟨drawn, tables.1, tables.2.1⟩

end PlatformService.Verif
