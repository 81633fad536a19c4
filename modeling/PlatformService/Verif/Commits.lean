import PlatformService.Verif.AccountSpecs
import PlatformService.Verif.Roster
import PlatformService.Verif.SessionSpecs
import PlatformService.Verif.UserInsertion

/-!
# What is committed

`Commit` lists everything that a step of an activity can leave in the database, with the whole content
after it, and `Change` everything that an event in the life of the service can. A property of all changes
is shown by one case for each.
-/

namespace PlatformService.Verif

open Lib Store Api Maintenance

section Tables

variable {db after : Db}

/-- A new verification token changes no other table. -/
theorem others_insertVerificationToken {row : VerificationTokenRow}
    (done : db.insertVerificationToken row = some after) :
    after.users = db.users ∧ after.userRoles = db.userRoles ∧
      after.sessionFamilies = db.sessionFamilies ∧ after.refreshTokens = db.refreshTokens ∧
      after.devOutbox = db.devOutbox ∧ after.auditLog = db.auditLog := by
  unfold Db.insertVerificationToken at done
  split at done
  · split at done
    · contradiction
    · cases done
      exact ⟨rfl, rfl, rfl, rfl, rfl, rfl⟩
  · contradiction

/-- A new family changes no other table. -/
theorem others_insertFamily {row : SessionFamilyRow} (done : db.insertFamily row = some after) :
    after.users = db.users ∧ after.userRoles = db.userRoles ∧
      after.emailVerificationTokens = db.emailVerificationTokens ∧
      after.refreshTokens = db.refreshTokens ∧ after.devOutbox = db.devOutbox ∧
      after.auditLog = db.auditLog := by
  unfold Db.insertFamily at done
  split at done
  · split at done
    · contradiction
    · cases done
      exact ⟨rfl, rfl, rfl, rfl, rfl, rfl⟩
  · contradiction

/-- A new refresh token changes no other table. -/
theorem others_insertRefreshToken {row : RefreshTokenRow}
    (done : db.insertRefreshToken row = some after) :
    after.users = db.users ∧ after.userRoles = db.userRoles ∧
      after.emailVerificationTokens = db.emailVerificationTokens ∧
      after.sessionFamilies = db.sessionFamilies ∧ after.devOutbox = db.devOutbox ∧
      after.auditLog = db.auditLog := by
  unfold Db.insertRefreshToken at done
  split at done
  · split at done
    · contradiction
    · cases done
      exact ⟨rfl, rfl, rfl, rfl, rfl, rfl⟩
  · contradiction

/-- A user that is added changes none of the tables but its own and that of the roles. -/
theorem AddsUser.others {row : UserRow} {roleNames : List Bytes} {now userId : Int}
    (adds : AddsUser row roleNames now db userId after) :
    after.emailVerificationTokens = db.emailVerificationTokens ∧
      after.sessionFamilies = db.sessionFamilies ∧ after.refreshTokens = db.refreshTokens ∧
      after.devOutbox = db.devOutbox ∧ after.auditLog = db.auditLog := by
  obtain ⟨added, inserted, grants⟩ := adds
  have first := (UserInsertion.rows_of_insertUser inserted).2.2
  have rest := (UserInsertion.others_of_grants grants).2
  exact ⟨rest.1.trans first.1, rest.2.1.trans first.2.1, rest.2.2.1.trans first.2.2.1,
    rest.2.2.2.1.trans first.2.2.2.1, rest.2.2.2.2.trans first.2.2.2.2.1⟩

/-- A refused login changes the users only, and leaves the rest as it was. -/
theorem tables_refusedDb (ctx : AppCtx) (env : Env) (db : Db) (found : Option UserRow) (passwordOk : Bool) :
    let after := refusedDb ctx env found passwordOk db
    after.users = (failedUsers ctx env found passwordOk db).users ∧ after.userRoles = db.userRoles ∧
      after.emailVerificationTokens = db.emailVerificationTokens ∧
      after.sessionFamilies = db.sessionFamilies ∧ after.refreshTokens = db.refreshTokens := by
  have untouched : (failedUsers ctx env found passwordOk db).userRoles = db.userRoles ∧
      (failedUsers ctx env found passwordOk db).emailVerificationTokens =
        db.emailVerificationTokens ∧
      (failedUsers ctx env found passwordOk db).sessionFamilies = db.sessionFamilies ∧
      (failedUsers ctx env found passwordOk db).refreshTokens = db.refreshTokens := by
    unfold failedUsers
    split
    · exact ⟨rfl, rfl, rfl, rfl⟩
    · split
      · exact ⟨rfl, rfl, rfl, rfl⟩
      · exact ⟨rfl, rfl, rfl, rfl⟩
  unfold refusedDb
  dsimp only
  split
  · exact ⟨rfl, untouched⟩
  · exact ⟨rfl, untouched⟩

end Tables

/-- Everything that a step of an activity can leave. -/
inductive Commit (ctx : AppCtx) (db : Db) : Activity → Db → Prop where
  /-- What it found. -/
  | nothing (activity : Activity) : Commit ctx db activity db
  /-- A refusal is noted in the audit log. -/
  | noted (activity : Activity) (entry : AuditEntry) (refusal : entry.outcome = .failure) :
    Commit ctx db activity (db.insertAudit entry)
  /-- A mail is in the outbox. -/
  | mailed (activity : Activity) (row : OutboxRow) : Commit ctx db activity (db.insertOutbox row)
  | registered (env : Env) (input : Register.Input) (rawToken : Bytes) (after : Db)
    (effect : RegisterEffect ctx env input db rawToken after) :
    Commit ctx db (.register env input .write) after
  | verified (env : Env) (tokenHash : Bytes) (token : VerificationTokenRow) :
    Commit ctx db (.verify env tokenHash (.write token)) (verifiedDb env tokenHash token.userId db)
  | resent (env : Env) (email : Bytes) (user : UserRow) (rawToken : Bytes) (after : Db)
    (effect : ResendEffect ctx env user.userId db rawToken after) :
    Commit ctx db (.resend env email (.write user)) after
  | loginRefused (env : Env) (input : Login.Input) (found : Option UserRow) (passwordOk : Bool) :
    Commit ctx db (.login env input (.write (.refuse found passwordOk)))
      (refusedDb ctx env found passwordOk db)
  | loggedIn (env : Env) (input : Login.Input) (user : UserRow) (created : Session.Created) (after : Db)
    (effect : LoginEffect ctx env user.userId db created after) :
    Commit ctx db (.login env input (.write (.accept user))) after
  | refreshed (env : Env) (tokenHash : Bytes) (outcome : Session.RefreshResult × Session.Refreshed)
    (seen : Db) (fine : outcome.1 ≠ .error)
    (step : RefreshStep False ctx.crypto tokenHash ctx.config.refreshIdleTtlS env.now env.rawToken db
      outcome seen) :
    Commit ctx db (.refresh env tokenHash .write)
      (seen.insertAudit (Refresh.auditEntry env outcome.1 outcome.2))
  | loggedOut (env : Env) (claims : Claims) (tokenHash : Bytes) (token : RefreshTokenRow)
    (family : SessionFamilyRow) :
    Commit ctx db (.logout env claims tokenHash (.write token family))
      (loggedOutDb env token.familyId family.userId db)
  | passwordChanged (env : Env) (claims : Claims) (input : PasswordChange.Input) (user : UserRow)
    (newHash : Password.Hash) (survivingFamilyId : Bytes) :
    Commit ctx db (.passwordChange env claims input (.write user newHash survivingFamilyId))
      (passwordChangedDb env claims.userId newHash survivingFamilyId db)
  | swept (settings : Settings) (now : Int) (choices : List (Scan × Bool)) (target : Target)
    (targets : List Target) :
    Commit ctx db (.sweep settings now choices (target :: targets))
      (batch settings (choices.headD (Scan.inOrder, false)).1 now target db).2
  | disabled (userId now : Int) :
    Commit ctx db (.operator userId now false)
      (db.updateUsers (fun user => user.userId = userId) (UserStore.statusChange .disabled now))

section Steps

variable {α ε : Type} {ctx : AppCtx} {env : Env} {db : Db} {activity : Activity}

/-- A block that only reads leaves what it found. -/
theorem commit_of_reads {command : Sql α} (reads : Sql.Keeps id command) :
    Sql.Leaves False command db fun _ after => Commit ctx db activity after :=
  (reads.committed False db).mono fun _ after same => by
    have found : after = db := same
    rw [found]
    exact Commit.nothing activity

/-- A refusal that is noted outside a transaction. -/
theorem commit_of_note {entry : AuditEntry} {next : Bool → α} (refusal : entry.outcome = .failure) :
    Sql.Leaves False (do return next (← AuditStore.write entry)) db
      fun _ after => Commit ctx db activity after := by
  apply Sql.Guarantees.leaves
  apply Sql.guarantees_update
  · intro _
    exact Sql.guarantees_pure (Commit.nothing activity)
  · exact Sql.guarantees_pure (Commit.noted activity entry refusal)

/-- A mail that is sent outside a transaction. -/
theorem commit_of_mail {toEmail subject body : Bytes} {now : Int} {next : Bool → α} :
    Sql.Leaves False (do return next (← Mailer.send toEmail subject body now)) db
      fun _ after => Commit ctx db activity after := by
  apply Sql.Guarantees.leaves
  apply Sql.guarantees_update
  · intro _
    exact Sql.guarantees_pure (Commit.nothing activity)
  · exact Sql.guarantees_pure (Commit.mailed activity _)

/-- A transaction that leaves its whole effect or what it found. -/
theorem commit_of_effect (ctx : AppCtx) (activity : Activity) {command : Sql (Except ε α)}
    {effect : α → Db → Prop}
    (spec : Sql.Leaves False command db (Sql.AllOrNothing db effect))
    (commits : ∀ value after, effect value after → Commit ctx db activity after) :
    Sql.Leaves False command db fun _ after => Commit ctx db activity after := by
  refine spec.mono fun result after left => ?_
  cases result with
  | ok value => exact commits value after left
  | error reason =>
    have found : after = db := left
    rw [found]
    exact Commit.nothing activity

/-- A step of a registration. -/
theorem commit_register (input : Register.Input) (phase : Register.Phase) (db : Db) :
    Sql.Leaves False (Register.step ctx env input phase) db fun _ after =>
      Commit ctx db (.register env input phase) after := by
  cases phase with
  | write =>
    have written := commit_of_effect ctx (.register env input .write)
      (register_write_effect ctx env input db)
      fun rawToken after effect => Commit.registered env input rawToken after effect
    apply written.andThen
    intro result
    rcases result with reason | rawToken
    · cases reason with
      | duplicateUsername => exact ⟨_, rfl⟩
      | duplicateEmail => exact ⟨_, rfl⟩
      | failed => exact ⟨_, rfl⟩
    · exact ⟨_, rfl⟩
  | sendEmail rawToken => exact commit_of_mail
  | findOwner => exact commit_of_reads (Sql.keeps_bind (Sql.keeps_lookup _) fun _ => Sql.keeps_pure _)
  | auditDuplicate existing => exact commit_of_note rfl
  | mailOwner existing => exact commit_of_mail
  | done result => exact commit_of_reads (Sql.keeps_pure _)

/-- A step of a verification. -/
theorem commit_verify (tokenHash : Bytes) (phase : Verify.Phase) (db : Db) :
    Sql.Leaves False (Verify.step env tokenHash phase) db fun _ after =>
      Commit ctx db (.verify env tokenHash phase) after := by
  cases phase with
  | lookup =>
    apply commit_of_reads
    apply Sql.keeps_bind (Sql.keeps_lookup _)
    intro found
    cases found with
    | none => exact Sql.keeps_pure _
    | some token => exact Sql.keeps_pure _
  | auditFailure found => exact commit_of_note rfl
  | write token =>
    have written := commit_of_effect ctx (.verify env tokenHash (.write token))
      (verify_write_spec env tokenHash token db)
      fun _ after same => same ▸ Commit.verified env tokenHash token
    apply written.andThen
    intro result
    cases result with
    | ok _ => exact ⟨_, rfl⟩
    | error _ => exact ⟨_, rfl⟩
  | done result => exact commit_of_reads (Sql.keeps_pure _)

/-- A step of a resend. -/
theorem commit_resend (email : Bytes) (phase : Resend.Phase) (db : Db) :
    Sql.Leaves False (Resend.step ctx env email phase) db fun _ after =>
      Commit ctx db (.resend env email phase) after := by
  cases phase with
  | lookup =>
    apply commit_of_reads
    apply Sql.keeps_bind (Sql.keeps_lookup _)
    intro found
    cases found with
    | none => exact Sql.keeps_pure _
    | some user => exact Sql.keeps_ite (Sql.keeps_pure _) (Sql.keeps_pure _)
  | auditFailure userId reason => exact commit_of_note rfl
  | countMinute user =>
    apply commit_of_reads
    apply Sql.keeps_bind (Sql.keeps_query _)
    intro counted
    cases counted with
    | none => exact Sql.keeps_pure _
    | some recent => exact Sql.keeps_pure _
  | countDay user recentMinute =>
    apply commit_of_reads
    apply Sql.keeps_bind (Sql.keeps_query _)
    intro counted
    cases counted with
    | none => exact Sql.keeps_pure _
    | some recent => exact Sql.keeps_ite (Sql.keeps_pure _) (Sql.keeps_pure _)
  | write user =>
    have written := commit_of_effect ctx (.resend env email (.write user))
      (resend_write_effect ctx env user db)
      fun rawToken after effect => Commit.resent env email user rawToken after effect
    apply written.andThen
    intro result
    cases result with
    | ok rawToken => exact ⟨_, rfl⟩
    | error _ => exact ⟨_, rfl⟩
  | sendEmail user rawToken => exact commit_of_mail
  | done result => exact commit_of_reads (Sql.keeps_pure _)

/-- A step of a login. -/
theorem commit_login (input : Login.Input) (phase : Login.Phase) (db : Db) :
    Sql.Leaves False (Login.step ctx env input phase) db fun _ after =>
      Commit ctx db (.login env input phase) after := by
  cases phase with
  | lookup => exact commit_of_reads (Sql.keeps_bind (Sql.keeps_lookup _) fun _ => Sql.keeps_pure _)
  | write decision =>
    cases decision with
    | refuse found passwordOk =>
      have settles : Sql.Leaves False (Login.writeFailure ctx env found passwordOk) db
          (Sql.AllOrNothing db fun _ after => after = refusedDb ctx env found passwordOk db) :=
        (writeFailure_effect ctx env found passwordOk db).mono fun _ _ settled => settled.allOrNothing
      have written := commit_of_effect ctx
        (.login env input (.write (.refuse found passwordOk))) settles
        fun _ after same => same ▸ Commit.loginRefused env input found passwordOk
      apply written.andThen
      intro result
      cases result with
      | ok _ => exact ⟨_, rfl⟩
      | error _ => exact ⟨_, rfl⟩
    | accept user =>
      have written := commit_of_effect ctx (.login env input (.write (.accept user)))
        (writeSuccess_effect ctx env user.userId db)
        fun created after effect => Commit.loggedIn env input user created after effect
      apply written.andThen
      intro result
      cases result with
      | ok session => exact ⟨_, rfl⟩
      | error _ => exact ⟨_, rfl⟩
  | readRoles userId session =>
    exact commit_of_reads (Sql.keeps_bind (Sql.keeps_query _) fun _ => Sql.keeps_pure _)
  | done result => exact commit_of_reads (Sql.keeps_pure _)

/-- A step of a refresh. -/
theorem commit_refresh (tokenHash : Bytes) (phase : Refresh.Phase) (db : Db) :
    Sql.Leaves False (Refresh.step ctx env tokenHash phase) db fun _ after =>
      Commit ctx db (.refresh env tokenHash phase) after := by
  cases phase with
  | write =>
    have written := commit_of_effect ctx (.refresh env tokenHash .write)
      (refresh_write_spec ctx env tokenHash db) fun outcome after left => by
        obtain ⟨fine, seen, audited, step⟩ := left
        rw [audited]
        exact Commit.refreshed env tokenHash outcome seen fine step
    apply written.andThen
    intro result
    rcases result with reason | ⟨verdict, refreshed⟩
    · exact ⟨_, rfl⟩
    · cases verdict with
      | ok => exact ⟨_, rfl⟩
      | invalid => exact ⟨_, rfl⟩
      | reuseDetected => exact ⟨_, rfl⟩
      | error => exact ⟨_, rfl⟩
  | readRoles refreshed =>
    exact commit_of_reads (Sql.keeps_bind (Sql.keeps_query _) fun _ => Sql.keeps_pure _)
  | done result => exact commit_of_reads (Sql.keeps_pure _)

/-- A step of a logout. -/
theorem commit_logout (claims : Claims) (tokenHash : Bytes) (phase : Logout.Phase) (db : Db) :
    Sql.Leaves False (Logout.step env claims tokenHash phase) db fun _ after =>
      Commit ctx db (.logout env claims tokenHash phase) after := by
  cases phase with
  | findToken =>
    apply commit_of_reads
    apply Sql.keeps_bind (Sql.keeps_lookup _)
    intro found
    cases found with
    | none => exact Sql.keeps_pure _
    | some token => exact Sql.keeps_pure _
  | findFamily token =>
    apply commit_of_reads
    apply Sql.keeps_bind (Sql.keeps_lookup _)
    intro found
    cases found with
    | none => exact Sql.keeps_pure _
    | some family => exact Sql.keeps_ite (Sql.keeps_pure _) (Sql.keeps_pure _)
  | write token family =>
    have written := commit_of_effect ctx
      (.logout env claims tokenHash (.write token family))
      (logout_write_spec env token.familyId family.userId db)
      fun _ after same => same ▸ Commit.loggedOut env claims tokenHash token family
    apply written.andThen
    intro result
    cases result with
    | ok _ => exact ⟨_, rfl⟩
    | error _ => exact ⟨_, rfl⟩
  | done result => exact commit_of_reads (Sql.keeps_pure _)

/-- A step of a password change. -/
theorem commit_passwordChange (claims : Claims) (input : PasswordChange.Input)
    (phase : PasswordChange.Phase) (db : Db) :
    Sql.Leaves False (PasswordChange.step ctx env claims input phase) db fun _ after =>
      Commit ctx db (.passwordChange env claims input phase) after := by
  cases phase with
  | lookup => exact commit_of_reads (Sql.keeps_bind (Sql.keeps_lookup _) fun _ => Sql.keeps_pure _)
  | auditFailure => exact commit_of_note rfl
  | write user newHash survivingFamilyId =>
    have written := commit_of_effect ctx
      (.passwordChange env claims input (.write user newHash survivingFamilyId))
      (passwordChange_write_spec env claims newHash survivingFamilyId db)
      fun _ after same => same ▸ Commit.passwordChanged env claims input user newHash survivingFamilyId
    apply written.andThen
    intro result
    cases result with
    | ok _ => exact ⟨_, rfl⟩
    | error _ => exact ⟨_, rfl⟩
  | done result => exact commit_of_reads (Sql.keeps_pure _)

/-- A step of a sweep. -/
theorem commit_sweep (settings : Settings) (now : Int) (choices : List (Scan × Bool))
    (targets : List Target) (db : Db) :
    Sql.Leaves False (Activity.step ctx (.sweep settings now choices targets)) db fun _ after =>
      Commit ctx db (.sweep settings now choices targets) after := by
  apply Sql.Guarantees.leaves
  cases targets with
  | nil => exact Sql.guarantees_pure (Commit.nothing _)
  | cons target targets =>
    apply Sql.guarantees_bind (Sql.guarantees_statement _ _)
    · intro remaining after reached
      exact Sql.guarantees_pure reached
    · intro _
      exact Sql.guarantees_pure (Commit.nothing _)
    · intro changed after done
      have result : (batch settings (choices.headD (Scan.inOrder, false)).1 now target db).2 = after :=
        congrArg Prod.snd (Option.some.inj done)
      exact Sql.guarantees_pure (result ▸ Commit.swept settings now choices target targets)

/-- A step of the operator. -/
theorem commit_operator (userId now : Int) (done : Bool) (db : Db) :
    Sql.Leaves False (Activity.step ctx (.operator userId now done)) db fun _ after =>
      Commit ctx db (.operator userId now done) after := by
  apply Sql.Guarantees.leaves
  cases done with
  | true => exact Sql.guarantees_pure (Commit.nothing _)
  | false =>
    apply Sql.guarantees_update
    · intro _
      exact Sql.guarantees_pure (Commit.nothing _)
    · exact Sql.guarantees_pure (Commit.disabled userId now)

/-- A step of an activity leaves nothing but what `Commit` lists. -/
theorem commit_of_act (ctx : AppCtx) (db : Db) (running : Running) :
    Commit ctx db running.activity (running.act ctx db).1 := by
  have spec : Sql.Leaves False (running.activity.step ctx) db fun _ after =>
      Commit ctx db running.activity after := by
    cases running.activity with
    | register env input phase => exact Sql.Leaves.map (commit_register input phase db) fun _ => rfl
    | verify env tokenHash phase => exact Sql.Leaves.map (commit_verify tokenHash phase db) fun _ => rfl
    | resend env email phase => exact Sql.Leaves.map (commit_resend email phase db) fun _ => rfl
    | login env input phase => exact Sql.Leaves.map (commit_login input phase db) fun _ => rfl
    | refresh env tokenHash phase =>
      exact Sql.Leaves.map (commit_refresh tokenHash phase db) fun _ => rfl
    | logout env claims tokenHash phase =>
      exact Sql.Leaves.map (commit_logout claims tokenHash phase db) fun _ => rfl
    | passwordChange env claims input phase =>
      exact Sql.Leaves.map (commit_passwordChange claims input phase db) fun _ => rfl
    | sweep settings now choices targets => exact commit_sweep settings now choices targets db
    | operator userId now done => exact commit_operator userId now done db
  exact (spec running.faults (by simp)).1

end Steps

section Events

variable {reliable : Prop}

/-- The audit row of the first administrator. -/
def bootstrapEntry (now userId : Int) : AuditEntry :=
  { occurredAt := now, event := .bootstrapAdminCreated, outcome := .success,
    targetUserId := some userId }

/-- What a start leaves that creates the first administrator. -/
def BootstrapEffect (row : UserRow) (now : Int) (db after : Db) : Prop :=
  ∃ userId added, AddsUser row [ascii "USER", ascii "ADMIN"] now db userId added ∧
    after = added.insertAudit (bootstrapEntry now userId)

/-- The transaction of `ps_bootstrap_admin` leaves its whole effect or nothing. -/
theorem bootstrap_write_effect (row : UserRow) (now : Int) (db : Db) :
    Sql.Leaves reliable (Bootstrap.write row now) db
      (Sql.AllOrNothing db fun _ after => BootstrapEffect row now db after) := by
  apply Sql.leaves_of_inside
  apply Sql.inside_bind (insert_spec _ _ _ _)
  intro result added adds
  cases result with
  | duplicateUsername => exact Sql.guarantees_giveUp
  | duplicateEmail => exact Sql.guarantees_giveUp
  | error => exact Sql.guarantees_giveUp
  | ok userId => exact audited_spec ⟨userId, added, adds userId rfl, rfl⟩

/-- A row as an account begins: with a status, no failed login and no lock. -/
def Begins (status : UserStatus) (row : UserRow) : Prop :=
  row.status = status ∧ row.failedLogins = 0 ∧ row.lockedUntil = none

/-- What the credentials lead to is a row as an active account begins. -/
theorem begins_of_credentials {crypto : Crypto.Primitives} {config : Config}
    {denylist : Option (List Bytes)} {settings : Bootstrap.Settings}
    {salt : Option (Crypto.Drawn 16)} {row : UserRow}
    (accepted : Bootstrap.credentials crypto config denylist settings salt = .ok row) :
    Begins .active row := by
  simp only [Bootstrap.credentials, bind, Except.bind, pure, Except.pure, throw,
    throwThe, MonadExceptOf.throw] at accepted
  split at accepted
  · contradiction
  split at accepted
  · split at accepted
    · split at accepted
      · contradiction
      split at accepted
      · rw [← Except.ok.inj accepted]
        exact ⟨rfl, rfl, rfl⟩
      · contradiction
    · contradiction
  · contradiction

/-- What a start leaves: the first administrator, or what it found. -/
theorem bootstrap_effect (reliable : Prop) (crypto : Crypto.Primitives) (config : Config)
    (denylist : Option (List Bytes)) (settings : Bootstrap.Settings)
    (salt : Option (Crypto.Drawn 16)) (now : Int) (db : Db) :
    Sql.Leaves reliable (Bootstrap.admin crypto config denylist settings salt now) db fun _ after =>
      after = db ∨ ∃ row, Begins .active row ∧ BootstrapEffect row now db after := by
  have reads : Sql.Keeps id Bootstrap.countAdmins := Sql.keeps_query _
  apply (reads reliable db).andThen
  intro answer seen same
  have found : seen = db := same
  rw [found]
  cases answer with
  | none => exact Faulty.ensures_pure (Or.inl rfl)
  | some count =>
    dsimp only
    by_cases present : 0 < count
    · rw [if_pos present]
      exact Faulty.ensures_pure (Or.inl rfl)
    · rw [if_neg present]
      cases accepted : Bootstrap.credentials crypto config denylist settings salt with
      | error result => exact Faulty.ensures_pure (Or.inl rfl)
      | ok row =>
        have written : Sql.Leaves reliable (Bootstrap.write row now) db fun _ after =>
            after = db ∨ ∃ row, Begins .active row ∧ BootstrapEffect row now db after := by
          refine (bootstrap_write_effect row now db).mono fun result after left => ?_
          cases result with
          | error reason => exact Or.inl left
          | ok _ => exact Or.inr ⟨row, begins_of_credentials accepted, left⟩
        apply written.andThen
        intro result
        cases result with
        | ok _ => exact ⟨_, rfl⟩
        | error _ => exact ⟨_, rfl⟩

/-- Everything that an event in the life of the service can leave. -/
inductive Change (ctx : AppCtx) (server : Server) : Roster.LifeEvent → Db → Prop where
  /-- What it found. -/
  | nothing (event : Roster.LifeEvent) : Change ctx server event server.db
  /-- An administrator's request is noted, which is answered at once. -/
  | watched (arrival : Arrival) (entry : AuditEntry)
    (reading : entry.event = .adminUserRead ∨ entry.event = .adminUserList) :
    Change ctx server (.request arrival) (server.db.insertAudit entry)
  /-- A handler or the maintenance thread takes its turn. -/
  | turned (handler : Nat) (running : Running) (after : Db)
    (present : server.handlers[handler]? = some running)
    (commit : Commit ctx server.db running.activity after) : Change ctx server (.turn handler) after
  /-- A start creates the first administrator. -/
  | started (boot : Roster.Boot) (row : UserRow) (after : Db) (begins : Begins .active row)
    (effect : BootstrapEffect row boot.now server.db after) : Change ctx server (.restart boot) after

variable {ctx : AppCtx}

/-- A read that is noted outside a transaction. -/
theorem leaves_watched {α : Type} {entry : AuditEntry} {next : Bool → α} {arrival : Arrival}
    {server : Server} (reading : entry.event = .adminUserRead ∨ entry.event = .adminUserList) :
    Sql.Guarantees False (do return next (← AuditStore.write entry)) server.db
      fun _ after => Change ctx server (.request arrival) after := by
  apply Sql.guarantees_update
  · intro _
    exact Sql.guarantees_pure (Change.nothing _)
  · exact Sql.guarantees_pure (Change.watched arrival entry reading)

/-- An arriving request leaves nothing but what `Change` lists. -/
theorem change_request (server : Server) (arrival : Arrival) :
    Change ctx server (.request arrival) (server.next ctx (.arrives arrival)).db := by
  unfold Server.next
  dsimp only
  cases arrival.dispatched ctx with
  | error result => exact Change.nothing _
  | ok handler =>
    dsimp only
    generalize arrival.begins ctx handler = call
    have reads {command : Sql HandlerResult} (kept : Sql.Guarantees False command server.db
        fun _ after => Change ctx server (.request arrival) after) :
        Change ctx server (.request arrival)
          ((do return some (← command) : Sql (Option HandlerResult))
            (Conn.of server.db, arrival.faults)).2.1.committed :=
      ((Sql.guarantees_bind kept fun _ _ left => Sql.guarantees_pure left).leaves
        arrival.faults (by simp)).1
    cases call with
    | activity activity => exact Change.nothing _
    | answered result => exact Change.nothing _
    | getUser env claims targetUserId =>
      apply reads
      apply Sql.guarantees_lookup
      · intro _
        exact Sql.guarantees_pure (Change.nothing _)
      · cases server.db.users.find? targetUserId with
        | none => exact Sql.guarantees_pure (Change.nothing _)
        | some user =>
          apply Sql.guarantees_ite
          · intro _
            exact Sql.guarantees_pure (Change.nothing _)
          · intro _
            exact leaves_watched (Or.inl rfl)
    | countUsers =>
      apply reads
      apply Sql.guarantees_query
      · intro _
        exact Sql.guarantees_pure (Change.nothing _)
      · exact Sql.guarantees_pure (Change.nothing _)
    | listUsers env claims page =>
      apply reads
      apply Sql.guarantees_query
      · intro _
        exact Sql.guarantees_pure (Change.nothing _)
      · exact leaves_watched (Or.inr rfl)

/-- An event leaves nothing but what `Change` lists. -/
theorem change_next (ctx : AppCtx) (server : Server) (event : Roster.LifeEvent) :
    Change ctx server event (Roster.next ctx server event).db := by
  cases event with
  | request arrival => exact change_request server arrival
  | turn handler =>
    unfold Roster.next Server.step
    dsimp only
    cases present : server.handlers[handler]? with
    | none => exact Change.nothing _
    | some running => exact Change.turned handler running _ present (commit_of_act ctx server.db running)
  | maintenance settings now choices faults => exact Change.nothing _
  | restart boot =>
    have spec := bootstrap_effect False ctx.crypto ctx.config ctx.passwordDenylist
      boot.settings boot.salt boot.now server.db
    rcases (spec boot.faults (by simp)).1 with same | ⟨row, begins, effect⟩
    · have found : Roster.boots ctx boot server.db = server.db := same
      show Change ctx server (.restart boot) (Roster.boots ctx boot server.db)
      rw [found]
      exact Change.nothing _
    · exact Change.started boot row _ begins effect

end Events

end PlatformService.Verif
