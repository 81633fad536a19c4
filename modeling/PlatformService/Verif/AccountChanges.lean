import PlatformService.Api.System
import PlatformService.Verif.AccountSpecs

/-!
# What the service does to accounts

The accounts are the ids of the users, their roles and their verification tokens.
`AccountChange` lists what a step of the service may do to them, and `activity_spec`
shows that every step of every activity does one of these. The session handlers
and the operator leave the accounts alone, whatever they do to other columns of a
user.
-/

namespace PlatformService.Verif

open Lib Store Api Maintenance

/-- The ids of the users, their roles and their verification tokens. -/
def accounts (db : Db) : List Int × Table (Int × Role) (Int × Role) id ×
    Table Bytes VerificationTokenRow VerificationTokenRow.tokenHash :=
  (db.users.rows.map UserRow.userId, db.userRoles, db.emailVerificationTokens)

/-- No update of users changes an account. -/
theorem accounts_updateUsers (db : Db) (selected : UserRow → Bool) (change : Db.UserChange) :
    accounts (db.updateUsers selected change) = accounts db := by
  have ids := Db.map_updateUsers db selected change UserRow.userId change.keepsId
  unfold accounts
  rw [ids]
  rfl

/-- A new family changes no account. -/
theorem accounts_insertFamily {db after : Db} {row : SessionFamilyRow}
    (done : db.insertFamily row = some after) : accounts after = accounts db := by
  unfold Db.insertFamily at done
  split at done
  · split at done
    · contradiction
    · cases done
      rfl
  · contradiction

/-- A new refresh token changes no account. -/
theorem accounts_insertRefreshToken {db after : Db} {row : RefreshTokenRow}
    (done : db.insertRefreshToken row = some after) : accounts after = accounts db := by
  unfold Db.insertRefreshToken at done
  split at done
  · split at done
    · contradiction
    · cases done
      rfl
  · contradiction

/-- Issuing a verification token grants no role. -/
theorem userRoles_insertVerificationToken {db after : Db} {row : VerificationTokenRow}
    (done : db.insertVerificationToken row = some after) : after.userRoles = db.userRoles := by
  unfold Db.insertVerificationToken at done
  split at done
  · split at done
    · contradiction
    · cases done
      rfl
  · contradiction

/-- Granting roles leaves the verification tokens alone. -/
theorem Grants.emailVerificationTokens {userId : Int} {names : List Bytes} {db after : Db}
    (h : Grants userId names db after) :
    after.emailVerificationTokens = db.emailVerificationTokens := by
  induction names generalizing db with
  | nil =>
    have same : after = db := h
    rw [same]
  | cons name names ih =>
    obtain ⟨role, granted, _, grants, rest⟩ := h
    exact (ih rest).trans (tables_of_insertUserRole grants).2

/-- Adding a user leaves the verification tokens alone. -/
theorem AddsUser.emailVerificationTokens {row : UserRow} {roleNames : List Bytes} {now : Int}
    {db : Db} {userId : Int} {after : Db} (h : AddsUser row roleNames now db userId after) :
    after.emailVerificationTokens = db.emailVerificationTokens := by
  obtain ⟨added, inserted, grants⟩ := h
  exact grants.emailVerificationTokens.trans (tables_of_insertUser inserted).2

section Frames

variable {ctx : AppCtx} {env : Env}

/-- Writing an audit row changes no account. -/
theorem accounts_audit (entry : AuditEntry) : Sql.Keeps accounts (AuditStore.write entry) :=
  Sql.keeps_update fun _ => rfl

/-- Sending mail changes no account. -/
theorem accounts_mail (toEmail subject body : Bytes) (now : Int) :
    Sql.Keeps accounts (Mailer.send toEmail subject body now) :=
  Sql.keeps_update fun _ => rfl

/-- Revoking a family changes no account. -/
theorem accounts_revokeFamily (familyId : Bytes) (cause : RevokeCause) (now : Int) :
    Sql.Keeps accounts (SessionStore.revokeFamily familyId cause now) :=
  Sql.keeps_update fun _ => rfl

/-- Setting the login failure state changes no account. -/
theorem accounts_setLoginFailureState (userId failedLogins lockedUntil now : Int) :
    Sql.Keeps accounts (UserStore.setLoginFailureState userId failedLogins lockedUntil now) :=
  Sql.keeps_update fun db => accounts_updateUsers db _ _

/-- Issuing a refresh token changes no account. -/
theorem accounts_insertToken (tokenHash familyId : Bytes) (generation : Int32) (idleExp now : Int) :
    Sql.Keeps accounts (SessionStore.insertToken tokenHash familyId generation idleExp now) :=
  Sql.keeps_execute fun _ _ done => accounts_insertRefreshToken done

/-- An audit row that decides whether a transaction is kept changes no account. -/
theorem accounts_audited {α ε : Type} (entry : AuditEntry) (result : Except ε α)
    (refused : Except ε α) :
    Sql.Keeps accounts (do if ← AuditStore.write entry then return result else return refused) :=
  Sql.keeps_bind (accounts_audit entry) fun _ => Sql.keeps_ite (Sql.keeps_pure _) (Sql.keeps_pure _)

/-- Opening a session changes no account. -/
theorem accounts_createSession (crypto : Crypto.Primitives) (userId absoluteTtlS idleTtlS now : Int)
    (familyId : Option (Crypto.Drawn 16)) (rawToken : Option (Crypto.Drawn 32)) :
    Sql.Keeps accounts
      (Session.create crypto userId absoluteTtlS idleTtlS now familyId rawToken) := by
  cases familyId with
  | none => exact Sql.keeps_pure _
  | some family =>
    have created : Sql.Keeps accounts
        (SessionStore.createFamily family.bytes userId now (now + absoluteTtlS)) :=
      Sql.keeps_execute fun _ _ done => accounts_insertFamily done
    apply Sql.keeps_bind created
    intro done
    apply Sql.keeps_ite (Sql.keeps_pure _)
    cases rawToken with
    | none => exact Sql.keeps_pure _
    | some raw =>
      apply Sql.keeps_bind (accounts_insertToken _ _ _ _ _)
      intro inserted
      exact Sql.keeps_ite (Sql.keeps_pure _) (Sql.keeps_pure _)

/-- Rotating a token changes no account. -/
theorem accounts_refreshSession (crypto : Crypto.Primitives) (tokenHash : Bytes)
    (idleTtlS now : Int) (newRaw : Option (Crypto.Drawn 32)) :
    Sql.Keeps accounts (Session.refresh crypto tokenHash idleTtlS now newRaw) := by
  apply Sql.keeps_bind (Sql.keeps_lookup _)
  intro found
  cases found with
  | none => exact Sql.keeps_pure _
  | some token =>
    apply Sql.keeps_bind (Sql.keeps_lookup _)
    intro owner
    cases owner with
    | none => exact Sql.keeps_pure _
    | some family =>
      have reused (out : Session.RefreshResult × Session.Refreshed) : Sql.Keeps accounts (do
          let _ ← SessionStore.revokeFamily token.familyId .reuseDetected now
          return out) :=
        Sql.keeps_bind (accounts_revokeFamily _ _ _) fun _ => Sql.keeps_pure _
      apply Sql.keeps_ite (reused _)
      have consumes : Sql.Keeps accounts (SessionStore.tryConsumeToken tokenHash now) :=
        Sql.keeps_statement fun _ _ _ done => by
          cases done
          rfl
      apply Sql.keeps_bind consumes
      intro claimed
      match claimed with
      | none => exact Sql.keeps_pure _
      | some false => exact reused _
      | some true =>
        apply Sql.keeps_ite (Sql.keeps_pure _)
        cases newRaw with
        | none => exact Sql.keeps_pure _
        | some raw =>
          apply Sql.keeps_bind (accounts_insertToken _ _ _ _ _)
          intro inserted
          exact Sql.keeps_ite (Sql.keeps_pure _) (Sql.keeps_pure _)

/-- The transaction of a refused login changes no account. -/
theorem accounts_writeFailure (found : Option UserRow) (passwordOk : Bool) :
    Sql.KeepsCommitted accounts (Login.writeFailure ctx env found passwordOk) := by
  apply Sql.Keeps.transaction
  have recorded : Sql.Keeps accounts (Login.recordFailure ctx env found passwordOk) := by
    cases found with
    | none => exact Sql.keeps_pure _
    | some user =>
      apply Sql.keeps_ite (Sql.keeps_pure _)
      apply Sql.keeps_bind (accounts_setLoginFailureState _ _ _ _)
      intro done
      exact Sql.keeps_ite (Sql.keeps_pure _) (Sql.keeps_pure _)
  apply Sql.keeps_bind recorded
  intro outcome
  cases outcome with
  | none => exact Sql.keeps_pure _
  | some justLocked =>
    apply Sql.keeps_bind (accounts_audit _)
    intro audited
    apply Sql.keeps_ite (Sql.keeps_pure _)
    exact Sql.keeps_ite (Sql.keeps_pure _) (accounts_audited _ _ _)

/-- The transaction of an accepted login changes no account. -/
theorem accounts_writeSuccess (userId : Int) :
    Sql.KeepsCommitted accounts (Login.writeSuccess ctx env userId) := by
  apply Sql.Keeps.transaction
  apply Sql.keeps_bind (accounts_setLoginFailureState _ _ _ _)
  intro cleared
  apply Sql.keeps_ite (Sql.keeps_pure _)
  apply Sql.keeps_bind (accounts_createSession _ _ _ _ _ _ _)
  intro created
  cases created with
  | none => exact Sql.keeps_pure _
  | some session => exact accounts_audited _ _ _

/-- No phase of a login changes an account. -/
theorem accounts_login (input : Login.Input) (phase : Login.Phase) :
    Sql.KeepsCommitted accounts (Login.step ctx env input phase) := by
  match phase with
  | .lookup => exact (Sql.keeps_bind (Sql.keeps_lookup _) fun _ => Sql.keeps_pure _).committed
  | .write (.refuse found passwordOk) =>
    apply (accounts_writeFailure found passwordOk).andThen
    intro result
    cases result with
    | ok _ => exact ⟨_, rfl⟩
    | error _ => exact ⟨_, rfl⟩
  | .write (.accept user) =>
    apply (accounts_writeSuccess user.userId).andThen
    intro result
    cases result with
    | ok session => exact ⟨_, rfl⟩
    | error _ => exact ⟨_, rfl⟩
  | .readRoles userId session =>
    exact (Sql.keeps_bind (Sql.keeps_query _) fun _ => Sql.keeps_pure _).committed
  | .done result => exact (Sql.keeps_pure _).committed

/-- No phase of a refresh changes an account. -/
theorem accounts_refresh (tokenHash : Bytes) (phase : Refresh.Phase) :
    Sql.KeepsCommitted accounts (Refresh.step ctx env tokenHash phase) := by
  cases phase with
  | write =>
    have written : Sql.KeepsCommitted accounts (Refresh.write ctx env tokenHash) := by
      apply Sql.Keeps.transaction
      apply Sql.keeps_bind (accounts_refreshSession _ _ _ _ _)
      intro outcome
      exact Sql.keeps_ite (Sql.keeps_pure _) (accounts_audited _ _ _)
    apply written.andThen
    intro result
    match result with
    | .ok (.ok, refreshed) => exact ⟨_, rfl⟩
    | .ok (.invalid, refreshed) => exact ⟨_, rfl⟩
    | .ok (.reuseDetected, refreshed) => exact ⟨_, rfl⟩
    | .ok (.error, refreshed) => exact ⟨_, rfl⟩
    | .error _ => exact ⟨_, rfl⟩
  | readRoles refreshed =>
    exact (Sql.keeps_bind (Sql.keeps_query _) fun _ => Sql.keeps_pure _).committed
  | done result => exact (Sql.keeps_pure _).committed

/-- No phase of a logout changes an account. -/
theorem accounts_logout (claims : Claims) (tokenHash : Bytes) (phase : Logout.Phase) :
    Sql.KeepsCommitted accounts (Logout.step env claims tokenHash phase) := by
  cases phase with
  | findToken =>
    apply Sql.Keeps.committed
    apply Sql.keeps_bind (Sql.keeps_lookup _)
    intro found
    cases found with
    | none => exact Sql.keeps_pure _
    | some token => exact Sql.keeps_pure _
  | findFamily token =>
    apply Sql.Keeps.committed
    apply Sql.keeps_bind (Sql.keeps_lookup _)
    intro found
    cases found with
    | none => exact Sql.keeps_pure _
    | some family => exact Sql.keeps_ite (Sql.keeps_pure _) (Sql.keeps_pure _)
  | write token family =>
    have written : Sql.KeepsCommitted accounts (Logout.write env token.familyId family.userId) := by
      apply Sql.Keeps.transaction
      apply Sql.keeps_bind (accounts_revokeFamily _ _ _)
      intro revoked
      exact Sql.keeps_ite (Sql.keeps_pure _) (accounts_audited _ _ _)
    apply written.andThen
    intro result
    cases result with
    | ok _ => exact ⟨_, rfl⟩
    | error _ => exact ⟨_, rfl⟩
  | done result => exact (Sql.keeps_pure _).committed

/-- No phase of a password change changes an account. -/
theorem accounts_passwordChange (claims : Claims) (input : PasswordChange.Input)
    (phase : PasswordChange.Phase) :
    Sql.KeepsCommitted accounts (PasswordChange.step ctx env claims input phase) := by
  cases phase with
  | lookup => exact (Sql.keeps_bind (Sql.keeps_lookup _) fun _ => Sql.keeps_pure _).committed
  | auditFailure =>
    exact (Sql.keeps_bind (accounts_audit _) fun _ => Sql.keeps_pure _).committed
  | write user newHash survivingFamilyId =>
    have written : Sql.KeepsCommitted accounts
        (PasswordChange.write env claims newHash survivingFamilyId) := by
      apply Sql.Keeps.transaction
      have stored : Sql.Keeps accounts (UserStore.setPassword claims.userId newHash.hash
          newHash.salt newHash.iterations env.now) :=
        Sql.keeps_update fun db => accounts_updateUsers db _ _
      apply Sql.keeps_bind stored
      intro updated
      apply Sql.keeps_ite (Sql.keeps_pure _)
      have revokes : Sql.Keeps accounts (SessionStore.revokeAllForUser claims.userId
          (some survivingFamilyId) .passwordChange env.now) :=
        Sql.keeps_statement fun _ _ _ done => by
          cases done
          rfl
      apply Sql.keeps_bind revokes
      intro revoked
      cases revoked with
      | none => exact Sql.keeps_pure _
      | some count => exact accounts_audited _ _ _
    apply written.andThen
    intro result
    cases result with
    | ok _ => exact ⟨_, rfl⟩
    | error _ => exact ⟨_, rfl⟩
  | done result => exact (Sql.keeps_pure _).committed

end Frames

/-- What a step of an activity may do to the accounts. -/
inductive AccountChange (ctx : AppCtx) (db : Db) : Activity → Db → Prop where
  /-- Nothing. -/
  | kept (activity : Activity) (after : Db) (same : accounts after = accounts db) :
    AccountChange ctx db activity after
  /-- Registration adds a user with its role and a verification token. -/
  | registered (env : Env) (input : Register.Input) (rawToken : Bytes) (after : Db)
    (effect : RegisterEffect ctx env input db rawToken after) :
    AccountChange ctx db (.register env input .write) after
  /-- Verification consumes its token. -/
  | verified (env : Env) (tokenHash : Bytes) (token : VerificationTokenRow) :
    AccountChange ctx db (.verify env tokenHash (.write token))
      (verifiedDb env tokenHash token.userId db)
  /-- A resend replaces the outstanding tokens of its user. -/
  | resent (env : Env) (email : Bytes) (user : UserRow) (rawToken : Bytes) (after : Db)
    (effect : ResendEffect ctx env user.userId db rawToken after) :
    AccountChange ctx db (.resend env email (.write user)) after
  /-- The sweep drops verification tokens a day after they expired. -/
  | swept (settings : Settings) (now : Int) (choices : List (Scan × Bool)) (targets : List Target)
    (selected : VerificationTokenRow → Bool)
    (expired : ∀ token ∈ db.emailVerificationTokens, selected token = true →
      token.expiresAt < now - secondsPerDay) :
    AccountChange ctx db (.sweep settings now choices targets)
      (db.deleteVerificationTokens selected)

section Steps

variable {reliable : Prop} {ctx : AppCtx} {env : Env}

/-- A step that keeps the accounts, as a step of the service. -/
theorem accountChange_of_keeps {α : Type} {command : Sql α} {activity : Activity}
    (kept : Sql.KeepsCommitted accounts command) (db : Db) :
    Sql.Leaves reliable command db fun _ after => AccountChange ctx db activity after :=
  (kept reliable db).mono fun _ after same => AccountChange.kept activity after same

/-- What a step of a registration does to the accounts. -/
theorem register_accountChange (input : Register.Input) (phase : Register.Phase) (db : Db) :
    Sql.Leaves reliable (Register.step ctx env input phase) db fun _ after =>
      AccountChange ctx db (.register env input phase) after := by
  cases phase with
  | write =>
    have written : Sql.Leaves reliable (Register.write ctx env input) db fun _ after =>
        AccountChange ctx db (.register env input .write) after := by
      refine (register_write_effect ctx env input db).mono fun result after left => ?_
      cases result with
      | error reason =>
        have same : after = db := left
        exact AccountChange.kept _ after (by rw [same])
      | ok rawToken => exact AccountChange.registered env input rawToken after left
    apply written.andThen
    intro result
    match result with
    | .ok rawToken => exact ⟨_, rfl⟩
    | .error .duplicateUsername => exact ⟨_, rfl⟩
    | .error .duplicateEmail => exact ⟨_, rfl⟩
    | .error .failed => exact ⟨_, rfl⟩
  | sendEmail rawToken =>
    exact accountChange_of_keeps
      (Sql.keeps_bind (accounts_mail _ _ _ _) fun _ => Sql.keeps_pure _).committed db
  | findOwner =>
    exact accountChange_of_keeps
      (Sql.keeps_bind (Sql.keeps_lookup _) fun _ => Sql.keeps_pure _).committed db
  | auditDuplicate existing =>
    exact accountChange_of_keeps
      (Sql.keeps_bind (accounts_audit _) fun _ => Sql.keeps_pure _).committed db
  | mailOwner existing =>
    exact accountChange_of_keeps
      (Sql.keeps_bind (accounts_mail _ _ _ _) fun _ => Sql.keeps_pure _).committed db
  | done result => exact accountChange_of_keeps (Sql.keeps_pure _).committed db

/-- What a step of a verification does to the accounts. -/
theorem verify_accountChange (tokenHash : Bytes) (phase : Verify.Phase) (db : Db) :
    Sql.Leaves reliable (Verify.step env tokenHash phase) db fun _ after =>
      AccountChange ctx db (.verify env tokenHash phase) after := by
  cases phase with
  | lookup =>
    apply accountChange_of_keeps
    apply Sql.Keeps.committed
    apply Sql.keeps_bind (Sql.keeps_lookup _)
    intro found
    cases found with
    | none => exact Sql.keeps_pure _
    | some token => exact Sql.keeps_pure _
  | auditFailure found =>
    exact accountChange_of_keeps
      (Sql.keeps_bind (accounts_audit _) fun _ => Sql.keeps_pure _).committed db
  | write token =>
    have written : Sql.Leaves reliable (Verify.write env tokenHash token) db fun _ after =>
        AccountChange ctx db (.verify env tokenHash (.write token)) after := by
      refine (verify_write_spec env tokenHash token db).mono fun result after left => ?_
      cases result with
      | error reason =>
        have same : after = db := left
        exact AccountChange.kept _ after (by rw [same])
      | ok _ =>
        have verified : after = verifiedDb env tokenHash token.userId db := left
        rw [verified]
        exact AccountChange.verified env tokenHash token
    apply written.andThen
    intro result
    cases result with
    | ok _ => exact ⟨_, rfl⟩
    | error _ => exact ⟨_, rfl⟩
  | done result => exact accountChange_of_keeps (Sql.keeps_pure _).committed db

/-- What a step of a resend does to the accounts. -/
theorem resend_accountChange (email : Bytes) (phase : Resend.Phase) (db : Db) :
    Sql.Leaves reliable (Resend.step ctx env email phase) db fun _ after =>
      AccountChange ctx db (.resend env email phase) after := by
  cases phase with
  | lookup =>
    apply accountChange_of_keeps
    apply Sql.Keeps.committed
    apply Sql.keeps_bind (Sql.keeps_lookup _)
    intro found
    cases found with
    | none => exact Sql.keeps_pure _
    | some user => exact Sql.keeps_ite (Sql.keeps_pure _) (Sql.keeps_pure _)
  | auditFailure userId reason =>
    exact accountChange_of_keeps
      (Sql.keeps_bind (accounts_audit _) fun _ => Sql.keeps_pure _).committed db
  | countMinute user =>
    apply accountChange_of_keeps
    apply Sql.Keeps.committed
    apply Sql.keeps_bind (Sql.keeps_query _)
    intro counted
    cases counted with
    | none => exact Sql.keeps_pure _
    | some recent => exact Sql.keeps_pure _
  | countDay user recentMinute =>
    apply accountChange_of_keeps
    apply Sql.Keeps.committed
    apply Sql.keeps_bind (Sql.keeps_query _)
    intro counted
    cases counted with
    | none => exact Sql.keeps_pure _
    | some recent => exact Sql.keeps_ite (Sql.keeps_pure _) (Sql.keeps_pure _)
  | write user =>
    have written : Sql.Leaves reliable (Resend.write ctx env user) db fun _ after =>
        AccountChange ctx db (.resend env email (.write user)) after := by
      refine (resend_write_effect ctx env user db).mono fun result after left => ?_
      cases result with
      | error reason =>
        have same : after = db := left
        exact AccountChange.kept _ after (by rw [same])
      | ok rawToken => exact AccountChange.resent env email user rawToken after left
    apply written.andThen
    intro result
    cases result with
    | ok rawToken => exact ⟨_, rfl⟩
    | error _ => exact ⟨_, rfl⟩
  | sendEmail user rawToken =>
    exact accountChange_of_keeps
      (Sql.keeps_bind (accounts_mail _ _ _ _) fun _ => Sql.keeps_pure _).committed db
  | done result => exact accountChange_of_keeps (Sql.keeps_pure _).committed db

/-- What a batch of a sweep does to the accounts. -/
theorem batch_accountChange (settings : Settings) (scan : Scan) (now : Int) (target : Target)
    (choices : List (Scan × Bool)) (targets : List Target) (db : Db) :
    AccountChange ctx db (.sweep settings now choices targets)
      (batch settings scan now target db).2 := by
  cases target with
  | emailVerificationTokens =>
    apply AccountChange.swept
    intro token stored selected
    obtain ⟨doomed, chosen, same⟩ := List.mem_map.mp (of_decide_eq_true selected)
    obtain ⟨member, expired⟩ := Scan.of_mem_chosen chosen
    rw [Table.eq_of_key member stored same] at expired
    exact of_decide_eq_true expired
  | refreshTokens => exact AccountChange.kept _ _ rfl
  | sessionFamilies => exact AccountChange.kept _ _ rfl
  | devOutbox => exact AccountChange.kept _ _ rfl
  | auditLog => exact AccountChange.kept _ _ rfl
  | expiredLockouts => exact AccountChange.kept _ _ (accounts_updateUsers db _ _)

/-- What a step of a sweep does to the accounts. -/
theorem sweep_accountChange (settings : Settings) (scan : Scan) (stopping : Bool) (now : Int)
    (choices : List (Scan × Bool)) (targets : List Target) (db : Db) :
    Sql.Leaves reliable (runSweep settings scan stopping now targets) db fun _ after =>
      AccountChange ctx db (.sweep settings now choices targets) after := by
  cases targets with
  | nil => exact accountChange_of_keeps (Sql.keeps_pure _).committed db
  | cons target targets =>
    apply Sql.Guarantees.leaves
    apply Sql.guarantees_statement
    · intro _
      exact Sql.guarantees_pure (AccountChange.kept _ _ rfl)
    · intro changed after done
      have result : after = (batch settings scan now target db).2 :=
        (congrArg Prod.snd (Option.some.inj done)).symm
      rw [result]
      exact Sql.guarantees_pure (batch_accountChange settings scan now target choices _ db)

/-- What a step of an activity does to the accounts. -/
theorem activity_accountChange (ctx : AppCtx) (activity : Activity) (db : Db) :
    Sql.Leaves reliable (activity.step ctx) db fun _ after =>
      AccountChange ctx db activity after := by
  cases activity with
  | register env input phase =>
    exact (register_accountChange input phase db).andThen fun _ => ⟨_, rfl⟩
  | verify env tokenHash phase =>
    exact (verify_accountChange tokenHash phase db).andThen fun _ => ⟨_, rfl⟩
  | resend env email phase =>
    exact (resend_accountChange email phase db).andThen fun _ => ⟨_, rfl⟩
  | login env input phase =>
    exact (accountChange_of_keeps (accounts_login input phase) db).andThen fun _ => ⟨_, rfl⟩
  | refresh env tokenHash phase =>
    exact (accountChange_of_keeps (accounts_refresh tokenHash phase) db).andThen fun _ => ⟨_, rfl⟩
  | logout env claims tokenHash phase =>
    exact (accountChange_of_keeps (accounts_logout claims tokenHash phase) db).andThen
      fun _ => ⟨_, rfl⟩
  | passwordChange env claims input phase =>
    exact (accountChange_of_keeps (accounts_passwordChange claims input phase) db).andThen
      fun _ => ⟨_, rfl⟩
  | sweep settings now choices targets =>
    exact (sweep_accountChange settings _ _ now choices targets db).andThen fun _ => ⟨_, rfl⟩
  | operator userId now done =>
    apply accountChange_of_keeps
    apply Sql.Keeps.committed
    apply Sql.keeps_ite (Sql.keeps_pure _)
    exact Sql.keeps_bind (Sql.keeps_update fun db => accounts_updateUsers db _ _) fun _ =>
      Sql.keeps_pure _

end Steps

/-- What a step of the service does to the accounts. -/
theorem step_accountChange {ι : Type} [DecidableEq ι] (ctx : AppCtx) (service : Service ι) (i : ι) :
    AccountChange ctx service.shared (service.thread i).activity
      (service.step (Running.act ctx) i).shared :=
  Running.act_spec (activity_accountChange ctx (service.thread i).activity service.shared)

end PlatformService.Verif
