import PlatformService.Api.System
import PlatformService.Verif.AccountSpecs

/-!
# What a step does to the sessions

`SessionEffect` lists everything that a step of the service can do to the tables
of the sessions, together with the phase it leads to, and `activity_spec` shows
that it is everything. The statements about lifetimes and revocations follow from
the list.
-/

namespace PlatformService.Verif

open Lib Store Crypto Session Api SessionStore Maintenance

/-- The answer to a logout that names another user's session. -/
def forbidden : HandlerResult :=
  errorResult 403 "FORBIDDEN" "refresh token does not belong to this account"

/-- Everything a step of a logout can do. -/
inductive LogoutStep (reliable : Prop) (env : Env) (claims : Claims) (tokenHash : Bytes) (db : Db) :
    Logout.Phase → Logout.Phase → Db → Prop where
  /-- The token is not stored, or reading it failed. -/
  | unknown (absent : ¬reliable ∨ db.refreshTokens.find? tokenHash = none) :
    LogoutStep reliable env claims tokenHash db .findToken (.done Logout.noContent) db
  /-- The token is stored. -/
  | found (token : RefreshTokenRow) (stored : db.refreshTokens.find? tokenHash = some token) :
    LogoutStep reliable env claims tokenHash db .findToken (.findFamily token) db
  /-- The family is gone, or reading it failed. -/
  | missing (token : RefreshTokenRow)
    (absent : ¬reliable ∨ db.sessionFamilies.find? token.familyId = none) :
    LogoutStep reliable env claims tokenHash db (.findFamily token) (.done internalErrorResult) db
  /-- The family belongs to another user. -/
  | foreign (token : RefreshTokenRow) (family : SessionFamilyRow)
    (stored : db.sessionFamilies.find? token.familyId = some family)
    (other : family.userId ≠ claims.userId) :
    LogoutStep reliable env claims tokenHash db (.findFamily token) (.done forbidden) db
  /-- The family belongs to the user of the access token. -/
  | owned (token : RefreshTokenRow) (family : SessionFamilyRow)
    (stored : db.sessionFamilies.find? token.familyId = some family)
    (own : family.userId = claims.userId) :
    LogoutStep reliable env claims tokenHash db (.findFamily token) (.write token family) db
  /-- The family is revoked. -/
  | revoked (token : RefreshTokenRow) (family : SessionFamilyRow) :
    LogoutStep reliable env claims tokenHash db (.write token family) (.done Logout.noContent)
      (loggedOutDb env token.familyId family.userId db)
  /-- Some statement failed. -/
  | failed (token : RefreshTokenRow) (family : SessionFamilyRow) (possible : ¬reliable) :
    LogoutStep reliable env claims tokenHash db (.write token family) (.done internalErrorResult) db
  /-- The logout was over. -/
  | finished (result : HandlerResult) :
    LogoutStep reliable env claims tokenHash db (.done result) (.done result) db

/-- Whether an activity is a logout. -/
def isLogout : Activity → Bool
  | .logout _ _ _ _ => true
  | _ => false

/-- What a step that leaves the sessions alone leads to, other than a step of a logout: no tokens are
about to be handed out, and a password change spares the family its access token names. -/
def Quiet : Activity → Prop
  | .login _ _ (.readRoles _ _) => False
  | .refresh _ _ (.readRoles _) => False
  | .logout _ _ _ _ => False
  | .passwordChange _ claims _ (.write _ _ survivingFamilyId) =>
    hexDecode claims.familyId = some survivingFamilyId
  | _ => True

/-- The phase that a refresh reaches with what `ps_session_refresh` reported. -/
def refreshedPhase (outcome : RefreshResult × Refreshed) : Refresh.Phase :=
  if outcome.1 = .ok then .readRoles outcome.2 else .done Refresh.unauthorized

/-- Everything a step of an activity can do to the sessions. -/
inductive SessionEffect (reliable : Prop) (ctx : AppCtx) (db : Db) :
    Activity → Activity → Db → Prop where
  /-- Nothing. -/
  | kept (activity next : Activity) (after : Db) (same : after.sessions = db.sessions)
    (other : isLogout activity = false) (quiet : Quiet next) :
    SessionEffect reliable ctx db activity next after
  /-- A login opens a family with its first token. -/
  | opened (env : Env) (input : Login.Input) (user : UserRow) (created : Created) (after : Db)
    (opens : Opens ctx.crypto user.userId ctx.config.refreshAbsoluteTtlS ctx.config.refreshIdleTtlS
      env.now env.familyId env.rawToken (clearedUsers db user.userId env.now) created after) :
    SessionEffect reliable ctx db (.login env input (.write (.accept user)))
      (.login env input (.readRoles user.userId created)) after
  /-- A refresh commits what `ps_session_refresh` did. -/
  | refreshed (env : Env) (tokenHash : Bytes) (outcome : RefreshResult × Refreshed) (seen after : Db)
    (fine : outcome.1 ≠ .error)
    (step : RefreshStep reliable ctx.crypto tokenHash ctx.config.refreshIdleTtlS env.now env.rawToken
      db outcome seen) (same : after.sessions = seen.sessions) :
    SessionEffect reliable ctx db (.refresh env tokenHash .write)
      (.refresh env tokenHash (refreshedPhase outcome)) after
  /-- A logout takes a step. -/
  | logout (env : Env) (claims : Claims) (tokenHash : Bytes) (phase next : Logout.Phase) (after : Db)
    (step : LogoutStep reliable env claims tokenHash db phase next after) :
    SessionEffect reliable ctx db (.logout env claims tokenHash phase)
      (.logout env claims tokenHash next) after
  /-- A password change revokes the other families of its user. -/
  | passwordChanged (env : Env) (claims : Claims) (input : PasswordChange.Input) (user : UserRow)
    (newHash : Password.Hash) (survivingFamilyId : Bytes) (next : PasswordChange.Phase) (after : Db)
    (same : after.sessions = (db.revokeFamilies (liveFamilyOf claims.userId (some survivingFamilyId))
      env.now .passwordChange).sessions)
    (quiet : Quiet (.passwordChange env claims input next)) :
    SessionEffect reliable ctx db
      (.passwordChange env claims input (.write user newHash survivingFamilyId))
      (.passwordChange env claims input next) after
  /-- A sweep deletes expired rows. -/
  | swept (settings : Settings) (now : Int) (choices : List (Scan × Bool)) (target : Target)
    (targets remaining : List Target) (after : Db)
    (same : after.sessions =
      (batch settings (choices.headD (Scan.inOrder, false)).1 now target db).2.sessions) :
    SessionEffect reliable ctx db (.sweep settings now choices (target :: targets))
      (.sweep settings now choices.tail remaining) after

variable {reliable : Prop} {ctx : AppCtx} {env : Env}

/-- A logout does nothing but what `LogoutStep` lists. -/
theorem logout_step_spec (claims : Claims) (tokenHash : Bytes) (phase : Logout.Phase) (db : Db) :
    Sql.Leaves reliable (Logout.step env claims tokenHash phase) db
      (LogoutStep reliable env claims tokenHash db phase) := by
  cases phase with
  | findToken =>
    apply Sql.Guarantees.leaves
    apply Sql.guarantees_lookup
    · intro possible
      exact Sql.guarantees_pure (LogoutStep.unknown (Or.inl possible))
    cases stored : db.refreshTokens.find? tokenHash with
    | none => exact Sql.guarantees_pure (LogoutStep.unknown (Or.inr stored))
    | some token => exact Sql.guarantees_pure (LogoutStep.found token stored)
  | findFamily token =>
    apply Sql.Guarantees.leaves
    apply Sql.guarantees_lookup
    · intro possible
      exact Sql.guarantees_pure (LogoutStep.missing token (Or.inl possible))
    cases stored : db.sessionFamilies.find? token.familyId with
    | none => exact Sql.guarantees_pure (LogoutStep.missing token (Or.inr stored))
    | some family =>
      apply Sql.guarantees_ite
      · intro other
        exact Sql.guarantees_pure (LogoutStep.foreign token family stored other)
      · intro own
        exact Sql.guarantees_pure (LogoutStep.owned token family stored (not_not.mp own))
  | write token family =>
    apply (logout_write_settles env token.familyId family.userId db).andReturn
    intro result after left
    cases result with
    | ok _ =>
      have revoked : after = loggedOutDb env token.familyId family.userId db := left
      rw [revoked]
      exact ⟨_, rfl, LogoutStep.revoked token family⟩
    | error reason =>
      have stuck : ¬reliable ∧ after = db := left
      rw [stuck.2]
      exact ⟨_, rfl, LogoutStep.failed token family stuck.1⟩
  | done result => exact Sql.Guarantees.leaves (Sql.guarantees_pure (LogoutStep.finished result))

/-- What a step of a login does to the sessions. -/
theorem login_sessions_spec (input : Login.Input) (phase : Login.Phase) (db : Db) :
    Sql.Leaves reliable (Login.step ctx env input phase) db fun next after =>
      SessionEffect reliable ctx db (.login env input phase) (.login env input next) after := by
  have kept {next : Login.Phase} {after : Db} (same : after.sessions = db.sessions)
      (quiet : Quiet (.login env input next)) :
      SessionEffect reliable ctx db (.login env input phase) (.login env input next) after :=
    SessionEffect.kept _ _ _ same rfl quiet
  cases phase with
  | lookup =>
    apply Sql.Guarantees.leaves
    apply Sql.guarantees_lookup
    · intro _
      exact Sql.guarantees_pure (kept rfl trivial)
    · exact Sql.guarantees_pure (kept rfl trivial)
  | write decision =>
    cases decision with
    | refuse found passwordOk =>
      apply (writeFailure_effect ctx env found passwordOk db).andReturn
      intro result after left
      cases result with
      | error reason =>
        have stuck : ¬reliable ∧ after = db := left
        exact ⟨_, rfl, kept (by rw [stuck.2]) trivial⟩
      | ok _ =>
        have refused : after = refusedDb ctx env found passwordOk db := left
        rw [refused]
        exact ⟨_, rfl, kept (refusedDb_kept ctx env found passwordOk db).2 trivial⟩
    | accept user =>
      apply (writeSuccess_spec ctx env user.userId db).andReturn
      intro result after left
      cases result with
      | error reason =>
        have same : after = db := left
        exact ⟨_, rfl, kept (by rw [same]) trivial⟩
      | ok session => exact ⟨_, rfl, SessionEffect.opened env input user session after left⟩
  | readRoles userId session =>
    apply Sql.Guarantees.leaves
    apply Sql.guarantees_query
    · intro _
      exact Sql.guarantees_pure (kept rfl trivial)
    · exact Sql.guarantees_pure (kept rfl trivial)
  | done result => exact Sql.Guarantees.leaves (Sql.guarantees_pure (kept rfl trivial))

/-- What a step of a refresh does to the sessions. -/
theorem refresh_sessions_spec (tokenHash : Bytes) (phase : Refresh.Phase) (db : Db) :
    Sql.Leaves reliable (Refresh.step ctx env tokenHash phase) db fun next after =>
      SessionEffect reliable ctx db (.refresh env tokenHash phase) (.refresh env tokenHash next)
        after := by
  have kept {result : HandlerResult} {after : Db} (same : after.sessions = db.sessions) :
      SessionEffect reliable ctx db (.refresh env tokenHash phase)
        (.refresh env tokenHash (.done result)) after :=
    SessionEffect.kept _ _ _ same rfl trivial
  cases phase with
  | write =>
    apply (refresh_write_spec ctx env tokenHash db).andReturn
    intro result after left
    cases result with
    | error reason =>
      have same : after = db := left
      exact ⟨_, rfl, kept (by rw [same])⟩
    | ok outcome =>
      obtain ⟨fine, seen, audited, step⟩ := left
      have same : after.sessions = seen.sessions := by rw [audited]; rfl
      have effect := SessionEffect.refreshed env tokenHash outcome seen after fine step same
      refine ⟨refreshedPhase outcome, ?_, effect⟩
      obtain ⟨verdict, refreshed⟩ := outcome
      cases verdict with
      | ok => rfl
      | invalid => rfl
      | reuseDetected => rfl
      | error => rfl
  | readRoles refreshed =>
    apply Sql.Guarantees.leaves
    apply Sql.guarantees_query
    · intro _
      exact Sql.guarantees_pure (kept rfl)
    · exact Sql.guarantees_pure (kept rfl)
  | done result => exact Sql.Guarantees.leaves (Sql.guarantees_pure (kept rfl))

/-- A decision to write spares the family that the access token names. -/
theorem spared_of_write {claims : Claims} {input : PasswordChange.Input} {found : Option UserRow}
    {user : UserRow} {newHash : Password.Hash} {survivingFamilyId : Bytes}
    (decided : PasswordChange.decision ctx env claims input found =
      .write user newHash survivingFamilyId) :
    hexDecode claims.familyId = some survivingFamilyId :=
  (passwordChange_decides_write decided).2.2.2

/-- What a step of a password change does to the sessions. -/
theorem passwordChange_sessions_spec (claims : Claims) (input : PasswordChange.Input)
    (phase : PasswordChange.Phase) (db : Db) :
    Sql.Leaves reliable (PasswordChange.step ctx env claims input phase) db fun next after =>
      SessionEffect reliable ctx db (.passwordChange env claims input phase)
        (.passwordChange env claims input next) after := by
  have kept {next : PasswordChange.Phase} {after : Db} (same : after.sessions = db.sessions)
      (quiet : Quiet (.passwordChange env claims input next)) :
      SessionEffect reliable ctx db (.passwordChange env claims input phase)
        (.passwordChange env claims input next) after :=
    SessionEffect.kept _ _ _ same rfl quiet
  cases phase with
  | lookup =>
    have decided (found : Option UserRow) : Quiet (.passwordChange env claims input
        (PasswordChange.decision ctx env claims input found).phase) := by
      cases outcome : PasswordChange.decision ctx env claims input found with
      | answer result => trivial
      | auditFailure => trivial
      | write user newHash survivingFamilyId => exact spared_of_write outcome
    apply Sql.Guarantees.leaves
    apply Sql.guarantees_lookup
    · intro _
      exact Sql.guarantees_pure (kept rfl (decided none))
    · exact Sql.guarantees_pure (kept rfl (decided _))
  | auditFailure =>
    apply Sql.Guarantees.leaves
    apply Sql.guarantees_update
    · intro _
      exact Sql.guarantees_pure (kept rfl trivial)
    · exact Sql.guarantees_pure (kept rfl trivial)
  | write user newHash survivingFamilyId =>
    apply (passwordChange_write_spec env claims newHash survivingFamilyId db).andReturn
    intro result after left
    cases result with
    | error reason =>
      have same : after = db := left
      exact ⟨_, rfl, kept (by rw [same]) trivial⟩
    | ok _ =>
      have changed : after = passwordChangedDb env claims.userId newHash survivingFamilyId db := left
      have same : after.sessions = (db.revokeFamilies
          (liveFamilyOf claims.userId (some survivingFamilyId)) env.now .passwordChange).sessions := by
        rw [changed]
        rfl
      exact ⟨_, rfl, SessionEffect.passwordChanged env claims input user newHash survivingFamilyId _
        after same trivial⟩
  | done result => exact Sql.Guarantees.leaves (Sql.guarantees_pure (kept rfl trivial))

section Frames

/-- Writing an audit row outside a transaction leaves the sessions alone. -/
theorem keeps_sessions_audit {α : Type} (entry : AuditEntry) (next : Bool → α) :
    Sql.KeepsCommitted Db.sessions (do return next (← AuditStore.write entry)) := by
  apply Sql.Keeps.committed
  apply Sql.keeps_bind
  · apply Sql.keeps_update
    intro db
    rfl
  · intro audited
    exact Sql.keeps_pure _

/-- Sending mail leaves the sessions alone. -/
theorem keeps_sessions_mail {α : Type} (toEmail subject body : Bytes) (now : Int)
    (next : Bool → α) :
    Sql.KeepsCommitted Db.sessions (do return next (← Mailer.send toEmail subject body now)) := by
  apply Sql.Keeps.committed
  apply Sql.keeps_bind
  · apply Sql.keeps_update
    intro db
    rfl
  · intro sent
    exact Sql.keeps_pure _

/-- Registration leaves the sessions alone. -/
theorem keeps_sessions_register (input : Register.Input) (phase : Register.Phase) :
    Sql.KeepsCommitted Db.sessions (Register.step ctx env input phase) := by
  cases phase with
  | write =>
    have written : Sql.KeepsCommitted Db.sessions (Register.write ctx env input) :=
      Sql.keepsCommitted_of_effect (fun _ db => register_write_effect ctx env input db)
        fun _ _ _ _ left => left.sessions
    apply written.andThen
    intro result
    match result with
    | .ok rawToken => exact ⟨_, rfl⟩
    | .error .duplicateUsername => exact ⟨_, rfl⟩
    | .error .duplicateEmail => exact ⟨_, rfl⟩
    | .error .failed => exact ⟨_, rfl⟩
  | sendEmail rawToken => exact keeps_sessions_mail _ _ _ _ _
  | findOwner => exact (Sql.keeps_bind (Sql.keeps_lookup _) fun _ => Sql.keeps_pure _).committed
  | auditDuplicate existing => exact keeps_sessions_audit _ _
  | mailOwner existing => exact keeps_sessions_mail _ _ _ _ _
  | done result => exact (Sql.keeps_pure _).committed

/-- Verification leaves the sessions alone. -/
theorem keeps_sessions_verify (tokenHash : Bytes) (phase : Verify.Phase) :
    Sql.KeepsCommitted Db.sessions (Verify.step env tokenHash phase) := by
  cases phase with
  | lookup =>
    apply Sql.Keeps.committed
    apply Sql.keeps_bind (Sql.keeps_lookup _)
    intro found
    cases found with
    | none => exact Sql.keeps_pure _
    | some token => exact Sql.keeps_pure _
  | auditFailure found => exact keeps_sessions_audit _ _
  | write token =>
    have written : Sql.KeepsCommitted Db.sessions (Verify.write env tokenHash token) := by
      apply Sql.keepsCommitted_of_effect fun _ db => verify_write_spec env tokenHash token db
      intro reliable db value after left
      rw [left]
      rfl
    apply written.andThen
    intro result
    cases result with
    | ok _ => exact ⟨_, rfl⟩
    | error result => exact ⟨_, rfl⟩
  | done result => exact (Sql.keeps_pure _).committed

/-- Resending leaves the sessions alone. -/
theorem keeps_sessions_resend (email : Bytes) (phase : Resend.Phase) :
    Sql.KeepsCommitted Db.sessions (Resend.step ctx env email phase) := by
  cases phase with
  | lookup =>
    apply Sql.Keeps.committed
    apply Sql.keeps_bind (Sql.keeps_lookup _)
    intro found
    cases found with
    | none => exact Sql.keeps_pure _
    | some user => exact Sql.keeps_ite (Sql.keeps_pure _) (Sql.keeps_pure _)
  | auditFailure userId reason => exact keeps_sessions_audit _ _
  | countMinute user =>
    apply Sql.Keeps.committed
    apply Sql.keeps_bind (Sql.keeps_query _)
    intro counted
    cases counted with
    | none => exact Sql.keeps_pure _
    | some recent => exact Sql.keeps_pure _
  | countDay user recentMinute =>
    apply Sql.Keeps.committed
    apply Sql.keeps_bind (Sql.keeps_query _)
    intro counted
    cases counted with
    | none => exact Sql.keeps_pure _
    | some recent => exact Sql.keeps_ite (Sql.keeps_pure _) (Sql.keeps_pure _)
  | write user =>
    have written : Sql.KeepsCommitted Db.sessions (Resend.write ctx env user) :=
      Sql.keepsCommitted_of_effect (fun _ db => resend_write_effect ctx env user db)
        fun _ _ _ _ left => left.sessions
    apply written.andThen
    intro result
    cases result with
    | ok rawToken => exact ⟨_, rfl⟩
    | error result => exact ⟨_, rfl⟩
  | sendEmail user rawToken => exact keeps_sessions_mail _ _ _ _ _
  | done result => exact (Sql.keeps_pure _).committed

end Frames

/-- What a step of a sweep does to the sessions. -/
theorem sweep_sessions_spec (settings : Settings) (now : Int) (choices : List (Scan × Bool))
    (targets : List Target) (db : Db) :
    Sql.Leaves reliable (Activity.step ctx (.sweep settings now choices targets)) db
      (SessionEffect reliable ctx db (.sweep settings now choices targets)) := by
  have kept (remaining : List Target) :
      SessionEffect reliable ctx db (.sweep settings now choices targets)
        (.sweep settings now choices.tail remaining) db :=
    SessionEffect.kept _ _ _ rfl rfl trivial
  apply Sql.Guarantees.leaves
  cases targets with
  | nil => exact Sql.guarantees_pure (kept [])
  | cons target targets =>
    apply Sql.guarantees_bind (Sql.guarantees_statement _ _)
    · intro remaining after reached
      exact Sql.guarantees_pure reached
    · intro _
      exact Sql.guarantees_pure (kept _)
    · intro changed after done
      have result := congrArg Prod.snd (Option.some.inj done)
      exact Sql.guarantees_pure
        (SessionEffect.swept settings now choices target targets _ after (congrArg _ result.symm))

/-- What a step of the operator does to the sessions. -/
theorem operator_sessions_spec (userId now : Int) (done : Bool) (db : Db) :
    Sql.Leaves reliable (Activity.step ctx (.operator userId now done)) db
      (SessionEffect reliable ctx db (.operator userId now done)) := by
  have kept (next : Bool) (after : Db) (same : after.sessions = db.sessions) :
      SessionEffect reliable ctx db (.operator userId now done) (.operator userId now next) after :=
    SessionEffect.kept _ _ _ same rfl trivial
  apply Sql.Guarantees.leaves
  apply Sql.guarantees_ite
  · intro _
    exact Sql.guarantees_pure (kept _ _ rfl)
  · intro _
    apply Sql.guarantees_update
    · intro _
      exact Sql.guarantees_pure (kept _ _ rfl)
    · exact Sql.guarantees_pure (kept _ _ rfl)

/-- A step of an activity does nothing to the sessions but what `SessionEffect` lists. -/
theorem activity_sessions_spec (ctx : AppCtx) (activity : Activity) (db : Db) :
    Sql.Leaves reliable (activity.step ctx) db (SessionEffect reliable ctx db activity) := by
  have quiet {Phase : Type} {command : Sql Phase} {next : Phase → Activity}
      (kept : Sql.KeepsCommitted Db.sessions command) (other : isLogout activity = false)
      (silent : ∀ phase, Quiet (next phase)) :
      Sql.Leaves reliable (do return next (← command)) db
        (SessionEffect reliable ctx db activity) := by
    apply Sql.Leaves.map _ fun _ => rfl
    exact (kept reliable db).mono fun phase after same =>
      SessionEffect.kept _ _ _ same other (silent phase)
  cases activity with
  | register env input phase =>
    exact quiet (keeps_sessions_register input phase) rfl fun _ => trivial
  | verify env tokenHash phase =>
    exact quiet (keeps_sessions_verify tokenHash phase) rfl fun _ => trivial
  | resend env email phase => exact quiet (keeps_sessions_resend email phase) rfl fun _ => trivial
  | login env input phase => exact Sql.Leaves.map (login_sessions_spec input phase db) fun _ => rfl
  | refresh env tokenHash phase =>
    exact Sql.Leaves.map (refresh_sessions_spec tokenHash phase db) fun _ => rfl
  | logout env claims tokenHash phase =>
    apply Sql.Leaves.map _ fun _ => rfl
    exact (logout_step_spec claims tokenHash phase db).mono fun next after step =>
      SessionEffect.logout env claims tokenHash phase next after step
  | passwordChange env claims input phase =>
    exact Sql.Leaves.map (passwordChange_sessions_spec claims input phase db) fun _ => rfl
  | sweep settings now choices targets => exact sweep_sessions_spec settings now choices targets db
  | operator userId now done => exact operator_sessions_spec userId now done db

/-- What a step of the service does to the sessions. -/
theorem sessionEffect_step {ι : Type} [DecidableEq ι] (ctx : AppCtx) (service : Service ι)
    (i : ι) :
    SessionEffect ((service.thread i).faults = []) ctx service.shared (service.thread i).activity
      ((service.step (Running.act ctx) i).thread i).activity
      (service.step (Running.act ctx) i).shared := by
  rw [Pool.thread_step_self]
  exact Running.act_spec (activity_sessions_spec ctx (service.thread i).activity service.shared)

/-- The time an activity goes by. -/
def clock : Activity → Int
  | .register env _ _ => env.now
  | .verify env _ _ => env.now
  | .resend env _ _ => env.now
  | .login env _ _ => env.now
  | .refresh env _ _ => env.now
  | .logout env _ _ _ => env.now
  | .passwordChange env _ _ _ => env.now
  | .sweep _ now _ _ => now
  | .operator _ now _ => now

/-- The activities whose step revokes a live family. -/
inductive RevokedBy (db : Db) (family : SessionFamilyRow) : Activity → Prop where
  /-- A logout that found a token of the family. -/
  | logout (env : Env) (claims : Claims) (tokenHash : Bytes) (token : RefreshTokenRow)
    (held : SessionFamilyRow) (names : token.familyId = family.familyId) :
    RevokedBy db family (.logout env claims tokenHash (.write token held))
  /-- A refresh that presents a consumed token of the family. -/
  | reuse (env : Env) (tokenHash : Bytes) (token : RefreshTokenRow)
    (stored : db.refreshTokens.find? tokenHash = some token) (consumed : token.consumedAt ≠ none)
    (names : token.familyId = family.familyId) :
    RevokedBy db family (.refresh env tokenHash .write)
  /-- A password change of the owner that spares another family. -/
  | passwordChange (env : Env) (claims : Claims) (input : PasswordChange.Input) (user : UserRow)
    (newHash : Password.Hash) (survivingFamilyId : Bytes) (owner : family.userId = claims.userId)
    (other : family.familyId ≠ survivingFamilyId) :
    RevokedBy db family (.passwordChange env claims input (.write user newHash survivingFamilyId))

/-- Where a family comes from that is stored after a step. -/
inductive FamilyChange (ctx : AppCtx) (db : Db) (activity : Activity) (later : SessionFamilyRow) :
    Prop where
  /-- It was stored before. -/
  | same (stored : later ∈ db.sessionFamilies)
  /-- It was live, and is revoked. -/
  | revoked (old : SessionFamilyRow) (cause : RevokeCause) (stored : old ∈ db.sessionFamilies)
    (live : old.revokedAt = none)
    (row : later = { old with revokedAt := some (clock activity), revokeCause := some cause })
    (revokedBy : RevokedBy db old activity)
  /-- A login opened it. -/
  | opened (env : Env) (input : Login.Input) (user : UserRow)
    (login : activity = .login env input (.write (.accept user)))
    (drawn : env.familyId.map Drawn.bytes = some later.familyId)
    (row : later = newFamily later.familyId user.userId ctx.config.refreshAbsoluteTtlS env.now)
    (unused : ∀ old ∈ db.sessionFamilies, old.familyId ≠ later.familyId)

/-- Where a refresh token comes from that is stored after a step. -/
inductive TokenChange (ctx : AppCtx) (db : Db) (activity : Activity) (later : RefreshTokenRow) :
    Prop where
  /-- It was stored before. -/
  | same (stored : later ∈ db.refreshTokens)
  /-- It was stored, and is consumed. -/
  | consumed (old : RefreshTokenRow) (stored : old ∈ db.refreshTokens)
    (row : later = { old with consumedAt := some (clock activity) })
  /-- A login or a refresh issued it. -/
  | issued (time : later.issuedAt = clock activity)
    (idle : later.idleExp = later.issuedAt + ctx.config.refreshIdleTtlS)

variable {db after : Db} {activity next : Activity}

/-- What a step of a logout does is listed for logouts. -/
theorem SessionEffect.logoutStep {env : Env} {claims : Claims} {tokenHash : Bytes}
    {phase : Logout.Phase}
    (effect : SessionEffect reliable ctx db (.logout env claims tokenHash phase) next after) :
    ∃ reached, next = .logout env claims tokenHash reached ∧
      LogoutStep reliable env claims tokenHash db phase reached after := by
  cases effect with
  | kept activity next after same other quiet => contradiction
  | logout env claims tokenHash phase reached after step => exact ⟨reached, rfl, step⟩

/-- A family after a revocation: as it was, or live before and revoked. -/
theorem family_of_revokeFamilies {selected : SessionFamilyRow → Bool} {cause : RevokeCause}
    (onlyLive : ∀ family, selected family = true → family.revokedAt = none)
    (revokes : ∀ family, selected family = true → RevokedBy db family activity)
    {later : SessionFamilyRow}
    (stored : later ∈ (db.revokeFamilies selected (clock activity) cause).sessionFamilies) :
    FamilyChange ctx db activity later := by
  obtain ⟨old, member, row⟩ := Db.mem_revokeFamilies.mp stored
  by_cases chosen : selected old = true
  · rw [if_pos chosen] at row
    exact FamilyChange.revoked old cause member (onlyLive old chosen) row (revokes old chosen)
  · rw [if_neg chosen] at row
    exact FamilyChange.same (row ▸ member)

/-- The live family of an id is live and has the id. -/
theorem of_liveFamily {familyId : Bytes} {family : SessionFamilyRow}
    (chosen : liveFamily familyId family = true) :
    family.familyId = familyId ∧ family.revokedAt = none := by
  simpa [liveFamily] using chosen

/-- A chosen live family of a user is live, of the user and not the spared one. -/
theorem of_liveFamilyOf {userId : Int} {spared : Bytes} {family : SessionFamilyRow}
    (chosen : liveFamilyOf userId (some spared) family = true) :
    family.userId = userId ∧ family.revokedAt = none ∧ family.familyId ≠ spared := by
  simpa [liveFamilyOf, and_assoc] using chosen

/-- A batch of the sweep adds no family and no token. -/
theorem batch_removes (settings : Settings) (scan : Scan) (now : Int) (target : Target) (db : Db) :
    (∀ family ∈ (batch settings scan now target db).2.sessionFamilies, family ∈ db.sessionFamilies) ∧
      ∀ token ∈ (batch settings scan now target db).2.refreshTokens, token ∈ db.refreshTokens := by
  cases target with
  | refreshTokens => exact ⟨fun _ stored => stored, fun _ stored => (Table.mem_delete.mp stored).1⟩
  | sessionFamilies =>
    exact ⟨fun _ stored => (Table.mem_delete.mp stored).1,
      fun _ stored => (Db.mem_deleteFamilies.mp stored).1⟩
  | emailVerificationTokens => exact ⟨fun _ stored => stored, fun _ stored => stored⟩
  | devOutbox => exact ⟨fun _ stored => stored, fun _ stored => stored⟩
  | auditLog => exact ⟨fun _ stored => stored, fun _ stored => stored⟩
  | expiredLockouts => exact ⟨fun _ stored => stored, fun _ stored => stored⟩

/-- Where the families come from that are stored after a step. -/
theorem SessionEffect.family (effect : SessionEffect reliable ctx db activity next after)
    {later : SessionFamilyRow} (stored : later ∈ after.sessionFamilies) :
    FamilyChange ctx db activity later := by
  have unaudited {seen : Db} (same : after.sessions = seen.sessions) :
      later ∈ seen.sessionFamilies := by
    have families : after.sessionFamilies = seen.sessionFamilies := congrArg Prod.fst same
    rw [← families]
    exact stored
  cases effect with
  | kept activity next after same other quiet => exact FamilyChange.same (unaudited same)
  | opened env input user created after opens =>
    obtain ⟨members, unused⟩ := Table.mem_insert opens.family
    cases (members later).mp stored with
    | inl old => exact FamilyChange.same old
    | inr new =>
      refine FamilyChange.opened env input user rfl ?_ ?_ ?_
      · rw [new]
        exact opens.familyDrawn
      · rw [new]
        rfl
      · rw [new]
        exact unused
  | refreshed env tokenHash outcome seen after fine step same =>
    have member := unaudited same
    cases step with
    | unknown absent => exact FamilyChange.same member
    | reused token family found owner consumed seen revoked =>
      cases revoked with
      | inl revoked =>
        rw [revoked] at member
        exact family_of_revokeFamilies (fun _ chosen => (of_liveFamily chosen).2)
          (fun _ chosen => RevokedBy.reuse env tokenHash token found consumed
            (of_liveFamily chosen).1.symm) member
      | inr unnoticed => exact FamilyChange.same (unnoticed.2 ▸ member)
    | stale token family found owner unconsumed dead => exact FamilyChange.same member
    | rotated token family raw found owner unconsumed live inTime notIdle drawn seen issued =>
      rw [(Db.insertRefreshToken_eq_some issued).2.2] at member
      exact FamilyChange.same member
    | failed out seen => exact absurd rfl fine
  | logout env claims tokenHash phase next after step =>
    cases step with
    | unknown absent => exact FamilyChange.same stored
    | found token found => exact FamilyChange.same stored
    | missing token absent => exact FamilyChange.same stored
    | foreign token family found other => exact FamilyChange.same stored
    | owned token family found own => exact FamilyChange.same stored
    | revoked token family =>
      exact family_of_revokeFamilies (fun _ chosen => (of_liveFamily chosen).2)
        (fun _ chosen => RevokedBy.logout env claims tokenHash token family
          (of_liveFamily chosen).1.symm) stored
    | failed token family possible => exact FamilyChange.same stored
    | finished result => exact FamilyChange.same stored
  | passwordChanged env claims input user newHash survivingFamilyId next after same quiet =>
    exact family_of_revokeFamilies (fun _ chosen => (of_liveFamilyOf chosen).2.1)
      (fun _ chosen => RevokedBy.passwordChange env claims input user newHash survivingFamilyId
        (of_liveFamilyOf chosen).1 (of_liveFamilyOf chosen).2.2) (unaudited same)
  | swept settings now choices target targets remaining after same =>
    exact FamilyChange.same ((batch_removes settings _ now target db).1 later (unaudited same))

/-- Where the refresh tokens come from that are stored after a step. -/
theorem SessionEffect.token (effect : SessionEffect reliable ctx db activity next after)
    {later : RefreshTokenRow} (stored : later ∈ after.refreshTokens) :
    TokenChange ctx db activity later := by
  have unaudited {seen : Db} (same : after.sessions = seen.sessions) :
      later ∈ seen.refreshTokens := by
    have tokens : after.refreshTokens = seen.refreshTokens := congrArg Prod.snd same
    rw [← tokens]
    exact stored
  cases effect with
  | kept activity next after same other quiet => exact TokenChange.same (unaudited same)
  | opened env input user created after opens =>
    cases ((Table.mem_insert opens.token).1 later).mp stored with
    | inl old => exact TokenChange.same old
    | inr new =>
      rw [new]
      exact TokenChange.issued rfl rfl
  | refreshed env tokenHash outcome seen after fine step same =>
    have member := unaudited same
    have consumes (claimed : later ∈
        (db.consumeRefreshTokens (openToken tokenHash) env.now).refreshTokens) :
        TokenChange ctx db (.refresh env tokenHash .write) later := by
      obtain ⟨old, oldStored, row⟩ := Db.mem_consumeRefreshTokens.mp claimed
      by_cases chosen : openToken tokenHash old = true
      · rw [if_pos chosen] at row
        exact TokenChange.consumed old oldStored row
      · rw [if_neg chosen] at row
        exact TokenChange.same (row ▸ oldStored)
    cases step with
    | unknown absent => exact TokenChange.same member
    | reused token family found owner consumed seen revoked =>
      cases revoked with
      | inl revoked =>
        rw [revoked] at member
        exact TokenChange.same member
      | inr unnoticed => exact TokenChange.same (unnoticed.2 ▸ member)
    | stale token family found owner unconsumed dead => exact consumes member
    | rotated token family raw found owner unconsumed live inTime notIdle drawn seen issued =>
      cases ((Table.mem_insert (Db.insertRefreshToken_eq_some issued).1).1 later).mp member with
      | inl old => exact consumes old
      | inr new =>
        rw [new]
        exact TokenChange.issued rfl rfl
    | failed out seen => exact absurd rfl fine
  | logout env claims tokenHash phase next after step =>
    cases step with
    | unknown absent => exact TokenChange.same stored
    | found token found => exact TokenChange.same stored
    | missing token absent => exact TokenChange.same stored
    | foreign token family found other => exact TokenChange.same stored
    | owned token family found own => exact TokenChange.same stored
    | revoked token family => exact TokenChange.same stored
    | failed token family possible => exact TokenChange.same stored
    | finished result => exact TokenChange.same stored
  | passwordChanged env claims input user newHash survivingFamilyId next after same quiet =>
    have member := unaudited same
    exact TokenChange.same member
  | swept settings now choices target targets remaining after same =>
    exact TokenChange.same ((batch_removes settings _ now target db).2 later (unaudited same))

end PlatformService.Verif
