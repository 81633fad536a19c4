import PlatformService.Lib.Follow
import PlatformService.Verif.Commits
import PlatformService.Verif.SessionEffects
import PlatformService.Verif.Sweeping

/-!
# Everything that is done is on record

`Accounted` says of two contents that the audit rows between them account for everything that is
different in the accounts, the sessions and the tokens: who was it done to, and when. Every event in every
life of the service leaves its changes together with such rows, and only the sweep of the audit log
removes rows, past their retention.
-/

namespace PlatformService.Verif.Accountability

open Lib Store Api Maintenance Roster

/-- Some entries record what was done to an account at a time. -/
def Recorded (entries : List AuditEntry) (event : AuditEvent) (outcome : AuditOutcome)
    (userId time : Int) : Prop :=
  ∃ entry ∈ entries, entry.event = event ∧ entry.outcome = outcome ∧
    entry.targetUserId = some userId ∧ entry.occurredAt = time

/-- A user joins by a registration, or as the first administrator. -/
def UserJoins (entries : List AuditEntry) (user : UserRow) : Prop :=
  0 < user.userId ∧
    (Begins .pendingVerification user ∧
        Recorded entries .register .success user.userId user.createdAt ∨
      Begins .active user ∧
        Recorded entries .bootstrapAdminCreated .success user.userId user.createdAt)

/-- What may become of the row of a user. -/
structure UserTurns (entries : List AuditEntry) (old user : UserRow) : Prop where
  /-- Who it is stays. -/
  identity : user.username = old.username ∧ user.email = old.email ∧
    user.emailNormalized = old.emailNormalized ∧ user.createdAt = old.createdAt
  status : user.status ≠ old.status → user.status = .disabled ∨ user.status = .active ∧
    Recorded entries .verify .success user.userId user.updatedAt
  password : (user.passwordHash, user.passwordSalt, user.kdfIters) ≠
    (old.passwordHash, old.passwordSalt, old.kdfIters) →
    Recorded entries .passwordChange .success user.userId user.updatedAt
  failures : user.failedLogins ≠ old.failedLogins →
    Recorded entries .login .failure user.userId user.updatedAt ∨
      user.failedLogins = 0 ∧ Recorded entries .login .success user.userId user.updatedAt
  /-- A lock that was not there is recorded; one may end by its time. -/
  lock : user.lockedUntil ≠ old.lockedUntil → user.lockedUntil = none ∨
    Recorded entries .accountLocked .success user.userId user.updatedAt

/-- A role comes with the account. -/
def RoleJoins (entries : List AuditEntry) (grant : Int × Role) : Prop :=
  ∃ time, grant.2 = .user ∧ Recorded entries .register .success grant.1 time ∨
    Recorded entries .bootstrapAdminCreated .success grant.1 time

/-- A session begins with a login. -/
def FamilyJoins (entries : List AuditEntry) (family : SessionFamilyRow) : Prop :=
  family.revokedAt = none ∧ Recorded entries .login .success family.userId family.createdAt

/-- The record of the end of a session. A logout is recorded for the owner that it has read. -/
def EndRecorded (entries : List AuditEntry) (userId time : Int) : RevokeCause → Prop
  | .reuseDetected => Recorded entries .refreshReuseDetected .failure userId time
  | .logout => ∃ owner, Recorded entries .logout .success owner time
  | .passwordChange => Recorded entries .passwordChange .success userId time

/-- What may become of a session: it ends once. -/
structure FamilyTurns (entries : List AuditEntry) (old family : SessionFamilyRow) : Prop where
  identity : family.userId = old.userId ∧ family.createdAt = old.createdAt ∧
    family.absoluteExp = old.absoluteExp
  ended : (family.revokedAt, family.revokeCause) ≠ (old.revokedAt, old.revokeCause) →
    old.revokedAt = none ∧ ∃ time cause, family.revokedAt = some time ∧
      family.revokeCause = some cause ∧ EndRecorded entries family.userId time cause

/-- A refresh token is issued by a login or a refresh of the owner of its family. -/
def IssueRecorded (entries : List AuditEntry)
    (families : Table Bytes SessionFamilyRow SessionFamilyRow.familyId) (token : RefreshTokenRow) :
    Prop :=
  ∃ family ∈ families, family.familyId = token.familyId ∧
    (Recorded entries .login .success family.userId token.issuedAt ∨
      Recorded entries .tokenRefresh .success family.userId token.issuedAt)

/-- A refresh token is fresh when it is issued. -/
def TokenJoins (entries : List AuditEntry)
    (families : Table Bytes SessionFamilyRow SessionFamilyRow.familyId) (token : RefreshTokenRow) :
    Prop :=
  token.consumedAt = none ∧ IssueRecorded entries families token

/-- What may become of a refresh token: it is consumed once, by a refresh. -/
structure TokenTurns (entries : List AuditEntry)
    (families : Table Bytes SessionFamilyRow SessionFamilyRow.familyId)
    (old token : RefreshTokenRow) : Prop where
  identity : token.familyId = old.familyId ∧ token.generation = old.generation ∧
    token.idleExp = old.idleExp ∧ token.issuedAt = old.issuedAt
  consumed : token.consumedAt ≠ old.consumedAt → old.consumedAt = none ∧ ∃ time outcome,
    token.consumedAt = some time ∧ ∃ family ∈ families, family.familyId = token.familyId ∧
      Recorded entries .tokenRefresh outcome family.userId time

/-- A verification token is issued by a registration or a resend. -/
def LinkJoins (entries : List AuditEntry) (token : VerificationTokenRow) : Prop :=
  Recorded entries .register .success token.userId token.createdAt ∨
    Recorded entries .resendRequested .success token.userId token.createdAt

/-- What may become of a verification token. A verification is recorded for the owner it has read. -/
structure LinkTurns (entries : List AuditEntry) (old token : VerificationTokenRow) : Prop where
  identity : token.userId = old.userId ∧ token.expiresAt = old.expiresAt ∧
    token.createdAt = old.createdAt
  consumed : token.consumedAt ≠ old.consumedAt → ∃ time, token.consumedAt = some time ∧
    ((∃ owner, Recorded entries .verify .success owner time) ∨
      Recorded entries .resendRequested .success token.userId time)

/-- Some entries account for everything that is different in the accounts, the sessions and the
tokens. -/
structure Accounted (entries : List AuditEntry) (db after : Db) : Prop where
  users : db.users.Follows after.users (UserJoins entries) (UserTurns entries)
  roles : db.userRoles.Follows after.userRoles (RoleJoins entries) Eq
  families : db.sessionFamilies.Follows after.sessionFamilies (FamilyJoins entries)
    (FamilyTurns entries)
  tokens : db.refreshTokens.Follows after.refreshTokens (TokenJoins entries after.sessionFamilies)
    (TokenTurns entries after.sessionFamilies)
  links : db.emailVerificationTokens.Follows after.emailVerificationTokens (LinkJoins entries)
    (LinkTurns entries)

section Rows

variable {entries : List AuditEntry}

/-- A user may stay what it is. -/
theorem UserTurns.refl (user : UserRow) : UserTurns entries user user where
  identity := ⟨rfl, rfl, rfl, rfl⟩
  status different := absurd rfl different
  password different := absurd rfl different
  failures different := absurd rfl different
  lock different := absurd rfl different

/-- A session may stay what it is. -/
theorem FamilyTurns.refl (family : SessionFamilyRow) : FamilyTurns entries family family where
  identity := ⟨rfl, rfl, rfl⟩
  ended different := absurd rfl different

/-- A refresh token may stay what it is. -/
theorem TokenTurns.refl {families : Table Bytes SessionFamilyRow SessionFamilyRow.familyId}
    (token : RefreshTokenRow) : TokenTurns entries families token token where
  identity := ⟨rfl, rfl, rfl, rfl⟩
  consumed different := absurd rfl different

/-- A verification token may stay what it is. -/
theorem LinkTurns.refl (token : VerificationTokenRow) : LinkTurns entries token token where
  identity := ⟨rfl, rfl, rfl⟩
  consumed different := absurd rfl different

/-- Nothing has to be accounted for where the tables stay. -/
theorem Accounted.refl (entries : List AuditEntry) (db : Db) : Accounted entries db db where
  users := Table.Follows.refl _ UserTurns.refl
  roles := Table.Follows.refl _ fun _ => rfl
  families := Table.Follows.refl _ FamilyTurns.refl
  tokens := Table.Follows.refl _ TokenTurns.refl
  links := Table.Follows.refl _ LinkTurns.refl

end Rows

section Changes

variable {ctx : AppCtx} {env : Env} {db after : Db}

/-- The ids of the users are positive, as those that SQLite assigns. -/
def Numbered (db : Db) : Prop := ∀ user ∈ db.users, 0 < user.userId

end Changes

section Log

/-- An audit row is past the retention of a sweep whose turn it is. -/
def Outdated (server : Server) (event : LifeEvent) (entry : AuditEntry) : Prop :=
  ∃ handler running settings now choices targets, event = .turn handler ∧
    server.handlers[handler]? = some running ∧
    running.activity = .sweep settings now choices (.auditLog :: targets) ∧
    entry.occurredAt < now - settings.auditRetentionDays * secondsPerDay

/-- What is left of the audit log when an event has dropped what is past its retention. An event that
writes audit rows drops none. -/
def Kept (server : Server) (event : LifeEvent) (kept entries : List AuditEntry) : Prop :=
  kept.Sublist server.db.auditLog ∧
    (∀ entry ∈ server.db.auditLog, entry ∈ kept ∨ Outdated server event entry) ∧
    (kept = server.db.auditLog ∨ entries = [])

/-- Nothing is dropped. -/
theorem Kept.all (server : Server) (event : LifeEvent) (entries : List AuditEntry) :
    Kept server event server.db.auditLog entries :=
  ⟨List.Sublist.refl _, fun _ stored => Or.inl stored, Or.inl rfl⟩

variable {ctx : AppCtx} {server : Server} {event : LifeEvent} {after : Db}

/-- Users that are accounted for have positive ids. -/
theorem Accounted.numbered {entries : List AuditEntry} {db after : Db}
    (accounted : Accounted entries db after) (numbered : Numbered db) : Numbered after := by
  intro user stored
  rcases accounted.users user stored with ⟨-, positive, -⟩ | ⟨old, member, same, -⟩
  · exact positive
  · rw [← same]
    exact numbered old member

end Log

section Trail

/-- The service after an event, with all audit rows that it has ever written. -/
def record (ctx : AppCtx) (state : Server × List AuditEntry) (event : LifeEvent) :
    Server × List AuditEntry :=
  let after := next ctx state.1 event
  (after, state.2 ++ after.db.auditLog.drop state.1.db.auditLog.length)

/-- All audit rows that the service has written in some events of its life. -/
def trail (ctx : AppCtx) (start : Db) (events : List LifeEvent) : List AuditEntry :=
  (events.foldl (record ctx) (⟨start, []⟩, start.auditLog)).2

variable {ctx : AppCtx} {start : Db}

/-- More entries record as much. -/
theorem Recorded.mono {entries more : List AuditEntry} (part : ∀ entry ∈ entries, entry ∈ more)
    {event : AuditEvent} {outcome : AuditOutcome} {userId time : Int}
    (recorded : Recorded entries event outcome userId time) :
    Recorded more event outcome userId time := by
  obtain ⟨entry, member, rest⟩ := recorded
  exact ⟨entry, part entry member, rest⟩

/-- The ends of sessions are recorded in more entries as well. -/
theorem EndRecorded.mono {entries more : List AuditEntry} (part : ∀ entry ∈ entries, entry ∈ more)
    {userId time : Int} {cause : RevokeCause} (recorded : EndRecorded entries userId time cause) :
    EndRecorded more userId time cause := by
  cases cause with
  | reuseDetected => exact Recorded.mono part recorded
  | logout =>
    obtain ⟨owner, entry⟩ := recorded
    exact ⟨owner, entry.mono part⟩
  | passwordChange => exact Recorded.mono part recorded

/-- Everything that is stored has its record. -/
structure Provenance (written : List AuditEntry) (db : Db) : Prop where
  joined : ∀ user ∈ db.users, Recorded written .register .success user.userId user.createdAt ∨
    Recorded written .bootstrapAdminCreated .success user.userId user.createdAt
  active : ∀ user ∈ db.users, user.status = .active → ∃ time,
    Recorded written .verify .success user.userId time ∨
      Recorded written .bootstrapAdminCreated .success user.userId time
  failures : ∀ user ∈ db.users, user.failedLogins ≠ 0 → ∃ time,
    Recorded written .login .failure user.userId time
  locks : ∀ user ∈ db.users, user.lockedUntil ≠ none → ∃ time,
    Recorded written .accountLocked .success user.userId time
  roles : ∀ grant ∈ db.userRoles, RoleJoins written grant
  opened : ∀ family ∈ db.sessionFamilies,
    Recorded written .login .success family.userId family.createdAt
  ended : ∀ family ∈ db.sessionFamilies, ∀ time, family.revokedAt = some time → ∃ cause,
    family.revokeCause = some cause ∧ EndRecorded written family.userId time cause
  issued : ∀ token ∈ db.refreshTokens, IssueRecorded written db.sessionFamilies token
  consumed : ∀ token ∈ db.refreshTokens, ∀ time, token.consumedAt = some time →
    ∃ family ∈ db.sessionFamilies, family.familyId = token.familyId ∧ ∃ outcome,
      Recorded written .tokenRefresh outcome family.userId time
  links : ∀ token ∈ db.emailVerificationTokens, LinkJoins written token

variable {written entries : List AuditEntry} {db after : Db}

/-- A family that a token has had keeps its owner. -/
theorem Accounted.family (accounted : Accounted entries db after) {token : RefreshTokenRow}
    (stored : token ∈ after.refreshTokens) {family : SessionFamilyRow}
    (member : family ∈ db.sessionFamilies) (own : family.familyId = token.familyId) :
    ∃ later ∈ after.sessionFamilies, later.familyId = token.familyId ∧
      later.userId = family.userId := by
  obtain ⟨later, present, named⟩ := after.tokenFamilies token stored
  refine ⟨later, present, named, ?_⟩
  rcases accounted.families later present with ⟨fresh, -⟩ | ⟨old, held, same, turned⟩
  · exact absurd (own.trans named.symm) (fresh family member)
  · have alike : old = family := Table.eq_of_key held member (same.trans (named.trans own.symm))
    rw [turned.identity.1, alike]

/-- Entries before stay among all that were written. -/
theorem mem_before : ∀ entry ∈ written, entry ∈ written ++ entries :=
  fun _ => List.mem_append_left _

/-- New entries are among all that were written. -/
theorem mem_behind : ∀ entry ∈ entries, entry ∈ written ++ entries :=
  fun _ => List.mem_append_right _

/-- The row of a user that is accounted for: how it joined, or what it was before. -/
theorem Accounted.user (accounted : Accounted entries db after) {user : UserRow}
    (stored : user ∈ after.users) : UserJoins entries user ∨
      ∃ old ∈ db.users, user.userId = old.userId ∧ UserTurns entries old user := by
  rcases accounted.users user stored with ⟨-, joined⟩ | ⟨old, member, same, turned⟩
  · exact Or.inl joined
  · exact Or.inr ⟨old, member, same.symm, turned⟩

/-- Who is there has joined, and is active, has failed to log in and is locked only by record. -/
theorem Provenance.next_users (known : Provenance written db) (accounted : Accounted entries db after)
    {user : UserRow} (stored : user ∈ after.users) :
    (Recorded (written ++ entries) .register .success user.userId user.createdAt ∨
      Recorded (written ++ entries) .bootstrapAdminCreated .success user.userId user.createdAt) ∧
    (user.status = .active → ∃ time,
      Recorded (written ++ entries) .verify .success user.userId time ∨
        Recorded (written ++ entries) .bootstrapAdminCreated .success user.userId time) ∧
    (user.failedLogins ≠ 0 → ∃ time,
      Recorded (written ++ entries) .login .failure user.userId time) ∧
    (user.lockedUntil ≠ none → ∃ time,
      Recorded (written ++ entries) .accountLocked .success user.userId time) := by
  rcases accounted.user stored with ⟨-, joined⟩ | ⟨old, member, own, turned⟩
  · rcases joined with ⟨⟨pending, none, open'⟩, registered⟩ | ⟨⟨-, none, open'⟩, started⟩
    · refine ⟨Or.inl (registered.mono mem_behind), fun active => ?_, fun failed => absurd none failed,
        fun locked => absurd open' locked⟩
      rw [pending] at active
      contradiction
    · exact ⟨Or.inr (started.mono mem_behind),
        fun _ => ⟨_, Or.inr (started.mono mem_behind)⟩, fun failed => absurd none failed,
        fun locked => absurd open' locked⟩
  · refine ⟨?_, fun active => ?_, fun failed => ?_, fun locked => ?_⟩
    · rw [own, turned.identity.2.2.2]
      exact (known.joined old member).imp (Recorded.mono mem_before) (Recorded.mono mem_before)
    · by_cases same : user.status = old.status
      · obtain ⟨time, recorded⟩ := known.active old member (same.symm.trans active)
        rw [own]
        exact ⟨time, recorded.imp (Recorded.mono mem_before) (Recorded.mono mem_before)⟩
      · rcases turned.status same with disabled | ⟨-, verified⟩
        · rw [disabled] at active
          contradiction
        · exact ⟨_, Or.inl (verified.mono mem_behind)⟩
    · by_cases same : user.failedLogins = old.failedLogins
      · rw [same] at failed
        obtain ⟨time, recorded⟩ := known.failures old member failed
        rw [own]
        exact ⟨time, recorded.mono mem_before⟩
      · rcases turned.failures same with recorded | ⟨cleared, -⟩
        · exact ⟨_, recorded.mono mem_behind⟩
        · exact absurd cleared failed
    · by_cases same : user.lockedUntil = old.lockedUntil
      · rw [same] at locked
        obtain ⟨time, recorded⟩ := known.locks old member locked
        rw [own]
        exact ⟨time, recorded.mono mem_before⟩
      · rcases turned.lock same with unlocked | recorded
        · exact absurd unlocked locked
        · exact ⟨_, recorded.mono mem_behind⟩

/-- A session that is stored was opened by a login, and has ended only by record. -/
theorem Provenance.next_families (known : Provenance written db)
    (accounted : Accounted entries db after) {family : SessionFamilyRow}
    (stored : family ∈ after.sessionFamilies) :
    Recorded (written ++ entries) .login .success family.userId family.createdAt ∧
      ∀ time, family.revokedAt = some time → ∃ cause, family.revokeCause = some cause ∧
        EndRecorded (written ++ entries) family.userId time cause := by
  rcases accounted.families family stored with ⟨-, live, opened⟩ | ⟨old, member, -, turned⟩
  · refine ⟨opened.mono mem_behind, fun time revoked => ?_⟩
    rw [live] at revoked
    contradiction
  · obtain ⟨owner, created, -⟩ := turned.identity
    refine ⟨?_, fun time revoked => ?_⟩
    · rw [owner, created]
      exact (known.opened old member).mono mem_before
    · by_cases same : (family.revokedAt, family.revokeCause) = (old.revokedAt, old.revokeCause)
      · obtain ⟨at', cause'⟩ := Prod.mk.inj same
        obtain ⟨cause, named, recorded⟩ := known.ended old member time (at'.symm.trans revoked)
        rw [owner, cause']
        exact ⟨cause, named, recorded.mono mem_before⟩
      · obtain ⟨-, ending, cause, at', named, recorded⟩ := turned.ended same
        rw [at'] at revoked
        rw [← Option.some.inj revoked]
        exact ⟨cause, named, recorded.mono mem_behind⟩

/-- A refresh token that is stored was issued and consumed by record. -/
theorem Provenance.next_tokens (known : Provenance written db)
    (accounted : Accounted entries db after) {token : RefreshTokenRow}
    (stored : token ∈ after.refreshTokens) :
    IssueRecorded (written ++ entries) after.sessionFamilies token ∧
      ∀ time, token.consumedAt = some time → ∃ family ∈ after.sessionFamilies,
        family.familyId = token.familyId ∧ ∃ outcome,
          Recorded (written ++ entries) .tokenRefresh outcome family.userId time := by
  rcases accounted.tokens token stored with ⟨-, joined⟩ | ⟨old, member, same, turned⟩
  · obtain ⟨fresh, family, held, own, recorded⟩ := joined
    refine ⟨⟨family, held, own, ?_⟩, fun time consumed => ?_⟩
    · exact recorded.imp (Recorded.mono mem_behind) (Recorded.mono mem_behind)
    · rw [fresh] at consumed
      contradiction
  · obtain ⟨named, -, -, issued⟩ := turned.identity
    refine ⟨?_, fun time consumed => ?_⟩
    · obtain ⟨family, held, own, recorded⟩ := known.issued old member
      obtain ⟨later, present, alike, owner⟩ := accounted.family stored held (own.trans named.symm)
      refine ⟨later, present, alike, ?_⟩
      rw [owner, issued]
      exact recorded.imp (Recorded.mono mem_before) (Recorded.mono mem_before)
    · by_cases unchanged : token.consumedAt = old.consumedAt
      · obtain ⟨family, held, own, outcome, recorded⟩ :=
          known.consumed old member time (unchanged.symm.trans consumed)
        obtain ⟨later, present, alike, owner⟩ := accounted.family stored held (own.trans named.symm)
        refine ⟨later, present, alike, outcome, ?_⟩
        rw [owner]
        exact recorded.mono mem_before
      · obtain ⟨-, moment, outcome, at', family, held, own, recorded⟩ := turned.consumed unchanged
        rw [at'] at consumed
        rw [← Option.some.inj consumed]
        exact ⟨family, held, own, outcome, recorded.mono mem_behind⟩

/-- What is accounted for has its record if what it comes from has. -/
theorem Provenance.next (known : Provenance written db) (accounted : Accounted entries db after) :
    Provenance (written ++ entries) after where
  joined _ stored := (known.next_users accounted stored).1
  active _ stored := (known.next_users accounted stored).2.1
  failures _ stored := (known.next_users accounted stored).2.2.1
  locks _ stored := (known.next_users accounted stored).2.2.2
  roles grant stored := by
    rcases accounted.roles grant stored with ⟨-, time, joined⟩ | ⟨old, member, -, rfl⟩
    · exact ⟨time, joined.imp (And.imp_right (Recorded.mono mem_behind)) (Recorded.mono mem_behind)⟩
    · obtain ⟨time, joined⟩ := known.roles old member
      exact ⟨time, joined.imp (And.imp_right (Recorded.mono mem_before)) (Recorded.mono mem_before)⟩
  opened _ stored := (known.next_families accounted stored).1
  ended _ stored := (known.next_families accounted stored).2
  issued _ stored := (known.next_tokens accounted stored).1
  consumed _ stored := (known.next_tokens accounted stored).2
  links token stored := by
    rcases accounted.links token stored with ⟨-, joined⟩ | ⟨old, member, -, turned⟩
    · exact joined.imp (Recorded.mono mem_behind) (Recorded.mono mem_behind)
    · obtain ⟨owner, -, created⟩ := turned.identity
      have joined := known.links old member
      unfold LinkJoins
      rw [owner, created]
      exact joined.imp (Recorded.mono mem_before) (Recorded.mono mem_before)

/-- An audit row has been dropped past its retention at some event of a life. -/
def Retired (ctx : AppCtx) (start : Db) (events : List LifeEvent) (entry : AuditEntry) : Prop :=
  ∃ before event rest, events = before ++ event :: rest ∧ Outdated (life ctx start before) event entry

/-- What has been dropped stays dropped. -/
theorem Retired.concat {events : List LifeEvent} {entry : AuditEntry}
    (retired : Retired ctx start events entry)
    (event : LifeEvent) : Retired ctx start (events ++ [event]) entry := by
  obtain ⟨before, earlier, rest, split, outdated⟩ := retired
  exact ⟨before, earlier, rest ++ [event], by rw [split, List.append_assoc, List.cons_append], outdated⟩

end Trail

end PlatformService.Verif.Accountability
