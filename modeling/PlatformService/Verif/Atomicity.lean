import PlatformService.Verif.ClaimsRoundTrip
import PlatformService.Verif.Connections
import PlatformService.Verif.Issuance
import PlatformService.Verif.JsonInverse

/-!
# Handlers leave everything or nothing

`FullEffect` is what each operation is for: the rows it changes together with its audit
row. `Settled` says of the end of a handler that the tables hold the whole effect or
what they held before, and what they held before when the answer is 500. `Stands`
carries this through the phases of a handler. Only login and refresh can break it:
they read the roles, draw the token id and build the answer after their `COMMIT`, and
`TailFails` is a failure there.
-/

namespace PlatformService.Verif.Atomicity

open Lib Store Crypto Session Api SessionStore Connections Issuance

/-- The tables that the handlers change. -/
def tables (db : Db) :=
  (db.users, db.userRoles, db.sessionFamilies, db.refreshTokens, db.emailVerificationTokens)

/-- The tables with the audit log: everything but the outbox. -/
def records (db : Db) := (tables db, db.auditLog)

/-- The account that a login names. -/
def namedAccount (input : Login.Input) (db : Db) : Option UserRow :=
  db.users.rows.find? fun user => nocase user.username = nocase input.username

/-- The account that a resend names. -/
def addressedAccount (email : Bytes) (db : Db) : Option UserRow :=
  db.users.rows.find? fun user => user.emailNormalized = cString email

/-- What a login does to the account it names: it opens a session or records the failure. -/
def WholeLogin (ctx : AppCtx) (env : Env) (input : Login.Input) (db after : Db) : Prop :=
  match Login.decision ctx env input (namedAccount input db) with
  | .accept user => ∃ created, LoginEffect ctx env user.userId db created after
  | .refuse found passwordOk => after = refusedDb ctx env found passwordOk db

/-- The full effect of an operation on a content, its audit rows included. -/
def FullEffect (ctx : AppCtx) (db : Db) : Activity → Db → Prop
  | .register env input _, after => ∃ rawToken, RegisterEffect ctx env input db rawToken after
  | .verify env tokenHash _, after => ∃ token,
      db.emailVerificationTokens.find? tokenHash = some token ∧
      Verify.usable env.now token = true ∧ after = verifiedDb env tokenHash token.userId db
  | .resend env email _, after => ∃ user rawToken, addressedAccount email db = some user ∧
      user.status = .pendingVerification ∧ ResendEffect ctx env user.userId db rawToken after
  | .login env input _, after => WholeLogin ctx env input db after
  | .refresh env tokenHash _, after => ∃ outcome seen, outcome.1 ≠ .error ∧
      RefreshStep True ctx.crypto tokenHash ctx.config.refreshIdleTtlS env.now env.rawToken db
        outcome seen ∧
      after = seen.insertAudit (Refresh.auditEntry env outcome.1 outcome.2)
  | .logout env claims tokenHash _, after => ∃ token family,
      db.refreshTokens.find? tokenHash = some token ∧
      db.sessionFamilies.find? token.familyId = some family ∧ family.userId = claims.userId ∧
      after = loggedOutDb env token.familyId family.userId db
  | .passwordChange env claims input _, after => ∃ user newHash survivingFamilyId,
      PasswordChange.decision ctx env claims input (db.users.find? claims.userId) =
        .write user newHash survivingFamilyId ∧
      after = passwordChangedDb env claims.userId newHash survivingFamilyId db
  | .sweep _ _ _ _, _ => False
  | .operator _ _ _, _ => False

/-- The records are those of a whole effect. -/
def Complete (effect : Db → Prop) (after : Db) : Prop :=
  ∃ written, effect written ∧ records after = records written

/-- The end of a handler: the whole effect or the tables of before, and these on a 500. -/
structure Settled (effect : Db → Prop) (db : Db) (result : HandlerResult) (after : Db) : Prop where
  whole : tables after = tables db ∨ Complete effect after
  failed : result.status = 500 → tables after = tables db

/-- A handler that leaves the tables alone may answer anything. -/
theorem settled_of_same {effect : Db → Prop} {db after : Db} {result : HandlerResult}
    (same : tables after = tables db) : Settled effect db result after :=
  ⟨Or.inl same, fun _ => same⟩

/-- A handler that leaves its whole effect may answer anything but 500. -/
theorem settled_of_complete {effect : Db → Prop} {db after : Db} {result : HandlerResult}
    (complete : Complete effect after) (fine : result.status ≠ 500) : Settled effect db result after :=
  ⟨Or.inr complete, fun failed => absurd failed fine⟩

/-- A whole effect just written. -/
theorem complete_of_effect {effect : Db → Prop} {after : Db} (h : effect after) :
    Complete effect after := ⟨after, h, rfl⟩

/-- Where a handler that began with a content may stand, and on what. -/
def Stands (ctx : AppCtx) (db : Db) : Activity → Db → Prop
  | .register _ _ .write, now => now = db
  | .register env input (.sendEmail rawToken), now =>
    Complete (FullEffect ctx db (.register env input (.sendEmail rawToken))) now
  | .register env input (.done result), now =>
    Settled (FullEffect ctx db (.register env input (.done result))) db result now
  | .register _ _ _, now => tables now = tables db
  | .verify _ _ .lookup, now => now = db
  | .verify _ _ (.auditFailure _), now => tables now = tables db
  | .verify env tokenHash (.write token), now => now = db ∧
      db.emailVerificationTokens.find? tokenHash = some token ∧ Verify.usable env.now token = true
  | .verify env tokenHash (.done result), now =>
    Settled (FullEffect ctx db (.verify env tokenHash (.done result))) db result now
  | .resend _ _ .lookup, now => now = db
  | .resend _ _ (.auditFailure _ _), now => tables now = tables db
  | .resend _ email (.countMinute user), now => now = db ∧
      addressedAccount email db = some user ∧ user.status = .pendingVerification
  | .resend _ email (.countDay user _), now => now = db ∧
      addressedAccount email db = some user ∧ user.status = .pendingVerification
  | .resend _ email (.write user), now => now = db ∧
      addressedAccount email db = some user ∧ user.status = .pendingVerification
  | .resend env email (.sendEmail user rawToken), now =>
    Complete (FullEffect ctx db (.resend env email (.sendEmail user rawToken))) now
  | .resend env email (.done result), now =>
    Settled (FullEffect ctx db (.resend env email (.done result))) db result now
  | .login _ _ .lookup, now => now = db
  | .login env input (.write decision), now => now = db ∧
      (decision = Login.decision ctx env input (namedAccount input db) ∨
        decision = Login.decision ctx env input none)
  | .login env input (.readRoles userId session), now =>
    Complete (FullEffect ctx db (.login env input (.readRoles userId session))) now ∧
      tables now ≠ tables db
  | .login env input (.done result), now =>
    Settled (FullEffect ctx db (.login env input (.done result))) db result now
  | .refresh _ _ .write, now => now = db
  | .refresh env tokenHash (.readRoles refreshed), now =>
    Complete (FullEffect ctx db (.refresh env tokenHash (.readRoles refreshed))) now ∧
      tables now ≠ tables db
  | .refresh env tokenHash (.done result), now =>
    Settled (FullEffect ctx db (.refresh env tokenHash (.done result))) db result now
  | .logout _ _ _ .findToken, now => now = db
  | .logout _ _ tokenHash (.findFamily token), now => now = db ∧
      db.refreshTokens.find? tokenHash = some token
  | .logout _ claims tokenHash (.write token family), now => now = db ∧
      db.refreshTokens.find? tokenHash = some token ∧
      db.sessionFamilies.find? token.familyId = some family ∧ family.userId = claims.userId
  | .logout env claims tokenHash (.done result), now =>
    Settled (FullEffect ctx db (.logout env claims tokenHash (.done result))) db result now
  | .passwordChange _ _ _ .lookup, now => now = db
  | .passwordChange _ _ _ .auditFailure, now => tables now = tables db
  | .passwordChange env claims input (.write user newHash survivingFamilyId), now => now = db ∧
      PasswordChange.decision ctx env claims input (db.users.find? claims.userId) =
        .write user newHash survivingFamilyId
  | .passwordChange env claims input (.done result), now =>
    Settled (FullEffect ctx db (.passwordChange env claims input (.done result))) db result now
  | .sweep _ _ _ _, _ => False
  | .operator _ _ _, _ => False

section Phases

variable {ctx : AppCtx} {env : Env} {db now : Db} {reliable : Prop}

/-- An audit row outside a transaction. -/
theorem audit_leaves {α : Type} {entry : AuditEntry} {value : Bool → α} {post : α → Db → Prop}
    (holds : ∀ done after, tables after = tables now → post (value done) after) :
    Sql.Leaves reliable (do return value (← AuditStore.write entry)) now post := by
  apply Sql.Guarantees.leaves
  apply Sql.guarantees_update
  · intro _
    exact Sql.guarantees_pure (holds false now rfl)
  · exact Sql.guarantees_pure (holds true _ rfl)

/-- A mail outside a transaction. -/
theorem mail_leaves {α : Type} {toEmail subject body : Bytes} {time : Int} {value : Bool → α}
    {post : α → Db → Prop} (holds : ∀ done after, records after = records now → post (value done) after) :
    Sql.Leaves reliable (do return value (← Mailer.send toEmail subject body time)) now post := by
  apply Sql.Guarantees.leaves
  apply Sql.guarantees_update
  · intro _
    exact Sql.guarantees_pure (holds false now rfl)
  · exact Sql.guarantees_pure (holds true _ rfl)

/-- A complete effect stays complete when the records stay. -/
theorem Complete.of_records {effect : Db → Prop} {after : Db} (h : Complete effect now)
    (same : records after = records now) : Complete effect after := by
  obtain ⟨written, whole, kept⟩ := h
  exact ⟨written, whole, same.trans kept⟩

/-- A step of a registration. -/
theorem register_stands {input : Register.Input} {phase : Register.Phase}
    (stands : Stands ctx db (.register env input phase) now) :
    Sql.Leaves reliable (Register.step ctx env input phase) now fun next after =>
      Stands ctx db (.register env input next) after := by
  cases phase with
  | write =>
    cases stands
    apply (register_write_effect ctx env input db).andReturn
    intro result after left
    match result with
    | .ok rawToken => exact ⟨_, rfl, complete_of_effect ⟨rawToken, left⟩⟩
    | .error .duplicateUsername => exact ⟨_, rfl, settled_of_same (congrArg tables left)⟩
    | .error .duplicateEmail => exact ⟨_, rfl, congrArg tables left⟩
    | .error .failed => exact ⟨_, rfl, settled_of_same (congrArg tables left)⟩
  | sendEmail rawToken =>
    apply mail_leaves
    intro _ after same
    exact settled_of_complete (stands.of_records same) (by decide)
  | findOwner =>
    apply Sql.Guarantees.leaves
    apply Sql.guarantees_lookup
    · intro _
      exact Sql.guarantees_pure stands
    · exact Sql.guarantees_pure stands
  | auditDuplicate existing =>
    apply audit_leaves
    intro _ after same
    cases existing with
    | none => exact settled_of_same (same.trans stands)
    | some owner => exact same.trans stands
  | mailOwner existing =>
    apply mail_leaves
    intro _ after same
    exact settled_of_same ((congrArg Prod.fst same).trans stands)
  | done result => exact (Sql.guarantees_pure stands).leaves

/-- A step of a verification. -/
theorem verify_stands {tokenHash : Bytes} {phase : Verify.Phase}
    (stands : Stands ctx db (.verify env tokenHash phase) now) :
    Sql.Leaves reliable (Verify.step env tokenHash phase) now fun next after =>
      Stands ctx db (.verify env tokenHash next) after := by
  cases phase with
  | lookup =>
    cases stands
    apply Sql.Guarantees.leaves
    apply Sql.guarantees_lookup
    · intro _
      exact Sql.guarantees_pure rfl
    cases stored : db.emailVerificationTokens.find? tokenHash with
    | none => exact Sql.guarantees_pure rfl
    | some token =>
      dsimp only
      by_cases valid : Verify.usable env.now token
      · rw [if_pos valid]
        exact Sql.guarantees_pure ⟨rfl, stored, valid⟩
      · rw [if_neg valid]
        exact Sql.guarantees_pure rfl
  | auditFailure found =>
    apply audit_leaves
    intro _ after same
    exact settled_of_same (same.trans stands)
  | write token =>
    obtain ⟨rfl, stored, valid⟩ := stands
    apply (verify_write_spec env tokenHash token now).andReturn
    intro result after left
    cases result with
    | ok _ =>
      exact ⟨_, rfl, settled_of_complete (complete_of_effect ⟨token, stored, valid, left⟩) (by decide)⟩
    | error reason => exact ⟨_, rfl, settled_of_same (congrArg tables left)⟩
  | done result => exact (Sql.guarantees_pure stands).leaves

/-- A step of a resend. -/
theorem resend_stands {email : Bytes} {phase : Resend.Phase}
    (stands : Stands ctx db (.resend env email phase) now) :
    Sql.Leaves reliable (Resend.step ctx env email phase) now fun next after =>
      Stands ctx db (.resend env email next) after := by
  cases phase with
  | lookup =>
    cases stands
    apply Sql.Guarantees.leaves
    apply Sql.guarantees_lookup
    · intro _
      exact Sql.guarantees_pure rfl
    cases found : addressedAccount email db with
    | none =>
      unfold addressedAccount at found
      rw [found]
      exact Sql.guarantees_pure rfl
    | some user =>
      have held := found
      unfold addressedAccount at held
      rw [held]
      apply Sql.guarantees_ite
      · intro _
        exact Sql.guarantees_pure rfl
      · intro pending
        exact Sql.guarantees_pure ⟨rfl, found, not_not.mp pending⟩
  | auditFailure userId reason =>
    apply audit_leaves
    intro _ after same
    exact settled_of_same (same.trans stands)
  | countMinute user =>
    apply Sql.Guarantees.leaves
    apply Sql.guarantees_query
    · intro _
      exact Sql.guarantees_pure (settled_of_same (congrArg tables stands.1))
    · exact Sql.guarantees_pure stands
  | countDay user recentMinute =>
    apply Sql.Guarantees.leaves
    apply Sql.guarantees_query
    · intro _
      exact Sql.guarantees_pure (settled_of_same (congrArg tables stands.1))
    apply Sql.guarantees_ite
    · intro _
      exact Sql.guarantees_pure (congrArg tables stands.1)
    · intro _
      exact Sql.guarantees_pure stands
  | write user =>
    obtain ⟨rfl, found, pending⟩ := stands
    apply (resend_write_effect ctx env user now).andReturn
    intro result after left
    cases result with
    | ok rawToken =>
      exact ⟨_, rfl, complete_of_effect ⟨user, rawToken, found, pending, left⟩⟩
    | error reason => exact ⟨_, rfl, settled_of_same (congrArg tables left)⟩
  | sendEmail user rawToken =>
    apply mail_leaves
    intro _ after same
    exact settled_of_complete (stands.of_records same) (by decide)
  | done result => exact (Sql.guarantees_pure stands).leaves

/-- A step of a logout. -/
theorem logout_stands {claims : Claims} {tokenHash : Bytes} {phase : Logout.Phase}
    (stands : Stands ctx db (.logout env claims tokenHash phase) now) :
    Sql.Leaves reliable (Logout.step env claims tokenHash phase) now fun next after =>
      Stands ctx db (.logout env claims tokenHash next) after := by
  cases phase with
  | findToken =>
    cases stands
    apply Sql.Guarantees.leaves
    apply Sql.guarantees_lookup
    · intro _
      exact Sql.guarantees_pure (settled_of_same rfl)
    cases stored : db.refreshTokens.find? tokenHash with
    | none => exact Sql.guarantees_pure (settled_of_same rfl)
    | some token => exact Sql.guarantees_pure ⟨rfl, stored⟩
  | findFamily token =>
    obtain ⟨rfl, stored⟩ := stands
    apply Sql.Guarantees.leaves
    apply Sql.guarantees_lookup
    · intro _
      exact Sql.guarantees_pure (settled_of_same rfl)
    cases owner : now.sessionFamilies.find? token.familyId with
    | none => exact Sql.guarantees_pure (settled_of_same rfl)
    | some family =>
      apply Sql.guarantees_ite
      · intro _
        exact Sql.guarantees_pure (settled_of_same rfl)
      · intro own
        exact Sql.guarantees_pure ⟨rfl, stored, owner, not_not.mp own⟩
  | write token family =>
    obtain ⟨rfl, stored, owner, own⟩ := stands
    apply (logout_write_spec env token.familyId family.userId now).andReturn
    intro result after left
    cases result with
    | ok _ =>
      exact ⟨_, rfl, settled_of_complete
        (complete_of_effect ⟨token, family, stored, owner, own, left⟩) (by decide)⟩
    | error reason => exact ⟨_, rfl, settled_of_same (congrArg tables left)⟩
  | done result => exact (Sql.guarantees_pure stands).leaves

/-- A step of a password change. -/
theorem passwordChange_stands {claims : Claims} {input : PasswordChange.Input}
    {phase : PasswordChange.Phase}
    (stands : Stands ctx db (.passwordChange env claims input phase) now) :
    Sql.Leaves reliable (PasswordChange.step ctx env claims input phase) now fun next after =>
      Stands ctx db (.passwordChange env claims input next) after := by
  cases phase with
  | lookup =>
    cases stands
    have decides {found : Option UserRow}
        (read : ∀ user newHash survivingFamilyId,
          PasswordChange.decision ctx env claims input found = .write user newHash survivingFamilyId →
          found = db.users.find? claims.userId) :
        Stands ctx db (.passwordChange env claims input
          (PasswordChange.decision ctx env claims input found).phase) db := by
      cases decided : PasswordChange.decision ctx env claims input found with
      | answer result => exact settled_of_same rfl
      | auditFailure => exact rfl
      | write user newHash survivingFamilyId =>
        rw [read _ _ _ decided] at decided
        exact ⟨rfl, decided⟩
    apply Sql.Guarantees.leaves
    apply Sql.guarantees_lookup
    · intro _
      apply Sql.guarantees_pure
      apply decides
      intro user newHash survivingFamilyId decided
      unfold PasswordChange.decision at decided
      split_ifs at decided
    · exact Sql.guarantees_pure (decides fun _ _ _ _ => rfl)
  | auditFailure =>
    apply audit_leaves
    intro _ after same
    exact settled_of_same (same.trans stands)
  | write user newHash survivingFamilyId =>
    obtain ⟨rfl, decided⟩ := stands
    apply (passwordChange_write_spec env claims newHash survivingFamilyId now).andReturn
    intro result after left
    cases result with
    | ok _ =>
      exact ⟨_, rfl, settled_of_complete
        (complete_of_effect ⟨user, newHash, survivingFamilyId, decided, left⟩) (by decide)⟩
    | error reason => exact ⟨_, rfl, settled_of_same (congrArg tables left)⟩
  | done result => exact (Sql.guarantees_pure stands).leaves

/-- An inserted refresh token changes the tables. -/
theorem tables_ne_of_find {after : Db} {hash : Bytes} {token : RefreshTokenRow}
    (absent : db.refreshTokens.find? hash = none)
    (stored : after.refreshTokens.find? hash = some token) : tables after ≠ tables db := by
  intro same
  have tokens : after.refreshTokens = db.refreshTokens := (Prod.ext_iff.mp
    (Prod.ext_iff.mp (Prod.ext_iff.mp (Prod.ext_iff.mp same).2).2).2).1
  rw [tokens, absent] at stored
  contradiction

/-- A step that opens a session changes the tables. -/
theorem tables_ne_of_opens {after : Db} {next : Activity} {userId : Int} {hash : Bytes}
    (opens : Turn.Opens ⟨db, next, after⟩ userId hash) : tables after ≠ tables db := by
  obtain ⟨absent, token, _, stored, _⟩ := opens
  exact tables_ne_of_find absent stored

/-- A step of a login before its last phase. -/
theorem login_stands {input : Login.Input} {phase : Login.Phase}
    (early : ∀ userId session, phase ≠ .readRoles userId session)
    (stands : Stands ctx db (.login env input phase) now) :
    Sql.Leaves reliable (Login.step ctx env input phase) now fun next after =>
      Stands ctx db (.login env input next) after := by
  cases phase with
  | lookup =>
    cases stands
    apply Sql.Guarantees.leaves
    apply Sql.guarantees_lookup
    · intro _
      exact Sql.guarantees_pure ⟨rfl, Or.inr rfl⟩
    · exact Sql.guarantees_pure ⟨rfl, Or.inl rfl⟩
  | write decision =>
    obtain ⟨rfl, decided⟩ := stands
    cases decision with
    | refuse found passwordOk =>
      apply (writeFailure_effect ctx env found passwordOk now).andReturn
      intro result after left
      cases result with
      | error reason => exact ⟨_, rfl, settled_of_same (congrArg tables left.2)⟩
      | ok _ =>
        refine ⟨_, rfl, ?_⟩
        have left : after = refusedDb ctx env found passwordOk now := left
        cases decided with
        | inl decided =>
          have whole : WholeLogin ctx env input now after := by
            unfold WholeLogin
            rw [← decided]
            exact left
          exact settled_of_complete (complete_of_effect whole) (by decide)
        | inr unread =>
          cases unread
          apply settled_of_same
          rw [left]
          rfl
    | accept user =>
      have decided : Login.Decision.accept user =
          Login.decision ctx env input (namedAccount input now) := by
        cases decided with
        | inl decided => exact decided
        | inr unread => contradiction
      apply (writeSuccess_effect ctx env user.userId now).andReturn
      intro result after left
      cases result with
      | error reason => exact ⟨_, rfl, settled_of_same (congrArg tables left)⟩
      | ok created =>
        have whole : WholeLogin ctx env input now after := by
          unfold WholeLogin
          rw [← decided]
          exact ⟨created, left⟩
        have opens := opens_iff_of_login (.login env input .lookup) left
        exact ⟨_, rfl, complete_of_effect whole,
          tables_ne_of_opens ((opens _ _).mpr ⟨rfl, rfl⟩)⟩
  | readRoles userId session => exact absurd rfl (early userId session)
  | done result => exact (Sql.guarantees_pure stands).leaves

/-- What a refresh did was its whole effect, unless it left the content alone. -/
theorem refreshStep_sure {crypto : Primitives} {tokenHash : Bytes} {idleTtlS time : Int}
    {newRaw : Option (Drawn 32)} {outcome : RefreshResult × Refreshed} {after : Db}
    (step : RefreshStep reliable crypto tokenHash idleTtlS time newRaw db outcome after) :
    after = db ∨ RefreshStep True crypto tokenHash idleTtlS time newRaw db outcome after := by
  cases step with
  | unknown absent => exact Or.inl rfl
  | reused token family stored owner consumed after revoked =>
    cases revoked with
    | inl revoked =>
      exact Or.inr (RefreshStep.reused token family stored owner consumed after (Or.inl revoked))
    | inr failed => exact Or.inl failed.2
  | stale token family stored owner unconsumed dead =>
    exact Or.inr (RefreshStep.stale token family stored owner unconsumed dead)
  | rotated token family raw stored owner unconsumed live inTime notIdle drawn after issued =>
    exact Or.inr (RefreshStep.rotated token family raw stored owner unconsumed live inTime notIdle
      drawn after issued)
  | failed out after => exact Or.inr (RefreshStep.failed out after)

/-- A step of a refresh before its last phase. -/
theorem refresh_stands {tokenHash : Bytes} {phase : Refresh.Phase}
    (early : ∀ refreshed, phase ≠ .readRoles refreshed)
    (stands : Stands ctx db (.refresh env tokenHash phase) now) :
    Sql.Leaves reliable (Refresh.step ctx env tokenHash phase) now fun next after =>
      Stands ctx db (.refresh env tokenHash next) after := by
  cases phase with
  | write =>
    cases stands
    apply (refresh_write_spec ctx env tokenHash db).andReturn
    intro result after left
    match result with
    | .error reason => exact ⟨_, rfl, settled_of_same (congrArg tables left)⟩
    | .ok (verdict, refreshed) =>
      obtain ⟨fine, seen, rfl, step⟩ := left
      have whole : tables (seen.insertAudit (Refresh.auditEntry env verdict refreshed)) = tables db ∨
          Complete (FullEffect ctx db (.refresh env tokenHash .write))
            (seen.insertAudit (Refresh.auditEntry env verdict refreshed)) := by
        cases refreshStep_sure step with
        | inl same =>
          rw [same]
          exact Or.inl rfl
        | inr sure =>
          exact Or.inr (complete_of_effect ⟨(verdict, refreshed), seen, fine, sure, rfl⟩)
      have unauthorized : Refresh.unauthorized.status ≠ 500 := by decide
      cases verdict with
      | invalid => exact ⟨_, rfl, whole, fun failed => absurd failed unauthorized⟩
      | reuseDetected => exact ⟨_, rfl, whole, fun failed => absurd failed unauthorized⟩
      | error => exact absurd rfl fine
      | ok =>
        have changed : tables (seen.insertAudit (Refresh.auditEntry env .ok refreshed)) ≠
            tables db := by
          cases step with
          | rotated token family raw stored owner unconsumed live inTime notIdle drawn seen issued =>
            have inserted := Db.insertRefreshToken_eq_some issued
            have fresh := (find?_consume_eq_none db (openToken tokenHash) env.now _).mp
              (Table.find?_eq_none_iff.mpr (Table.mem_insert inserted.1).2)
            have stored := Table.find?_insert inserted.1
              (successor (ctx.crypto.sha256 raw.bytes) ctx.config.refreshIdleTtlS env.now
                token).tokenHash
            rw [if_pos rfl] at stored
            exact tables_ne_of_find fresh stored
        exact ⟨_, rfl, whole.resolve_left changed, changed⟩
  | readRoles refreshed => exact absurd rfl (early refreshed)
  | done result => exact (Sql.guarantees_pure stands).leaves

end Phases

section Tail

variable {ctx : AppCtx} {env : Env} {db now : Db} {faults : List Bool}

/-- Something fails after the `COMMIT` of a login or a refresh: the query for the roles, the draw of
the token id, or an allocation for the token pair. -/
def TailFails (env : Env) (faults : List Bool) : Prop :=
  faults.headD false = true ∨ env.jti = none ∨ env.memory = false

/-- An array of strings is flat. -/
theorem depthItems_strings (texts : List Bytes) :
    JsonInverse.depthItems (texts.map Json.Value.string) ≤ 1 := by
  induction texts with
  | nil => exact Nat.zero_le 1
  | cons text texts ih => exact Nat.max_le.mpr ⟨Nat.le_refl 1, ih⟩

/-- The claims that the service writes can be written. -/
theorem encode_isSome (crypto : Primitives) (claims : Claims) (issuer audience secret : Bytes) :
    ∃ token, Jwt.encode crypto claims issuer audience secret = some token := by
  have written : ∃ payload, Claims.write claims issuer audience = some payload := by
    apply JsonInverse.writeValue_of_depth
    have flat : JsonInverse.depthItems ((Claims.roleNames.filter fun row =>
        claims.roles &&& row.1 ≠ 0).map fun row => Json.Value.string row.2) ≤ 1 := by
      have texts := depthItems_strings
        ((Claims.roleNames.filter fun row => claims.roles &&& row.1 ≠ 0).map Prod.snd)
      rw [List.map_map] at texts
      exact texts
    rw [ClaimsRoundTrip.claimsObject_eq]
    simp only [JsonInverse.depth, JsonInverse.depthMembers, Json.maxDepth]
    omega
  obtain ⟨payload, written⟩ := written
  unfold Jwt.encode
  rw [written]
  exact ⟨_, rfl⟩

/-- The end of a login or a refresh answers 500 when something fails. -/
theorem tokenPairResult_of_fails (userId : Int) (familyId rawRefresh : Bytes) (held : List Role)
    (fails : TailFails env faults) :
    tokenPairResult ctx env userId familyId rawRefresh
      (if faults.headD false then none else some held) = internalErrorResult := by
  unfold tokenPairResult
  cases fails with
  | inl fault =>
    rw [if_pos fault]
    rfl
  | inr fails =>
    cases faults.headD false with
    | true => rfl
    | false =>
      rw [if_neg (by simp), Option.bind_some]
      unfold buildAccessToken
      cases fails with
      | inl undrawn =>
        rw [undrawn]
        rfl
      | inr exhausted =>
        rw [exhausted]
        dsimp only
        split
        · rfl
        · rfl

/-- The end of a login or a refresh answers 200 when nothing fails. -/
theorem tokenPairResult_of_works (userId : Int) (familyId rawRefresh : Bytes) (held : List Role)
    (works : ¬TailFails env faults) :
    (tokenPairResult ctx env userId familyId rawRefresh
      (if faults.headD false then none else some held)).status = 200 := by
  unfold TailFails at works
  simp only [not_or, Bool.not_eq_true, Bool.not_eq_false] at works
  obtain ⟨answered, drawn, allocated⟩ := works
  obtain ⟨jti, drawn⟩ := Option.ne_none_iff_exists'.mp drawn
  obtain ⟨token, encoded⟩ := encode_isSome ctx.crypto
    { userId, roles := rolesMask held, iat := env.now, nbf := env.now,
      exp := env.now + ctx.config.accessTokenTtlS, jti := hexEncodeLower jti.bytes,
      familyId := hexEncodeLower familyId }
    ctx.config.jwtIssuer ctx.config.jwtAudience (cString ctx.config.jwtSecret)
  have built : buildAccessToken ctx userId familyId (rolesMask held) env.now env.jti = some token := by
    rw [drawn, buildAccessToken_some]
    exact encoded
  unfold tokenPairResult
  rw [answered, if_neg Bool.false_ne_true, Option.bind_some, built]
  dsimp only
  rw [if_pos allocated]

/-- The query for the roles of a user. -/
theorem getRoles_eq (userId : Int) :
    UserStore.getRoles userId (Conn.of now, faults) =
      (if faults.headD false then none else some (now.rolesOf userId), Conn.of now, faults.tail) := by
  unfold UserStore.getRoles Sql.query Sql.statement Faulty.attempt
  dsimp only
  cases faults.headD false with
  | true => rfl
  | false => rfl

/-- The last step of a login. -/
theorem act_login_readRoles (input : Login.Input) (userId : Int) (session : Created) :
    Running.act ctx now ⟨.login env input (.readRoles userId session), faults⟩ =
      (now, ⟨.login env input (.done (tokenPairResult ctx env userId session.familyId
        session.rawRefreshToken (if faults.headD false then none else some (now.rolesOf userId)))),
        faults.tail⟩) := by
  have read : Running.act ctx now ⟨.login env input (.readRoles userId session), faults⟩ =
      ((UserStore.getRoles userId (Conn.of now, faults)).2.1.committed,
        ⟨.login env input (.done (tokenPairResult ctx env userId session.familyId
          session.rawRefreshToken (UserStore.getRoles userId (Conn.of now, faults)).1)),
          (UserStore.getRoles userId (Conn.of now, faults)).2.2⟩) := rfl
  rw [read, getRoles_eq]
  rfl

/-- The last step of a refresh. -/
theorem act_refresh_readRoles (tokenHash : Bytes) (refreshed : Refreshed) :
    Running.act ctx now ⟨.refresh env tokenHash (.readRoles refreshed), faults⟩ =
      (now, ⟨.refresh env tokenHash (.done (tokenPairResult ctx env refreshed.userId
        refreshed.familyId refreshed.rawRefreshToken
        (if faults.headD false then none else some (now.rolesOf refreshed.userId)))),
        faults.tail⟩) := by
  have read : Running.act ctx now ⟨.refresh env tokenHash (.readRoles refreshed), faults⟩ =
      ((UserStore.getRoles refreshed.userId (Conn.of now, faults)).2.1.committed,
        ⟨.refresh env tokenHash (.done (tokenPairResult ctx env refreshed.userId
          refreshed.familyId refreshed.rawRefreshToken
          (UserStore.getRoles refreshed.userId (Conn.of now, faults)).1)),
          (UserStore.getRoles refreshed.userId (Conn.of now, faults)).2.2⟩) := rfl
  rw [read, getRoles_eq]
  rfl

end Tail

section Runs

variable {ctx : AppCtx} {db now : Db} {running : Running}

/-- The next step is the last one of a login or a refresh, and something fails in it. -/
def FailsLate : Running → Prop
  | ⟨.login env _ (.readRoles _ _), faults⟩ => TailFails env faults
  | ⟨.refresh env _ (.readRoles _), faults⟩ => TailFails env faults
  | _ => False

/-- A step that does not fail after the `COMMIT`. -/
theorem stands_act (stands : Stands ctx db running.activity now) (works : ¬FailsLate running) :
    Stands ctx db (running.act ctx now).2.activity (running.act ctx now).1 := by
  obtain ⟨activity, faults⟩ := running
  cases activity with
  | register env input phase => exact (register_stands stands faults id).1
  | verify env tokenHash phase => exact (verify_stands stands faults id).1
  | resend env email phase => exact (resend_stands stands faults id).1
  | login env input phase =>
    cases phase with
    | readRoles userId session =>
      rw [act_login_readRoles]
      apply settled_of_complete stands.1
      rw [tokenPairResult_of_works _ _ _ _ works]
      decide
    | lookup => exact (login_stands (fun _ _ other => by contradiction) stands faults id).1
    | write decision => exact (login_stands (fun _ _ other => by contradiction) stands faults id).1
    | done result => exact (login_stands (fun _ _ other => by contradiction) stands faults id).1
  | refresh env tokenHash phase =>
    cases phase with
    | readRoles refreshed =>
      rw [act_refresh_readRoles]
      apply settled_of_complete stands.1
      rw [tokenPairResult_of_works _ _ _ _ works]
      decide
    | write => exact (refresh_stands (fun _ other => by contradiction) stands faults id).1
    | done result => exact (refresh_stands (fun _ other => by contradiction) stands faults id).1
  | logout env claims tokenHash phase => exact (logout_stands stands faults id).1
  | passwordChange env claims input phase => exact (passwordChange_stands stands faults id).1
  | sweep settings now choices targets => exact stands.elim
  | operator userId now done => exact stands.elim

/-- A step that fails after the `COMMIT` answers 500, and the tables have changed. -/
theorem act_failsLate (stands : Stands ctx db running.activity now) (fails : FailsLate running) :
    (running.act ctx now).2.activity.answer = some internalErrorResult ∧
      tables (running.act ctx now).1 ≠ tables db := by
  obtain ⟨activity, faults⟩ := running
  cases activity with
  | login env input phase =>
    cases phase with
    | readRoles userId session =>
      have failed : TailFails env faults := fails
      rw [act_login_readRoles, tokenPairResult_of_fails _ _ _ _ failed]
      exact ⟨rfl, stands.2⟩
    | lookup => exact fails.elim
    | write decision => exact fails.elim
    | done result => exact fails.elim
  | refresh env tokenHash phase =>
    cases phase with
    | readRoles refreshed =>
      have failed : TailFails env faults := fails
      rw [act_refresh_readRoles, tokenPairResult_of_fails _ _ _ _ failed]
      exact ⟨rfl, stands.2⟩
    | write => exact fails.elim
    | done result => exact fails.elim
  | register env input phase => exact fails.elim
  | verify env tokenHash phase => exact fails.elim
  | resend env email phase => exact fails.elim
  | logout env claims tokenHash phase => exact fails.elim
  | passwordChange env claims input phase => exact fails.elim
  | sweep settings now choices targets => exact fails.elim
  | operator userId now done => exact fails.elim

/-- A step does not change what the operation is. -/
theorem fullEffect_act (running : Running) :
    FullEffect ctx db (running.act ctx now).2.activity = FullEffect ctx db running.activity := by
  obtain ⟨activity, faults⟩ := running
  cases activity with
  | register env input phase => rfl
  | verify env tokenHash phase => rfl
  | resend env email phase => rfl
  | login env input phase => rfl
  | refresh env tokenHash phase => rfl
  | logout env claims tokenHash phase => rfl
  | passwordChange env claims input phase => rfl
  | sweep settings now choices targets => rfl
  | operator userId time done =>
    cases done with
    | true => rfl
    | false => rfl

/-- An answered handler is settled. -/
theorem settled_of_stands {activity : Activity} {result : HandlerResult}
    (stands : Stands ctx db activity now) (answered : activity.answer = some result) :
    Settled (FullEffect ctx db activity) db result now := by
  cases activity with
  | register env input phase =>
    cases phase with
    | done given =>
      cases answered
      exact stands
    | _ => contradiction
  | verify env tokenHash phase =>
    cases phase with
    | done given =>
      cases answered
      exact stands
    | _ => contradiction
  | resend env email phase =>
    cases phase with
    | done given =>
      cases answered
      exact stands
    | _ => contradiction
  | login env input phase =>
    cases phase with
    | done given =>
      cases answered
      exact stands
    | _ => contradiction
  | refresh env tokenHash phase =>
    cases phase with
    | done given =>
      cases answered
      exact stands
    | _ => contradiction
  | logout env claims tokenHash phase =>
    cases phase with
    | done given =>
      cases answered
      exact stands
    | _ => contradiction
  | passwordChange env claims input phase =>
    cases phase with
    | done given =>
      cases answered
      exact stands
    | _ => contradiction
  | sweep settings now choices targets => exact stands.elim
  | operator userId now done => exact stands.elim

/-- One of the next steps fails after the `COMMIT`. -/
def LateFailure (ctx : AppCtx) : (turns : Nat) → Db → Running → Prop
  | 0, _, _ => False
  | turns + 1, db, running =>
    FailsLate running ∨ LateFailure ctx turns (running.act ctx db).1 (running.act ctx db).2

/-- A handler run to its answer is settled exactly when nothing fails after its `COMMIT`. -/
theorem settled_acts_iff (turns : Nat) {result : HandlerResult}
    (stands : Stands ctx db running.activity now)
    (answered : (Running.acts ctx turns now running).2.activity.answer = some result) :
    Settled (FullEffect ctx db running.activity) db result (Running.acts ctx turns now running).1 ↔
      ¬LateFailure ctx turns now running := by
  induction turns generalizing running now with
  | zero => exact iff_of_true (settled_of_stands stands answered) id
  | succ turns ih =>
    unfold Running.acts at answered ⊢
    unfold LateFailure
    by_cases fails : FailsLate running
    · obtain ⟨failed, changed⟩ := act_failsLate stands fails
      have ended : (running.act ctx now).2.activity.answer.isSome := by
        rw [failed, Option.isSome_some]
      rw [acts_of_answered ended] at answered ⊢
      cases failed.symm.trans answered
      exact iff_of_false (fun settled => changed (settled.failed rfl)) fun none => none (Or.inl fails)
    · have next := ih (stands_act stands fails) answered
      rw [fullEffect_act] at next
      rw [or_iff_right fails]
      exact next

end Runs

section Handlers

variable {ctx : AppCtx} {db : Db}

/-- A handler at its first use of the database stands on the content it finds. -/
theorem stands_of_firstPhase {activity : Activity} (first : FirstPhase activity) :
    Stands ctx db activity db := by
  cases first with
  | _ => exact rfl

/-- The end of a handler, whatever it is for. -/
def CallSettled (ctx : AppCtx) (db : Db) (call : Call) (result : HandlerResult) (after : Db) : Prop :=
  match call with
  | .activity begun => Settled (FullEffect ctx db begun) db result after
  | _ => tables after = tables db

/-- Something fails in a login or a refresh after its `COMMIT`. -/
def CallFailsLate (ctx : AppCtx) (db : Db) (call : Call) (faults : List Bool) : Prop :=
  match call with
  | .activity begun => LateFailure ctx Activity.turns db ⟨begun, faults⟩
  | _ => False

/-- A handler that has answered. -/
theorem callSettled_iff {call : Call} {faults : List Bool} {result : HandlerResult}
    (first : ∀ activity, call = .activity activity → FirstPhase activity)
    (given : (call.run ctx (Conn.of db, faults)).1 = some result) :
    CallSettled ctx db call result (call.run ctx (Conn.of db, faults)).2.1.committed ↔
      ¬CallFailsLate ctx db call faults := by
  have unchanged {command : Sql HandlerResult} (kept : Sql.Keeps tables command) :
      tables ((do return some (← command) : Sql (Option HandlerResult))
        (Conn.of db, faults)).2.1.committed = tables db ↔ ¬False := by
    have wrapped : Sql.Keeps tables (do return some (← command)) :=
      Sql.keeps_bind kept fun _ => Sql.keeps_pure _
    exact iff_of_true (wrapped.committed False db faults False.elim).1 id
  cases call with
  | answered refusal => exact iff_of_true rfl id
  | activity activity =>
    have stands : Stands ctx db activity db := stands_of_firstPhase (first activity rfl)
    have same : Running.acts ctx Activity.turns db ⟨activity, faults⟩ = _ :=
      run_eq_acts Activity.turns activity db faults
    have answered : (Running.acts ctx Activity.turns db ⟨activity, faults⟩).2.activity.answer =
        some result := by
      rw [same]
      exact given
    have settled : Settled (FullEffect ctx db activity) db result
        (Running.acts ctx Activity.turns db ⟨activity, faults⟩).1 ↔
          ¬LateFailure ctx Activity.turns db ⟨activity, faults⟩ :=
      settled_acts_iff Activity.turns stands answered
    rw [same] at settled
    exact settled
  | getUser env claims targetUserId =>
    exact unchanged (keeps_getUser (fun _ _ => rfl) claims targetUserId)
  | countUsers => exact unchanged keeps_countUsers
  | listUsers env claims page =>
    exact unchanged (keeps_listUsers (fun _ _ => rfl) claims page)

/-- Every handler answers, and leaves its whole effect or the tables of before, and these whenever it
answers 500, exactly when nothing fails in a login or a refresh after its `COMMIT`. -/
theorem handlers_atomic_iff (ctx : AppCtx) (env : Env) (draining : Bool) (request : Http.Request)
    (handler : Handler) (db : Db) (faults : List Bool) :
    let call := handler.start ctx env draining request
    let out := call.run ctx (Conn.of db, faults)
    ∃ result, out.1 = some result ∧
      (CallSettled ctx db call result out.2.1.committed ↔ ¬CallFailsLate ctx db call faults) := by
  intro call out
  have answered := run_start_answers ctx env draining request handler (Conn.of db, faults)
  obtain ⟨result, given⟩ := Option.isSome_iff_exists.mp answered
  exact ⟨result, given, callSettled_iff (fun _ begun => (firstPhase_start begun).1) given⟩

end Handlers

/-- A refresh whose query for the roles fails after its `COMMIT` answers 500, with the presented token
consumed and its successor stored. -/
theorem failed_refresh_rotates :
    let login := Handler.login.start Deployment.ctx (Deployment.env 1000 1 1) false
      (Deployment.post "/v1/auth/login"
        "\x7b\"username\":\"alice\",\"password\":\"correct horse\"\x7d")
    let refresh := Handler.refresh.start Deployment.ctx (Deployment.env 1100 2 2) false
      (Deployment.post "/v1/auth/refresh"
        "\x7b\"refresh_token\":\"AQEBAQEBAQEBAQEBAQEBAQEBAQEBAQEBAQEBAQEBAQE\"\x7d")
    let loggedIn := login.run Deployment.ctx (Conn.of (Deployment.database .active), [])
    let refreshed := refresh.run Deployment.ctx
      (Conn.of loggedIn.2.1.db, [false, false, false, false, false, false, false, true])
    refreshed.1.map HandlerResult.status = some 500 ∧
      tables refreshed.2.1.committed ≠ tables loggedIn.2.1.db := by
  simp only [Deployment.ctx, Deployment.crypto_eq, Deployment.database_eq]
  decide +kernel

end PlatformService.Verif.Atomicity
