import PlatformService.Api.Server
import PlatformService.Verif.AccountSpecs
import PlatformService.Verif.Atomicity

/-!
# Answers that do not tell accounts apart

When nothing fails, what a handler may answer is fixed before it looks into the
database, up to the one bit its client is meant to learn: a resend has one answer,
a registration two that depend on whether the username is taken, and a login, a
refresh and a verification have one answer short of success. Each of these is an
invariant of the handler's phases; two runs are compared by their answers only at
the end.
-/

namespace PlatformService.Verif.Enumeration

open Lib Json Store Crypto Api

/-- Nothing that a run draws fails, and no drawn value is stored already as a key. -/
structure Unfailing (ctx : AppCtx) (env : Env) (db : Db) : Prop where
  memory : env.memory = true
  jti : env.jti ≠ none
  family : ∃ family, env.familyId = some family ∧
    ∀ stored ∈ db.sessionFamilies, stored.familyId ≠ family.bytes
  token : ∃ raw, env.rawToken = some raw ∧
    (∀ stored ∈ db.emailVerificationTokens, stored.tokenHash ≠ ctx.crypto.sha256 raw.bytes) ∧
    ∀ stored ∈ db.refreshTokens, stored.tokenHash ≠ ctx.crypto.sha256 raw.bytes

/-- What is drawn for a refresh token is not stored as one. -/
theorem Unfailing.refreshToken {ctx : AppCtx} {env : Env} {db : Db}
    (unfailing : Unfailing ctx env db) : ∃ raw, env.rawToken = some raw ∧
      ∀ stored ∈ db.refreshTokens, stored.tokenHash ≠ ctx.crypto.sha256 raw.bytes := by
  obtain ⟨raw, drawn, _, unused⟩ := unfailing.token
  exact ⟨raw, drawn, unused⟩

section Runs

variable {ctx : AppCtx}

/-- What every step keeps when nothing fails holds after any number of steps. -/
theorem acts_keep {holds : Activity → Db → Prop}
    (kept : ∀ activity db, holds activity db → Sql.Leaves True (activity.step ctx) db holds)
    (turns : Nat) {activity : Activity} {db : Db} (start : holds activity db) :
    holds (Running.acts ctx turns db ⟨activity, []⟩).2.activity
      (Running.acts ctx turns db ⟨activity, []⟩).1 := by
  induction turns generalizing activity db with
  | zero => exact start
  | succ turns ih =>
    obtain ⟨after, exhausted⟩ := kept activity db start [] fun _ => rfl
    have moved : (Running.act ctx db ⟨activity, []⟩).2 =
        ⟨(Running.act ctx db ⟨activity, []⟩).2.activity, []⟩ :=
      congrArg (Running.mk _) (exhausted trivial)
    unfold Running.acts
    rw [moved]
    exact ih after

/-- What every step keeps when nothing fails holds of the answer of a handler. -/
theorem answer_of_kept {holds : Activity → Db → Prop}
    (kept : ∀ activity db, holds activity db → Sql.Leaves True (activity.step ctx) db holds)
    {begun : Activity} (first : FirstPhase begun) {db : Db} (start : holds begun db) :
    ∃ result final after, ((Call.activity begun).run ctx (Conn.of db, [])).1 = some result ∧
      final.answer = some result ∧ holds final after := by
  have ends := acts_keep kept Activity.turns start
  rw [Connections.run_eq_acts] at ends
  have within : Yields (begun.run ctx Activity.turns) (AnsweredWithin 0) :=
    answeredWithin_run first.answeredWithin
  have answered := answer_of_answeredWithin (within (Conn.of db, []))
  obtain ⟨result, given⟩ := Option.isSome_iff_exists.mp answered
  exact ⟨result, _, _, given, given, ends⟩

end Runs

section Resend

variable {ctx : AppCtx} {env : Env}

/-- The raw token drawn, whose hash is not stored. -/
def Fresh (ctx : AppCtx) (env : Env) (db : Db) : Prop :=
  ∃ raw, env.rawToken = some raw ∧
    ∀ stored ∈ db.emailVerificationTokens, stored.tokenHash ≠ ctx.crypto.sha256 raw.bytes

/-- A fresh token of a stored user is issued, unless something fails. -/
theorem insertFreshToken_sure {userId : Int} {db : Db}
    (owned : ∃ user ∈ db.users, user.userId = userId) (fresh : Fresh ctx env db) :
    Sql.Guarantees True (insertFreshToken ctx env userId) db fun result _ => result ≠ none := by
  obtain ⟨raw, drawn, new⟩ := fresh
  have inserts : ∃ after, db.insertVerificationToken
      (freshToken ctx env.now userId raw.bytes) = some after :=
    Db.insertVerificationToken_isSome owned new
  obtain ⟨after, inserted⟩ := inserts
  unfold insertFreshToken
  rw [drawn]
  apply Sql.guarantees_execute
  · intro cause
    have refused : db.insertVerificationToken (freshToken ctx env.now userId raw.bytes) = none :=
      cause.resolve_left (by simp)
    rw [inserted] at refused
    contradiction
  · intro after _
    exact Sql.guarantees_pure (by simp)

/-- What a resend answers where it stands, when nothing fails. -/
def ResendRuns (ctx : AppCtx) : Activity → Db → Prop
  | .resend env _ .lookup, db => Fresh ctx env db
  | .resend env _ (.countMinute user), db => user ∈ db.users ∧ Fresh ctx env db
  | .resend env _ (.countDay user _), db => user ∈ db.users ∧ Fresh ctx env db
  | .resend env _ (.write user), db => user ∈ db.users ∧ Fresh ctx env db
  | .resend _ _ (.auditFailure _ _), _ => True
  | .resend _ _ (.sendEmail _ _), _ => True
  | .resend _ _ (.done result), _ => result = Resend.resendResult
  | _, _ => False

/-- The transaction of a resend runs through, unless something fails. -/
theorem resend_write_sure {user : UserRow} {db : Db} (stored : user ∈ db.users)
    (fresh : Fresh ctx env db) :
    Sql.Leaves True (Resend.write ctx env user) db fun result _ => ∃ raw, result = .ok raw := by
  apply Sql.leaves_transaction_answers trivial
  apply Sql.Guarantees.inside
  apply Sql.guarantees_update
  · intro possible
    exact absurd trivial possible
  have still : Fresh ctx env
      (db.consumeVerificationTokens (TokenStore.outstandingOf user.userId) env.now) := by
    obtain ⟨raw, drawn, new⟩ := fresh
    refine ⟨raw, drawn, fun token member => ?_⟩
    obtain ⟨old, before, same⟩ := Db.mem_consumeVerificationTokens.mp member
    rw [same]
    split
    · exact new old before
    · exact new old before
  have owned : ∃ owner ∈ (db.consumeVerificationTokens (TokenStore.outstandingOf user.userId)
      env.now).users, owner.userId = user.userId := ⟨user, stored, rfl⟩
  apply Sql.guarantees_bind (insertFreshToken_sure owned still)
  intro issued seen success
  cases issued with
  | none => exact absurd rfl success
  | some rawToken =>
    apply Sql.guarantees_update
    · intro possible
      exact absurd trivial possible
    · exact Sql.guarantees_pure ⟨rawToken, rfl⟩

/-- A step of a resend goes on to its one answer. -/
theorem resend_kept (activity : Activity) (db : Db) (runs : ResendRuns ctx activity db) :
    Sql.Leaves True (activity.step ctx) db (ResendRuns ctx) := by
  cases activity with
  | resend env email phase =>
    have step : Sql.Leaves True (Resend.step ctx env email phase) db fun next after =>
        ResendRuns ctx (.resend env email next) after := by
      cases phase with
      | lookup =>
        apply Sql.Guarantees.leaves
        apply Sql.guarantees_lookup
        · intro possible
          exact absurd trivial possible
        cases found : db.users.rows.find? fun user => user.emailNormalized = cString email with
        | none => exact Sql.guarantees_pure trivial
        | some user =>
          apply Sql.guarantees_ite
          · intro _
            exact Sql.guarantees_pure trivial
          · intro _
            exact Sql.guarantees_pure ⟨List.mem_of_find?_eq_some found, runs⟩
      | auditFailure userId reason =>
        apply Sql.Guarantees.leaves
        apply Sql.guarantees_update
        · intro _
          exact Sql.guarantees_pure rfl
        · exact Sql.guarantees_pure rfl
      | countMinute user =>
        apply Sql.Guarantees.leaves
        apply Sql.guarantees_query
        · intro possible
          exact absurd trivial possible
        · exact Sql.guarantees_pure runs
      | countDay user recentMinute =>
        apply Sql.Guarantees.leaves
        apply Sql.guarantees_query
        · intro possible
          exact absurd trivial possible
        · exact Sql.guarantees_ite (fun _ => Sql.guarantees_pure trivial) fun _ =>
            Sql.guarantees_pure runs
      | write user =>
        apply (resend_write_sure runs.1 runs.2).andReturn
        intro result after success
        obtain ⟨rawToken, rfl⟩ := success
        exact ⟨_, rfl, trivial⟩
      | sendEmail user rawToken =>
        apply Sql.Guarantees.leaves
        apply Sql.guarantees_update
        · intro _
          exact Sql.guarantees_pure rfl
        · exact Sql.guarantees_pure rfl
      | done result => exact Sql.Guarantees.leaves (Sql.guarantees_pure runs)
    exact Sql.Leaves.map step fun _ => rfl
  | _ => exact runs.elim

end Resend

section Register

variable {ctx : AppCtx} {env : Env}

/-- The answer of an admitted registration: whether the username is taken. -/
def Registered (taken : Prop) (result : HandlerResult) : Prop :=
  (taken → result = errorResult 409 "CONFLICT" "username is already taken") ∧
    (¬taken → result = Register.pendingResult)

/-- What a registration answers where it stands, when nothing fails. -/
def RegisterRuns (ctx : AppCtx) (taken : Prop) : Activity → Db → Prop
  | .register env input .write, db => Fresh ctx env db ∧
      (UsernameTaken db (Register.newRow input).username ↔ taken)
  | .register _ _ (.done result), _ => Registered taken result
  | .register _ _ _, _ => ¬taken
  | _, _ => False

/-- The transaction of a registration gives up for a duplicate only, unless something fails. -/
theorem register_write_sure {input : Register.Input} {db : Db} (fresh : Fresh ctx env db) :
    Sql.Leaves True (Register.write ctx env input) db fun result _ =>
      result ≠ .error .failed ∧
        (result = .error .duplicateUsername ↔ UsernameTaken db (Register.newRow input).username) := by
  apply Sql.leaves_transaction_answers trivial
  apply Sql.inside_bind (insert_reports trivial (Register.newRow input) env.now db)
  intro result added reports
  cases result with
  | duplicateUsername => exact Sql.guarantees_pure ⟨by simp, iff_of_true rfl reports⟩
  | duplicateEmail => exact Sql.guarantees_pure ⟨by simp, iff_of_false (by simp) reports⟩
  | error => exact reports.elim
  | ok userId =>
    obtain ⟨absent, owned, tokens⟩ := reports
    have still : Fresh ctx env added := by
      unfold Fresh
      rw [tokens]
      exact fresh
    apply Sql.guarantees_bind (insertFreshToken_sure owned still)
    intro issued seen success
    cases issued with
    | none => exact absurd rfl success
    | some rawToken =>
      apply Sql.guarantees_update
      · intro possible
        exact absurd trivial possible
      · exact Sql.guarantees_pure ⟨by simp, iff_of_false (by simp) absent⟩

/-- A step of a registration goes on to the answer that the username calls for. -/
theorem register_kept (taken : Prop) (activity : Activity) (db : Db)
    (runs : RegisterRuns ctx taken activity db) :
    Sql.Leaves True (activity.step ctx) db (RegisterRuns ctx taken) := by
  cases activity with
  | register env input phase =>
    have pending (free : ¬taken) : Registered taken Register.pendingResult :=
      ⟨fun taken => absurd taken free, fun _ => rfl⟩
    have step : Sql.Leaves True (Register.step ctx env input phase) db fun next after =>
        RegisterRuns ctx taken (.register env input next) after := by
      cases phase with
      | write =>
        apply (register_write_sure runs.1).andReturn
        intro result after answer
        obtain ⟨fine, duplicate⟩ := answer
        rw [runs.2] at duplicate
        match result with
        | .ok rawToken =>
          have free : ¬taken := fun taken => by simpa using duplicate.mpr taken
          exact ⟨_, rfl, free⟩
        | .error .duplicateUsername =>
          have taken := duplicate.mp rfl
          exact ⟨_, rfl, fun _ => rfl, fun free => absurd taken free⟩
        | .error .duplicateEmail =>
          have free : ¬taken := fun taken => by simpa using duplicate.mpr taken
          exact ⟨_, rfl, free⟩
        | .error .failed => exact absurd rfl fine
      | sendEmail rawToken =>
        apply Sql.Guarantees.leaves
        apply Sql.guarantees_update
        · intro _
          exact Sql.guarantees_pure (pending runs)
        · exact Sql.guarantees_pure (pending runs)
      | findOwner =>
        apply Sql.Guarantees.leaves
        apply Sql.guarantees_lookup
        · intro possible
          exact absurd trivial possible
        · exact Sql.guarantees_pure runs
      | auditDuplicate existing =>
        apply Sql.Guarantees.leaves
        apply Sql.guarantees_update
        · intro possible
          exact absurd trivial possible
        · apply Sql.guarantees_pure
          cases existing with
          | none => exact pending runs
          | some owner => exact runs
      | mailOwner existing =>
        apply Sql.Guarantees.leaves
        apply Sql.guarantees_update
        · intro _
          exact Sql.guarantees_pure (pending runs)
        · exact Sql.guarantees_pure (pending runs)
      | done result => exact Sql.Guarantees.leaves (Sql.guarantees_pure runs)
    exact Sql.Leaves.map step fun _ => rfl
  | _ => exact runs.elim

end Register

section Login

variable {ctx : AppCtx} {env : Env}

/-- A refusal that is always the same, or success. -/
def RefusedOr (refusal result : HandlerResult) : Prop := result = refusal ∨ result.status = 200

/-- The end of a login or a refresh answers 200, unless something fails. -/
theorem tokenPairResult_sure (jti : env.jti ≠ none) (memory : env.memory = true) (userId : Int)
    (familyId rawRefresh : Bytes) (held : List Role) :
    (tokenPairResult ctx env userId familyId rawRefresh (some held)).status = 200 := by
  have works : ¬Atomicity.TailFails env [] := by
    intro fails
    rcases fails with fault | undrawn | exhausted
    · contradiction
    · exact jti undrawn
    · rw [memory] at exhausted
      contradiction
  exact Atomicity.tokenPairResult_of_works userId familyId rawRefresh held works

/-- A login accepts the row it found. -/
theorem found_of_accept {input : Login.Input} {found : Option UserRow} {user : UserRow}
    (accepted : Login.decision ctx env input found = .accept user) : found = some user := by
  cases found with
  | none => contradiction
  | some row =>
    unfold Login.decision at accepted
    dsimp only at accepted
    split at accepted
    · rw [Login.Decision.accept.inj accepted]
    · contradiction

/-- What a login answers where it stands, when nothing fails. -/
def LoginRuns (ctx : AppCtx) : Activity → Db → Prop
  | .login env _ .lookup, db => Unfailing ctx env db
  | .login _ _ (.write (.refuse _ _)), _ => True
  | .login env _ (.write (.accept user)), db => user ∈ db.users ∧ Unfailing ctx env db
  | .login env _ (.readRoles _ _), _ => env.jti ≠ none ∧ env.memory = true
  | .login _ _ (.done result), _ => RefusedOr Login.unauthorized result
  | _, _ => False

/-- A step of a login goes on to its one refusal, or to success. -/
theorem login_kept (activity : Activity) (db : Db) (runs : LoginRuns ctx activity db) :
    Sql.Leaves True (activity.step ctx) db (LoginRuns ctx) := by
  cases activity with
  | login env input phase =>
    have step : Sql.Leaves True (Login.step ctx env input phase) db fun next after =>
        LoginRuns ctx (.login env input next) after := by
      match phase with
      | .lookup =>
        apply Sql.Guarantees.leaves
        apply Sql.guarantees_lookup
        · intro possible
          exact absurd trivial possible
        apply Sql.guarantees_pure
        cases decided : Login.decision ctx env input
            (db.users.rows.find? fun user => nocase user.username = nocase input.username) with
        | refuse found passwordOk => exact trivial
        | accept user => exact ⟨List.mem_of_find?_eq_some (found_of_accept decided), runs⟩
      | .write (.refuse found passwordOk) =>
        apply (writeFailure_effect ctx env found passwordOk db).andReturn
        intro result after settled
        cases result with
        | ok _ => exact ⟨_, rfl, Or.inl rfl⟩
        | error reason => exact absurd trivial settled.1
      | .write (.accept user) =>
        apply (writeSuccess_sure ⟨user, runs.1, rfl⟩ runs.2.family runs.2.refreshToken).andReturn
        intro result after success
        obtain ⟨session, rfl⟩ := success
        exact ⟨_, rfl, runs.2.jti, runs.2.memory⟩
      | .readRoles userId session =>
        apply Sql.Guarantees.leaves
        apply Sql.guarantees_query
        · intro possible
          exact absurd trivial possible
        · exact Sql.guarantees_pure (Or.inr (tokenPairResult_sure runs.1 runs.2 _ _ _ _))
      | .done result => exact Sql.Guarantees.leaves (Sql.guarantees_pure runs)
    exact Sql.Leaves.map step fun _ => rfl
  | _ => exact runs.elim

end Login

section Refresh

variable {ctx : AppCtx} {env : Env}

/-- `ps_session_refresh` reports no error, unless something fails. -/
theorem refresh_answers {db : Db} (tokenHash : Bytes) (unfailing : Unfailing ctx env db) :
    Sql.Guarantees True (Session.refresh ctx.crypto tokenHash ctx.config.refreshIdleTtlS env.now
      env.rawToken) db fun outcome _ => outcome.1 ≠ .error := by
  obtain ⟨raw, drawn, _, new⟩ := unfailing.token
  have reused (token : RefreshTokenRow) (out : Session.Refreshed) : Sql.Guarantees True (do
      let _ ← SessionStore.revokeFamily token.familyId .reuseDetected env.now
      return (Session.RefreshResult.reuseDetected, out)) db fun outcome _ => outcome.1 ≠ .error := by
    apply Sql.guarantees_update
    · intro _
      exact Sql.guarantees_pure (by simp)
    · exact Sql.guarantees_pure (by simp)
  apply Sql.guarantees_lookup
  · intro possible
    exact absurd trivial possible
  cases stored : db.refreshTokens.find? tokenHash with
  | none => exact Sql.guarantees_pure (by simp)
  | some token =>
    apply Sql.guarantees_lookup
    · intro possible
      exact absurd trivial possible
    cases owner : db.sessionFamilies.find? token.familyId with
    | none =>
      obtain ⟨family, member, same⟩ :=
        db.tokenFamilies token (Table.find?_eq_some_iff.mp stored).1
      exact absurd same (Table.find?_eq_none_iff.mp owner family member)
    | some family =>
      apply Sql.guarantees_ite
      · intro _
        exact reused token _
      intro _
      apply Sql.guarantees_statement
      · intro cause
        exact absurd trivial (cause.resolve_right (by simp))
      intro claimed after done
      cases done
      by_cases open_ : 0 < db.refreshTokens.count (SessionStore.openToken tokenHash)
      · rw [decide_eq_true open_]
        apply Sql.guarantees_ite
        · intro _
          exact Sql.guarantees_pure (by simp)
        intro _
        rw [drawn]
        have fresh : ∀ other ∈ (db.consumeRefreshTokens (SessionStore.openToken tokenHash)
            env.now).refreshTokens, other.tokenHash ≠ ctx.crypto.sha256 raw.bytes := by
          intro other member
          obtain ⟨old, before, same⟩ := Db.mem_consumeRefreshTokens.mp member
          rw [same]
          split
          · exact new old before
          · exact new old before
        obtain ⟨family, member, same⟩ :=
          db.tokenFamilies token (Table.find?_eq_some_iff.mp stored).1
        have issues : ∃ issued, (db.consumeRefreshTokens (SessionStore.openToken tokenHash)
            env.now).insertRefreshToken (successor (ctx.crypto.sha256 raw.bytes)
              ctx.config.refreshIdleTtlS env.now token) = some issued :=
          Db.insertRefreshToken_isSome ⟨family, member, same⟩ fresh
        obtain ⟨issued, issues⟩ := issues
        apply Sql.guarantees_execute
        · intro cause
          have refused : (db.consumeRefreshTokens (SessionStore.openToken tokenHash)
              env.now).insertRefreshToken (successor (ctx.crypto.sha256 raw.bytes)
                ctx.config.refreshIdleTtlS env.now token) = none := cause.resolve_left (by simp)
          rw [issues] at refused
          contradiction
        · intro _ _
          exact Sql.guarantees_pure (by simp)
      · have closed : db.consumeRefreshTokens (SessionStore.openToken tokenHash) env.now = db := by
          apply Db.consumeRefreshTokens_eq_self
          intro other member
          exact Bool.eq_false_of_not_eq_true fun selected =>
            open_ (Table.count_pos_iff.mpr ⟨other, member, selected⟩)
        rw [decide_eq_false open_, closed]
        exact reused token _

/-- What a refresh answers where it stands, when nothing fails. -/
def RefreshRuns (ctx : AppCtx) : Activity → Db → Prop
  | .refresh env _ .write, db => Unfailing ctx env db
  | .refresh env _ (.readRoles _), _ => env.jti ≠ none ∧ env.memory = true
  | .refresh _ _ (.done result), _ => RefusedOr Refresh.unauthorized result
  | _, _ => False

/-- A step of a refresh goes on to its one refusal, or to success. -/
theorem refresh_kept (activity : Activity) (db : Db) (runs : RefreshRuns ctx activity db) :
    Sql.Leaves True (activity.step ctx) db (RefreshRuns ctx) := by
  cases activity with
  | refresh env tokenHash phase =>
    have step : Sql.Leaves True (Refresh.step ctx env tokenHash phase) db fun next after =>
        RefreshRuns ctx (.refresh env tokenHash next) after := by
      cases phase with
      | write =>
        have written : Sql.Leaves True (Refresh.write ctx env tokenHash) db fun result _ =>
            ∃ outcome, result = .ok outcome := by
          apply Sql.leaves_transaction_answers trivial
          apply Sql.Guarantees.inside
          apply Sql.guarantees_bind (refresh_answers tokenHash runs)
          intro outcome seen fine
          apply Sql.guarantees_ite
          · intro failed
            exact absurd failed fine
          intro _
          apply Sql.guarantees_update
          · intro possible
            exact absurd trivial possible
          · exact Sql.guarantees_pure ⟨outcome, rfl⟩
        apply written.andReturn
        intro result after success
        match result with
        | .ok (.ok, refreshed) => exact ⟨_, rfl, runs.jti, runs.memory⟩
        | .ok (.invalid, refreshed) => exact ⟨_, rfl, Or.inl rfl⟩
        | .ok (.reuseDetected, refreshed) => exact ⟨_, rfl, Or.inl rfl⟩
        | .ok (.error, refreshed) => exact ⟨_, rfl, Or.inl rfl⟩
        | .error reason =>
          obtain ⟨_, impossible⟩ := success
          contradiction
      | readRoles refreshed =>
        apply Sql.Guarantees.leaves
        apply Sql.guarantees_query
        · intro possible
          exact absurd trivial possible
        · exact Sql.guarantees_pure (Or.inr (tokenPairResult_sure runs.1 runs.2 _ _ _ _))
      | done result => exact Sql.Guarantees.leaves (Sql.guarantees_pure runs)
    exact Sql.Leaves.map step fun _ => rfl
  | _ => exact runs.elim

end Refresh

section Verify

variable {ctx : AppCtx} {env : Env}

/-- The transaction of a verification runs through, unless something fails. -/
theorem verify_write_sure (tokenHash : Bytes) (token : VerificationTokenRow) (db : Db) :
    Sql.Leaves True (Verify.write env tokenHash token) db fun result _ => result = .ok () := by
  apply Sql.leaves_transaction_answers trivial
  apply Sql.Guarantees.inside
  apply Sql.guarantees_update
  · intro possible
    exact absurd trivial possible
  apply Sql.guarantees_update
  · intro possible
    exact absurd trivial possible
  apply Sql.guarantees_update
  · intro possible
    exact absurd trivial possible
  · exact Sql.guarantees_pure rfl

/-- What a verification answers where it stands, when nothing fails. -/
def VerifyRuns : Activity → Db → Prop
  | .verify _ _ (.done result), _ => RefusedOr Verify.invalidToken result
  | .verify _ _ _, _ => True
  | _, _ => False

/-- A step of a verification goes on to its one refusal, or to success. -/
theorem verify_kept (activity : Activity) (db : Db) (runs : VerifyRuns activity db) :
    Sql.Leaves True (activity.step ctx) db VerifyRuns := by
  cases activity with
  | verify env tokenHash phase =>
    have step : Sql.Leaves True (Verify.step env tokenHash phase) db fun next after =>
        VerifyRuns (.verify env tokenHash next) after := by
      cases phase with
      | lookup =>
        apply Sql.Guarantees.leaves
        apply Sql.guarantees_lookup
        · intro possible
          exact absurd trivial possible
        cases db.emailVerificationTokens.find? tokenHash with
        | none => exact Sql.guarantees_pure trivial
        | some token =>
          apply Sql.guarantees_pure
          by_cases usable : Verify.usable env.now token = true
          · rw [if_pos usable]
            exact trivial
          · rw [if_neg usable]
            exact trivial
      | auditFailure found =>
        apply Sql.Guarantees.leaves
        apply Sql.guarantees_update
        · intro _
          exact Sql.guarantees_pure (Or.inl rfl)
        · exact Sql.guarantees_pure (Or.inl rfl)
      | write token =>
        apply (verify_write_sure tokenHash token db).andReturn
        intro result after success
        rw [success]
        exact ⟨_, rfl, Or.inr rfl⟩
      | done result => exact Sql.Guarantees.leaves (Sql.guarantees_pure runs)
    exact Sql.Leaves.map step fun _ => rfl
  | _ => exact runs.elim

end Verify

section Answers

variable {ctx : AppCtx}

/-- The answer of the service to a request when no statement fails. -/
def answered (ctx : AppCtx) (arrival : Arrival) (db : Db) : Option HandlerResult :=
  (arrival.answer ctx (Conn.of db, [])).1

/-- The answer of a request is success. -/
def Succeeds (answer : Option HandlerResult) : Prop :=
  ∃ result, answer = some result ∧ result.status = 200

/-- An answer that is the refusal of an inadmissible request, or what an admitted one leads to. -/
def Answers {α : Type} (admission : Except HandlerResult α) (leads : α → HandlerResult → Prop)
    (answer : Option HandlerResult) : Prop :=
  ∃ result, answer = some result ∧
    match admission with
    | .error refusal => result = refusal
    | .ok input => leads input result

/-- A handler answers as its phases do. -/
theorem answers_of_kept {α : Type} {admission : Except HandlerResult α} {begin : α → Activity}
    {holds : Activity → Db → Prop} {leads : α → HandlerResult → Prop} {db : Db}
    (first : ∀ input, FirstPhase (begin input))
    (kept : ∀ activity db, holds activity db → Sql.Leaves True (activity.step ctx) db holds)
    (start : ∀ input, admission = .ok input → holds (begin input) db)
    (ends : ∀ input final after result, holds final after → final.answer = some result →
      leads input result) :
    Answers admission leads
      ((Call.admitted admission fun input => .activity (begin input)).run ctx (Conn.of db, [])).1 := by
  cases admission with
  | error refusal => exact ⟨refusal, rfl, rfl⟩
  | ok input =>
    obtain ⟨result, final, after, given, ended, end_⟩ :=
      answer_of_kept kept (first input) (start input rfl)
    exact ⟨result, given, ends input final after result end_ ended⟩

/-- An answer that is a known refusal, or success. -/
def Refuses (refusal : HandlerResult) (answer : Option HandlerResult) : Prop :=
  ∃ result, answer = some result ∧ RefusedOr refusal result

/-- Two answers that are the same refusal or success, and not success, are the same. -/
theorem same_of_refuses {refusal : HandlerResult} {left right : Option HandlerResult}
    (leftRefuses : Refuses refusal left) (rightRefuses : Refuses refusal right)
    (leftFails : ¬Succeeds left) (rightFails : ¬Succeeds right) : left = right := by
  have refused {answer : Option HandlerResult} (refuses : Refuses refusal answer)
      (fails : ¬Succeeds answer) : answer = some refusal := by
    obtain ⟨result, given, ends⟩ := refuses
    rw [given, ends.resolve_right fun success => fails ⟨result, given, success⟩]
  rw [refused leftRefuses leftFails, refused rightRefuses rightFails]

/-- A body with a string of at most 127 octets in a field. -/
def CarriesToken (request : Http.Request) (field : String) : Prop :=
  ∃ members text, Json.parse (request.body.getD []) = some (.object members) ∧
    stringField (.object members) (ascii field) = some text ∧ text.length ≤ 127

/-- A string of at most 127 octets in a field of an object. -/
def tokenField (field : String) : Value → Bool
  | .object members => (stringField (.object members) (ascii field)).any fun text => text.length ≤ 127
  | _ => false

instance decidableCarriesToken (request : Http.Request) (field : String) :
    Decidable (CarriesToken request field) :=
  decidable_of_iff ((Json.parse (request.body.getD [])).any (tokenField field) = true) <| by
    constructor
    · intro carries
      obtain ⟨value, parsed, token⟩ := (Option.any_eq_true _ _).mp carries
      cases value with
      | object members =>
        obtain ⟨text, given, short⟩ := (Option.any_eq_true _ _).mp token
        exact ⟨members, text, parsed, given, of_decide_eq_true short⟩
      | _ => contradiction
    · intro carries
      obtain ⟨members, text, parsed, given, short⟩ := carries
      rw [parsed, Option.any_some, tokenField, given, Option.any_some]
      exact decide_eq_true short

/-- A body that carries a token is refused for the token only. -/
theorem refused_of_carriesToken {request : Http.Request} {field : String}
    {malformed refusal : HandlerResult} (carries : CarriesToken request field)
    (refused : presentedHash ctx.crypto (request.body.getD []) field malformed = .error refusal) :
    refusal = malformed := by
  obtain ⟨members, text, parsed, given, short⟩ := carries
  have object : parseBody (request.body.getD []) = .ok (.object members) := by
    unfold parseBody
    rw [parsed]
  have read : readStringField (.object members) field 128 = some text := by
    unfold readStringField
    rw [given, Option.filter_some, if_pos (decide_eq_true (by omega))]
  unfold presentedHash at refused
  rw [object] at refused
  simp only [bind, Except.bind] at refused
  rw [read] at refused
  dsimp only at refused
  split at refused
  · exact (Except.error.inj refused).symm
  · split at refused
    · contradiction
    · exact (Except.error.inj refused).symm

/-- The answer to a resend. -/
theorem resend_answers {arrival : Arrival} {db : Db}
    (routed : arrival.routeId = RouteId.resendVerification.number)
    (unfailing : Unfailing ctx arrival.env db) :
    Answers (Resend.admission (arrival.request.body.getD []))
      (fun _ result => result = Resend.resendResult) (answered ctx arrival db) := by
  have dispatched : arrival.dispatched ctx = .ok .resendVerification := by
    unfold Arrival.dispatched
    rw [routed]
    rfl
  unfold answered Arrival.answer
  rw [dispatched]
  obtain ⟨raw, drawn, new, _⟩ := unfailing.token
  apply answers_of_kept (fun email => .resend arrival.env email) resend_kept
  · intro email _
    exact ⟨raw, drawn, new⟩
  · intro email final after result runs ended
    cases final with
    | resend env email phase =>
      cases phase with
      | done answer =>
        cases ended
        exact runs
      | _ => contradiction
    | _ => exact runs.elim

/-- The answer to a registration. -/
theorem register_answers {arrival : Arrival} {db : Db}
    (routed : arrival.routeId = RouteId.register.number)
    (unfailing : Unfailing ctx arrival.env db) {taken : Prop}
    (known : ∀ input, Register.admission ctx arrival.env (arrival.request.body.getD []) = .ok input →
      (UsernameTaken db (Register.newRow input).username ↔ taken)) :
    Answers (Register.admission ctx arrival.env (arrival.request.body.getD []))
      (fun _ => Registered taken) (answered ctx arrival db) := by
  have dispatched : arrival.dispatched ctx = .ok .register := by
    unfold Arrival.dispatched
    rw [routed]
    rfl
  unfold answered Arrival.answer
  rw [dispatched]
  obtain ⟨raw, drawn, new, _⟩ := unfailing.token
  apply answers_of_kept (fun input => .register arrival.env input) (register_kept taken)
  · intro input admitted
    exact ⟨⟨raw, drawn, new⟩, known input admitted⟩
  · intro input final after result runs ended
    cases final with
    | register env input phase =>
      cases phase with
      | done answer =>
        cases ended
        exact runs
      | _ => contradiction
    | _ => exact runs.elim

/-- The answer to a login. -/
theorem login_answers {arrival : Arrival} {db : Db}
    (routed : arrival.routeId = RouteId.login.number) (unfailing : Unfailing ctx arrival.env db) :
    Answers (Login.admission ctx arrival.env (arrival.request.body.getD []))
      (fun _ => RefusedOr Login.unauthorized) (answered ctx arrival db) := by
  have dispatched : arrival.dispatched ctx = .ok .login := by
    unfold Arrival.dispatched
    rw [routed]
    rfl
  unfold answered Arrival.answer
  rw [dispatched]
  apply answers_of_kept (fun input => .login arrival.env input) login_kept
  · intro input _
    exact unfailing
  · intro input final after result runs ended
    cases final with
    | login env input phase =>
      cases phase with
      | done answer =>
        cases ended
        exact runs
      | _ => contradiction
    | _ => exact runs.elim

/-- The answer to a refresh. -/
theorem refresh_request_answers {arrival : Arrival} {db : Db}
    (routed : arrival.routeId = RouteId.refresh.number)
    (unfailing : Unfailing ctx arrival.env db) :
    Answers (Refresh.admission ctx (arrival.request.body.getD []))
      (fun _ => RefusedOr Refresh.unauthorized) (answered ctx arrival db) := by
  have dispatched : arrival.dispatched ctx = .ok .refresh := by
    unfold Arrival.dispatched
    rw [routed]
    rfl
  unfold answered Arrival.answer
  rw [dispatched]
  apply answers_of_kept (fun tokenHash => .refresh arrival.env tokenHash) refresh_kept
  · intro tokenHash _
    exact unfailing
  · intro tokenHash final after result runs ended
    cases final with
    | refresh env tokenHash phase =>
      cases phase with
      | done answer =>
        cases ended
        exact runs
      | _ => contradiction
    | _ => exact runs.elim

/-- The answer to a verification. -/
theorem verify_answers {arrival : Arrival} {db : Db}
    (routed : arrival.routeId = RouteId.verify.number) :
    Answers (Verify.admission ctx (arrival.request.body.getD []))
      (fun _ => RefusedOr Verify.invalidToken) (answered ctx arrival db) := by
  have dispatched : arrival.dispatched ctx = .ok .verify := by
    unfold Arrival.dispatched
    rw [routed]
    rfl
  unfold answered Arrival.answer
  rw [dispatched]
  apply answers_of_kept (fun tokenHash => .verify arrival.env tokenHash) verify_kept
  · intro tokenHash _
    exact trivial
  · intro tokenHash final after result runs ended
    cases final with
    | verify env tokenHash phase =>
      cases phase with
      | done answer =>
        cases ended
        exact runs
      | _ => contradiction
    | _ => exact runs.elim

/-- A body that carries a token leads to the refusal of tokens, or to success. -/
theorem refuses_of_carriesToken {request : Http.Request} {field : String} {refusal : HandlerResult}
    {answer : Option HandlerResult} (carries : CarriesToken request field)
    (answers : Answers (presentedHash ctx.crypto (request.body.getD []) field refusal)
      (fun _ => RefusedOr refusal) answer) : Refuses refusal answer := by
  obtain ⟨result, given, ends⟩ := answers
  refine ⟨result, given, ?_⟩
  cases admitted : presentedHash ctx.crypto (request.body.getD []) field refusal with
  | error other =>
    rw [admitted] at ends
    exact Or.inl (ends.trans (refused_of_carriesToken carries admitted))
  | ok tokenHash =>
    rw [admitted] at ends
    exact ends

/-- When nothing fails, two runs of one request give the same answer: a resend always, a registration if
the username is taken in both databases or in neither, and a login that fails in both. So do any two
refreshes and any two verifications that carry a token and fail. -/
theorem answers_tell_nothing (ctx : AppCtx) :
    (∀ arrival left right, arrival.routeId = RouteId.resendVerification.number →
      Unfailing ctx arrival.env left → Unfailing ctx arrival.env right →
      answered ctx arrival left = answered ctx arrival right) ∧
    (∀ arrival left right, arrival.routeId = RouteId.register.number →
      Unfailing ctx arrival.env left → Unfailing ctx arrival.env right →
      (∀ input, Register.admission ctx arrival.env (arrival.request.body.getD []) = .ok input →
        (UsernameTaken left (Register.newRow input).username ↔
          UsernameTaken right (Register.newRow input).username)) →
      answered ctx arrival left = answered ctx arrival right) ∧
    (∀ arrival left right, arrival.routeId = RouteId.login.number →
      Unfailing ctx arrival.env left → Unfailing ctx arrival.env right →
      ¬Succeeds (answered ctx arrival left) → ¬Succeeds (answered ctx arrival right) →
      answered ctx arrival left = answered ctx arrival right) ∧
    (∀ first second left right, first.routeId = RouteId.refresh.number →
      second.routeId = RouteId.refresh.number →
      CarriesToken first.request "refresh_token" → CarriesToken second.request "refresh_token" →
      Unfailing ctx first.env left → Unfailing ctx second.env right →
      ¬Succeeds (answered ctx first left) → ¬Succeeds (answered ctx second right) →
      answered ctx first left = answered ctx second right) ∧
    (∀ first second left right, first.routeId = RouteId.verify.number →
      second.routeId = RouteId.verify.number →
      CarriesToken first.request "token" → CarriesToken second.request "token" →
      ¬Succeeds (answered ctx first left) → ¬Succeeds (answered ctx second right) →
      answered ctx first left = answered ctx second right) := by
  refine ⟨?_, ?_, ?_, ?_, ?_⟩
  · intro arrival left right routed leftFine rightFine
    obtain ⟨leftResult, leftGiven, leftEnd⟩ := resend_answers routed leftFine
    obtain ⟨rightResult, rightGiven, rightEnd⟩ := resend_answers routed rightFine
    rw [leftGiven, rightGiven]
    cases admitted : Resend.admission (arrival.request.body.getD []) with
    | error refusal =>
      rw [admitted] at leftEnd rightEnd
      rw [leftEnd, rightEnd]
    | ok email =>
      rw [admitted] at leftEnd rightEnd
      rw [leftEnd, rightEnd]
  · intro arrival left right routed leftFine rightFine agree
    let taken := ∃ input, Register.admission ctx arrival.env (arrival.request.body.getD []) =
      .ok input ∧ UsernameTaken left (Register.newRow input).username
    have leftKnown (input : Register.Input) (admitted : Register.admission ctx arrival.env
        (arrival.request.body.getD []) = .ok input) :
        UsernameTaken left (Register.newRow input).username ↔ taken := by
      constructor
      · intro here
        exact ⟨input, admitted, here⟩
      · intro some
        obtain ⟨other, same, here⟩ := some
        rw [admitted] at same
        rw [Except.ok.inj same]
        exact here
    have rightKnown (input : Register.Input) (admitted : Register.admission ctx arrival.env
        (arrival.request.body.getD []) = .ok input) :
        UsernameTaken right (Register.newRow input).username ↔ taken :=
      (agree input admitted).symm.trans (leftKnown input admitted)
    obtain ⟨leftResult, leftGiven, leftEnd⟩ := register_answers routed leftFine leftKnown
    obtain ⟨rightResult, rightGiven, rightEnd⟩ := register_answers routed rightFine rightKnown
    rw [leftGiven, rightGiven]
    cases admitted : Register.admission ctx arrival.env (arrival.request.body.getD []) with
    | error refusal =>
      rw [admitted] at leftEnd rightEnd
      rw [leftEnd, rightEnd]
    | ok input =>
      rw [admitted] at leftEnd rightEnd
      by_cases here : taken
      · rw [leftEnd.1 here, rightEnd.1 here]
      · rw [leftEnd.2 here, rightEnd.2 here]
  · intro arrival left right routed leftFine rightFine leftFails rightFails
    obtain ⟨leftResult, leftGiven, leftEnd⟩ := login_answers routed leftFine
    obtain ⟨rightResult, rightGiven, rightEnd⟩ := login_answers routed rightFine
    cases admitted : Login.admission ctx arrival.env (arrival.request.body.getD []) with
    | error refusal =>
      rw [admitted] at leftEnd rightEnd
      rw [leftGiven, rightGiven, leftEnd, rightEnd]
    | ok input =>
      rw [admitted] at leftEnd rightEnd
      exact same_of_refuses ⟨leftResult, leftGiven, leftEnd⟩ ⟨rightResult, rightGiven, rightEnd⟩
        leftFails rightFails
  · intro first second left right firstRouted secondRouted firstCarries secondCarries leftFine
      rightFine leftFails rightFails
    exact same_of_refuses (refuses_of_carriesToken firstCarries (refresh_request_answers firstRouted leftFine))
      (refuses_of_carriesToken secondCarries (refresh_request_answers secondRouted rightFine)) leftFails
      rightFails
  · intro first second left right firstRouted secondRouted firstCarries secondCarries leftFails
      rightFails
    exact same_of_refuses (refuses_of_carriesToken firstCarries (verify_answers firstRouted))
      (refuses_of_carriesToken secondCarries (verify_answers secondRouted)) leftFails rightFails

end Answers

/-- An answer with another status is not success. -/
theorem not_succeeds {answer : Option HandlerResult}
    (other : answer.map HandlerResult.status ≠ some 200) : ¬Succeeds answer := by
  intro succeeds
  obtain ⟨result, given, success⟩ := succeeds
  rw [given, Option.map_some, success] at other
  exact other rfl

/-- A request to the small deployment. -/
def request (route : RouteId) (path body : String) : Arrival where
  now := 2000
  routeId := route.number
  request := Deployment.post path body
  params := []
  env := Deployment.env 2000 1 1

/-- Nothing fails where no session is stored and the token drawn is new. -/
theorem unfailing_of_empty {db : Db} (families : db.sessionFamilies = Table.empty)
    (tokens : db.refreshTokens = Table.empty)
    (fresh : ∀ stored ∈ db.emailVerificationTokens.rows,
      stored.tokenHash ≠ Deployment.crypto.sha256 (Deployment.rawToken 1).bytes) :
    Unfailing Deployment.ctx (Deployment.env 2000 1 1) db where
  memory := rfl
  jti := by simp [Deployment.env]
  family := ⟨_, rfl, by simp [families]⟩
  token := ⟨_, rfl, fresh, by simp [tokens]⟩

/-- Whoever resends to alice, registers with her address, fails to log in as her or presents unknown
tokens learns nothing of her account. -/
theorem alice_unnoticed :
    let alone := Deployment.unverified .pendingVerification
    let resend := request .resendVerification "/v1/auth/resend-verification"
      "\x7b\"email\":\"alice@example.org\"\x7d"
    let register := request .register "/v1/auth/register"
      "\x7b\"username\":\"bob\",\"email\":\"alice@example.org\",\"password\":\"new horse staple\"\x7d"
    let login := request .login "/v1/auth/login"
      "\x7b\"username\":\"alice\",\"password\":\"wrong horse\"\x7d"
    let refresh := request .refresh "/v1/auth/refresh" "\x7b\"refresh_token\":\"AQEB\"\x7d"
    let verify := request .verify "/v1/auth/verify" "\x7b\"token\":\"AQEB\"\x7d"
    answered Deployment.ctx resend alone = answered Deployment.ctx resend Db.initial ∧
      answered Deployment.ctx register alone = answered Deployment.ctx register Db.initial ∧
      answered Deployment.ctx login alone = answered Deployment.ctx login Db.initial ∧
      answered Deployment.ctx refresh alone = answered Deployment.ctx refresh Db.initial ∧
      answered Deployment.ctx verify alone = answered Deployment.ctx verify Db.initial := by
  have stored : Unfailing Deployment.ctx (Deployment.env 2000 1 1)
      (Deployment.unverified .pendingVerification) :=
    unfailing_of_empty rfl rfl (by decide +kernel)
  have empty : Unfailing Deployment.ctx (Deployment.env 2000 1 1) Db.initial :=
    unfailing_of_empty rfl rfl (by decide +kernel)
  obtain ⟨resends, registers, logins, refreshes, verifies⟩ := answers_tell_nothing Deployment.ctx
  refine ⟨resends _ _ _ rfl stored empty, registers _ _ _ rfl stored empty ?_,
    logins _ _ _ rfl stored empty (not_succeeds (by decide +kernel)) (not_succeeds (by decide +kernel)),
    refreshes _ _ _ _ rfl rfl (by decide +kernel) (by decide +kernel) stored empty
      (not_succeeds (by decide +kernel)) (not_succeeds (by decide +kernel)),
    verifies _ _ _ _ rfl rfl (by decide +kernel) (by decide +kernel)
      (not_succeeds (by decide +kernel)) (not_succeeds (by decide +kernel))⟩
  intro input admitted
  have name : (Register.admission Deployment.ctx (Deployment.env 2000 1 1)
      (ascii "\x7b\"username\":\"bob\",\"email\":\"alice@example.org\",\"password\":\"new horse staple\"\x7d")).toOption.map
        (fun input => (Register.newRow input).username) = some (ascii "bob") := by decide +kernel
  have shown := congrArg
    (fun result => result.toOption.map fun input => (Register.newRow input).username) admitted
  have own : ascii "bob" = (Register.newRow input).username :=
    Option.some.inj (name.symm.trans shown)
  rw [← own]
  apply iff_of_false
  · intro taken
    obtain ⟨user, stored, same⟩ := taken
    rw [List.mem_singleton.mp stored] at same
    exact absurd same (by decide +kernel)
  · intro taken
    obtain ⟨user, stored, _⟩ := taken
    exact Table.not_mem_empty user stored

end PlatformService.Verif.Enumeration
