import PlatformService.Api.Sessions

/-!
# What the session code does to the database

One statement for each function of `session.c` and for each transaction built on
it: everything it can report together with the content it leaves, faults included
unless the run is `reliable`. The invariants of later modules follow from these
statements and never look into the code again.
-/

namespace PlatformService.Verif

open Lib Store Crypto Session Api SessionStore

variable {reliable : Prop}

/-- The row a rotation inserts. -/
def successor (tokenHash : Bytes) (idleTtlS now : Int) (token : RefreshTokenRow) :
    RefreshTokenRow where
  tokenHash := tokenHash
  familyId := token.familyId
  generation := token.generation + 1
  idleExp := now + idleTtlS
  consumedAt := none
  issuedAt := now

/-- Everything `ps_session_refresh` can do, short of reporting an error. -/
inductive RefreshStep (reliable : Prop) (crypto : Primitives) (tokenHash : Bytes)
    (idleTtlS now : Int) (newRaw : Option (Drawn 32)) (db : Db) :
    RefreshResult × Refreshed → Db → Prop where
  /-- The token is not stored, or reading it failed. -/
  | unknown (absent : ¬reliable ∨ db.refreshTokens.find? tokenHash = none) :
    RefreshStep reliable crypto tokenHash idleTtlS now newRaw db (.invalid, {}) db
  /-- The token was consumed before: the family is revoked, unless that statement failed. -/
  | reused (token : RefreshTokenRow) (family : SessionFamilyRow)
    (stored : db.refreshTokens.find? tokenHash = some token)
    (owner : db.sessionFamilies.find? token.familyId = some family)
    (consumed : token.consumedAt ≠ none) (after : Db)
    (revoked : after = db.revokeFamilies (liveFamily token.familyId) now .reuseDetected ∨
      ¬reliable ∧ after = db) :
    RefreshStep reliable crypto tokenHash idleTtlS now newRaw db
      (.reuseDetected, { userId := family.userId, familyId := token.familyId }) after
  /-- The token is claimed, but its family is dead or its time is over. -/
  | stale (token : RefreshTokenRow) (family : SessionFamilyRow)
    (stored : db.refreshTokens.find? tokenHash = some token)
    (owner : db.sessionFamilies.find? token.familyId = some family)
    (unconsumed : token.consumedAt = none)
    (dead : nullAsZero family.revokedAt ≠ 0 ∨ family.absoluteExp < now ∨ token.idleExp < now) :
    RefreshStep reliable crypto tokenHash idleTtlS now newRaw db
      (.invalid, { userId := family.userId, familyId := token.familyId })
      (db.consumeRefreshTokens (openToken tokenHash) now)
  /-- The token is claimed and its successor issued. -/
  | rotated (token : RefreshTokenRow) (family : SessionFamilyRow) (raw : Drawn 32)
    (stored : db.refreshTokens.find? tokenHash = some token)
    (owner : db.sessionFamilies.find? token.familyId = some family)
    (unconsumed : token.consumedAt = none)
    (live : nullAsZero family.revokedAt = 0) (inTime : now ≤ family.absoluteExp)
    (notIdle : now ≤ token.idleExp) (drawn : newRaw = some raw) (after : Db)
    (issued : (db.consumeRefreshTokens (openToken tokenHash) now).insertRefreshToken
      (successor (crypto.sha256 raw.bytes) idleTtlS now token) = some after) :
    RefreshStep reliable crypto tokenHash idleTtlS now newRaw db
      (.ok, { userId := family.userId, familyId := token.familyId,
              rawRefreshToken := raw.bytes, refreshIdleExp := now + idleTtlS }) after
  /-- Some statement or draw failed; the caller rolls back. -/
  | failed (out : Refreshed) (after : Db) :
    RefreshStep reliable crypto tokenHash idleTtlS now newRaw db (.error, out) after

/-- A presented token that is stored is open to the claim exactly when it is unconsumed. -/
theorem count_openToken_pos {db : Db} {tokenHash : Bytes} {token : RefreshTokenRow}
    (stored : db.refreshTokens.find? tokenHash = some token) :
    0 < db.refreshTokens.count (openToken tokenHash) ↔ token.consumedAt = none := by
  obtain ⟨member, rfl⟩ := Table.find?_eq_some_iff.mp stored
  rw [Table.count_pos_iff]
  constructor
  · intro ⟨other, otherStored, selected⟩
    simp only [openToken, Bool.and_eq_true, decide_eq_true_eq, Option.isNone_iff_eq_none] at selected
    rw [← Table.eq_of_key otherStored member selected.1]
    exact selected.2
  · intro unconsumed
    exact ⟨token, member, by simp [openToken, unconsumed]⟩

/-- The revocation on reuse, whose failure goes unnoticed. -/
private theorem reuse_spec {db : Db} {familyId : Bytes} {now : Int}
    {out : RefreshResult × Refreshed} {post : RefreshResult × Refreshed → Db → Prop}
    (unnoticed : ¬reliable → post out db)
    (revoked : post out (db.revokeFamilies (liveFamily familyId) now .reuseDetected)) :
    Sql.Guarantees reliable
      (do
        let _ ← SessionStore.revokeFamily familyId .reuseDetected now
        return out) db post :=
  Sql.guarantees_update (fun possible => Sql.guarantees_pure (unnoticed possible))
    (Sql.guarantees_pure revoked)

/-- `ps_session_refresh` does nothing but what `RefreshStep` lists. -/
theorem refresh_spec (crypto : Primitives) (tokenHash : Bytes) (idleTtlS now : Int)
    (newRaw : Option (Drawn 32)) (db : Db) :
    Sql.Guarantees reliable (refresh crypto tokenHash idleTtlS now newRaw) db
      (RefreshStep reliable crypto tokenHash idleTtlS now newRaw db) := by
  apply Sql.guarantees_lookup
  · intro possible
    exact Sql.guarantees_pure (RefreshStep.unknown (Or.inl possible))
  cases stored : db.refreshTokens.find? tokenHash with
  | none => exact Sql.guarantees_pure (RefreshStep.unknown (Or.inr stored))
  | some token =>
    apply Sql.guarantees_lookup
    · intro possible
      exact Sql.guarantees_pure (RefreshStep.failed _ _)
    cases owner : db.sessionFamilies.find? token.familyId with
    | none => exact Sql.guarantees_pure (RefreshStep.failed _ _)
    | some family =>
      have reuse (consumed : token.consumedAt ≠ none) : Sql.Guarantees reliable
          (do
            let _ ← SessionStore.revokeFamily token.familyId .reuseDetected now
            return (RefreshResult.reuseDetected,
              ({ userId := family.userId, familyId := token.familyId } : Refreshed))) db
          (RefreshStep reliable crypto tokenHash idleTtlS now newRaw db) :=
        reuse_spec
          (fun possible =>
            RefreshStep.reused token family stored owner consumed _ (Or.inr ⟨possible, rfl⟩))
          (RefreshStep.reused token family stored owner consumed _ (Or.inl rfl))
      apply Sql.guarantees_ite
      · intro marked
        apply reuse
        intro unconsumed
        simp [unconsumed, nullAsZero] at marked
      intro _
      apply Sql.guarantees_statement
      · intro _
        exact Sql.guarantees_pure (RefreshStep.failed _ _)
      intro claimed after done
      simp only [Option.some.injEq, Prod.mk.injEq] at done
      obtain ⟨rfl, rfl⟩ := done
      cases consumption : token.consumedAt with
      | some time =>
        have consumed : token.consumedAt ≠ none := by simp [consumption]
        have unclaimed : ¬0 < db.refreshTokens.count (openToken tokenHash) := fun positive =>
          consumed ((count_openToken_pos stored).mp positive)
        have untouched : db.consumeRefreshTokens (openToken tokenHash) now = db :=
          Db.consumeRefreshTokens_eq_self fun other member => by
            by_contra selected
            exact unclaimed (Table.count_pos_iff.mpr ⟨other, member, by simpa using selected⟩)
        rw [decide_eq_false unclaimed, untouched]
        exact reuse consumed
      | none =>
        rw [decide_eq_true ((count_openToken_pos stored).mpr consumption)]
        apply Sql.guarantees_ite
        · intro dead
          exact Sql.guarantees_pure (RefreshStep.stale token family stored owner consumption dead)
        intro alive
        simp only [not_or, not_not, Int.not_lt] at alive
        cases drawn : newRaw with
        | none => exact Sql.guarantees_pure (RefreshStep.failed _ _)
        | some raw =>
          apply Sql.guarantees_execute
          · intro _
            exact Sql.guarantees_pure (RefreshStep.failed _ _)
          · intro after issued
            exact Sql.guarantees_pure (RefreshStep.rotated token family raw stored owner consumption
              alive.1 alive.2.1 alive.2.2 rfl after issued)

/-- `ps_session_refresh` reports success only for an unconsumed token in time, of a live family. -/
theorem of_refresh_ok {crypto : Primitives} {tokenHash : Bytes} {idleTtlS now : Int}
    {newRaw : Option (Drawn 32)} {db : Db} {undo : List Db} {faults : List Bool}
    (success : (refresh crypto tokenHash idleTtlS now newRaw (⟨db, undo⟩, faults)).1.1 = .ok) :
    ∃ token family, db.refreshTokens.find? tokenHash = some token ∧
      db.sessionFamilies.find? token.familyId = some family ∧ token.consumedAt = none ∧
      nullAsZero family.revokedAt = 0 ∧ now ≤ family.absoluteExp ∧ now ≤ token.idleExp := by
  have spec : Sql.Guarantees False _ db _ := refresh_spec crypto tokenHash idleTtlS now newRaw db
  have step := (spec undo faults False.elim).1.2
  generalize refresh crypto tokenHash idleTtlS now newRaw (⟨db, undo⟩, faults) = out at success step
  obtain ⟨outcome, ⟨seen, restored⟩, rest⟩ := out
  cases step with
  | rotated token family raw stored owner unconsumed live inTime notIdle drawn after issued =>
    exact ⟨token, family, stored, owner, unconsumed, live, inTime, notIdle⟩
  | unknown absent => contradiction
  | reused token family stored owner consumed after revoked => contradiction
  | stale token family stored owner unconsumed dead => contradiction
  | failed out after => contradiction

/-- The first token of a family. -/
def firstToken (tokenHash familyId : Bytes) (idleTtlS now : Int) : RefreshTokenRow where
  tokenHash := tokenHash
  familyId := familyId
  generation := 1
  idleExp := now + idleTtlS
  consumedAt := none
  issuedAt := now

/-- A new family. -/
def newFamily (familyId : Bytes) (userId absoluteTtlS now : Int) : SessionFamilyRow where
  familyId := familyId
  userId := userId
  createdAt := now
  absoluteExp := now + absoluteTtlS
  revokedAt := none
  revokeCause := none

/-- What `ps_session_create` reports and leaves when it succeeds: a family and its first token. -/
structure Creates (crypto : Primitives) (userId absoluteTtlS idleTtlS now : Int)
    (familyId : Option (Drawn 16)) (rawToken : Option (Drawn 32)) (db : Db) (created : Created)
    (after : Db) : Prop where
  familyDrawn : familyId.map Drawn.bytes = some created.familyId
  tokenDrawn : rawToken.map Drawn.bytes = some created.rawRefreshToken
  inserts : ∃ opened, db.insertFamily (newFamily created.familyId userId absoluteTtlS now) =
      some opened ∧
    opened.insertRefreshToken
      (firstToken (crypto.sha256 created.rawRefreshToken) created.familyId idleTtlS now) = some after

/-- `ps_session_create` creates a session, or fails for its caller to roll back. -/
theorem create_spec (crypto : Primitives) (userId absoluteTtlS idleTtlS now : Int)
    (familyId : Option (Drawn 16)) (rawToken : Option (Drawn 32)) (db : Db) :
    Sql.Guarantees reliable (create crypto userId absoluteTtlS idleTtlS now familyId rawToken) db
      fun result after => ∀ created, result = some created →
        Creates crypto userId absoluteTtlS idleTtlS now familyId rawToken db created after := by
  have fails (seen : Db) : Sql.Guarantees reliable (pure (none : Option Created)) seen
      fun result after => ∀ created, result = some created →
        Creates crypto userId absoluteTtlS idleTtlS now familyId rawToken db created after :=
    Sql.guarantees_pure fun _ impossible => by contradiction
  cases familyId with
  | none => exact fails db
  | some family =>
    apply Sql.guarantees_execute
    · intro _
      exact fails db
    intro middle opened
    cases rawToken with
    | none => exact fails middle
    | some raw =>
      apply Sql.guarantees_execute
      · intro _
        exact fails middle
      intro after issued
      apply Sql.guarantees_pure
      intro created same
      cases same
      exact ⟨rfl, rfl, middle, opened, issued⟩

/-- Where the owner is stored, the draws succeed and are new, and nothing fails, a session is opened. -/
theorem createSession_sure {crypto : Primitives} {userId absoluteTtlS idleTtlS now : Int}
    {familyId : Option (Drawn 16)} {rawToken : Option (Drawn 32)} {db : Db}
    (owned : ∃ user ∈ db.users, user.userId = userId)
    (family : ∃ drawn, familyId = some drawn ∧
      ∀ stored ∈ db.sessionFamilies, stored.familyId ≠ drawn.bytes)
    (token : ∃ raw, rawToken = some raw ∧
      ∀ stored ∈ db.refreshTokens, stored.tokenHash ≠ crypto.sha256 raw.bytes) :
    Sql.Guarantees True (create crypto userId absoluteTtlS idleTtlS now familyId rawToken) db
      fun created _ => created ≠ none := by
  obtain ⟨drawn, drawnFamily, newFamily⟩ := family
  obtain ⟨raw, drawnToken, newToken⟩ := token
  rw [drawnFamily, drawnToken]
  have opens : ∃ opened, db.insertFamily
      ⟨drawn.bytes, userId, now, now + absoluteTtlS, none, none⟩ = some opened :=
    Db.insertFamily_isSome owned newFamily
  obtain ⟨opened, opens⟩ := opens
  apply Sql.guarantees_execute
  · intro cause
    have refused := cause.resolve_left (by simp)
    rw [opens] at refused
    contradiction
  intro after done
  rw [opens] at done
  rw [← Option.some.inj done]
  have tables := Db.insertFamily_eq_some opens
  have member := (Table.mem_insert tables.1).1
  have issues : ∃ issued, opened.insertRefreshToken
      ⟨crypto.sha256 raw.bytes, drawn.bytes, 1, now + idleTtlS, none, now⟩ = some issued :=
    Db.insertRefreshToken_isSome ⟨_, (member _).mpr (Or.inr rfl), rfl⟩ (tables.2.2 ▸ newToken)
  obtain ⟨issued, issues⟩ := issues
  apply Sql.guarantees_execute
  · intro cause
    have refused := cause.resolve_left (by simp)
    rw [issues] at refused
    contradiction
  · intro _ _
    exact Sql.guarantees_pure (by simp)

/-- The session tables after a login that succeeded. -/
structure Opens (crypto : Primitives) (userId absoluteTtlS idleTtlS now : Int)
    (familyId : Option (Drawn 16)) (rawToken : Option (Drawn 32)) (db : Db) (created : Created)
    (after : Db) : Prop where
  familyDrawn : familyId.map Drawn.bytes = some created.familyId
  tokenDrawn : rawToken.map Drawn.bytes = some created.rawRefreshToken
  family : db.sessionFamilies.insert (newFamily created.familyId userId absoluteTtlS now) =
    some after.sessionFamilies
  token : db.refreshTokens.insert
    (firstToken (crypto.sha256 created.rawRefreshToken) created.familyId idleTtlS now) =
      some after.refreshTokens
  users : after.users = db.users

/-- A session is created by its two rows. -/
theorem Creates.opens {crypto : Primitives} {userId absoluteTtlS idleTtlS now : Int}
    {familyId : Option (Drawn 16)} {rawToken : Option (Drawn 32)} {db after : Db}
    {created : Created}
    (h : Creates crypto userId absoluteTtlS idleTtlS now familyId rawToken db created after) :
    Opens crypto userId absoluteTtlS idleTtlS now familyId rawToken db created after := by
  obtain ⟨opened, inserted, issued⟩ := h.inserts
  have familyRow := Db.insertFamily_eq_some inserted
  have tokenRow := Db.insertRefreshToken_eq_some issued
  exact {
    familyDrawn := h.familyDrawn
    tokenDrawn := h.tokenDrawn
    family := familyRow.1.trans (by rw [tokenRow.2.2])
    token := familyRow.2.2 ▸ tokenRow.1
    users := tokenRow.2.1.trans familyRow.2.1 }

variable {α ε : Type}

/-- The last statement of every transaction: its audit row. -/
theorem audited_spec {entry : AuditEntry} {value : α} {reason : ε} {db : Db}
    {effect : α → Db → Prop} (h : effect value (db.insertAudit entry)) :
    Sql.Guarantees reliable
      (do if ← AuditStore.write entry then return .ok value else return .error reason) db
      (Sql.OnSuccess effect) :=
  Sql.guarantees_update (fun _ => Sql.guarantees_giveUp) (Sql.guarantees_finish h)

/-- A login accepts the account it found if the password is right, the account active and not
locked. -/
theorem decision_eq_accept {ctx : AppCtx} {env : Env} {input : Login.Input} {found : Option UserRow}
    {user : UserRow} (accepted : Login.decision ctx env input found = .accept user) :
    found = some user ∧ Password.verify ctx.crypto input.password (storedHash user) = true ∧
      user.status = .active ∧ Login.locked env.now user = false := by
  unfold Login.decision at accepted
  cases found with
  | none => contradiction
  | some row =>
    dsimp only at accepted
    split at accepted
    · rename_i passes
      simp only [Bool.and_eq_true, decide_eq_true_eq, Bool.not_eq_true'] at passes
      rw [← Login.Decision.accept.inj accepted]
      exact ⟨rfl, passes.1.1, passes.1.2, passes.2⟩
    · contradiction

/-- The users after a refused login: a wrong password on an unlocked account is counted. -/
def failedUsers (ctx : AppCtx) (env : Env) (found : Option UserRow) (passwordOk : Bool)
    (db : Db) : Db :=
  match found with
  | none => db
  | some user =>
    if Login.locked env.now user || passwordOk then db
    else
      let (failed, lockedUntil) := Login.afterFailure ctx.config env.now user
      db.updateUsers (fun row => row.userId = user.userId)
        (UserStore.loginFailureChange failed lockedUntil env.now)

/-- Whether a refused login locks the account. -/
def justLocked (ctx : AppCtx) (env : Env) (found : Option UserRow) (passwordOk : Bool) : Bool :=
  match found with
  | none => false
  | some user =>
    if Login.locked env.now user || passwordOk then false
    else decide (ctx.config.lockoutThreshold ≤ user.failedLogins + 1)

/-- The bookkeeping of a refused login counts the failure, unless its statement fails. -/
theorem recordFailure_spec (ctx : AppCtx) (env : Env) (found : Option UserRow) (passwordOk : Bool)
    (db : Db) :
    Sql.Guarantees reliable (Login.recordFailure ctx env found passwordOk) db fun result after =>
      (result = none → ¬reliable) ∧ ∀ locks, result = some locks →
        locks = justLocked ctx env found passwordOk ∧
          after = failedUsers ctx env found passwordOk db := by
  cases found with
  | none =>
    exact Sql.guarantees_pure
      ⟨fun impossible => by contradiction, fun _ same => ⟨(Option.some.inj same).symm, rfl⟩⟩
  | some user =>
    apply Sql.guarantees_ite
    · intro uncounted
      refine Sql.guarantees_pure ⟨fun impossible => by contradiction, fun locks same => ?_⟩
      rw [justLocked, failedUsers, if_pos uncounted, if_pos uncounted]
      exact ⟨(Option.some.inj same).symm, rfl⟩
    · intro counted
      apply Sql.guarantees_update
      · intro possible
        exact Sql.guarantees_pure ⟨fun _ => possible, fun _ impossible => by contradiction⟩
      · refine Sql.guarantees_pure ⟨fun impossible => by contradiction, fun locks same => ?_⟩
        rw [justLocked, failedUsers, if_neg counted, if_neg counted]
        exact ⟨(Option.some.inj same).symm, rfl⟩

/-- The content after a refused login: the failure counted, and its audit rows. -/
def refusedDb (ctx : AppCtx) (env : Env) (found : Option UserRow) (passwordOk : Bool) (db : Db) : Db :=
  let audited := (failedUsers ctx env found passwordOk db).insertAudit
    { occurredAt := env.now, event := .login, outcome := .failure,
      targetUserId := found.map UserRow.userId, sourceIp := auditSourceIp env,
      detail := some (reasonDetail (Login.reason env found passwordOk)) }
  if justLocked ctx env found passwordOk then
    audited.insertAudit
      { occurredAt := env.now, event := .accountLocked, outcome := .success,
        targetUserId := found.map UserRow.userId, sourceIp := auditSourceIp env }
  else audited

/-- The transaction of a refused login leaves its whole effect, unless something fails. -/
theorem writeFailure_effect (ctx : AppCtx) (env : Env) (found : Option UserRow) (passwordOk : Bool)
    (db : Db) :
    Sql.Leaves reliable (Login.writeFailure ctx env found passwordOk) db (Sql.Settles reliable db
      fun _ after => after = refusedDb ctx env found passwordOk db) := by
  apply Sql.leaves_transaction_sure
  apply Sql.guarantees_bind (recordFailure_spec ctx env found passwordOk db)
  intro recorded seen outcome
  cases recorded with
  | none => exact Sql.guarantees_giveUp_sure (outcome.1 rfl)
  | some locks =>
    obtain ⟨verdict, counted⟩ := outcome.2 locks rfl
    rw [counted]
    apply Sql.guarantees_update
    · intro possible
      exact Sql.guarantees_giveUp_sure possible
    cases locks with
    | false =>
      apply Sql.guarantees_finish_sure
      rw [refusedDb, ← verdict, if_neg (by simp)]
    | true =>
      apply Sql.guarantees_update
      · intro possible
        exact Sql.guarantees_giveUp_sure possible
      · apply Sql.guarantees_finish_sure
        rw [refusedDb, ← verdict, if_pos rfl]

/-- A refused login changes the users only. -/
theorem refusedDb_kept (ctx : AppCtx) (env : Env) (found : Option UserRow) (passwordOk : Bool)
    (db : Db) :
    (refusedDb ctx env found passwordOk db).users = (failedUsers ctx env found passwordOk db).users ∧
      (refusedDb ctx env found passwordOk db).sessions = db.sessions := by
  have untouched : (failedUsers ctx env found passwordOk db).sessions = db.sessions := by
    unfold failedUsers
    split
    · rfl
    · split
      · rfl
      · rfl
  rw [refusedDb]
  split
  · exact ⟨rfl, untouched⟩
  · exact ⟨rfl, untouched⟩

/-- The transaction of a refused login counts the failure, unless something fails. -/
theorem writeFailure_spec (ctx : AppCtx) (env : Env) (found : Option UserRow) (passwordOk : Bool)
    (db : Db) :
    Sql.Leaves reliable (Login.writeFailure ctx env found passwordOk) db (Sql.Settles reliable db
      fun _ after => after.users = (failedUsers ctx env found passwordOk db).users ∧
        after.sessionFamilies = db.sessionFamilies) := by
  refine (writeFailure_effect ctx env found passwordOk db).mono fun result after left => ?_
  cases result with
  | error reason => exact left
  | ok _ =>
    have kept := refusedDb_kept ctx env found passwordOk db
    have same : after = refusedDb ctx env found passwordOk db := left
    rw [same]
    exact ⟨kept.1, congrArg Prod.fst kept.2⟩

/-- The lock fields of a user after an accepted login. -/
def clearedUsers (db : Db) (userId now : Int) : Db :=
  db.updateUsers (fun user => user.userId = userId) (UserStore.loginFailureChange 0 0 now)

/-- The audit row of an accepted login. -/
def loginEntry (env : Env) (userId : Int) : AuditEntry :=
  { occurredAt := env.now, event := .login, outcome := .success, targetUserId := some userId,
    sourceIp := auditSourceIp env }

/-- What an accepted login leaves: cleared lock fields, a session and its audit row. -/
def LoginEffect (ctx : AppCtx) (env : Env) (userId : Int) (db : Db) (created : Created)
    (after : Db) : Prop :=
  ∃ seen, Creates ctx.crypto userId ctx.config.refreshAbsoluteTtlS ctx.config.refreshIdleTtlS env.now
      env.familyId env.rawToken (clearedUsers db userId env.now) created seen ∧
    after = seen.insertAudit (loginEntry env userId)

/-- The transaction of an accepted login leaves its whole effect or nothing. -/
theorem writeSuccess_effect (ctx : AppCtx) (env : Env) (userId : Int) (db : Db) :
    Sql.Leaves reliable (Login.writeSuccess ctx env userId) db
      (Sql.AllOrNothing db (LoginEffect ctx env userId db)) := by
  apply Sql.leaves_transaction
  apply Sql.guarantees_update
  · intro _
    exact Sql.guarantees_giveUp
  apply Sql.guarantees_bind (create_spec _ _ _ _ _ _ _ _)
  intro result after creates
  cases result with
  | none => exact Sql.guarantees_giveUp
  | some created => exact audited_spec ⟨after, creates created rfl, rfl⟩

/-- The transaction of an accepted login clears the lock fields and opens a family. -/
theorem writeSuccess_spec (ctx : AppCtx) (env : Env) (userId : Int) (db : Db) :
    Sql.Leaves reliable (Login.writeSuccess ctx env userId) db (Sql.AllOrNothing db
      (Opens ctx.crypto userId ctx.config.refreshAbsoluteTtlS ctx.config.refreshIdleTtlS env.now
        env.familyId env.rawToken (clearedUsers db userId env.now))) := by
  refine (writeSuccess_effect ctx env userId db).mono fun result after left => ?_
  cases result with
  | error reason => exact left
  | ok created =>
    obtain ⟨seen, creates, rfl⟩ := left
    have opens := creates.opens
    exact ⟨opens.familyDrawn, opens.tokenDrawn, opens.family, opens.token, opens.users⟩

/-- The transaction of an accepted login of a stored user runs through where the draws succeed and are
new, and nothing fails. -/
theorem writeSuccess_sure {ctx : AppCtx} {env : Env} {userId : Int} {db : Db}
    (owned : ∃ user ∈ db.users, user.userId = userId)
    (family : ∃ drawn, env.familyId = some drawn ∧
      ∀ stored ∈ db.sessionFamilies, stored.familyId ≠ drawn.bytes)
    (token : ∃ raw, env.rawToken = some raw ∧
      ∀ stored ∈ db.refreshTokens, stored.tokenHash ≠ ctx.crypto.sha256 raw.bytes) :
    Sql.Leaves True (Login.writeSuccess ctx env userId) db fun result _ =>
      ∃ session, result = .ok session := by
  apply Sql.leaves_transaction_answers trivial
  apply Sql.Guarantees.inside
  apply Sql.guarantees_update
  · intro possible
    exact absurd trivial possible
  have still : ∃ user ∈ (clearedUsers db userId env.now).users, user.userId = userId := by
    obtain ⟨user, stored, own⟩ := owned
    have ids : (clearedUsers db userId env.now).users.rows.map UserRow.userId =
        db.users.rows.map UserRow.userId := Db.map_updateUsers db _ _ UserRow.userId fun _ => rfl
    have listed : userId ∈ (clearedUsers db userId env.now).users.rows.map UserRow.userId := by
      rw [ids]
      exact List.mem_map.mpr ⟨user, stored, own⟩
    exact List.mem_map.mp listed
  apply Sql.guarantees_bind (createSession_sure still family token)
  intro created seen success
  cases created with
  | none => exact absurd rfl success
  | some session =>
    apply Sql.guarantees_update
    · intro possible
      exact absurd trivial possible
    · exact Sql.guarantees_pure ⟨session, rfl⟩

/-- No phase of a login changes what can be told from the users without their counters and locks. -/
theorem keeps_login {V : Type} {view : Db → V}
    (ofUsers : ∀ db after : Db, after.users = db.users → view after = view db)
    (uncounted : ∀ (db : Db) selected failedLogins lockedUntil now, view (db.updateUsers selected
      (UserStore.loginFailureChange failedLogins lockedUntil now)) = view db)
    (ctx : AppCtx) (env : Env) (input : Login.Input) (phase : Login.Phase) :
    Sql.KeepsCommitted view (Login.step ctx env input phase) := by
  cases phase with
  | lookup => exact (Sql.keeps_bind (Sql.keeps_lookup _) fun _ => Sql.keeps_pure _).committed
  | write decision =>
    cases decision with
    | refuse found passwordOk =>
      have counted (db : Db) : view (failedUsers ctx env found passwordOk db) = view db := by
        cases found with
        | none => rfl
        | some user =>
          rw [failedUsers]
          split
          · rfl
          · exact uncounted db _ _ _ _
      have written : Sql.KeepsCommitted view (Login.writeFailure ctx env found passwordOk) :=
        Sql.keepsCommitted_of_effect
          (fun _ db => (writeFailure_spec ctx env found passwordOk db).mono
            fun _ _ settled => settled.allOrNothing)
          fun _ db _ after left => (ofUsers _ after left.1).trans (counted db)
      apply written.andThen
      intro result
      cases result with
      | ok _ => exact ⟨_, rfl⟩
      | error result => exact ⟨_, rfl⟩
    | accept user =>
      have written : Sql.KeepsCommitted view (Login.writeSuccess ctx env user.userId) :=
        Sql.keepsCommitted_of_effect (fun _ db => writeSuccess_spec ctx env user.userId db)
          fun _ db _ after left => (ofUsers _ after left.users).trans (uncounted db _ _ _ _)
      apply written.andThen
      intro result
      cases result with
      | ok session => exact ⟨_, rfl⟩
      | error result => exact ⟨_, rfl⟩
  | readRoles userId session =>
    exact (Sql.keeps_bind (Sql.keeps_query _) fun _ => Sql.keeps_pure _).committed
  | done result => exact (Sql.keeps_pure _).committed

/-- The transaction of a refresh leaves what `ps_session_refresh` did, unless that was an error. -/
theorem refresh_write_spec (ctx : AppCtx) (env : Env) (tokenHash : Bytes) (db : Db) :
    Sql.Leaves reliable (Refresh.write ctx env tokenHash) db (Sql.AllOrNothing db
      fun outcome after => outcome.1 ≠ .error ∧ ∃ seen,
        after = seen.insertAudit (Refresh.auditEntry env outcome.1 outcome.2) ∧
        RefreshStep reliable ctx.crypto tokenHash ctx.config.refreshIdleTtlS env.now env.rawToken db
          outcome seen) := by
  apply Sql.leaves_transaction
  apply Sql.guarantees_bind (refresh_spec _ _ _ _ _ _)
  rintro ⟨result, refreshed⟩ seen step
  apply Sql.guarantees_ite
  · intro _
    exact Sql.guarantees_giveUp
  · intro fine
    exact audited_spec ⟨fine, seen, rfl, step⟩

/-- The content after a logout: the family revoked if it was live, and an audit row. -/
def loggedOutDb (env : Env) (familyId : Bytes) (ownerId : Int) (db : Db) : Db :=
  (db.revokeFamilies (liveFamily familyId) env.now .logout).insertAudit
    { occurredAt := env.now, event := .logout, outcome := .success, targetUserId := some ownerId,
      sourceIp := auditSourceIp env }

/-- The transaction of a logout revokes the family if it is live, unless something fails. -/
theorem logout_write_settles (env : Env) (familyId : Bytes) (ownerId : Int) (db : Db) :
    Sql.Leaves reliable (Logout.write env familyId ownerId) db (Sql.Settles reliable db
      fun _ after => after = loggedOutDb env familyId ownerId db) := by
  apply Sql.leaves_transaction_sure
  apply Sql.guarantees_update
  · intro possible
    exact Sql.guarantees_giveUp_sure possible
  apply Sql.guarantees_update
  · intro possible
    exact Sql.guarantees_giveUp_sure possible
  · exact Sql.guarantees_finish_sure rfl

/-- The transaction of a logout leaves its whole effect or nothing. -/
theorem logout_write_spec (env : Env) (familyId : Bytes) (ownerId : Int) (db : Db) :
    Sql.Leaves reliable (Logout.write env familyId ownerId) db (Sql.AllOrNothing db
      fun _ after => after = loggedOutDb env familyId ownerId db) :=
  (logout_write_settles env familyId ownerId db).mono fun _ _ settled => settled.allOrNothing

/-- What a password change has when it decides to write: a row whose password was verified, the hash of
the new password, and the family that the access token names. -/
theorem passwordChange_decides_write {ctx : AppCtx} {env : Env} {claims : Claims}
    {input : PasswordChange.Input}
    {found : Option UserRow} {user : UserRow} {newHash : Password.Hash} {survivingFamilyId : Bytes}
    (decided : PasswordChange.decision ctx env claims input found =
      .write user newHash survivingFamilyId) :
    found = some user ∧
      Password.verify ctx.crypto input.currentPassword (storedHash user) = true ∧
      Password.hash ctx.crypto input.newPassword ctx.config.kdfIterations env.salt = some newHash ∧
      hexDecode claims.familyId = some survivingFamilyId := by
  unfold PasswordChange.decision at decided
  split at decided
  · contradiction
  split at decided
  · contradiction
  cases found with
  | none => contradiction
  | some row =>
    dsimp only at decided
    split at decided
    · contradiction
    rename_i passes
    split at decided
    · contradiction
    rename_i hashed
    split at decided
    · contradiction
    rename_i named
    obtain ⟨rfl, rfl, rfl⟩ := PasswordChange.Decision.write.inj decided
    exact ⟨rfl, by simpa using passes, hashed, named⟩

/-- The users after a password change. -/
def changedUsers (db : Db) (userId : Int) (newHash : Password.Hash) (now : Int) : Db :=
  db.updateUsers (fun user => user.userId = userId)
    (UserStore.passwordColumns newHash.hash newHash.salt newHash.iterations now)

/-- The content after a password change: the new password, the other sessions of the user revoked,
and an audit row that counts them. -/
def passwordChangedDb (env : Env) (userId : Int) (newHash : Password.Hash) (survivingFamilyId : Bytes)
    (db : Db) : Db :=
  ((changedUsers db userId newHash env.now).revokeFamilies
    (liveFamilyOf userId (some survivingFamilyId)) env.now .passwordChange).insertAudit
    { occurredAt := env.now, event := .passwordChange, outcome := .success,
      targetUserId := some userId, sourceIp := auditSourceIp env,
      detail := some (ascii "\x7b\"sessions_revoked\":" ++ Lib.natDigits
        (db.sessionFamilies.count (liveFamilyOf userId (some survivingFamilyId))) ++
        ascii "\x7d") }

/-- The transaction of a password change stores the new hash and revokes the other families, unless
something fails. -/
theorem passwordChange_write_settles (env : Env) (claims : Claims) (newHash : Password.Hash)
    (survivingFamilyId : Bytes) (db : Db) :
    Sql.Leaves reliable (PasswordChange.write env claims newHash survivingFamilyId) db
      (Sql.Settles reliable db fun _ after =>
        after = passwordChangedDb env claims.userId newHash survivingFamilyId db) := by
  apply Sql.leaves_transaction_sure
  apply Sql.guarantees_update
  · intro possible
    exact Sql.guarantees_giveUp_sure possible
  apply Sql.guarantees_statement
  · intro cause
    exact Sql.guarantees_giveUp_sure (cause.resolve_right (by simp))
  · intro revoked after done
    cases done
    apply Sql.guarantees_update
    · intro possible
      exact Sql.guarantees_giveUp_sure possible
    · exact Sql.guarantees_finish_sure rfl

/-- The transaction of a password change leaves its whole effect or nothing. -/
theorem passwordChange_write_spec (env : Env) (claims : Claims) (newHash : Password.Hash)
    (survivingFamilyId : Bytes) (db : Db) :
    Sql.Leaves reliable (PasswordChange.write env claims newHash survivingFamilyId) db
      (Sql.AllOrNothing db fun _ after =>
        after = passwordChangedDb env claims.userId newHash survivingFamilyId db) :=
  (passwordChange_write_settles env claims newHash survivingFamilyId db).mono
    fun _ _ settled => settled.allOrNothing

end PlatformService.Verif
