import PlatformService.Platform.Maintenance
import PlatformService.Verif.SessionSpecs

/-!
# Runs of session transactions

The transactions that touch the session tables, with arbitrary arguments and
faults: the handlers that issue them, in any interleaving, produce some list of
them. `SessionStep` says everything one of them can do to the session tables, and
`operation_spec` that it is everything. A transaction that does not commit leaves
the tables alone, so runs may contain such transactions as well.
-/

namespace PlatformService.Verif

open Lib Store Crypto Session Api SessionStore Maintenance

/-- The transactions of login, refresh, logout and password change, and a batch of the sweep. -/
inductive Operation where
  | login (env : Env) (userId : Int)
  | refresh (env : Env) (tokenHash : Bytes)
  | logout (env : Env) (familyId : Bytes) (ownerId : Int)
  | passwordChange (env : Env) (claims : Claims) (newHash : Password.Hash) (survivingFamilyId : Bytes)
  | sweep (settings : Settings) (scan : Scan) (now : Int) (target : Target)

namespace Operation

/-- The time at which a transaction runs. -/
def now : Operation → Int
  | login env _ => env.now
  | refresh env _ => env.now
  | logout env _ _ => env.now
  | passwordChange env _ _ _ => env.now
  | sweep _ _ now _ => now

/-- The hash of the refresh token a transaction presents. -/
def presents : Operation → Option Bytes
  | refresh _ tokenHash => some tokenHash
  | _ => none

/-- The hash of the refresh token a transaction generates. -/
def generatesToken (ctx : AppCtx) : Operation → Option Bytes
  | login env _ => env.rawToken.map fun raw => ctx.crypto.sha256 raw.bytes
  | refresh env _ => env.rawToken.map fun raw => ctx.crypto.sha256 raw.bytes
  | _ => none

/-- The family id a transaction generates. -/
def generatesFamily : Operation → Option Bytes
  | login env _ => env.familyId.map Drawn.bytes
  | _ => none

/-- The verdict of a refresh that committed. -/
def verdict : Except Unit (RefreshResult × Refreshed) → Option RefreshResult
  | .ok outcome => some outcome.1
  | .error _ => none

/-- The SQL of a transaction, with the verdict of a refresh that committed. -/
def sql (ctx : AppCtx) : Operation → Sql (Option RefreshResult)
  | login env userId => do
    let _ ← Login.writeSuccess ctx env userId
    return none
  | refresh env tokenHash => return verdict (← Refresh.write ctx env tokenHash)
  | logout env familyId ownerId => do
    let _ ← Logout.write env familyId ownerId
    return none
  | passwordChange env claims newHash survivingFamilyId => do
    let _ ← PasswordChange.write env claims newHash survivingFamilyId
    return none
  | sweep settings scan now target => do
    let _ ← sweepBatch settings scan now target
    return none

end Operation

/-- Everything a transaction can do to the session tables. -/
inductive SessionStep (reliable : Prop) (ctx : AppCtx) (operation : Operation) (db : Db) :
    Option RefreshResult → Db → Prop where
  /-- Nothing: it did not commit, it met an unknown token, or it writes other tables. -/
  | kept (verdict : Option RefreshResult) (after : Db)
    (families : after.sessionFamilies = db.sessionFamilies)
    (tokens : after.refreshTokens = db.refreshTokens)
    (quiet : verdict = none ∨ verdict = some .invalid) :
    SessionStep reliable ctx operation db verdict after
  /-- A login opened a family with its first token. -/
  | opened (after : Db) (familyId tokenHash : Bytes) (userId absoluteTtlS idleTtlS : Int)
    (familyGenerated : operation.generatesFamily = some familyId)
    (tokenGenerated : operation.generatesToken ctx = some tokenHash)
    (families : db.sessionFamilies.insert (newFamily familyId userId absoluteTtlS operation.now) =
      some after.sessionFamilies)
    (tokens : db.refreshTokens.insert (firstToken tokenHash familyId idleTtlS operation.now) =
      some after.refreshTokens) :
    SessionStep reliable ctx operation db none after
  /-- A refresh claimed its token without a successor. -/
  | claimed (after : Db) (tokenHash : Bytes) (presented : operation.presents = some tokenHash)
    (families : after.sessionFamilies = db.sessionFamilies)
    (tokens : after.refreshTokens =
      (db.consumeRefreshTokens (openToken tokenHash) operation.now).refreshTokens) :
    SessionStep reliable ctx operation db (some .invalid) after
  /-- A refresh rotated its token. -/
  | rotated (after : Db) (tokenHash newHash : Bytes) (idleTtlS : Int) (token : RefreshTokenRow)
    (family : SessionFamilyRow) (presented : operation.presents = some tokenHash)
    (generated : operation.generatesToken ctx = some newHash)
    (stored : db.refreshTokens.find? tokenHash = some token)
    (owner : db.sessionFamilies.find? token.familyId = some family)
    (unconsumed : token.consumedAt = none) (live : nullAsZero family.revokedAt = 0)
    (families : after.sessionFamilies = db.sessionFamilies)
    (tokens :
      (db.consumeRefreshTokens (openToken tokenHash) operation.now).refreshTokens.insert
        (successor newHash idleTtlS operation.now token) = some after.refreshTokens) :
    SessionStep reliable ctx operation db (some .ok) after
  /-- A refresh met a consumed token. -/
  | detected (after : Db) (tokenHash : Bytes) (token : RefreshTokenRow)
    (presented : operation.presents = some tokenHash)
    (stored : db.refreshTokens.find? tokenHash = some token)
    (consumed : token.consumedAt ≠ none)
    (families : after.sessionFamilies =
        (db.revokeFamilies (liveFamily token.familyId) operation.now .reuseDetected).sessionFamilies ∨
      ¬reliable ∧ after.sessionFamilies = db.sessionFamilies)
    (tokens : after.refreshTokens = db.refreshTokens) :
    SessionStep reliable ctx operation db (some .reuseDetected) after
  /-- A logout or a password change revoked live families. -/
  | revoked (after : Db) (selected : SessionFamilyRow → Bool) (cause : RevokeCause)
    (onlyLive : ∀ family, selected family = true → family.revokedAt = none)
    (families : after.sessionFamilies =
      (db.revokeFamilies selected operation.now cause).sessionFamilies)
    (tokens : after.refreshTokens = db.refreshTokens) :
    SessionStep reliable ctx operation db none after
  /-- A sweep deleted tokens. -/
  | sweptTokens (after : Db) (selected : RefreshTokenRow → Bool)
    (families : after.sessionFamilies = db.sessionFamilies)
    (tokens : after.refreshTokens = db.refreshTokens.delete selected) :
    SessionStep reliable ctx operation db none after
  /-- A sweep deleted families with their tokens. -/
  | sweptFamilies (after : Db) (selected : SessionFamilyRow → Bool)
    (families : after.sessionFamilies = db.sessionFamilies.delete selected)
    (tokens : after.refreshTokens = (db.deleteFamilies selected).refreshTokens) :
    SessionStep reliable ctx operation db none after

variable {reliable : Prop}

/-- A batch of the sweep deletes tokens, families with their tokens, or rows of other tables. -/
theorem sweep_step (ctx : AppCtx) (settings : Settings) (scan : Scan) (now : Int) (target : Target)
    (db : Db) :
    SessionStep reliable ctx (.sweep settings scan now target) db none
      (batch settings scan now target db).2 := by
  cases target with
  | refreshTokens => exact SessionStep.sweptTokens _ _ rfl rfl
  | sessionFamilies => exact SessionStep.sweptFamilies _ _ rfl rfl
  | emailVerificationTokens => exact SessionStep.kept _ _ rfl rfl (Or.inl rfl)
  | devOutbox => exact SessionStep.kept _ _ rfl rfl (Or.inl rfl)
  | auditLog => exact SessionStep.kept _ _ rfl rfl (Or.inl rfl)
  | expiredLockouts => exact SessionStep.kept _ _ rfl rfl (Or.inl rfl)

/-- What a refresh does to the session tables. -/
theorem refresh_step {ctx : AppCtx} {env : Env} {tokenHash : Bytes} {db seen after : Db}
    {outcome : RefreshResult × Refreshed} (fine : outcome.1 ≠ .error)
    (families : after.sessionFamilies = seen.sessionFamilies)
    (tokens : after.refreshTokens = seen.refreshTokens)
    (step : RefreshStep reliable ctx.crypto tokenHash ctx.config.refreshIdleTtlS env.now env.rawToken
      db outcome seen) :
    SessionStep reliable ctx (.refresh env tokenHash) db (some outcome.1) after := by
  cases step with
  | unknown absent => exact SessionStep.kept _ _ families tokens (Or.inr rfl)
  | reused token family stored owner consumed seen revoked =>
    cases revoked with
    | inl revoked =>
      rw [revoked] at families tokens
      exact SessionStep.detected _ _ token rfl stored consumed (Or.inl families) tokens
    | inr unnoticed =>
      rw [unnoticed.2] at families tokens
      exact SessionStep.detected _ _ token rfl stored consumed (Or.inr ⟨unnoticed.1, families⟩) tokens
  | stale token family stored owner unconsumed dead =>
    exact SessionStep.claimed _ _ rfl families tokens
  | rotated token family raw stored owner unconsumed live inTime notIdle drawn seen issued =>
    have inserted := Db.insertRefreshToken_eq_some issued
    have generated : Operation.generatesToken ctx (.refresh env tokenHash) =
        some (ctx.crypto.sha256 raw.bytes) := congrArg (Option.map _) drawn
    exact SessionStep.rotated _ _ _ _ token family rfl generated stored owner unconsumed live
      (families.trans inserted.2.2) (tokens ▸ inserted.1)
  | failed out seen => exact absurd rfl fine

/-- A transaction does nothing to the session tables but what `SessionStep` lists. -/
theorem operation_spec (ctx : AppCtx) (operation : Operation) (db : Db) :
    Sql.Leaves reliable (operation.sql ctx) db (SessionStep reliable ctx operation db) := by
  have nothing (verdict : Option RefreshResult) (quiet : verdict = none) (after : Db)
      (same : after = db) : SessionStep reliable ctx operation db verdict after :=
    SessionStep.kept _ _ (same ▸ rfl) (same ▸ rfl) (Or.inl quiet)
  cases operation with
  | login env userId =>
    apply Sql.Leaves.map _ fun _ => rfl
    refine (writeSuccess_spec ctx env userId db).mono fun result after left => ?_
    cases result with
    | error reason => exact nothing _ rfl _ left
    | ok created =>
      have opened : Opens _ _ _ _ _ _ _ _ created after := left
      have generated : Operation.generatesToken ctx (.login env userId) =
          some (ctx.crypto.sha256 created.rawRefreshToken) := by
        have drawn := congrArg (Option.map ctx.crypto.sha256) opened.tokenDrawn
        rwa [Option.map_map] at drawn
      exact SessionStep.opened _ _ _ _ _ _ opened.familyDrawn generated opened.family opened.token
  | refresh env tokenHash =>
    apply Sql.Leaves.map _ fun _ => rfl
    refine (refresh_write_spec ctx env tokenHash db).mono fun result after left => ?_
    cases result with
    | error reason => exact nothing _ rfl _ left
    | ok outcome =>
      obtain ⟨fine, seen, audited, step⟩ := left
      have families : after.sessionFamilies = seen.sessionFamilies := by rw [audited]; rfl
      have tokens : after.refreshTokens = seen.refreshTokens := by rw [audited]; rfl
      exact refresh_step fine families tokens step
  | logout env familyId ownerId =>
    apply Sql.Leaves.map _ fun _ => rfl
    refine (logout_write_spec env familyId ownerId db).mono fun result after left => ?_
    cases result with
    | error reason => exact nothing _ rfl _ left
    | ok _ =>
      have revoked : after = loggedOutDb env familyId ownerId db := left
      rw [revoked]
      refine SessionStep.revoked _ (liveFamily familyId) .logout ?_ rfl rfl
      intro family selected
      simp only [liveFamily, Bool.and_eq_true, Option.isNone_iff_eq_none] at selected
      exact selected.2
  | passwordChange env claims newHash survivingFamilyId =>
    apply Sql.Leaves.map _ fun _ => rfl
    refine (passwordChange_write_spec env claims newHash survivingFamilyId db).mono
      fun result after left => ?_
    cases result with
    | error reason => exact nothing _ rfl _ left
    | ok _ =>
      have changed : after = passwordChangedDb env claims.userId newHash survivingFamilyId db := left
      rw [changed]
      refine SessionStep.revoked _ (liveFamilyOf claims.userId (some survivingFamilyId))
        .passwordChange ?_ rfl rfl
      intro family selected
      simp only [liveFamilyOf, Bool.and_eq_true, Option.isNone_iff_eq_none] at selected
      exact selected.1.2
  | sweep settings scan now target =>
    apply Sql.Guarantees.leaves
    apply Sql.guarantees_statement
    · intro _
      exact Sql.guarantees_pure (nothing _ rfl _ rfl)
    · intro changed after done
      simp only [Option.some.injEq] at done
      have same : (batch settings scan now target db).2 = after := congrArg Prod.snd done
      exact Sql.guarantees_pure (same ▸ sweep_step ctx settings scan now target db)

/-- A transaction with the faults it meets. -/
structure Attempt where
  operation : Operation
  faults : List Bool := []

variable (ctx : AppCtx)

/-- The verdict of a transaction and the content it leaves. -/
def perform (db : Db) (attempt : Attempt) : Option RefreshResult × Db :=
  let out := attempt.operation.sql ctx (Conn.of db, attempt.faults)
  (out.1, out.2.1.committed)

/-- The content after a list of transactions. -/
def afterAll (db : Db) (attempts : List Attempt) : Db :=
  attempts.foldl (fun db attempt => (perform ctx db attempt).2) db

/-- One more transaction acts on the content so far. -/
theorem afterAll_concat (db : Db) (attempts : List Attempt) (attempt : Attempt) :
    afterAll ctx db (attempts ++ [attempt]) = (perform ctx (afterAll ctx db attempts) attempt).2 := by
  rw [afterAll, List.foldl_append]
  rfl

/-- A run continues from where its first part ended. -/
theorem afterAll_append (db : Db) (first second : List Attempt) :
    afterAll ctx db (first ++ second) = afterAll ctx (afterAll ctx db first) second :=
  List.foldl_append

/-- A transaction of a run does what `SessionStep` lists, reliably if it meets no fault. -/
theorem perform_step (db : Db) (attempt : Attempt) :
    SessionStep (attempt.faults = []) ctx attempt.operation db (perform ctx db attempt).1
      (perform ctx db attempt).2 :=
  (operation_spec ctx attempt.operation db attempt.faults id).1

/-- The hashes of the refresh tokens generated in a run. -/
def generatedTokens (attempts : List Attempt) : List Bytes :=
  attempts.filterMap fun attempt => attempt.operation.generatesToken ctx

/-- The tokens generated in two runs, one after the other. -/
theorem generatedTokens_append (first second : List Attempt) :
    generatedTokens ctx (first ++ second) =
      generatedTokens ctx first ++ generatedTokens ctx second := List.filterMap_append

/-- The family ids generated in a run. -/
def generatedFamilies (attempts : List Attempt) : List Bytes :=
  attempts.filterMap fun attempt => attempt.operation.generatesFamily

/-- A token row that was stored at some moment of a run. -/
def Seen (start : Db) (attempts : List Attempt) (token : RefreshTokenRow) : Prop :=
  ∃ earlier, earlier <+: attempts ∧ token ∈ (afterAll ctx start earlier).refreshTokens

/-- After one more transaction, exactly the rows it leaves are new to have been stored. -/
theorem seen_concat {start : Db} {attempts : List Attempt} {attempt : Attempt}
    {token : RefreshTokenRow} :
    Seen ctx start (attempts ++ [attempt]) token ↔
      Seen ctx start attempts token ∨
        token ∈ (perform ctx (afterAll ctx start attempts) attempt).2.refreshTokens := by
  constructor
  · intro ⟨earlier, part, stored⟩
    cases List.prefix_concat_iff.mp part with
    | inl whole =>
      rw [whole, afterAll_concat] at stored
      exact Or.inr stored
    | inr shorter => exact Or.inl ⟨earlier, shorter, stored⟩
  · intro cause
    cases cause with
    | inl before =>
      obtain ⟨earlier, part, stored⟩ := before
      exact ⟨earlier, part.trans (List.prefix_append _ _), stored⟩
    | inr stored =>
      refine ⟨attempts ++ [attempt], List.prefix_refl _, ?_⟩
      rw [afterAll_concat]
      exact stored

end PlatformService.Verif
