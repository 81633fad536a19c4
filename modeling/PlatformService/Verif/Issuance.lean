import PlatformService.Verif.HandlerRuns
import PlatformService.Verif.Lifecycle

/-!
# To whom tokens are issued

A handler takes its steps in a database that other connections change between
them. `Turn` is one such step, and `Issues` says of the steps of a login or a
refresh for whom they open or rotate a session, and that a token pair is answered
only for such a session. A login issues only to users it found ACTIVE. A refresh
reads the user's id from the family and never looks at the user, so it issues only
to ACTIVE users exactly when the presented token cannot be rotated or its owner
happens to be ACTIVE.
-/

namespace PlatformService.Verif.Issuance

open Lib Store Crypto Session Api Lifecycle SessionStore

/-- One step of a handler: the content it found, where the handler stands after it, and the content
it committed. -/
structure Turn where
  before : Db
  next : Activity
  after : Db

/-- The steps of a handler in a shared database; after each of them other connections do what the
list says to the content. -/
def turns (ctx : AppCtx) : (others : List (Db → Db)) → Running → Db → List Turn
  | [], _, _ => []
  | other :: others, running, db =>
    let (after, next) := running.act ctx db
    ⟨db, next.activity, after⟩ :: turns ctx others next (other after)

/-- The first step of a handler, and those after it. -/
theorem turns_cons (ctx : AppCtx) (other : Db → Db) (others : List (Db → Db)) (running : Running)
    (db : Db) :
    turns ctx (other :: others) running db =
      ⟨db, (running.act ctx db).2.activity, (running.act ctx db).1⟩ ::
        turns ctx others (running.act ctx db).2 (other (running.act ctx db).1) := rfl

/-- A step issues a refresh token to a user, by opening or rotating a session. -/
def Turn.Opens (turn : Turn) (userId : Int) (tokenHash : Bytes) : Prop :=
  turn.before.refreshTokens.find? tokenHash = none ∧
    ∃ token family, turn.after.refreshTokens.find? tokenHash = some token ∧
      turn.after.sessionFamilies.find? token.familyId = some family ∧ family.userId = userId

/-- An answer that is a token pair: an access token of a user, and a refresh token. -/
def PairFor (ctx : AppCtx) (env : Env) (userId : Int) (tokenHash : Bytes) (result : HandlerResult) :
    Prop :=
  ∃ familyId roles accessToken rawRefresh,
    buildAccessToken ctx userId familyId roles env.now env.jti = some accessToken ∧
    ctx.crypto.sha256 rawRefresh = tokenHash ∧
    result = { status := 200,
               body := some (tokenPairBody accessToken rawRefresh ctx.config.accessTokenTtlS) }

/-- What a run of steps issues: sessions to allowed users only, and a token pair only for a session
that one of the steps opened or that is open already. -/
structure Issues (ctx : AppCtx) (env : Env) (allowed : Int → Prop) (already : Int → Bytes → Prop)
    (steps : List Turn) : Prop where
  sessions : ∀ turn ∈ steps, ∀ userId tokenHash, turn.Opens userId tokenHash → allowed userId
  pairs : ∀ turn ∈ steps, ∀ result, turn.next.answer = some result → result.status = 200 →
    ∃ userId tokenHash, (already userId tokenHash ∨ ∃ opening ∈ steps, opening.Opens userId tokenHash) ∧
      PairFor ctx env userId tokenHash result

/-- A handler issues tokens only to users that are ACTIVE in the content it begins with, whatever fails
and whatever other connections do meanwhile. -/
def OnlyToActive (ctx : AppCtx) (env : Env) (call : Call) (db : Db) : Prop :=
  match call with
  | .answered result => result.status ≠ 200
  | .activity begun => ∀ others faults,
      Issues ctx env (fun userId => statusOf db userId = some .active) (fun _ _ => False)
        (turns ctx others ⟨begun, faults⟩ db)
  | _ => True

section Turns

variable {ctx : AppCtx} {env : Env} {allowed : Int → Prop} {already : Int → Bytes → Prop}

/-- No steps issue nothing. -/
theorem issues_nil : Issues ctx env allowed already [] where
  sessions _ impossible := absurd impossible List.not_mem_nil
  pairs _ impossible := absurd impossible List.not_mem_nil

/-- One step, and the steps after it. -/
theorem issues_cons {turn : Turn} {steps : List Turn}
    (opens : ∀ userId tokenHash, turn.Opens userId tokenHash → allowed userId)
    (answers : ∀ result, turn.next.answer = some result → result.status = 200 →
      ∃ userId tokenHash, already userId tokenHash ∧ PairFor ctx env userId tokenHash result)
    (rest : Issues ctx env allowed
      (fun userId tokenHash => already userId tokenHash ∨ turn.Opens userId tokenHash) steps) :
    Issues ctx env allowed already (turn :: steps) := by
  constructor
  · intro other member
    cases List.mem_cons.mp member with
    | inl same =>
      rw [same]
      exact opens
    | inr later => exact rest.sessions other later
  · intro other member result answered granted
    cases List.mem_cons.mp member with
    | inl same =>
      rw [same] at answered
      obtain ⟨userId, tokenHash, before, pair⟩ := answers result answered granted
      exact ⟨userId, tokenHash, Or.inl before, pair⟩
    | inr later =>
      obtain ⟨userId, tokenHash, opened, pair⟩ := rest.pairs other later result answered granted
      refine ⟨userId, tokenHash, ?_, pair⟩
      cases opened with
      | inr opened =>
        obtain ⟨opening, among, opened⟩ := opened
        exact Or.inr ⟨opening, List.mem_cons_of_mem _ among, opened⟩
      | inl before =>
        cases before with
        | inl before => exact Or.inl before
        | inr opened => exact Or.inr ⟨turn, List.mem_cons_self, opened⟩

/-- A step that leaves the sessions alone opens none. -/
theorem not_opens {turn : Turn} (same : turn.after.refreshTokens = turn.before.refreshTokens)
    {userId : Int} {tokenHash : Bytes} : ¬turn.Opens userId tokenHash := by
  intro opened
  obtain ⟨absent, token, _, stored, _⟩ := opened
  rw [same, absent] at stored
  contradiction

/-- A step that inserts one refresh token opens a session for the owner of its family. -/
theorem opens_iff_of_insert {before seen after : Db} {row : RefreshTokenRow}
    {family : SessionFamilyRow} (next : Activity)
    (inserted : seen.refreshTokens.insert row = some after.refreshTokens)
    (same : ∀ hash, seen.refreshTokens.find? hash = none ↔ before.refreshTokens.find? hash = none)
    (owner : after.sessionFamilies.find? row.familyId = some family)
    (userId : Int) (tokenHash : Bytes) :
    Turn.Opens ⟨before, next, after⟩ userId tokenHash ↔
      row.tokenHash = tokenHash ∧ family.userId = userId := by
  have fresh : seen.refreshTokens.find? row.tokenHash = none :=
    Table.find?_eq_none_iff.mpr (Table.mem_insert inserted).2
  have found := Table.find?_insert inserted
  constructor
  · intro opened
    obtain ⟨absent, token, held, stored, ofFamily, ofUser⟩ := opened
    rw [found] at stored
    by_cases own : row.tokenHash = tokenHash
    · rw [if_pos own] at stored
      cases stored
      rw [owner] at ofFamily
      cases ofFamily
      exact ⟨own, ofUser⟩
    · rw [if_neg own, (same tokenHash).mpr absent] at stored
      contradiction
  · intro named
    obtain ⟨rfl, rfl⟩ := named
    exact ⟨(same _).mp fresh, row, family, by rw [found, if_pos rfl], owner, rfl⟩

/-- The end of a login or a refresh answers 200 only with a token pair of the user. -/
theorem pairFor_tokenPairResult {userId : Int} {familyId rawRefresh : Bytes}
    {roles : Option (List Role)}
    (granted : (tokenPairResult ctx env userId familyId rawRefresh roles).status = 200) :
    PairFor ctx env userId (ctx.crypto.sha256 rawRefresh)
      (tokenPairResult ctx env userId familyId rawRefresh roles) := by
  have failure : internalErrorResult.status ≠ 200 := by decide
  unfold tokenPairResult at granted ⊢
  cases roles with
  | none => exact absurd granted failure
  | some held =>
    dsimp only [Option.bind_some] at granted ⊢
    cases built : buildAccessToken ctx userId familyId (rolesMask held) env.now env.jti with
    | none =>
      rw [built] at granted
      exact absurd granted failure
    | some accessToken =>
      rw [built] at granted
      dsimp only at granted ⊢
      cases allocated : env.memory with
      | false =>
        rw [allocated] at granted
        exact absurd granted failure
      | true => exact ⟨familyId, rolesMask held, accessToken, rawRefresh, built, rfl, rfl⟩

/-- A handler that has answered issues nothing more. -/
theorem issues_of_answered {running : Running} {result : HandlerResult} (others : List (Db → Db))
    (db : Db) (answered : running.activity.answer = some result)
    (pair : result.status = 200 →
      ∃ userId tokenHash, already userId tokenHash ∧ PairFor ctx env userId tokenHash result) :
    Issues ctx env allowed already (turns ctx others running db) := by
  induction others generalizing db already with
  | nil => exact issues_nil
  | cons other others ih =>
    have stays : running.act ctx db = (db, running) := by
      unfold Running.act
      rw [step_of_answered (by rw [answered, Option.isSome_some])]
      rfl
    unfold turns
    rw [stays]
    apply issues_cons
    · intro userId tokenHash opened
      exact absurd opened (not_opens rfl)
    · intro other same granted
      rw [answered] at same
      cases same
      exact pair granted
    · apply ih
      intro granted
      obtain ⟨userId, tokenHash, before, pair⟩ := pair granted
      exact ⟨userId, tokenHash, Or.inl before, pair⟩

/-- A step that answers something other than 200 and opens no session. -/
theorem issues_of_refusal {running : Running} {other : Db → Db} {others : List (Db → Db)} {db : Db}
    {result : HandlerResult}
    (answered : (running.act ctx db).2.activity.answer = some result) (refused : result.status ≠ 200)
    (closed : ∀ next userId tokenHash,
      ¬Turn.Opens ⟨db, next, (running.act ctx db).1⟩ userId tokenHash) :
    Issues ctx env allowed already (turns ctx (other :: others) running db) := by
  unfold turns
  apply issues_cons
  · intro userId tokenHash opened
    exact absurd opened (closed _ userId tokenHash)
  · intro given answer granted
    cases answered.symm.trans answer
    exact absurd granted refused
  · apply issues_of_answered others _ answered
    intro granted
    exact absurd granted refused

/-- A step that leaves the sessions alone and does not answer. -/
theorem issues_of_quiet {running : Running} {other : Db → Db} {others : List (Db → Db)} {db : Db}
    (silent : (running.act ctx db).2.activity.answer = none)
    (same : (running.act ctx db).1.refreshTokens = db.refreshTokens)
    (rest : ∀ already, Issues ctx env allowed already
      (turns ctx others (running.act ctx db).2 (other (running.act ctx db).1))) :
    Issues ctx env allowed already (turns ctx (other :: others) running db) := by
  unfold turns
  apply issues_cons
  · intro userId tokenHash opened
    exact absurd opened (not_opens same)
  · intro given answer granted
    cases silent.symm.trans answer
  · exact rest _

/-- A step that answers with the token pair of a session that is open. -/
theorem issues_of_pair {running : Running} {other : Db → Db} {others : List (Db → Db)} {db : Db}
    {userId : Int} {familyId rawRefresh : Bytes} {roles : Option (List Role)}
    (answered : (running.act ctx db).2.activity.answer =
      some (tokenPairResult ctx env userId familyId rawRefresh roles))
    (same : (running.act ctx db).1.refreshTokens = db.refreshTokens)
    (before : already userId (ctx.crypto.sha256 rawRefresh)) :
    Issues ctx env allowed already (turns ctx (other :: others) running db) := by
  unfold turns
  apply issues_cons
  · intro userId tokenHash opened
    exact absurd opened (not_opens same)
  · intro given answer granted
    cases answered.symm.trans answer
    exact ⟨userId, _, before, pairFor_tokenPairResult granted⟩
  · apply issues_of_answered others _ answered
    intro granted
    exact ⟨userId, _, Or.inl before, pairFor_tokenPairResult granted⟩

end Turns

section Login

variable {ctx : AppCtx} {env : Env} {input : Login.Input} {allowed : Int → Prop}
  {already : Int → Bytes → Prop} {reliable : Prop}

/-- The lookup of a login reads one user, or none. -/
theorem login_lookup_leaves (db : Db) :
    Sql.Leaves reliable (Login.step ctx env input .lookup) db fun next after =>
      after = db ∧ ∃ found, next = .write (Login.decision ctx env input found) ∧
        ∀ user, found = some user → user ∈ db.users := by
  apply Sql.Guarantees.leaves
  apply Sql.guarantees_lookup
  · intro _
    exact Sql.guarantees_pure ⟨rfl, none, rfl, fun _ impossible => by contradiction⟩
  · exact Sql.guarantees_pure ⟨rfl, _, rfl, fun _ found => List.mem_of_find?_eq_some found⟩

/-- The transaction of a refused login answers 401 or 500 and leaves the sessions alone. -/
theorem login_refuse_leaves (found : Option UserRow) (passwordOk : Bool) (db : Db) :
    Sql.Leaves reliable (Login.step ctx env input (.write (.refuse found passwordOk))) db
      fun next after => after.refreshTokens = db.refreshTokens ∧
        ∃ result, next = .done result ∧ result.status ≠ 200 := by
  apply (writeFailure_effect ctx env found passwordOk db).andReturn
  intro result after left
  cases result with
  | ok _ =>
    have same : after = refusedDb ctx env found passwordOk db := left
    have kept := congrArg Prod.snd (refusedDb_kept ctx env found passwordOk db).2
    exact ⟨_, rfl, same ▸ kept, _, rfl, by decide⟩
  | error reason => exact ⟨_, rfl, by rw [left.2], _, rfl, by decide⟩

/-- The transaction of an accepted login opens a session for the user, or answers 500. -/
theorem login_accept_leaves (user : UserRow) (db : Db) :
    Sql.Leaves reliable (Login.step ctx env input (.write (.accept user))) db fun next after =>
      next = .done internalErrorResult ∧ after = db ∨
        ∃ session, next = .readRoles user.userId session ∧
          LoginEffect ctx env user.userId db session after := by
  apply (writeSuccess_effect ctx env user.userId db).andReturn
  intro result after left
  cases result with
  | ok session => exact ⟨_, rfl, Or.inr ⟨session, rfl, left⟩⟩
  | error reason => exact ⟨_, rfl, Or.inl ⟨rfl, left⟩⟩

/-- The last phase of a login answers with the token pair of its session. -/
theorem login_readRoles_leaves (userId : Int) (session : Created) (db : Db) :
    Sql.Leaves reliable (Login.step ctx env input (.readRoles userId session)) db fun next after =>
      after = db ∧ ∃ roles, next = .done (tokenPairResult ctx env userId session.familyId
        session.rawRefreshToken roles) := by
  apply Sql.Guarantees.leaves
  apply Sql.guarantees_query
  · intro _
    exact Sql.guarantees_pure ⟨rfl, none, rfl⟩
  · exact Sql.guarantees_pure ⟨rfl, _, rfl⟩

/-- The session of an accepted login is the user's. -/
theorem opens_iff_of_login {userId : Int} {before after : Db} {created : Created} (next : Activity)
    (effect : LoginEffect ctx env userId before created after) (other : Int) (tokenHash : Bytes) :
    Turn.Opens ⟨before, next, after⟩ other tokenHash ↔
      ctx.crypto.sha256 created.rawRefreshToken = tokenHash ∧ userId = other := by
  obtain ⟨seen, creates, rfl⟩ := effect
  have opens := creates.opens
  have owner : seen.sessionFamilies.find? created.familyId =
      some (newFamily created.familyId userId ctx.config.refreshAbsoluteTtlS env.now) := by
    rw [Table.find?_insert opens.family]
    exact if_pos rfl
  have same (hash : Bytes) :
      (clearedUsers before userId env.now).refreshTokens.find? hash = none ↔
        before.refreshTokens.find? hash = none := Iff.rfl
  exact opens_iff_of_insert next opens.token same owner other tokenHash

/-- A step of a login, in terms of a specification of its phase. -/
theorem act_login {phase : Login.Phase} {faults : List Bool} {db : Db} {post : Login.Phase → Db → Prop}
    (spec : Sql.Leaves (faults = []) (Login.step ctx env input phase) db post) :
    ∃ next, (Running.act ctx db ⟨.login env input phase, faults⟩).2 =
        ⟨.login env input next, (Running.act ctx db ⟨.login env input phase, faults⟩).2.faults⟩ ∧
      post next (Running.act ctx db ⟨.login env input phase, faults⟩).1 :=
  ⟨_, rfl, (spec faults id).1⟩

/-- What a login issues once its session is open. -/
theorem issues_login_readRoles {userId : Int} {session : Created} (others : List (Db → Db))
    (faults : List Bool) (db : Db)
    (before : already userId (ctx.crypto.sha256 session.rawRefreshToken)) :
    Issues ctx env allowed already
      (turns ctx others ⟨.login env input (.readRoles userId session), faults⟩ db) := by
  cases others with
  | nil => exact issues_nil
  | cons other others =>
    obtain ⟨next, stands, same, roles, answered⟩ :=
      act_login (login_readRoles_leaves userId session db)
    subst answered
    apply issues_of_pair
    · rw [stands]
      rfl
    · rw [same]
    · exact before

/-- What an accepted login issues. -/
theorem issues_login_accept {user : UserRow} (others : List (Db → Db)) (faults : List Bool) (db : Db)
    (active : allowed user.userId) :
    Issues ctx env allowed already
      (turns ctx others ⟨.login env input (.write (.accept user)), faults⟩ db) := by
  cases others with
  | nil => exact issues_nil
  | cons other others =>
    obtain ⟨next, stands, left⟩ := act_login (login_accept_leaves user db)
    cases left with
    | inl failed =>
      obtain ⟨answered, same⟩ := failed
      subst answered
      apply issues_of_refusal
      · rw [stands]
        rfl
      · decide
      · intro _ _ _
        exact not_opens (congrArg Db.refreshTokens same)
    | inr opened =>
      obtain ⟨session, reached, effect⟩ := opened
      subst reached
      have opens := opens_iff_of_login (.login env input (.readRoles user.userId session)) effect
      rw [turns_cons, stands]
      apply issues_cons
      · intro userId tokenHash opened
        rw [← ((opens userId tokenHash).mp opened).2]
        exact active
      · intro result answered
        contradiction
      · apply issues_login_readRoles
        exact Or.inr ((opens _ _).mpr ⟨rfl, rfl⟩)

/-- What a refused login issues. -/
theorem issues_login_refuse {found : Option UserRow} {passwordOk : Bool} (others : List (Db → Db))
    (faults : List Bool) (db : Db) :
    Issues ctx env allowed already
      (turns ctx others ⟨.login env input (.write (.refuse found passwordOk)), faults⟩ db) := by
  cases others with
  | nil => exact issues_nil
  | cons other others =>
    obtain ⟨next, stands, same, result, answered, refused⟩ :=
      act_login (login_refuse_leaves found passwordOk db)
    subst answered
    apply issues_of_refusal
    · rw [stands]
      rfl
    · exact refused
    · intro _ _ _
      exact not_opens same

/-- A login issues only to users that it finds ACTIVE. -/
theorem issues_login (others : List (Db → Db)) (faults : List Bool) (db : Db) :
    Issues ctx env (fun userId => statusOf db userId = some .active) already
      (turns ctx others ⟨.login env input .lookup, faults⟩ db) := by
  cases others with
  | nil => exact issues_nil
  | cons other others =>
    obtain ⟨next, stands, same, found, decided, stored⟩ := act_login (login_lookup_leaves db)
    subst decided
    apply issues_of_quiet
    · rw [stands]
      rfl
    · rw [same]
    · intro already
      rw [stands]
      cases decision : Login.decision ctx env input found with
      | refuse found passwordOk => exact issues_login_refuse others _ _
      | accept user =>
        obtain ⟨holds, _, active, _⟩ := decision_eq_accept decision
        apply issues_login_accept
        have row : db.users.find? user.userId = some user :=
          Table.find?_of_mem (stored user holds)
        rw [statusOf, row, Option.map_some, active]

end Login

section Refresh

variable {ctx : AppCtx} {env : Env} {tokenHash : Bytes} {allowed : Int → Prop}
  {already : Int → Bytes → Prop} {reliable : Prop}

/-- A presented token that a refresh rotates, unless something fails: it is stored and unconsumed, its
family is live, its times are not over, and the hash of the drawn successor is not stored. -/
structure Rotatable (ctx : AppCtx) (env : Env) (tokenHash : Bytes) (db : Db)
    (token : RefreshTokenRow) (family : SessionFamilyRow) (raw : Drawn 32) : Prop where
  stored : db.refreshTokens.find? tokenHash = some token
  owner : db.sessionFamilies.find? token.familyId = some family
  unconsumed : token.consumedAt = none
  live : nullAsZero family.revokedAt = 0
  inTime : env.now ≤ family.absoluteExp
  notIdle : env.now ≤ token.idleExp
  drawn : env.rawToken = some raw
  fresh : db.refreshTokens.find? (ctx.crypto.sha256 raw.bytes) = none

/-- Consuming tokens removes and adds none. -/
theorem find?_consume_eq_none (db : Db) (selected : RefreshTokenRow → Bool) (now : Int)
    (hash : Bytes) :
    (db.consumeRefreshTokens selected now).refreshTokens.find? hash = none ↔
      db.refreshTokens.find? hash = none := by
  unfold Db.consumeRefreshTokens
  rw [Table.find?_update, Option.map_eq_none_iff]

/-- What a refresh reports of a rotated token. -/
def rotatedOut (ctx : AppCtx) (env : Env) (token : RefreshTokenRow) (family : SessionFamilyRow)
    (raw : Drawn 32) : Refreshed where
  userId := family.userId
  familyId := token.familyId
  rawRefreshToken := raw.bytes
  refreshIdleExp := env.now + ctx.config.refreshIdleTtlS

/-- A rotation as a step of a refresh. -/
structure Rotates (ctx : AppCtx) (env : Env) (tokenHash : Bytes) (db : Db) (refreshed : Refreshed)
    (after : Db) : Prop where
  rotation : ∃ token family raw, Rotatable ctx env tokenHash db token family raw ∧
    refreshed = rotatedOut ctx env token family raw ∧
    (db.consumeRefreshTokens (openToken tokenHash) env.now).refreshTokens.insert
      (successor (ctx.crypto.sha256 raw.bytes) ctx.config.refreshIdleTtlS env.now token) =
        some after.refreshTokens
  families : after.sessionFamilies = db.sessionFamilies

/-- The transaction of a refresh rotates the token, or answers something other than 200 and inserts
no token. -/
theorem refresh_write_leaves (db : Db) :
    Sql.Leaves reliable (Refresh.step ctx env tokenHash .write) db fun next after =>
      (∃ result, next = .done result ∧ result.status ≠ 200 ∧
        ∀ hash, db.refreshTokens.find? hash = none → after.refreshTokens.find? hash = none) ∨
      ∃ refreshed, next = .readRoles refreshed ∧ Rotates ctx env tokenHash db refreshed after := by
  apply (refresh_write_spec ctx env tokenHash db).andReturn
  intro result after left
  match result with
  | .error reason =>
    have same : after = db := left
    subst same
    exact ⟨_, rfl, Or.inl ⟨_, rfl, by decide, fun _ absent => absent⟩⟩
  | .ok (verdict, refreshed) =>
    obtain ⟨fine, seen, rfl, step⟩ := left
    generalize same : (verdict, refreshed) = outcome at step
    cases step with
    | unknown absent =>
      cases same
      exact ⟨_, rfl, Or.inl ⟨_, rfl, by decide, fun _ absent => absent⟩⟩
    | reused token family stored owner consumed seen revoked =>
      cases same
      have kept : seen.refreshTokens = db.refreshTokens := by
        cases revoked with
        | inl revoked =>
          rw [revoked]
          rfl
        | inr failed => rw [failed.2]
      exact ⟨_, rfl, Or.inl ⟨_, rfl, by decide, fun _ absent => kept ▸ absent⟩⟩
    | stale token family stored owner unconsumed dead =>
      cases same
      exact ⟨_, rfl, Or.inl ⟨_, rfl, by decide,
        fun hash => (find?_consume_eq_none db _ _ hash).mpr⟩⟩
    | rotated token family raw stored owner unconsumed live inTime notIdle drawn seen issued =>
      cases same
      have inserted := Db.insertRefreshToken_eq_some issued
      have fresh := (find?_consume_eq_none db (openToken tokenHash) env.now _).mp
        (Table.find?_eq_none_iff.mpr (Table.mem_insert inserted.1).2)
      have rotatable : Rotatable ctx env tokenHash db token family raw :=
        ⟨stored, owner, unconsumed, live, inTime, notIdle, drawn, fresh⟩
      exact ⟨_, rfl, Or.inr ⟨_, rfl, ⟨⟨token, family, raw, rotatable, rfl, inserted.1⟩,
        inserted.2.2⟩⟩⟩
    | failed out seen =>
      cases same
      exact absurd rfl fine

/-- When nothing fails, `ps_session_refresh` rotates what is rotatable. -/
theorem refresh_sure {db : Db} {token : RefreshTokenRow} {family : SessionFamilyRow} {raw : Drawn 32}
    (certain : reliable) (rotatable : Rotatable ctx env tokenHash db token family raw) :
    Sql.Guarantees reliable
      (refresh ctx.crypto tokenHash ctx.config.refreshIdleTtlS env.now env.rawToken) db
      fun outcome _ => outcome.1 = .ok := by
  apply Sql.guarantees_lookup
  · intro possible
    exact absurd certain possible
  rw [rotatable.stored]
  apply Sql.guarantees_lookup
  · intro possible
    exact absurd certain possible
  rw [rotatable.owner]
  apply Sql.guarantees_ite
  · intro marked
    simp [rotatable.unconsumed, nullAsZero] at marked
  intro _
  apply Sql.guarantees_statement
  · intro cause
    cases cause with
    | inl possible => exact absurd certain possible
    | inr impossible => contradiction
  intro claimed after done
  simp only [Option.some.injEq, Prod.mk.injEq] at done
  obtain ⟨rfl, rfl⟩ := done
  rw [decide_eq_true ((count_openToken_pos rotatable.stored).mpr rotatable.unconsumed)]
  apply Sql.guarantees_ite
  · intro dead
    have live := rotatable.live
    have inTime := rotatable.inTime
    have notIdle := rotatable.notIdle
    omega
  intro _
  rw [rotatable.drawn]
  apply Sql.guarantees_execute
  · intro cause
    obtain ⟨member, named⟩ := Table.find?_eq_some_iff.mp rotatable.owner
    have fresh := Table.find?_eq_none_iff.mp
      ((find?_consume_eq_none db (openToken tokenHash) env.now _).mpr rotatable.fresh)
    have succeeds : ∃ after, (db.consumeRefreshTokens (openToken tokenHash) env.now).insertRefreshToken
        (successor (ctx.crypto.sha256 raw.bytes) ctx.config.refreshIdleTtlS env.now token) =
          some after :=
      Db.insertRefreshToken_isSome ⟨family, member, named⟩ fresh
    obtain ⟨after, inserted⟩ := succeeds
    cases cause with
    | inl possible => exact absurd certain possible
    | inr refused =>
      have refused : (db.consumeRefreshTokens (openToken tokenHash) env.now).insertRefreshToken
          (successor (ctx.crypto.sha256 raw.bytes) ctx.config.refreshIdleTtlS env.now token) = none :=
        refused
      rw [inserted] at refused
      contradiction
  · intro after _
    exact Sql.guarantees_pure rfl

/-- When nothing fails, the transaction of a refresh commits the rotation of what is rotatable. -/
theorem refresh_written_sure {db : Db} {token : RefreshTokenRow} {family : SessionFamilyRow}
    {raw : Drawn 32} (certain : reliable)
    (rotatable : Rotatable ctx env tokenHash db token family raw) :
    Sql.Leaves reliable (Refresh.write ctx env tokenHash) db
      (Sql.Settles reliable db fun outcome _ => outcome.1 = .ok) := by
  apply Sql.leaves_transaction_sure
  apply Sql.guarantees_bind (refresh_sure certain rotatable)
  intro outcome seen success
  apply Sql.guarantees_ite
  · intro failed
    rw [success] at failed
    contradiction
  intro _
  apply Sql.guarantees_update
  · intro possible
    exact Sql.guarantees_giveUp_sure possible
  · exact Sql.guarantees_finish_sure success

/-- When nothing fails, a refresh rotates what is rotatable. -/
theorem refresh_write_sure {db : Db} {token : RefreshTokenRow} {family : SessionFamilyRow}
    {raw : Drawn 32} (certain : reliable)
    (rotatable : Rotatable ctx env tokenHash db token family raw) :
    Sql.Leaves reliable (Refresh.step ctx env tokenHash .write) db fun next after =>
      ∃ refreshed, next = .readRoles refreshed ∧ Rotates ctx env tokenHash db refreshed after := by
  have granted : Sql.Leaves reliable (Refresh.step ctx env tokenHash .write) db fun next _ =>
      ∃ refreshed, next = .readRoles refreshed := by
    apply (refresh_written_sure certain rotatable).andReturn
    intro result after left
    match result with
    | .error reason => exact absurd certain left.1
    | .ok (verdict, refreshed) =>
      have success : verdict = .ok := left
      subst success
      exact ⟨_, rfl, refreshed, rfl⟩
  apply (granted.and (refresh_write_leaves db)).mono
  intro next after left
  obtain ⟨⟨refreshed, reached⟩, refusal | rotated⟩ := left
  · obtain ⟨result, answered, _⟩ := refusal
    rw [reached] at answered
    contradiction
  · exact rotated

/-- The last phase of a refresh answers with the token pair of its session. -/
theorem refresh_readRoles_leaves (refreshed : Refreshed) (db : Db) :
    Sql.Leaves reliable (Refresh.step ctx env tokenHash (.readRoles refreshed)) db fun next after =>
      after = db ∧ ∃ roles, next = .done (tokenPairResult ctx env refreshed.userId
        refreshed.familyId refreshed.rawRefreshToken roles) := by
  apply Sql.Guarantees.leaves
  apply Sql.guarantees_query
  · intro _
    exact Sql.guarantees_pure ⟨rfl, none, rfl⟩
  · exact Sql.guarantees_pure ⟨rfl, _, rfl⟩

/-- A step of a refresh, in terms of a specification of its phase. -/
theorem act_refresh {phase : Refresh.Phase} {faults : List Bool} {db : Db}
    {post : Refresh.Phase → Db → Prop}
    (spec : Sql.Leaves (faults = []) (Refresh.step ctx env tokenHash phase) db post) :
    ∃ next, (Running.act ctx db ⟨.refresh env tokenHash phase, faults⟩).2 =
        ⟨.refresh env tokenHash next,
          (Running.act ctx db ⟨.refresh env tokenHash phase, faults⟩).2.faults⟩ ∧
      post next (Running.act ctx db ⟨.refresh env tokenHash phase, faults⟩).1 :=
  ⟨_, rfl, (spec faults id).1⟩

/-- The session that a rotation continues is its owner's. -/
theorem opens_iff_of_rotates {before after : Db} {refreshed : Refreshed} (next : Activity)
    (rotates : Rotates ctx env tokenHash before refreshed after) (other : Int) (hash : Bytes) :
    Turn.Opens ⟨before, next, after⟩ other hash ↔
      ctx.crypto.sha256 refreshed.rawRefreshToken = hash ∧ refreshed.userId = other := by
  obtain ⟨token, family, raw, rotatable, rfl, inserted⟩ := rotates.rotation
  have owner : after.sessionFamilies.find? token.familyId = some family := by
    rw [rotates.families]
    exact rotatable.owner
  exact opens_iff_of_insert next inserted (find?_consume_eq_none before _ _) owner other hash

/-- What a refresh issues once it has rotated the token. -/
theorem issues_refresh_readRoles {refreshed : Refreshed} (others : List (Db → Db))
    (faults : List Bool) (db : Db)
    (before : already refreshed.userId (ctx.crypto.sha256 refreshed.rawRefreshToken)) :
    Issues ctx env allowed already
      (turns ctx others ⟨.refresh env tokenHash (.readRoles refreshed), faults⟩ db) := by
  cases others with
  | nil => exact issues_nil
  | cons other others =>
    obtain ⟨next, stands, same, roles, answered⟩ :=
      act_refresh (refresh_readRoles_leaves refreshed db)
    subst answered
    apply issues_of_pair
    · rw [stands]
      rfl
    · rw [same]
    · exact before

/-- A refresh issues only to users that own a rotatable token. -/
theorem issues_refresh (others : List (Db → Db)) (faults : List Bool) (db : Db)
    (owners : ∀ token family raw, Rotatable ctx env tokenHash db token family raw →
      allowed family.userId) :
    Issues ctx env allowed already (turns ctx others ⟨.refresh env tokenHash .write, faults⟩ db) := by
  cases others with
  | nil => exact issues_nil
  | cons other others =>
    obtain ⟨next, stands, left⟩ := act_refresh (refresh_write_leaves db)
    cases left with
    | inl refusal =>
      obtain ⟨result, answered, refused, closed⟩ := refusal
      subst answered
      apply issues_of_refusal
      · rw [stands]
        rfl
      · exact refused
      · intro _ _ _ opened
        obtain ⟨absent, token, _, stored, _⟩ := opened
        rw [closed _ absent] at stored
        contradiction
    | inr rotated =>
      obtain ⟨refreshed, reached, rotates⟩ := rotated
      subst reached
      have opens := opens_iff_of_rotates (.refresh env tokenHash (.readRoles refreshed)) rotates
      obtain ⟨token, family, raw, rotatable, named, _⟩ := rotates.rotation
      have owner : refreshed.userId = family.userId := by rw [named, rotatedOut]
      rw [turns_cons, stands]
      apply issues_cons
      · intro userId hash opened
        rw [← ((opens userId hash).mp opened).2, owner]
        exact owners token family raw rotatable
      · intro result answered
        contradiction
      · apply issues_refresh_readRoles
        exact Or.inr ((opens _ _).mpr ⟨rfl, rfl⟩)

/-- A refresh of a rotatable token issues to the owner of the token. -/
theorem allowed_of_issues_refresh {db : Db} {token : RefreshTokenRow} {family : SessionFamilyRow}
    {raw : Drawn 32} (rotatable : Rotatable ctx env tokenHash db token family raw)
    (issues : Issues ctx env allowed already
      (turns ctx [id] ⟨.refresh env tokenHash .write, []⟩ db)) : allowed family.userId := by
  obtain ⟨next, stands, refreshed, reached, rotates⟩ :=
    act_refresh (refresh_write_sure rfl rotatable)
  rw [turns_cons] at issues
  have issued := issues.sessions _ List.mem_cons_self refreshed.userId _
    ((opens_iff_of_rotates _ rotates _ _).mpr ⟨rfl, rfl⟩)
  obtain ⟨presented, owner, drawn, other, named, _⟩ := rotates.rotation
  have sameToken : presented = token := Option.some.inj (other.stored.symm.trans rotatable.stored)
  subst sameToken
  have sameFamily : owner = family := Option.some.inj (other.owner.symm.trans rotatable.owner)
  subst sameFamily
  rw [named] at issued
  exact issued

end Refresh

section Handlers

variable {ctx : AppCtx} {env : Env} {body : Bytes} {result : HandlerResult}

/-- A body that is refused is refused with 400. -/
theorem parseBody_refused (refused : parseBody body = .error result) : result.status ≠ 200 := by
  unfold parseBody at refused
  split at refused
  · contradiction
  · cases refused
    decide

/-- A login that is not admitted is not answered 200. -/
theorem login_refused (refused : Login.admission ctx env body = .error result) :
    result.status ≠ 200 := by
  unfold Login.admission at refused
  simp only [bind, Except.bind, pure, Except.pure, throw, throwThe, MonadExceptOf.throw] at refused
  have answers {status : Int} {code message : String} (other : status ≠ 200)
      (given : Except.error (errorResult status code message) = (Except.error result :
        Except HandlerResult Login.Input)) : result.status ≠ 200 := by
    cases given
    exact other
  split at refused
  · exact answers (by decide) refused
  split at refused
  · rename_i unread
    cases refused
    exact parseBody_refused unread
  split at refused
  · split at refused
    · split at refused
      · exact answers (by decide) refused
      · split at refused
        · exact answers (by decide) refused
        · contradiction
    · exact answers (by decide) refused
  · exact answers (by decide) refused

/-- A refresh that is not admitted is not answered 200. -/
theorem refresh_refused (refused : Refresh.admission ctx body = .error result) :
    result.status ≠ 200 := by
  unfold Refresh.admission presentedHash at refused
  simp only [bind, Except.bind] at refused
  split at refused
  · rename_i unread
    cases refused
    exact parseBody_refused unread
  split at refused
  · cases refused
    decide
  split at refused
  · cases refused
    decide
  split at refused
  · contradiction
  · cases refused
    decide

/-- Who presents a token that a refresh can rotate is ACTIVE. -/
def OwnerActive (ctx : AppCtx) (env : Env) (request : Http.Request) (db : Db) : Prop :=
  ∀ tokenHash token family raw, Refresh.admission ctx (request.body.getD []) = .ok tokenHash →
    Rotatable ctx env tokenHash db token family raw → statusOf db family.userId = some .active

/-- A login issues tokens only to ACTIVE accounts; a refresh does so exactly when the presented token
cannot be rotated or its owner is ACTIVE. -/
theorem tokens_only_to_active_iff (ctx : AppCtx) (env : Env) (draining : Bool)
    (request : Http.Request) (db : Db) :
    OnlyToActive ctx env (Handler.login.start ctx env draining request) db ∧
      (OnlyToActive ctx env (Handler.refresh.start ctx env draining request) db ↔
        OwnerActive ctx env request db) := by
  constructor
  · unfold Handler.start Call.admitted
    cases admission : Login.admission ctx env (request.body.getD []) with
    | error result => exact login_refused admission
    | ok input =>
      intro others faults
      exact issues_login others faults db
  · unfold Handler.start Call.admitted OwnerActive
    cases admission : Refresh.admission ctx (request.body.getD []) with
    | error result =>
      constructor
      · intro _ tokenHash token family raw impossible
        contradiction
      · intro _
        exact refresh_refused admission
    | ok tokenHash =>
      constructor
      · intro issues presented token family raw same rotatable
        cases same
        exact allowed_of_issues_refresh rotatable (issues [id] [])
      · intro owners others faults
        apply issues_refresh
        intro token family raw rotatable
        exact owners tokenHash token family raw rfl rotatable

end Handlers

/-- A refresh rotates the session of a user that the operator has disabled since the login. -/
theorem disabled_account_refreshes :
    let login := Handler.login.start Deployment.ctx (Deployment.env 1000 1 1) false
      (Deployment.post "/v1/auth/login" "\x7b\"username\":\"alice\",\"password\":\"correct horse\"\x7d")
    let refresh := Handler.refresh.start Deployment.ctx (Deployment.env 1100 2 2) false
      (Deployment.post "/v1/auth/refresh"
        "\x7b\"refresh_token\":\"AQEBAQEBAQEBAQEBAQEBAQEBAQEBAQEBAQEBAQEBAQE\"\x7d")
    let loggedIn := login.run Deployment.ctx (Conn.of (Deployment.database .active), [])
    let disabled := (Running.act Deployment.ctx loggedIn.2.1.db ⟨.operator 1 1050 false, []⟩).1
    let refreshed := refresh.run Deployment.ctx (Conn.of disabled, [])
    let successor := Deployment.crypto.sha256 (Deployment.rawToken 2).bytes
    loggedIn.1.map HandlerResult.status = some 200 ∧ statusOf disabled 1 = some .disabled ∧
      refreshed.1.map HandlerResult.status = some 200 ∧
      disabled.refreshTokens.find? successor = none ∧
      (refreshed.2.1.db.refreshTokens.find? successor).isSome := by
  simp only [Deployment.ctx, Deployment.crypto_eq, Deployment.database_eq]
  decide +kernel

end PlatformService.Verif.Issuance
