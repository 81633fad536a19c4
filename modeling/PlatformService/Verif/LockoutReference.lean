import PlatformService.Verif.Lockout
import PlatformService.Verif.Retention

/-!
# The lockout against its reference model

The reference model of an account keeps its password, its status and the times of the
failures that count: those of attempts with a wrong password, made while the account
was not locked, since the last success. The account is locked while the last of these
was at least the threshold-th and its lockout is not over. Attempts on one account that
do not overlap, with password changes and sweeps anywhere between and within them,
have the outcomes of the reference model, which knows no sweeps, and the stored
counter is the number of its failures.
-/

namespace PlatformService.Verif.LockoutReference

open Lib Store Api Maintenance Lockout Retention

section Reference

/-- An account of the reference model. -/
structure Account where
  hash : Password.Hash
  status : UserStatus
  /-- The times of the failures counted since the last success, newest first. -/
  failures : List Int

/-- The last counted failure was at least the threshold-th since the last success, and the lockout
that began with it lies after now. -/
def Account.locked (config : Config) (now : Int) (account : Account) : Bool :=
  decide (config.lockoutThreshold ≤ account.failures.length) &&
    account.failures.head?.any fun last => now < last + config.lockoutDurationS

/-- Whether an attempt with a password succeeds. -/
def Account.admits (ctx : AppCtx) (now : Int) (password : Bytes) (account : Account) : Bool :=
  Password.verify ctx.crypto password account.hash && account.status = .active &&
    !account.locked ctx.config now

/-- An attempt: a success forgets the failures, and a wrong password counts while unlocked. -/
def Account.attempt (ctx : AppCtx) (now : Int) (password : Bytes) (account : Account) : Account :=
  if account.admits ctx now password then { account with failures := [] }
  else if account.locked ctx.config now || Password.verify ctx.crypto password account.hash then
    account
  else { account with failures := now :: account.failures }

end Reference

section Runs

/-- What else runs: a phase of a password change, or a batch of a sweep. -/
inductive Interlude where
  | passwordChange (env : Env) (claims : Claims) (input : PasswordChange.Input)
      (phase : PasswordChange.Phase)
  | sweep (settings : Settings) (now : Int) (choices : List (Scan × Bool)) (targets : List Target)
      (faults : List Bool)

/-- The activity that an interlude is a step of. -/
def Interlude.running : Interlude → Running
  | .passwordChange env claims input phase => ⟨.passwordChange env claims input phase, []⟩
  | .sweep settings now choices targets faults => ⟨.sweep settings now choices targets, faults⟩

/-- The content after some interludes. -/
def meanwhile (ctx : AppCtx) : Db → List Interlude → Db :=
  List.foldl fun db interlude => (interlude.running.act ctx db).1

/-- What concerns the account: attempts on it, each with what runs between its lookup and its
transaction, and what runs between the attempts. -/
inductive Event where
  | attempt (env : Env) (input : Login.Input) (between : List Interlude)
  | other (interlude : Interlude)

/-- An admitted login through its transaction; what is left to do then only reads roles. -/
def attempt (ctx : AppCtx) (db : Db) (env : Env) (input : Login.Input) (between : List Interlude) :
    Db × Running :=
  let looked := Running.act ctx db ⟨.login env input .lookup, []⟩
  Running.act ctx (meanwhile ctx looked.1 between) looked.2

/-- Whether a login has opened a session, or was refused with 401. -/
def verdict (running : Running) : Option Bool :=
  match running.activity with
  | .login _ _ (.readRoles _ _) => some true
  | .login _ _ (.done result) => if result.status = 401 then some false else none
  | _ => none

/-- The verdicts of the attempts, and the content after some events. -/
def life (ctx : AppCtx) : Db → List Event → List (Option Bool) × Db
  | db, [] => ([], db)
  | db, .attempt env input between :: rest =>
    let made := attempt ctx db env input between
    (verdict made.2 :: (life ctx made.1 rest).1, (life ctx made.1 rest).2)
  | db, .other interlude :: rest => life ctx (interlude.running.act ctx db).1 rest

/-- What an interlude is to the reference model: the transaction of a password change of the account
sets its password. -/
def Account.interlude (userId : Int) (account : Account) : Interlude → Account
  | .passwordChange _ claims _ (.write _ newHash _) =>
    if claims.userId = userId then { account with hash := newHash } else account
  | _ => account

/-- The outcomes of the attempts in the reference model, and the account after some events. -/
def Account.life (ctx : AppCtx) (userId : Int) : Account → List Event → List Bool × Account
  | account, [] => ([], account)
  | account, .attempt env input between :: rest =>
    let after := between.foldl (Account.interlude userId) (account.attempt ctx env.now input.password)
    (account.admits ctx env.now input.password :: (Account.life ctx userId after rest).1,
      (Account.life ctx userId after rest).2)
  | account, .other interlude :: rest =>
    Account.life ctx userId (account.interlude userId interlude) rest

/-- The latest time that a sweep has read. -/
def Interlude.latest (since : Int) : Interlude → Int
  | .sweep _ now _ _ _ => max since now
  | .passwordChange .. => since

/-- No attempt reads an earlier time than a sweep that ran before it, or than that of the start. -/
def TimeOrdered : Int → List Event → Prop
  | _, [] => True
  | since, .attempt env _ between :: rest =>
    since ≤ env.now ∧ TimeOrdered (between.foldl Interlude.latest since) rest
  | since, .other interlude :: rest => TimeOrdered (interlude.latest since) rest

/-- What an attempt draws for a session is there, and not stored when its transaction begins. -/
structure Draws (ctx : AppCtx) (env : Env) (db : Db) : Prop where
  family : ∃ drawn, env.familyId = some drawn ∧
    ∀ stored ∈ db.sessionFamilies, stored.familyId ≠ drawn.bytes
  token : ∃ raw, env.rawToken = some raw ∧
    ∀ stored ∈ db.refreshTokens, stored.tokenHash ≠ ctx.crypto.sha256 raw.bytes

/-- The draws of every attempt succeed and are new. -/
def DrawsAlong (ctx : AppCtx) : Db → List Event → Prop
  | _, [] => True
  | db, .attempt env input between :: rest =>
    Draws ctx env (meanwhile ctx db between) ∧
      DrawsAlong ctx (attempt ctx db env input between).1 rest
  | db, .other interlude :: rest => DrawsAlong ctx (interlude.running.act ctx db).1 rest

/-- Whether an interlude is part of a sweep. -/
def Interlude.sweeps : Interlude → Bool
  | .sweep .. => true
  | .passwordChange .. => false

/-- The events without the sweeps. -/
def unswept : List Event → List Event
  | [] => []
  | .attempt env input between :: rest =>
    .attempt env input (between.filter fun interlude => !interlude.sweeps) :: unswept rest
  | .other interlude :: rest =>
    if interlude.sweeps then unswept rest else .other interlude :: unswept rest

end Runs

section Rows

variable {ctx : AppCtx} {env : Env} {username : Bytes}

/-- An update of users changes the account found under a name if it selects it. -/
theorem accountOf_updateUsers {db : Db} {row : UserRow} (stored : accountOf db username = some row)
    (selected : UserRow → Bool) (change : Db.UserChange) :
    accountOf (db.updateUsers selected change) username =
      some (if selected row then change.apply row else row) := by
  have rows : (db.updateUsers selected change).users.rows = db.users.rows.map fun user =>
      if selected user then change.apply user else user := rfl
  have names : ((fun user : UserRow => decide (nocase user.username = nocase username)) ∘
      fun user => if selected user then change.apply user else user) =
        fun user => decide (nocase user.username = nocase username) := by
    funext user
    have same : (if selected user then change.apply user else user).username = user.username := by
      split
      · exact change.keepsUsername user
      · rfl
    rw [Function.comp_apply, same]
  unfold accountOf at stored ⊢
  rw [rows, List.find?_map, names, stored, Option.map_some]

/-- An update of one user changes the account found under a name if it is that user's. -/
theorem accountOf_updateUser {db : Db} {row : UserRow} (stored : accountOf db username = some row)
    (userId : Int) (change : Db.UserChange) :
    accountOf (db.updateUsers (fun user => user.userId = userId) change) username =
      some (if row.userId = userId then change.apply row else row) := by
  rw [accountOf_updateUsers stored]
  by_cases own : row.userId = userId
  · rw [if_pos own, if_pos (decide_eq_true own)]
  · rw [if_neg own, if_neg (by simpa using own)]

/-- The same users have the same accounts. -/
theorem accountOf_congr_users {db after : Db} (same : after.users = db.users) :
    accountOf after username = accountOf db username := by
  rw [accountOf, same, accountOf]

/-- A stored row that is as the reference model has it for clocks from some time on. -/
structure Stands (config : Config) (since : Int) (account : Account) (row : UserRow) : Prop where
  hash : storedHash row = account.hash
  status : row.status = account.status
  counter : row.failedLogins = account.failures.length
  lock : ∀ now, since ≤ now → Login.locked now row = account.locked config now
  duly : row.lockedUntil ≠ none → config.lockoutThreshold ≤ account.failures.length

variable {config : Config} {since : Int} {account : Account} {row : UserRow}

/-- What stands for some clocks stands for later ones. -/
theorem Stands.later (stands : Stands config since account row) {next : Int} (later : since ≤ next) :
    Stands config next account row :=
  { stands with lock := fun now passed => stands.lock now (by omega) }

/-- A login decides as the reference model does. -/
theorem Stands.decision (stands : Stands ctx.config since account row) (later : since ≤ env.now)
    (input : Login.Input) :
    Login.decision ctx env input (some row) =
      if account.admits ctx env.now input.password then .accept row
      else .refuse (some row) (Password.verify ctx.crypto input.password account.hash) := by
  unfold Login.decision Account.admits
  dsimp only
  rw [stands.hash, stands.status, stands.lock env.now later]

/-- A success clears the counter and the lock. -/
theorem Stands.cleared (stands : Stands config since account row) (now : Int) :
    Stands config since { account with failures := [] }
      ((UserStore.loginFailureChange 0 0 now).apply row) where
  hash := stands.hash
  status := stands.status
  counter := rfl
  lock _ _ := by simp [Login.locked, UserStore.loginFailureChange, nullAsZero, Account.locked]
  duly locked := absurd rfl locked

/-- A counted failure counts on, and locks from the threshold on. -/
theorem Stands.failed (stands : Stands config since account row) (epoch : 0 ≤ since)
    {seen : UserRow} (counter : seen.failedLogins = account.failures.length) (now : Int) :
    Stands config since { account with failures := now :: account.failures }
      ((UserStore.loginFailureChange (Login.afterFailure config now seen).1
        (Login.afterFailure config now seen).2 now).apply row) where
  hash := stands.hash
  status := stands.status
  counter := by
    simp [UserStore.loginFailureChange, Login.afterFailure, counter]
  lock later passed := by
    -- A lock that ends at the Epoch is stored as NULL; no clock reads a time before it.
    simp only [Login.locked, UserStore.loginFailureChange, Login.afterFailure, Account.locked, counter,
      List.length_cons, Nat.cast_add, Nat.cast_one, List.head?_cons, Option.any_some]
    by_cases reached : config.lockoutThreshold ≤ account.failures.length + 1
    · rw [if_pos reached, decide_eq_true reached, Bool.true_and]
      by_cases zero : now + config.lockoutDurationS = 0
      · rw [if_pos zero, zero]
        have passed : ¬later < 0 := by omega
        simp [nullAsZero, passed]
      · simp [nullAsZero, zero]
    · rw [if_neg reached, decide_eq_false reached]
      simp [nullAsZero]
  duly locked := by
    by_cases reached : config.lockoutThreshold ≤ account.failures.length + 1
    · simpa using reached
    · simp [UserStore.loginFailureChange, Login.afterFailure, counter, reached] at locked

/-- A changed password is that of the account. -/
theorem Stands.changed (stands : Stands config since account row) (newHash : Password.Hash)
    (now : Int) :
    Stands config since { account with hash := newHash }
      ((UserStore.passwordColumns newHash.hash newHash.salt newHash.iterations now).apply row) where
  hash := rfl
  status := stands.status
  counter := stands.counter
  lock := stands.lock
  duly := stands.duly

/-- A cleared lock that was over before some time is none for clocks from then on. -/
theorem Stands.swept (stands : Stands config since account row) {now time : Int}
    (given : row.lockedUntil = some time) (ended : time < now) (later : since ≤ now) :
    Stands config now account { row with lockedUntil := none, updatedAt := now } where
  hash := stands.hash
  status := stands.status
  counter := stands.counter
  lock clock passed := by
    have before := stands.lock clock (by omega)
    have unlocked : ¬clock < time := by omega
    rw [← before]
    simp [Login.locked, given, nullAsZero, unlocked]
  duly locked := absurd rfl locked

end Rows

section Steps

variable {ctx : AppCtx} {username : Bytes} {userId since : Int} {account : Account} {db : Db}

/-- The row found under a name is that of a user, and as the reference model has it. -/
def Follows (config : Config) (username : Bytes) (userId since : Int) (account : Account) (db : Db) :
    Prop :=
  ∃ row, accountOf db username = some row ∧ row.userId = userId ∧ Stands config since account row

/-- What leaves the users alone leaves the account as it is. -/
theorem Follows.congr {after : Db} (follows : Follows ctx.config username userId since account db)
    (same : after.users = db.users) : Follows ctx.config username userId since account after := by
  obtain ⟨row, stored, own, stands⟩ := follows
  exact ⟨row, (accountOf_congr_users same).trans stored, own, stands⟩

/-- A phase of a password change does to the account what it does in the reference model. -/
theorem Follows.passwordChange (follows : Follows ctx.config username userId since account db)
    (env : Env) (claims : Claims) (input : PasswordChange.Input) (phase : PasswordChange.Phase) :
    Follows ctx.config username userId since
      (account.interlude userId (.passwordChange env claims input phase))
      (Running.act ctx db ⟨.passwordChange env claims input phase, []⟩).1 := by
  have spec : Sql.Leaves True (PasswordChange.step ctx env claims input phase) db fun _ after =>
      Follows ctx.config username userId since
        (account.interlude userId (.passwordChange env claims input phase)) after := by
    have kept (command : Sql PasswordChange.Phase) (keeps : Sql.Keeps Db.users command) :
        Sql.Leaves True command db fun _ after =>
          Follows ctx.config username userId since account after :=
      (keeps.committed True db).mono fun _ _ same => follows.congr same
    cases phase with
    | lookup => exact kept _ (Sql.keeps_bind (Sql.keeps_lookup _) fun _ => Sql.keeps_pure _)
    | auditFailure =>
      exact kept _ (Sql.keeps_bind (Sql.keeps_update fun _ => rfl) fun _ => Sql.keeps_pure _)
    | done result => exact kept _ (Sql.keeps_pure _)
    | write user newHash survivingFamilyId =>
      apply (passwordChange_write_settles env claims newHash survivingFamilyId db).andReturn
      intro result after left
      cases result with
      | error reason => exact absurd trivial left.1
      | ok _ =>
        have done : after = passwordChangedDb env claims.userId newHash survivingFamilyId db := left
        have users : after.users = (changedUsers db claims.userId newHash env.now).users := by
          rw [done]
          rfl
        refine ⟨_, rfl, Follows.congr ?_ users⟩
        obtain ⟨row, stored, own, stands⟩ := follows
        refine ⟨_, accountOf_updateUser stored claims.userId _, ?_, ?_⟩
        · split
          · exact own
          · exact own
        · unfold Account.interlude
          dsimp only
          by_cases same : claims.userId = userId
          · rw [if_pos same, if_pos (own.trans same.symm)]
            exact stands.changed newHash env.now
          · rw [if_neg same, if_neg fun this => same (this.symm.trans own)]
            exact stands
  have step : Sql.Leaves True ((Activity.passwordChange env claims input phase).step ctx) db
      fun _ after => Follows ctx.config username userId since
        (account.interlude userId (.passwordChange env claims input phase)) after :=
    spec.andThen fun _ => ⟨_, rfl⟩
  exact (step [] fun _ => rfl).1

/-- A batch of a sweep leaves the account as the reference model has it, for clocks from then on. -/
theorem Follows.batch (follows : Follows ctx.config username userId since account db)
    (settings : Settings) (scan : Scan) (now : Int) (target : Target) :
    Follows ctx.config username userId (max since now) account
      (batch settings scan now target db).2 := by
  obtain ⟨row, stored, own, stands⟩ := follows
  have unchanged {after : Db} (same : after.users = db.users) :
      Follows ctx.config username userId (max since now) account after :=
    ⟨row, (accountOf_congr_users same).trans stored, own, stands.later (le_max_left _ _)⟩
  cases target with
  | emailVerificationTokens => exact unchanged rfl
  | refreshTokens => exact unchanged rfl
  | sessionFamilies => exact unchanged rfl
  | devOutbox => exact unchanged rfl
  | auditLog => exact unchanged rfl
  | expiredLockouts =>
    refine ⟨_, accountOf_updateUsers stored _ _, ?_, ?_⟩
    · split
      · exact own
      · exact own
    · split
      · rename_i selected
        have member : row ∈ db.users := List.mem_of_find?_eq_some stored
        have ended := chosen_of_key member (of_decide_eq_true selected)
        obtain ⟨time, given, before⟩ := (Option.any_eq_true _ _).mp ended
        have swept := (stands.later (le_max_left since now)).swept given
          (lt_of_lt_of_le (of_decide_eq_true before) (le_max_right since now)) (le_refl _)
        exact ⟨swept.hash, swept.status, swept.counter, swept.lock, swept.duly⟩
      · exact stands.later (le_max_left _ _)

/-- A step of a sweep leaves the account as the reference model has it. -/
theorem Follows.sweep (follows : Follows ctx.config username userId since account db)
    (settings : Settings) (now : Int) (choices : List (Scan × Bool)) (targets : List Target)
    (faults : List Bool) :
    Follows ctx.config username userId (max since now) account
      (Running.act ctx db ⟨.sweep settings now choices targets, faults⟩).1 := by
  have idle : Follows ctx.config username userId (max since now) account db := by
    obtain ⟨row, stored, own, stands⟩ := follows
    exact ⟨row, stored, own, stands.later (le_max_left _ _)⟩
  have spec (scan : Scan) (stopping : Bool) :
      Sql.Leaves False (runSweep settings scan stopping now targets) db fun _ after =>
        Follows ctx.config username userId (max since now) account after := by
    cases targets with
    | nil => exact (Sql.guarantees_pure idle).leaves
    | cons target targets =>
      apply Sql.Guarantees.leaves
      apply Sql.guarantees_statement
      · intro _
        exact Sql.guarantees_pure idle
      · intro changed after done
        have result : after = (Maintenance.batch settings scan now target db).2 :=
          (congrArg Prod.snd (Option.some.inj done)).symm
        rw [result]
        exact Sql.guarantees_pure (follows.batch settings scan now target)
  have step : Sql.Leaves False ((Activity.sweep settings now choices targets).step ctx) db
      fun _ after => Follows ctx.config username userId (max since now) account after :=
    (spec _ _).andThen fun _ => ⟨_, rfl⟩
  exact (step faults False.elim).1

/-- An interlude does to the account what it does in the reference model. -/
theorem Follows.interlude (follows : Follows ctx.config username userId since account db)
    (interlude : Interlude) :
    Follows ctx.config username userId (interlude.latest since) (account.interlude userId interlude)
      (interlude.running.act ctx db).1 := by
  cases interlude with
  | passwordChange env claims input phase => exact follows.passwordChange env claims input phase
  | sweep settings now choices targets faults =>
    exact follows.sweep settings now choices targets faults

/-- Some interludes do to the account what they do in the reference model. -/
theorem Follows.interludes (follows : Follows ctx.config username userId since account db)
    (between : List Interlude) :
    Follows ctx.config username userId (between.foldl Interlude.latest since)
      (between.foldl (Account.interlude userId) account)
      (meanwhile ctx db between) := by
  induction between generalizing since account db with
  | nil => exact follows
  | cons interlude rest ih => exact ih (follows.interlude interlude)

/-- No sweep takes the clock back. -/
theorem le_latest (since : Int) (between : List Interlude) :
    since ≤ between.foldl Interlude.latest since := by
  induction between generalizing since with
  | nil => exact le_refl since
  | cons interlude rest ih =>
    have first : since ≤ interlude.latest since := by
      cases interlude with
      | passwordChange env claims input phase => exact le_refl since
      | sweep settings now choices targets faults => exact le_max_left since now
    exact first.trans (ih _)

/-- What runs meanwhile counts no failure. -/
theorem failures_meanwhile (userId : Int) (account : Account) (failures : List Int)
    (between : List Interlude) :
    between.foldl (Account.interlude userId) { account with failures } =
      { between.foldl (Account.interlude userId) account with failures } := by
  induction between generalizing account with
  | nil => rfl
  | cons interlude rest ih =>
    have first : Account.interlude userId { account with failures } interlude =
        { account.interlude userId interlude with failures } := by
      unfold Account.interlude
      split
      · split
        · rfl
        · rfl
      · rfl
    rw [List.foldl_cons, first, ih, List.foldl_cons]

end Steps

section Attempts

variable {ctx : AppCtx} {env : Env} {username : Bytes} {userId since : Int} {account : Account}
  {db : Db}

/-- Where nothing fails and the draws are new, an accepted login opens a session. -/
theorem write_accept (input : Login.Input) (user : UserRow)
    (owned : ∃ stored ∈ db.users, stored.userId = user.userId) (draws : Draws ctx env db) :
    Sql.Leaves True (Login.step ctx env input (.write (.accept user))) db fun next after =>
      (∃ session, next = .readRoles user.userId session) ∧
        after.users = (clearedUsers db user.userId env.now).users := by
  have sure := writeSuccess_sure owned draws.family draws.token
  apply (sure.and (writeSuccess_spec ctx env user.userId db)).andReturn
  intro result after left
  obtain ⟨⟨session, opened⟩, effect⟩ := left
  rw [opened] at effect ⊢
  have users : after.users = (clearedUsers db user.userId env.now).users := effect.users
  exact ⟨_, rfl, ⟨session, rfl⟩, users⟩

/-- Where nothing fails, a refused login is answered 401. -/
theorem write_refuse (input : Login.Input) (found : Option UserRow) (passwordOk : Bool) :
    Sql.Leaves True (Login.step ctx env input (.write (.refuse found passwordOk))) db
      fun next after => next = .done Login.unauthorized ∧
        after.users = (failedUsers ctx env found passwordOk db).users := by
  apply (writeFailure_spec ctx env found passwordOk db).andReturn
  intro result after left
  cases result with
  | error reason => exact absurd trivial left.1
  | ok _ => exact ⟨_, rfl, rfl, left.1⟩

/-- What the transaction of an attempt leaves is what the reference model has, if the attempt read the
account as it was before the interludes. -/
theorem follows_write {row : UserRow} {mid : Db} {now : Account} (epoch : 0 ≤ since) (input : Login.Input)
    (stands : Stands ctx.config since account row) (own : row.userId = userId)
    (later : since ≤ env.now) {next : Int} (onward : since ≤ next)
    (follows : Follows ctx.config username userId next now mid) (same : now.failures = account.failures)
    (draws : Draws ctx env mid) :
    Sql.Leaves True (Login.step ctx env input (.write (Login.decision ctx env input (some row)))) mid
      fun phase after =>
        verdict ⟨.login env input phase, []⟩ = some (account.admits ctx env.now input.password) ∧
        Follows ctx.config username userId next
          { now with failures := (account.attempt ctx env.now input.password).failures } after := by
  obtain ⟨current, stored, currentOwn, currentStands⟩ := follows
  have sameUser : current.userId = row.userId := currentOwn.trans own.symm
  rw [stands.decision later]
  unfold Account.attempt
  by_cases admitted : account.admits ctx env.now input.password = true
  · rw [if_pos admitted, if_pos admitted]
    have owned : ∃ stored ∈ mid.users, stored.userId = row.userId :=
      ⟨current, List.mem_of_find?_eq_some stored, sameUser⟩
    refine (write_accept input row owned draws).mono fun phase after left => ?_
    obtain ⟨⟨session, reads⟩, users⟩ := left
    rw [reads]
    refine ⟨by rw [admitted]; rfl, Follows.congr ?_ users⟩
    refine ⟨_, accountOf_updateUser stored row.userId _, ?_, ?_⟩
    · rw [if_pos sameUser]
      exact currentOwn
    · rw [if_pos sameUser]
      exact currentStands.cleared env.now
  · rw [if_neg admitted, if_neg admitted]
    refine (write_refuse input (some row) _).mono fun phase after left => ?_
    obtain ⟨refused, users⟩ := left
    rw [refused]
    refine ⟨by rw [eq_false_of_ne_true admitted]; rfl, Follows.congr ?_ users⟩
    unfold failedUsers
    dsimp only
    rw [stands.lock env.now later]
    by_cases uncounted : (account.locked ctx.config env.now ||
        Password.verify ctx.crypto input.password account.hash) = true
    · rw [if_pos uncounted, if_pos uncounted, ← same]
      exact ⟨current, stored, currentOwn, currentStands⟩
    · rw [if_neg uncounted, if_neg uncounted]
      refine ⟨_, accountOf_updateUser stored row.userId _, ?_, ?_⟩
      · rw [if_pos sameUser]
        exact currentOwn
      · have counter : row.failedLogins = now.failures.length := by rw [stands.counter, same]
        have failed := currentStands.failed (epoch.trans onward) counter env.now
        rw [if_pos sameUser, ← same]
        exact failed

/-- An attempt has the outcome of the reference model and leaves the account as that has it. -/
theorem Follows.attempted (follows : Follows ctx.config username userId since account db)
    (epoch : 0 ≤ since) {input : Login.Input} (named : nocase input.username = nocase username)
    (later : since ≤ env.now) {between : List Interlude}
    (draws : Draws ctx env (meanwhile ctx db between)) :
    verdict (attempt ctx db env input between).2 =
        some (account.admits ctx env.now input.password) ∧
      Follows ctx.config username userId (between.foldl Interlude.latest since)
        (between.foldl (Account.interlude userId) (account.attempt ctx env.now input.password))
        (attempt ctx db env input between).1 := by
  have after := follows.interludes between
  obtain ⟨row, stored, own, stands⟩ := follows
  have found : accountOf db input.username = some row := by
    rw [← stored]
    unfold accountOf
    rw [named]
  have failures (changed : Account) (hash : changed.hash = account.hash)
      (status : changed.status = account.status) :
      between.foldl (Account.interlude userId) changed =
        { between.foldl (Account.interlude userId) account with failures := changed.failures } := by
    rw [← failures_meanwhile userId account changed.failures between, ← hash, ← status]
  have same : (between.foldl (Account.interlude userId) account).failures = account.failures := by
    rw [failures account rfl rfl]
  have kept : (account.attempt ctx env.now input.password).hash = account.hash ∧
      (account.attempt ctx env.now input.password).status = account.status := by
    unfold Account.attempt
    split
    · exact ⟨rfl, rfl⟩
    · split
      · exact ⟨rfl, rfl⟩
      · exact ⟨rfl, rfl⟩
  have spec := follows_write epoch input stands own later (le_latest since between) after same draws
  have step : Sql.Leaves True ((Activity.login env input
      (.write (Login.decision ctx env input (some row)))).step ctx) (meanwhile ctx db between)
      fun activity after => verdict ⟨activity, []⟩ = some (account.admits ctx env.now input.password) ∧
        Follows ctx.config username userId (between.foldl Interlude.latest since)
          { between.foldl (Account.interlude userId) account with
            failures := (account.attempt ctx env.now input.password).failures } after :=
    spec.andReturn fun phase _ left => ⟨.login env input phase, rfl, left⟩
  unfold attempt
  rw [act_lookup, List.headD_nil, if_neg (by simp), found]
  rw [failures _ kept.1 kept.2]
  exact (step [] fun _ => rfl).1

/-- The attempts are on the account of a name. -/
def Named (username : Bytes) (events : List Event) : Prop :=
  ∀ env input between, Event.attempt env input between ∈ events →
    nocase input.username = nocase username

/-- Some events have the outcomes of the reference model and leave the account as that has it. -/
theorem Follows.life (follows : Follows ctx.config username userId since account db)
    (epoch : 0 ≤ since) {events : List Event} (named : Named username events)
    (ordered : TimeOrdered since events) (draws : DrawsAlong ctx db events) :
    (life ctx db events).1 = (account.life ctx userId events).1.map some ∧
      ∃ next, Follows ctx.config username userId next (account.life ctx userId events).2
        (life ctx db events).2 := by
  induction events generalizing since account db with
  | nil => exact ⟨rfl, since, follows⟩
  | cons event rest ih =>
    have remaining : Named username rest := fun env input between member =>
      named env input between (List.mem_cons_of_mem _ member)
    cases event with
    | attempt env input between =>
      obtain ⟨outcome, after⟩ := follows.attempted epoch
        (named env input between List.mem_cons_self) ordered.1 draws.1
      obtain ⟨outcomes, ends⟩ :=
        ih after (epoch.trans (le_latest since between)) remaining ordered.2 draws.2
      refine ⟨?_, ends⟩
      unfold LockoutReference.life Account.life
      dsimp only
      rw [List.map_cons, outcome, outcomes]
    | other interlude =>
      have later : since ≤ interlude.latest since := le_latest since [interlude]
      exact ih (follows.interlude interlude) (epoch.trans later) remaining ordered draws

end Attempts

section Sweeps

/-- A sweep is nothing to the reference model. -/
theorem interlude_of_sweeps {interlude : Interlude} (sweeps : interlude.sweeps = true) (userId : Int)
    (account : Account) : account.interlude userId interlude = account := by
  cases interlude with
  | passwordChange env claims input phase => contradiction
  | sweep settings now choices targets faults => rfl

/-- In the reference model the events do the same without the sweeps. -/
theorem life_unswept (ctx : AppCtx) (userId : Int) (account : Account) (events : List Event) :
    account.life ctx userId (unswept events) = account.life ctx userId events := by
  induction events generalizing account with
  | nil => rfl
  | cons event rest ih =>
    cases event with
    | attempt env input between =>
      have same (start : Account) : (between.filter fun interlude => !interlude.sweeps).foldl
          (Account.interlude userId) start = between.foldl (Account.interlude userId) start := by
        induction between generalizing start with
        | nil => rfl
        | cons interlude others inner =>
          cases sweeps : interlude.sweeps with
          | true =>
            rw [List.filter_cons_of_neg (by simp [sweeps]), List.foldl_cons,
              interlude_of_sweeps sweeps, inner]
          | false =>
            rw [List.filter_cons_of_pos (by simp [sweeps]), List.foldl_cons, inner, List.foldl_cons]
      unfold unswept Account.life
      dsimp only
      rw [same, ih]
    | other interlude =>
      unfold unswept
      split
      · rename_i sweeps
        rw [ih, Account.life, interlude_of_sweeps sweeps]
      · rw [Account.life, ih, Account.life]

/-- Without sweeps no clock is ahead of that of the start. -/
theorem latest_unswept (since : Int) (between : List Interlude) :
    (between.filter fun interlude => !interlude.sweeps).foldl Interlude.latest since = since := by
  induction between with
  | nil => rfl
  | cons interlude rest ih =>
    cases interlude with
    | passwordChange env claims input phase => exact ih
    | sweep settings now choices targets faults => exact ih

/-- Without sweeps no attempt comes too early. -/
theorem TimeOrdered.unswept {since earlier : Int} {events : List Event}
    (ordered : TimeOrdered since events) (before : earlier ≤ since) :
    TimeOrdered earlier (unswept events) := by
  induction events generalizing since earlier with
  | nil => exact trivial
  | cons event rest ih =>
    cases event with
    | attempt env input between =>
      exact ⟨before.trans ordered.1, by
        rw [latest_unswept]
        exact ih ordered.2 (before.trans (le_latest since between))⟩
    | other interlude =>
      have later : earlier ≤ interlude.latest since := before.trans (le_latest since [interlude])
      unfold LockoutReference.unswept
      cases interlude with
      | passwordChange env claims input phase => exact ih ordered later
      | sweep settings now choices targets faults => exact ih ordered later

/-- Without sweeps the attempts are on the same account. -/
theorem Named.unswept {username : Bytes} {events : List Event} (named : Named username events) :
    Named username (unswept events) := by
  induction events with
  | nil => exact named
  | cons event rest ih =>
    have remaining : Named username rest := fun env input between member =>
      named env input between (List.mem_cons_of_mem _ member)
    cases event with
    | attempt env input between =>
      intro other input' between' member
      cases member with
      | head => exact named env input between List.mem_cons_self
      | tail _ member => exact ih remaining other input' between' member
    | other interlude =>
      unfold LockoutReference.unswept
      split
      · exact ih remaining
      · intro env input between member
        cases member with
        | tail _ member => exact ih remaining env input between member

end Sweeps

/-- Attempts on one account that do not overlap, in order of time and with password changes and sweeps
anywhere, have the outcomes of the reference model, and the stored counter is the number of its
failures; a lock is stored only from the threshold on; and without the sweeps the outcomes are the
same. -/
theorem lockout_matches_reference (ctx : AppCtx) (db : Db) (username : Bytes) (row : UserRow)
    (account : Account) (events : List Event) (stored : accountOf db username = some row)
    (stands : Stands ctx.config 0 account row) (named : Named username events)
    (ordered : TimeOrdered 0 events) (draws : DrawsAlong ctx db events) :
    let reference := account.life ctx row.userId events
    (life ctx db events).1 = reference.1.map some ∧
      (∃ after, accountOf (life ctx db events).2 username = some after ∧
        after.failedLogins = reference.2.failures.length ∧
        (after.lockedUntil ≠ none → ctx.config.lockoutThreshold ≤ reference.2.failures.length)) ∧
      (DrawsAlong ctx db (unswept events) →
        (life ctx db (unswept events)).1 = (life ctx db events).1) := by
  intro reference
  have follows : Follows ctx.config username row.userId 0 account db := ⟨row, stored, rfl, stands⟩
  obtain ⟨outcomes, next, after, found, own, ends⟩ := follows.life (le_refl 0) named ordered draws
  refine ⟨outcomes, ⟨after, found, ends.counter, ends.duly⟩, fun drawsUnswept => ?_⟩
  have without := (follows.life (le_refl 0) named.unswept (ordered.unswept (le_refl 0))
    drawsUnswept).1
  rw [without, life_unswept, outcomes]

/-- An account that nobody has failed to log in to. -/
theorem stands_of_unfailed {config : Config} {since : Int} {row : UserRow}
    (counter : row.failedLogins = 0) (unlocked : row.lockedUntil = none) :
    Stands config since ⟨storedHash row, row.status, []⟩ row where
  hash := rfl
  status := rfl
  counter := counter
  lock now _ := by simp [Login.locked, unlocked, nullAsZero, Account.locked]
  duly locked := absurd unlocked locked

/-- A deployment that locks an account at the second failure. -/
def strict : AppCtx :=
  { Deployment.ctx with config := { Deployment.config with lockoutThreshold := 2 } }

/-- A batch of a sweep that clears locks. -/
def clearing (now : Int) : Interlude := .sweep ⟨1000, 365⟩ now [] [.expiredLockouts] []

/-- An attempt on the account of alice, with a sweep between its lookup and its transaction. -/
def trial (now : Int) (draw : UInt8) (password : String) : Event :=
  .attempt (Deployment.env now draw draw) ⟨ascii "Alice", ascii password⟩ [clearing now]

/-- Two failures lock the account for 900 seconds: the right password is refused one second before the
end of the lockout, and succeeds at its end. -/
def lockedOut : List Event :=
  [trial 2000 1 "wrong horse", trial 2100 2 "wrong horse", trial 2999 3 "correct horse",
    .other (clearing 2999), trial 3000 4 "correct horse"]

/-- The lockout ends at the second that is stored, and not before. -/
theorem lockout_matches_reference_of_lockedOut :
    (life strict (Deployment.database .active) lockedOut).1 =
      [some false, some false, some false, some true] := by
  have unused {now : Int} {draw : UInt8} {db : Db} (tokens : ∀ stored ∈ db.refreshTokens.rows,
      stored.tokenHash ≠ Deployment.crypto.sha256 (Deployment.rawToken draw).bytes)
      (families : ∀ stored ∈ db.sessionFamilies.rows,
        stored.familyId ≠ (Deployment.sixteen draw).bytes) :
      Draws strict (Deployment.env now draw draw) db :=
    ⟨⟨_, rfl, families⟩, ⟨_, rfl, tokens⟩⟩
  have draws : DrawsAlong strict (Deployment.database .active) lockedOut :=
    ⟨unused (by decide +kernel) (by decide +kernel), unused (by decide +kernel) (by decide +kernel),
      unused (by decide +kernel) (by decide +kernel), unused (by decide +kernel) (by decide +kernel),
      trivial⟩
  have named : Named (ascii "alice") lockedOut := by
    intro env input between member
    simp only [lockedOut, trial, List.mem_cons, Event.attempt.injEq, reduceCtorEq, false_or,
      List.not_mem_nil, or_false] at member
    obtain ⟨-, rfl, -⟩ | ⟨-, rfl, -⟩ | ⟨-, rfl, -⟩ | ⟨-, rfl, -⟩ := member
    all_goals decide
  have ordered : TimeOrdered 0 lockedOut := by
    simp [lockedOut, trial, clearing, TimeOrdered, Interlude.latest, Deployment.env]
  have outcomes := (lockout_matches_reference strict (Deployment.database .active) (ascii "alice")
    (Deployment.alice .active) _ lockedOut (by decide +kernel) (stands_of_unfailed rfl rfl) named
    ordered draws).1
  rw [outcomes]
  decide +kernel

end PlatformService.Verif.LockoutReference
