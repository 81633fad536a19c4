import PlatformService.Api.System
import PlatformService.Verif.Deployment
import PlatformService.Verif.SessionSpecs

/-!
# The lockout of an account

A login reads the user row outside any transaction, runs the KDF, and then writes
the counter and the lock computed from the row it read. Where each login finds,
when its transaction begins, the counter and the lock that it read, an
interleaving of logins leaves what some serial order of them leaves, failed
attempts are counted up to the lock, and a locked account opens no session.
-/

namespace PlatformService.Verif.Lockout

open Lib Store Api

/-- A user without the columns that logins change. -/
def fixedColumns (user : UserRow) : UserRow :=
  { user with failedLogins := 0, lockedUntil := none, updatedAt := 0 }

/-- The users without the columns that logins change. -/
def fixedPart (db : Db) : List UserRow := db.users.rows.map fixedColumns

/-- The account a login finds under its username. -/
def accountOf (db : Db) (username : Bytes) : Option UserRow :=
  db.users.rows.find? fun user => nocase user.username = nocase username

/-- The fixed columns of an account can be told from the fixed part. -/
theorem accountOf_fixedColumns (db : Db) (username : Bytes) :
    (accountOf db username).map fixedColumns =
      (fixedPart db).find? fun user => nocase user.username = nocase username := by
  rw [fixedPart, List.find?_map]
  rfl

/-- No step of a login changes the fixed part. -/
theorem keeps_fixedPart (ctx : AppCtx) (env : Env) (input : Login.Input) (phase : Login.Phase) :
    Sql.KeepsCommitted fixedPart (Login.step ctx env input phase) := by
  apply keeps_login
  · intro db after same
    rw [fixedPart, same, fixedPart]
  · intro db selected failedLogins lockedUntil now
    exact Db.map_updateUsers db _ _ fixedColumns fun _ => rfl

/-- A login before its lookup. -/
def Begins (running : Running) : Prop :=
  ∃ env input faults, running = ⟨.login env input .lookup, faults⟩

/-- A login about to run its transaction. -/
def commits (running : Running) : Bool :=
  match running.activity with
  | .login _ _ (.write _) => true
  | _ => false

/-- A login past its transaction. -/
def past (running : Running) : Bool :=
  match running.activity with
  | .login _ _ (.readRoles _ _) => true
  | .login _ _ (.done _) => true
  | _ => false

/-- The row that a login about to run its transaction has read. -/
def reads : Activity → Option UserRow
  | .login _ _ (.write (.refuse found _)) => found
  | .login _ _ (.write (.accept user)) => some user
  | _ => none

/-- The lookup of a login changes nothing and leads to its decision. -/
theorem act_lookup (ctx : AppCtx) (db : Db) (env : Env) (input : Login.Input) (faults : List Bool) :
    Running.act ctx db ⟨.login env input .lookup, faults⟩ =
      (db, ⟨.login env input (.write (Login.decision ctx env input
        (if faults.headD false then none else accountOf db input.username))), faults.tail⟩) := by
  match faults with
  | [] => rfl
  | false :: _ => rfl
  | true :: _ => rfl

section Steps

variable {ctx : AppCtx} {env : Env} {input : Login.Input} {reliable : Prop}

/-- A login past its transaction changes nothing. -/
theorem act_past {running : Running} (done : past running = true) (db : Db) :
    (Running.act ctx db running).1 = db := by
  have kept (input : Login.Input) (phase : Login.Phase) (env : Env)
      (here : running.activity = .login env input phase)
      (idle : Sql.KeepsCommitted id (Login.step ctx env input phase)) :
      (Running.act ctx db running).1 = db := by
    have step : Sql.KeepsCommitted id (running.activity.step ctx) := by
      rw [here]
      exact idle.andThen fun _ => ⟨_, rfl⟩
    exact (step _ db running.faults id).1
  unfold past at done
  split at done
  · rename_i env input userId session here
    exact kept input _ env here
      (Sql.keeps_bind (Sql.keeps_query _) fun _ => Sql.keeps_pure _).committed
  · rename_i env input result here
    exact kept input _ env here (Sql.keeps_pure _).committed
  · contradiction

/-- A login is past its transaction exactly after that. -/
theorem past_act (db : Db) (running : Running) :
    past (Running.act ctx db running).2 = (past running || commits running) := by
  have next {env : Env} {input : Login.Input} {phase : Login.Phase} {faults : List Bool}
      (spec : Sql.Leaves False (Login.step ctx env input phase) db fun next _ =>
        past ⟨.login env input next, []⟩ = (past ⟨.login env input phase, []⟩ ||
          commits ⟨.login env input phase, []⟩)) :
      past (Running.act ctx db ⟨.login env input phase, faults⟩).2 =
        (past ⟨.login env input phase, []⟩ || commits ⟨.login env input phase, []⟩) :=
    (spec faults False.elim).1
  obtain ⟨activity, faults⟩ := running
  cases activity with
  | login env input phase =>
    cases phase with
    | lookup =>
      rw [act_lookup]
      rfl
    | write decision =>
      apply next
      cases decision with
      | refuse found passwordOk =>
        apply (writeFailure_spec ctx env found passwordOk db).andReturn
        intro result after left
        cases result with
        | ok _ => exact ⟨_, rfl, rfl⟩
        | error _ => exact ⟨_, rfl, rfl⟩
      | accept user =>
        apply (writeSuccess_spec ctx env user.userId db).andReturn
        intro result after left
        cases result with
        | ok session => exact ⟨_, rfl, rfl⟩
        | error _ => exact ⟨_, rfl, rfl⟩
    | readRoles userId session => rfl
    | done result => rfl
  | register env input phase => rfl
  | verify env tokenHash phase => rfl
  | resend env email phase => rfl
  | refresh env tokenHash phase => rfl
  | logout env claims tokenHash phase => rfl
  | passwordChange env claims input phase => rfl
  | sweep settings now choices targets => rfl
  | operator userId now done =>
    cases done with
    | false => rfl
    | true => rfl

/-- The write of a login does not depend on when the row it read was last changed. -/
theorem step_write_updatedAt (user : UserRow) (updatedAt : Int) :
    Login.step ctx env input (.write (Login.decision ctx env input (some { user with updatedAt }))) =
      Login.step ctx env input (.write (Login.decision ctx env input (some user))) := by
  by_cases passes : (Password.verify ctx.crypto input.password (storedHash user) &&
      user.status = .active && !Login.locked env.now user) = true
  · have later : Login.decision ctx env input (some { user with updatedAt }) =
        .accept { user with updatedAt } := if_pos passes
    have here : Login.decision ctx env input (some user) = .accept user := if_pos passes
    rw [later, here]
    rfl
  · have later : Login.decision ctx env input (some { user with updatedAt }) =
        .refuse (some { user with updatedAt })
          (Password.verify ctx.crypto input.password (storedHash user)) := if_neg passes
    have here : Login.decision ctx env input (some user) =
        .refuse (some user) (Password.verify ctx.crypto input.password (storedHash user)) :=
      if_neg passes
    rw [later, here]
    rfl

/-- Phases that run the same SQL are the same step of the service. -/
theorem act_congr {db : Db} {phase other : Login.Phase} {faults : List Bool}
    (same : Login.step ctx env input phase = Login.step ctx env input other) :
    Running.act ctx db ⟨.login env input phase, faults⟩ =
      Running.act ctx db ⟨.login env input other, faults⟩ := by
  simp only [Running.act, Activity.step, same]

/-- Rows with the same fixed columns, counter and lock differ only in the time of their change. -/
theorem eq_with_updatedAt {user row : UserRow} (fixed : fixedColumns row = fixedColumns user)
    (counter : row.failedLogins = user.failedLogins) (lock : row.lockedUntil = user.lockedUntil) :
    row = { user with updatedAt := row.updatedAt } := by
  cases user
  cases row
  simp only [fixedColumns, UserRow.mk.injEq] at fixed counter lock ⊢
  simp [fixed, counter, lock]

/-- The row that a decision about an account rests on. -/
theorem reads_decision (user : UserRow) :
    reads (.login env input (.write (Login.decision ctx env input (some user)))) = some user := by
  unfold Login.decision
  dsimp only
  split
  · rfl
  · rfl

end Steps

section Counting

variable {ctx : AppCtx} {env : Env} {input : Login.Input} {reliable : Prop} {config : Config}

/-- What a number of wrong passwords leaves of an account that started unlocked or duly locked. -/
structure Counted (config : Config) (attempts : Nat) (row : UserRow) : Prop where
  counter : min (attempts : Int) config.lockoutThreshold ≤ row.failedLogins
  lock : config.lockoutThreshold ≤ attempts → row.lockedUntil ≠ none
  duly : row.lockedUntil ≠ none → config.lockoutThreshold ≤ row.failedLogins

/-- The row after a counted failure. -/
structure Failed (config : Config) (row after : UserRow) : Prop where
  counter : after.failedLogins = row.failedLogins + 1
  lock : after.lockedUntil ≠ none ↔ config.lockoutThreshold ≤ row.failedLogins + 1

/-- A counted failure keeps the count. -/
theorem Counted.failed {attempts : Nat} {row after : UserRow} (counted : Counted config attempts row)
    (failed : Failed config row after) : Counted config attempts after where
  counter := by
    have before := counted.counter
    rw [failed.counter]
    omega
  lock reached := by
    have before := counted.duly (counted.lock reached)
    rw [failed.lock]
    omega
  duly locked := by
    rw [failed.counter]
    exact failed.lock.mp locked

/-- A wrong password is counted, or the account is locked already. -/
theorem Counted.attempt {attempts : Nat} {row after : UserRow} (counted : Counted config attempts row)
    (outcome : Failed config row after ∨ row.lockedUntil ≠ none ∧ after = row) :
    Counted config (attempts + 1) after := by
  have before := counted.counter
  cases outcome with
  | inl failed =>
    have count : (((attempts + 1 : Nat) : Int)) = attempts + 1 := by omega
    refine ⟨?_, fun reached => ?_, (counted.failed failed).duly⟩
    · rw [failed.counter]
      omega
    · rw [failed.lock]
      omega
  | inr locked =>
    have full := counted.duly locked.1
    rw [locked.2]
    refine ⟨?_, fun _ => locked.1, counted.duly⟩
    omega

/-- The row of a user after a refused login that read it. -/
theorem failedUsers_row {db : Db} {user row : UserRow} {passwordOk : Bool}
    (nonzero : env.now + ctx.config.lockoutDurationS ≠ 0)
    (stored : db.users.find? user.userId = some row)
    (counter : row.failedLogins = user.failedLogins) (lock : row.lockedUntil = user.lockedUntil) :
    ∃ after, (failedUsers ctx env (some user) passwordOk db).users.find? user.userId = some after ∧
      (Failed ctx.config row after ∨
        after = row ∧ (passwordOk = true ∨ row.lockedUntil ≠ none)) := by
  by_cases uncounted : (Login.locked env.now user || passwordOk) = true
  · have same : failedUsers ctx env (some user) passwordOk db = db := if_pos uncounted
    refine ⟨row, by rw [same]; exact stored, Or.inr ⟨rfl, ?_⟩⟩
    cases passwordOk with
    | true => exact Or.inl rfl
    | false =>
      refine Or.inr fun unlocked => ?_
      rw [lock] at unlocked
      simp [Login.locked, unlocked, nullAsZero] at uncounted
  · have changed : failedUsers ctx env (some user) passwordOk db =
        db.updateUsers (fun row => row.userId = user.userId) (UserStore.loginFailureChange
          (Login.afterFailure ctx.config env.now user).1
          (Login.afterFailure ctx.config env.now user).2 env.now) := if_neg uncounted
    have own : row.userId = user.userId := (Table.find?_eq_some_iff.mp stored).2
    rw [changed, Db.find?_updateUsers, stored, Option.map_some, if_pos (by simpa using own)]
    refine ⟨_, rfl, Or.inl ⟨?_, ?_⟩⟩
    · rw [counter]
      rfl
    · rw [counter]
      simp only [UserStore.loginFailureChange, Login.afterFailure]
      by_cases reached : ctx.config.lockoutThreshold ≤ user.failedLogins + 1
      · simp [reached, nonzero]
      · simp [reached]

/-- Setting the counter and the lock of one user leaves another alone. -/
theorem find?_other {db : Db} {ownId userId : Int} {row : UserRow} {change : Db.UserChange}
    (stored : db.users.find? userId = some row) (other : ownId ≠ userId) :
    (db.updateUsers (fun user => user.userId = ownId) change).users.find? userId = some row := by
  have id : row.userId = userId := (Table.find?_eq_some_iff.mp stored).2
  rw [Db.find?_updateUsers, stored, Option.map_some, if_neg (by simpa [id] using other.symm)]

/-- What the transaction of a login leaves of a user whose row is as the login read it. -/
structure RowOutcome (config : Config) (reliable : Prop) (decision : Login.Decision) (userId : Int)
    (row after : UserRow) : Prop where
  /-- A failure is counted, or nothing happens to the row. -/
  kept : Failed config row after ∨ after = row
  /-- A wrong password is counted, or the account is locked already. -/
  counts : reliable → ∀ user, decision = .refuse (some user) false → user.userId = userId →
    Failed config row after ∨ row.lockedUntil ≠ none ∧ after = row

/-- What a login that accepts no login of a user leaves of that user. -/
theorem write_row {db : Db} {decision : Login.Decision} {userId : Int} {row : UserRow}
    (nonzero : env.now + ctx.config.lockoutDurationS ≠ 0)
    (stored : db.users.find? userId = some row)
    (refuses : ∀ user, decision = .accept user → user.userId ≠ userId)
    (asRead : ∀ user passwordOk, decision = .refuse (some user) passwordOk → user.userId = userId →
      row.failedLogins = user.failedLogins ∧ row.lockedUntil = user.lockedUntil) :
    Sql.Leaves reliable (Login.step ctx env input (.write decision)) db fun _ after =>
      ∃ afterRow, after.users.find? userId = some afterRow ∧
        RowOutcome ctx.config reliable decision userId row afterRow := by
  cases decision with
  | accept user =>
    have other : user.userId ≠ userId := refuses user rfl
    have outcome {after : Db} (found : after.users.find? userId = some row) :
        ∃ afterRow, after.users.find? userId = some afterRow ∧
          RowOutcome ctx.config reliable (.accept user) userId row afterRow :=
      ⟨row, found, Or.inr rfl, fun _ _ impossible => by contradiction⟩
    apply (writeSuccess_spec ctx env user.userId db).andReturn
    intro result after left
    cases result with
    | ok session =>
      have users : after.users = (clearedUsers db user.userId env.now).users := left.users
      exact ⟨_, rfl, outcome (by rw [users]; exact find?_other stored other)⟩
    | error reason =>
      have same : after = db := left
      exact ⟨_, rfl, outcome (by rw [same]; exact stored)⟩
  | refuse found passwordOk =>
    apply (writeFailure_spec ctx env found passwordOk db).andReturn
    intro result after left
    cases result with
    | error reason =>
      have gone : ¬reliable ∧ after = db := left
      refine ⟨_, rfl, row, by rw [gone.2]; exact stored, Or.inr rfl, fun sure => absurd sure gone.1⟩
    | ok _ =>
      refine ⟨_, rfl, ?_⟩
      have users : after.users = (failedUsers ctx env found passwordOk db).users := left.1
      rw [users]
      cases found with
      | none => exact ⟨row, stored, Or.inr rfl, fun _ _ impossible => by simp at impossible⟩
      | some user =>
        by_cases own : user.userId = userId
        · have read := asRead user passwordOk rfl own
          rw [← own] at stored ⊢
          obtain ⟨afterRow, found, outcome⟩ := failedUsers_row nonzero stored read.1 read.2
          refine ⟨afterRow, found, outcome.imp_right fun same => same.1, fun _ _ wrong _ => ?_⟩
          cases outcome with
          | inl failed => exact Or.inl failed
          | inr same =>
            have refused : passwordOk = false := by injection wrong
            exact Or.inr ⟨same.2.resolve_left (by simp [refused]), same.1⟩
        · refine ⟨row, ?_, Or.inr rfl, fun _ other wrong same => ?_⟩
          · rw [failedUsers]
            split
            · exact stored
            · exact find?_other stored own
          · injection wrong with here _
            injection here with here
            exact absurd (here ▸ same) own

end Counting

section Runs

variable {ι : Type} {ctx : AppCtx}

/-- The condition of a step: a login that begins its transaction finds the counter and the lock that
it read. -/
def Undisturbed (service : Service ι) (i : ι) : Prop :=
  ∀ user ∈ reads (service.thread i).activity,
    (service.shared.users.find? user.userId).map (fun row => (row.failedLogins, row.lockedUntil)) =
      some (user.failedLogins, user.lockedUntil)

instance decidableUndisturbed (service : Service ι) (i : ι) : Decidable (Undisturbed service i) :=
  inferInstanceAs (Decidable (∀ user ∈ reads (service.thread i).activity, _))

/-- Where a login stands that began in some state: at its beginning, after a lookup in a database
with the same fixed part, or past its transaction. -/
inductive Stands (ctx : AppCtx) (db : Db) (start : Running) : Running → Prop where
  | beginning : Stands ctx db start start
  | looked (seen : Db) (same : fixedPart seen = fixedPart db) :
    Stands ctx db start (Running.act ctx seen start).2
  | finished (running : Running) (done : past running = true) : Stands ctx db start running

/-- Accounts found in databases with the same fixed part have the same fixed columns. -/
theorem accountOf_congr {seen db : Db} (same : fixedPart seen = fixedPart db) (username : Bytes) :
    (accountOf seen username).map fixedColumns = (accountOf db username).map fixedColumns := by
  rw [accountOf_fixedColumns, accountOf_fixedColumns, same]

/-- An undisturbed transaction does what it would have done right after the lookup. -/
theorem act_looked {service : Service ι} {i : ι} (undisturbed : Undisturbed service i) {seen : Db}
    (same : fixedPart seen = fixedPart service.shared) {start : Running} (begins : Begins start)
    (looked : service.thread i = (Running.act ctx seen start).2) :
    Running.act ctx service.shared (service.thread i) =
      Running.act ctx service.shared (Running.act ctx service.shared start).2 := by
  obtain ⟨env, input, faults, rfl⟩ := begins
  rw [act_lookup] at looked
  rw [looked, act_lookup]
  by_cases drawn : faults.headD false = true
  · rw [if_pos drawn, if_pos drawn]
  · rw [if_neg drawn] at looked
    rw [if_neg drawn, if_neg drawn]
    have fixed := accountOf_congr same input.username
    cases before : accountOf seen input.username with
    | none =>
      rw [before] at fixed
      cases now : accountOf service.shared input.username with
      | none => rfl
      | some row =>
        rw [now] at fixed
        contradiction
    | some user =>
      rw [before] at fixed looked
      cases now : accountOf service.shared input.username with
      | none =>
        rw [now] at fixed
        contradiction
      | some row =>
        rw [now] at fixed
        have columns : fixedColumns row = fixedColumns user := (Option.some.inj fixed).symm
        have id : (fixedColumns row).userId = (fixedColumns user).userId :=
          congrArg UserRow.userId columns
        have stored : service.shared.users.find? user.userId = some row :=
          Table.find?_eq_some_iff.mpr ⟨List.mem_of_find?_eq_some now, id⟩
        have found := undisturbed user (by rw [looked]; exact reads_decision user)
        rw [stored, Option.map_some, Option.some.injEq, Prod.mk.injEq] at found
        rw [eq_with_updatedAt columns found.1 found.2]
        exact act_congr (step_write_updatedAt user row.updatedAt).symm

/-- A login about to run its transaction has decided on what a lookup found. -/
theorem Stands.of_write {db : Db} {start running : Running} (begins : Begins start)
    (stands : Stands ctx db start running) {env : Env} {input : Login.Input}
    {decision : Login.Decision} (here : running.activity = .login env input (.write decision)) :
    ∃ faults seen, start = ⟨.login env input .lookup, faults⟩ ∧ fixedPart seen = fixedPart db ∧
      decision = Login.decision ctx env input
        (if faults.headD false then none else accountOf seen input.username) ∧
      running.faults = faults.tail := by
  obtain ⟨env', input', faults, rfl⟩ := begins
  cases stands with
  | beginning => simp at here
  | finished running done =>
    unfold past at done
    rw [here] at done
    contradiction
  | looked seen same =>
    rw [act_lookup] at here ⊢
    injection here with sameEnv sameInput phase
    injection phase with decided
    rw [← sameEnv, ← sameInput, ← decided]
    exact ⟨faults, seen, rfl, same, rfl, rfl⟩

/-- A login in any phase. -/
def IsLogin (running : Running) : Prop :=
  ∃ env input phase, running.activity = .login env input phase

/-- A login that stands somewhere is a login. -/
theorem Stands.isLogin {db : Db} {start running : Running} (begins : Begins start)
    (stands : Stands ctx db start running) : IsLogin running := by
  obtain ⟨env, input, faults, rfl⟩ := begins
  cases stands with
  | beginning => exact ⟨env, input, .lookup, rfl⟩
  | looked seen same =>
    rw [act_lookup]
    exact ⟨_, _, _, rfl⟩
  | finished running done =>
    unfold past at done
    split at done
    · rename_i env input userId session at_
      exact ⟨env, input, _, at_⟩
    · rename_i env input result at_
      exact ⟨env, input, _, at_⟩
    · contradiction

/-- A step of a login keeps the fixed part. -/
theorem fixedPart_act {db : Db} {running : Running} (login : IsLogin running) :
    fixedPart (Running.act ctx db running).1 = fixedPart db := by
  obtain ⟨env, input, phase, here⟩ := login
  have step : Sql.KeepsCommitted fixedPart (running.activity.step ctx) := by
    rw [here]
    exact (keeps_fixedPart ctx env input phase).andThen fun _ => ⟨_, rfl⟩
  exact (step _ db running.faults id).1

/-- A change of other columns leaves a login where it stands. -/
theorem Stands.mono {db after : Db} {start running : Running} (stands : Stands ctx db start running)
    (same : fixedPart after = fixedPart db) : Stands ctx after start running := by
  cases stands with
  | beginning => exact Stands.beginning
  | looked seen before => exact Stands.looked seen (before.trans same.symm)
  | finished running done => exact Stands.finished running done

/-- The step of a login from where it stands. -/
theorem Stands.act {db : Db} {start running : Running} (begins : Begins start)
    (stands : Stands ctx db start running) :
    Stands ctx (Running.act ctx db running).1 start (Running.act ctx db running).2 := by
  have same : fixedPart (Running.act ctx db running).1 = fixedPart db :=
    fixedPart_act (stands.isLogin begins)
  cases stands with
  | beginning => exact Stands.looked db same.symm
  | looked seen before =>
    refine Stands.finished _ ?_
    obtain ⟨env, input, faults, rfl⟩ := begins
    rw [act_lookup, past_act]
    rfl
  | finished running done =>
    refine Stands.finished _ ?_
    rw [past_act, done, Bool.true_or]

/-- A login past its transaction is not about to run it. -/
theorem not_commits_of_past (running : Running) (done : past running = true) :
    commits running = false := by
  unfold past at done
  split at done
  · rename_i here
    simp [commits, here]
  · rename_i here
    simp [commits, here]
  · contradiction

/-- What a step from where a login stands leaves: nothing, or what the login alone would leave. -/
theorem Stands.shared_act {service : Service ι} {i : ι} {start : Running} (begins : Begins start)
    (stands : Stands ctx service.shared start (service.thread i))
    (undisturbed : Undisturbed service i) :
    (Running.act ctx service.shared (service.thread i)).1 =
      if commits (service.thread i) then Pool.alone (Running.act ctx) 3 service.shared start
      else service.shared := by
  obtain ⟨env, input, faults, rfl⟩ := begins
  generalize running : service.thread i = current at stands ⊢
  cases stands with
  | beginning =>
    rw [act_lookup]
    rfl
  | finished current done => rw [not_commits_of_past current done, act_past done]; rfl
  | looked seen same =>
    have next := act_looked undisturbed same ⟨env, input, faults, rfl⟩ running
    rw [running] at next
    have reached : commits (Running.act ctx seen ⟨.login env input .lookup, faults⟩).2 = true := by
      rw [act_lookup]
      rfl
    have first : (Running.act ctx service.shared ⟨.login env input .lookup, faults⟩).1 =
        service.shared := by rw [act_lookup]
    have done : past (Running.act ctx service.shared
        (Running.act ctx service.shared ⟨.login env input .lookup, faults⟩).2).2 = true := by
      rw [past_act, act_lookup]
      rfl
    rw [reached, if_pos rfl, next]
    -- The third turn, past the transaction, leaves nothing more.
    simp only [Pool.alone]
    rw [first, act_past done]

/-- Where the logins of a service stand that began as another. -/
structure AllStand (ctx : AppCtx) (start service : Service ι) : Prop where
  fixed : fixedPart service.shared = fixedPart start.shared
  stands : ∀ i, Stands ctx service.shared (start.thread i) (service.thread i)

/-- At the beginning every login stands at its beginning. -/
theorem allStand_start (ctx : AppCtx) (start : Service ι) : AllStand ctx start start :=
  ⟨rfl, fun _ => Stands.beginning⟩

/-- An undisturbed login that accepts finds no active lock. -/
theorem AllStand.unlocked {start service : Service ι} (begins : ∀ i, Begins (start.thread i))
    (stand : AllStand ctx start service) {i : ι} (undisturbed : Undisturbed service i) {env : Env}
    {input : Login.Input} {user : UserRow}
    (accepts : (service.thread i).activity = .login env input (.write (.accept user))) :
    ∃ row, service.shared.users.find? user.userId = some row ∧ Login.locked env.now row = false := by
  have found := undisturbed user (by rw [accepts]; rfl)
  obtain ⟨row, stored, same⟩ := Option.map_eq_some_iff.mp found
  refine ⟨row, stored, ?_⟩
  have lock : row.lockedUntil = user.lockedUntil := congrArg Prod.snd same
  obtain ⟨faults, seen, _, _, decided, _⟩ := (stand.stands i).of_write (begins i) accepts
  have open_ : Login.locked env.now user = false := (decision_eq_accept decided.symm).2.2.2
  rw [Login.locked, lock]
  exact open_

/-- The user whose lock a login is about to clear. -/
def accepts : Activity → Option Int
  | .login _ _ (.write (.accept user)) => some user.userId
  | _ => none

/-- A login about to look up a user with a wrong password, without faults before it. -/
def WrongPassword (ctx : AppCtx) (db : Db) (userId : Int) (running : Running) : Prop :=
  ∃ env input user, running = ⟨.login env input .lookup, []⟩ ∧
    accountOf db input.username = some user ∧ user.userId = userId ∧
    Password.verify ctx.crypto input.password (storedHash user) = false

/-- The clock and the duration of a lock do not add up to what reads as NULL. -/
def LocksAtNonzero (ctx : AppCtx) (running : Running) : Prop :=
  ∀ env input phase, running.activity = .login env input phase →
    env.now + ctx.config.lockoutDurationS ≠ 0

/-- A wrong password is refused as such. -/
theorem decision_of_wrongPassword {db seen : Db} {userId : Int} {env : Env} {input : Login.Input}
    {faults : List Bool} (same : fixedPart seen = fixedPart db)
    (wrong : WrongPassword ctx db userId ⟨.login env input .lookup, faults⟩) :
    ∃ user, user.userId = userId ∧ Login.decision ctx env input
      (if faults.headD false then none else accountOf seen input.username) =
        .refuse (some user) false := by
  obtain ⟨env', input', user, start, found, own, wrong⟩ := wrong
  injection start with activity noFaults
  injection activity with _ sameInput _
  rw [noFaults, List.headD_nil, if_neg (by simp)]
  rw [← sameInput] at found wrong
  have columns := accountOf_congr same input.username
  rw [found] at columns
  obtain ⟨row, stored, fixed⟩ := Option.map_eq_some_iff.mp columns
  have hash : storedHash (fixedColumns row) = storedHash (fixedColumns user) := by rw [fixed]
  have id : (fixedColumns row).userId = (fixedColumns user).userId := by rw [fixed]
  have refused : Password.verify ctx.crypto input.password (storedHash row) = false := by
    have sameHash : storedHash row = storedHash user := hash
    rw [sameHash]
    exact wrong
  refine ⟨row, (id : row.userId = user.userId).trans own, ?_⟩
  simp [stored, Login.decision, refused]

/-- A login about to run its transaction, with its decision. -/
theorem of_commits {running : Running} (writes : commits running = true) :
    ∃ env input decision, running.activity = .login env input (.write decision) := by
  unfold commits at writes
  split at writes
  · rename_i env input decision here
    exact ⟨env, input, decision, here⟩
  · contradiction

/-- What an undisturbed transaction of a login that does not accept leaves of a user. -/
theorem AllStand.commit_row {start service : Service ι} (begins : ∀ i, Begins (start.thread i))
    (stand : AllStand ctx start service) {i : ι} (undisturbed : Undisturbed service i)
    (writes : commits (service.thread i) = true)
    (nonzero : LocksAtNonzero ctx (start.thread i)) {userId : Int}
    (refuses : accepts (service.thread i).activity ≠ some userId) {row : UserRow}
    (stored : service.shared.users.find? userId = some row) :
    ∃ after, (Running.act ctx service.shared (service.thread i)).1.users.find? userId = some after ∧
      (Failed ctx.config row after ∨ after = row) ∧
      (WrongPassword ctx start.shared userId (start.thread i) →
        Failed ctx.config row after ∨ row.lockedUntil ≠ none ∧ after = row) := by
  obtain ⟨env, input, decision, here⟩ := of_commits writes
  obtain ⟨faults, seen, began, same, decided, left⟩ := (stand.stands i).of_write (begins i) here
  have asRead (user : UserRow) (passwordOk : Bool) (refused : decision = .refuse (some user) passwordOk)
      (own : user.userId = userId) :
      row.failedLogins = user.failedLogins ∧ row.lockedUntil = user.lockedUntil := by
    have found := undisturbed user (by rw [here, refused]; rfl)
    rw [own, stored, Option.map_some, Option.some.injEq, Prod.mk.injEq] at found
    exact found
  have notOwn (user : UserRow) (accepted : decision = .accept user) : user.userId ≠ userId := by
    intro own
    rw [here, accepted] at refuses
    exact refuses (congrArg some own)
  have spec : Sql.Leaves ((service.thread i).faults = []) ((service.thread i).activity.step ctx)
      service.shared fun _ after => ∃ afterRow, after.users.find? userId = some afterRow ∧
        RowOutcome ctx.config ((service.thread i).faults = []) decision userId row afterRow := by
    rw [here]
    have time := nonzero env input .lookup (by rw [began])
    exact (write_row time stored notOwn asRead).andThen fun _ => ⟨_, rfl⟩
  obtain ⟨after, found, outcome⟩ := Running.act_spec spec
  refine ⟨after, found, outcome.kept, fun wrong => ?_⟩
  rw [began] at wrong
  obtain ⟨user, own, refused⟩ := decision_of_wrongPassword (same.trans stand.fixed) wrong
  have noFaults : faults = [] := by
    obtain ⟨_, _, _, start, _⟩ := wrong
    injection start
  exact outcome.counts (by rw [left, noFaults]; rfl) user (decided.trans refused) own

variable [DecidableEq ι]

/-- A step moves one login on and leaves the others where they stand. -/
theorem AllStand.step {start service : Service ι} (begins : ∀ i, Begins (start.thread i))
    (stand : AllStand ctx start service) (i : ι) :
    AllStand ctx start (service.step (Running.act ctx) i) := by
  have same : fixedPart (service.step (Running.act ctx) i).shared = fixedPart service.shared :=
    fixedPart_act ((stand.stands i).isLogin (begins i))
  refine ⟨same.trans stand.fixed, fun j => ?_⟩
  by_cases own : j = i
  · rw [own, Pool.thread_step_self]
    exact (stand.stands i).act (begins i)
  · rw [Pool.thread_step_of_ne service own]
    exact (stand.stands j).mono same

/-- An undisturbed run of logins leaves the database that some serial order of the logins leaves that
are past their transaction. -/
theorem serializable {service : Service ι} (begins : ∀ i, Begins (service.thread i))
    {schedule : List ι} (undisturbed : Pool.Along (Running.act ctx) Undisturbed service schedule) :
    ∃ order : List ι, order.Nodup ∧
      (∀ i, i ∈ order ↔ past ((service.run (Running.act ctx) schedule).thread i) = true) ∧
      (service.run (Running.act ctx) schedule).shared =
        (service.run (Running.act ctx) (Pool.serial 3 order)).shared := by
  have effects : Pool.Along (Running.act ctx) (fun current i =>
      (current.step (Running.act ctx) i).shared =
        if commits (current.thread i) then
          Pool.alone (Running.act ctx) 3 current.shared (service.thread i)
        else current.shared) service schedule :=
    Pool.Along.of_invariant (AllStand ctx service) (fun _ i stand _ => stand.step begins i)
      (fun _ i stand allowed => (stand.stands i).shared_act (begins i) allowed)
      (allStand_start ctx service) undisturbed
  refine ⟨Pool.commitOrder (Running.act ctx) commits service schedule,
    Pool.nodup_commitOrder not_commits_of_past past_act service schedule, fun i => ?_,
    Pool.shared_run_eq_serial not_commits_of_past past_act effects⟩
  rw [Pool.mem_commitOrder not_commits_of_past past_act]
  have before : past (service.thread i) = false := by
    obtain ⟨env, input, faults, here⟩ := begins i
    rw [here]
    rfl
  simp [before]

/-- Undisturbed steps move the logins on. -/
theorem allStand_run {service : Service ι} (begins : ∀ i, Begins (service.thread i))
    (schedule : List ι) : AllStand ctx service (service.run (Running.act ctx) schedule) :=
  Pool.run_keeps (AllStand ctx service) (fun _ i stand => stand.step begins i)
    (allStand_start ctx service) schedule

/-- The condition of a step that opens no session of a user. -/
def Refuses (userId : Int) (service : Service ι) (i : ι) : Prop :=
  accepts (service.thread i).activity ≠ some userId

instance decidableRefuses (userId : Int) (service : Service ι) (i : ι) :
    Decidable (Refuses userId service i) :=
  inferInstanceAs (Decidable (accepts (service.thread i).activity ≠ some userId))

/-- One more step of a run brings past its transaction only the login that runs it there. -/
theorem past_concat (ctx : AppCtx) (service : Service ι) (schedule : List ι) (i j : ι) :
    past ((service.run (Running.act ctx) (schedule ++ [j])).thread i) =
      (past ((service.run (Running.act ctx) schedule).thread i) ||
        decide (i = j) && commits ((service.run (Running.act ctx) schedule).thread j)) := by
  have step : service.run (Running.act ctx) (schedule ++ [j]) =
      (service.run (Running.act ctx) schedule).step (Running.act ctx) j := Pool.run_append ..
  rw [step]
  by_cases own : i = j
  · rw [own, Pool.thread_step_self, past_act, decide_eq_true rfl, Bool.true_and]
  · rw [Pool.thread_step_of_ne _ own, decide_eq_false own, Bool.false_and, Bool.or_false]

/-- What one more step of a run leaves of a user, where no login of the user succeeds. -/
theorem row_concat {service : Service ι} (begins : ∀ i, Begins (service.thread i))
    (nonzero : ∀ i, LocksAtNonzero ctx (service.thread i)) {userId : Int} {schedule : List ι} {j : ι}
    (undisturbed : Pool.Along (Running.act ctx) Undisturbed service (schedule ++ [j]))
    (refused : Pool.Along (Running.act ctx) (Refuses userId) service (schedule ++ [j])) {row : UserRow}
    (stored : (service.run (Running.act ctx) schedule).shared.users.find? userId = some row) :
    ∃ after,
      (service.run (Running.act ctx) (schedule ++ [j])).shared.users.find? userId = some after ∧
      (commits ((service.run (Running.act ctx) schedule).thread j) = false → after = row) ∧
      (Failed ctx.config row after ∨ after = row) ∧
      (commits ((service.run (Running.act ctx) schedule).thread j) = true →
        WrongPassword ctx service.shared userId (service.thread j) →
          Failed ctx.config row after ∨ row.lockedUntil ≠ none ∧ after = row) := by
  have stand : AllStand ctx service (service.run (Running.act ctx) schedule) :=
    allStand_run begins schedule
  have step : service.run (Running.act ctx) (schedule ++ [j]) =
      (service.run (Running.act ctx) schedule).step (Running.act ctx) j := Pool.run_append ..
  have shared := (stand.stands j).shared_act (begins j) undisturbed.at_split
  rw [step]
  cases writes : commits ((service.run (Running.act ctx) schedule).thread j) with
  | false =>
    rw [writes, if_neg (by simp)] at shared
    exact ⟨row, (congrArg (fun db => db.users.find? userId) shared).trans stored, fun _ => rfl,
      Or.inr rfl, fun committed => by contradiction⟩
  | true =>
    obtain ⟨after, left, kept, counts⟩ := stand.commit_row begins undisturbed.at_split writes
      (nonzero j) refused.at_split stored
    exact ⟨after, left, fun idle => by contradiction, kept, fun _ => counts⟩

/-- Where no login of a user succeeds, wrong passwords are counted up to the lock. -/
theorem counted_run {service : Service ι} (begins : ∀ i, Begins (service.thread i))
    (nonzero : ∀ i, LocksAtNonzero ctx (service.thread i)) {userId : Int} {row : UserRow}
    (stored : service.shared.users.find? userId = some row) (counted : Counted ctx.config 0 row)
    {schedule : List ι} (undisturbed : Pool.Along (Running.act ctx) Undisturbed service schedule)
    (refused : Pool.Along (Running.act ctx) (Refuses userId) service schedule) {attempts : List ι}
    (distinct : attempts.Nodup)
    (wrong : ∀ i ∈ attempts, WrongPassword ctx service.shared userId (service.thread i))
    (made : ∀ i ∈ attempts, past ((service.run (Running.act ctx) schedule).thread i) = true) :
    ∃ after, (service.run (Running.act ctx) schedule).shared.users.find? userId = some after ∧
      Counted ctx.config attempts.length after := by
  -- Backwards along the run: only the last step can have made one attempt more.
  induction schedule using List.reverseRecOn generalizing attempts with
  | nil =>
    have none : attempts = [] := by
      apply List.eq_nil_iff_forall_not_mem.mpr
      intro i member
      obtain ⟨env, input, faults, here⟩ := begins i
      have done : past (service.thread i) = true := made i member
      rw [here] at done
      contradiction
    exact ⟨row, stored, none ▸ counted⟩
  | append_singleton schedule j ih =>
    simp only [past_concat] at made
    cases writes : commits ((service.run (Running.act ctx) schedule).thread j) with
    | false =>
      simp only [writes, Bool.and_false, Bool.or_false] at made
      obtain ⟨before, found, reached⟩ := ih undisturbed.beginning refused.beginning distinct wrong made
      obtain ⟨after, left, idle, -⟩ := row_concat begins nonzero undisturbed refused found
      exact ⟨after, left, idle writes ▸ reached⟩
    | true =>
      have others (i : ι) (member : i ∈ attempts.erase j) :
          past ((service.run (Running.act ctx) schedule).thread i) = true := by
        have other : i ≠ j := fun own => distinct.not_mem_erase (own ▸ member)
        have done := made i (List.mem_of_mem_erase member)
        rwa [decide_eq_false other, Bool.false_and, Bool.or_false] at done
      obtain ⟨before, found, reached⟩ := ih undisturbed.beginning refused.beginning
        (distinct.erase j) (fun i member => wrong i (List.mem_of_mem_erase member)) others
      obtain ⟨after, left, -, kept, counts⟩ := row_concat begins nonzero undisturbed refused found
      refine ⟨after, left, ?_⟩
      by_cases own : j ∈ attempts
      · rw [← List.length_erase_add_one own]
        exact reached.attempt (counts writes (wrong j own))
      · rw [List.erase_of_not_mem own] at reached
        cases kept with
        | inl failed => exact reached.failed failed
        | inr same => exact same ▸ reached

/-- Where no login of a user succeeds, the counter grows by at most one with each login that has run its
transaction. -/
theorem counter_run {service : Service ι} (begins : ∀ i, Begins (service.thread i))
    (nonzero : ∀ i, LocksAtNonzero ctx (service.thread i)) {userId : Int} {row : UserRow}
    (stored : service.shared.users.find? userId = some row) {schedule : List ι}
    (undisturbed : Pool.Along (Running.act ctx) Undisturbed service schedule)
    (refused : Pool.Along (Running.act ctx) (Refuses userId) service schedule) :
    ∃ after, ∃ logins : List ι,
      (service.run (Running.act ctx) schedule).shared.users.find? userId = some after ∧
      logins.Nodup ∧ logins ⊆ schedule ∧
      (∀ i ∈ logins, past ((service.run (Running.act ctx) schedule).thread i) = true) ∧
      after.failedLogins ≤ row.failedLogins + logins.length := by
  induction schedule using List.reverseRecOn with
  | nil => exact ⟨row, [], stored, List.nodup_nil, by simp, by simp, by simp⟩
  | append_singleton schedule j ih =>
    obtain ⟨before, logins, found, distinct, within, done, few⟩ :=
      ih undisturbed.beginning refused.beginning
    obtain ⟨after, left, idle, kept, -⟩ := row_concat begins nonzero undisturbed refused found
    simp only [past_concat]
    cases writes : commits ((service.run (Running.act ctx) schedule).thread j) with
    | false =>
      rw [idle writes] at left
      exact ⟨before, logins, left, distinct, List.subset_append_of_subset_left _ within,
        fun i member => by rw [done i member, Bool.true_or], few⟩
    | true =>
      have new : j ∉ logins := by
        intro member
        have spent := not_commits_of_past _ (done j member)
        rw [writes] at spent
        contradiction
      refine ⟨after, j :: logins, left, List.nodup_cons.mpr ⟨new, distinct⟩, ?_, ?_, ?_⟩
      · exact List.cons_subset.mpr
          ⟨by simp, List.subset_append_of_subset_left _ within⟩
      · intro i member
        cases List.mem_cons.mp member with
        | inl own => rw [decide_eq_true own, Bool.true_and, Bool.or_true]
        | inr earlier => rw [done i earlier, Bool.true_or]
      · rw [List.length_cons, Nat.cast_add, Nat.cast_one]
        cases kept with
        | inl failed =>
          rw [failed.counter]
          omega
        | inr same =>
          rw [same]
          omega

/-- As long as every login finds, when its transaction begins, the counter and the lock it read: a
run leaves what some serial order of the logins leaves; wrong passwords of a user without a successful
login are counted up to the threshold, and lock the account there, by a counter that stays an `int` where
so few logins run; and no login succeeds while the stored lock is active. -/
theorem lockout_of_undisturbed (ctx : AppCtx) (service : Service ι) (schedule : List ι)
    (begins : ∀ i, Begins (service.thread i))
    (undisturbed : Pool.Along (Running.act ctx) Undisturbed service schedule) :
    (∃ order : List ι, order.Nodup ∧
      (∀ i, i ∈ order ↔ past ((service.run (Running.act ctx) schedule).thread i) = true) ∧
      (service.run (Running.act ctx) schedule).shared =
        (service.run (Running.act ctx) (Pool.serial 3 order)).shared) ∧
    (∀ userId row (attempts : List ι), 1 ≤ ctx.config.lockoutThreshold →
      (∀ i, LocksAtNonzero ctx (service.thread i)) →
      service.shared.users.find? userId = some row → 0 ≤ row.failedLogins →
      row.failedLogins + schedule.dedup.length < 2 ^ 31 →
      (row.lockedUntil ≠ none → ctx.config.lockoutThreshold ≤ row.failedLogins) →
      Pool.Along (Running.act ctx) (Refuses userId) service schedule →
      attempts.Nodup →
      (∀ i ∈ attempts, WrongPassword ctx service.shared userId (service.thread i)) →
      (∀ i ∈ attempts, past ((service.run (Running.act ctx) schedule).thread i) = true) →
      ∃ after, (service.run (Running.act ctx) schedule).shared.users.find? userId = some after ∧
        min (attempts.length : Int) ctx.config.lockoutThreshold ≤ after.failedLogins ∧
        (ctx.config.lockoutThreshold ≤ attempts.length → after.lockedUntil ≠ none) ∧
        after.failedLogins < 2 ^ 31) ∧
    ∀ before i rest env input user, schedule = before ++ i :: rest →
      ((service.run (Running.act ctx) before).thread i).activity =
        .login env input (.write (.accept user)) →
      ∃ row, (service.run (Running.act ctx) before).shared.users.find? user.userId = some row ∧
        Login.locked env.now row = false := by
  refine ⟨serializable begins undisturbed, ?_, ?_⟩
  · intro userId row attempts positive nonzero stored nonneg small duly refused distinct wrong made
    have none : Counted ctx.config 0 row := {
      counter := by
        have zero : ((0 : Nat) : Int) = 0 := rfl
        omega
      lock := fun reached => by
        have zero : ((0 : Nat) : Int) = 0 := rfl
        omega
      duly := duly }
    obtain ⟨after, found, counted⟩ :=
      counted_run begins nonzero stored none undisturbed refused distinct wrong made
    obtain ⟨same, logins, again, once, within, -, few⟩ :=
      counter_run begins nonzero stored undisturbed refused
    have equal : same = after := Option.some.inj (again.symm.trans found)
    have started : logins.length ≤ schedule.dedup.length :=
      (List.subperm_of_subset once fun i member => List.mem_dedup.mpr (within member)).length_le
    rw [equal] at few
    exact ⟨after, found, counted.counter, counted.lock, by omega⟩
  · intro before i rest env input user split accepts
    rw [split] at undisturbed
    exact (allStand_run begins before).unlocked begins undisturbed.at_split accepts

end Runs

/-- Two logins of the account with a wrong password. -/
def wrongTwice : Service Bool where
  shared := Deployment.database .active
  thread _ := ⟨.login (Deployment.env 2000 1 1) ⟨ascii "alice", ascii "wrong horse"⟩ .lookup, []⟩

/-- The counter of the account. -/
def failures (db : Db) : Option Int := (db.users.find? 1).map UserRow.failedLogins

/-- One wrong password after the other: both are counted. -/
theorem lockout_counts_serial_attempts :
    ∃ after, (wrongTwice.run (Running.act Deployment.ctx) [false, false, true, true]).shared.users.find?
      1 = some after ∧ 2 ≤ after.failedLogins := by
  have begins (i : Bool) : Begins (wrongTwice.thread i) := ⟨_, _, _, rfl⟩
  have nonzero (i : Bool) : LocksAtNonzero Deployment.ctx (wrongTwice.thread i) := by
    intro env input phase here
    injection here with sameEnv
    rw [← sameEnv]
    decide
  have wrong (i : Bool) : WrongPassword Deployment.ctx wrongTwice.shared 1 (wrongTwice.thread i) :=
    ⟨_, _, Deployment.alice .active, rfl, by decide +kernel, rfl, by decide +kernel⟩
  have refused : Pool.Along (Running.act Deployment.ctx) (Refuses 1) wrongTwice
      [false, false, true, true] := by decide +kernel
  obtain ⟨after, found, counted, _⟩ := (lockout_of_undisturbed Deployment.ctx wrongTwice
    [false, false, true, true] begins (by decide +kernel)).2.1 1 (Deployment.alice .active)
    [false, true] (by decide) nonzero rfl (by decide) (by decide) (fun locked => absurd rfl locked) refused
    (by decide) (fun i _ => wrong i) (by decide +kernel)
  exact ⟨after, found, counted⟩

/-- Two logins with a wrong password that both read the row before either writes leave one failure,
where each serial order leaves two. -/
theorem overlapping_failures_lose_an_update :
    failures (wrongTwice.run (Running.act Deployment.ctx) [false, true, false, true]).shared = some 1 ∧
      ∀ first, failures (wrongTwice.run (Running.act Deployment.ctx)
        (Pool.serial 3 [first, !first])).shared = some 2 := by
  simp only [wrongTwice, Deployment.ctx, Deployment.crypto_eq, Deployment.database_eq]
  decide +kernel

end PlatformService.Verif.Lockout
