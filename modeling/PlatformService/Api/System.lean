import PlatformService.Api.Account
import PlatformService.Api.Sessions
import PlatformService.Lib.Interleave
import PlatformService.Platform.Maintenance

/-!
# The running service

Handlers, the maintenance thread and an operator at the SQL prompt run side by
side on one database. A handler that has admitted its request is an `Activity`
with the phase it is in; its turn runs that phase on a connection of its own.
SQLite serialises writers, so a phase, which is a whole transaction or a single
statement, is one atomic step. A connection whose `COMMIT` failed keeps its
transaction open and is of no further use, so what counts is what was committed.
-/

namespace PlatformService.Api

open Lib Store Maintenance

/-- Something that runs on the database. -/
inductive Activity where
  | register (env : Env) (input : Register.Input) (phase : Register.Phase)
  | verify (env : Env) (tokenHash : Bytes) (phase : Verify.Phase)
  | resend (env : Env) (email : Bytes) (phase : Resend.Phase)
  | login (env : Env) (input : Login.Input) (phase : Login.Phase)
  | refresh (env : Env) (tokenHash : Bytes) (phase : Refresh.Phase)
  | logout (env : Env) (claims : Claims) (tokenHash : Bytes) (phase : Logout.Phase)
  | passwordChange (env : Env) (claims : Claims) (input : PasswordChange.Input)
      (phase : PasswordChange.Phase)
  | sweep (settings : Settings) (now : Int) (choices : List (Scan × Bool)) (targets : List Target)
  | operator (userId now : Int) (done : Bool)

/-- The operator's `UPDATE users SET status = 'DISABLED' WHERE user_id = …`. -/
def disableUser (userId now : Int) : Sql Bool := UserStore.updateStatus userId .disabled now

/-- The next step of an activity. -/
def Activity.step (ctx : AppCtx) : Activity → Sql Activity
  | register env input phase => return register env input (← Register.step ctx env input phase)
  | verify env tokenHash phase => return verify env tokenHash (← Verify.step env tokenHash phase)
  | resend env email phase => return resend env email (← Resend.step ctx env email phase)
  | login env input phase => return login env input (← Login.step ctx env input phase)
  | refresh env tokenHash phase =>
    return refresh env tokenHash (← Refresh.step ctx env tokenHash phase)
  | logout env claims tokenHash phase =>
    return logout env claims tokenHash (← Logout.step env claims tokenHash phase)
  | passwordChange env claims input phase =>
    return passwordChange env claims input (← PasswordChange.step ctx env claims input phase)
  | sweep settings now choices targets =>
    let choice := choices.headD (Scan.inOrder, false)
    return sweep settings now choices.tail (← runSweep settings choice.1 choice.2 now targets)
  | operator userId now done => do
    if done then return operator userId now done
    let _ ← disableUser userId now
    return operator userId now true

/-- An activity with the faults that lie before it. -/
structure Running where
  activity : Activity
  faults : List Bool := []

/-- One step of an activity on a connection of its own: what it commits, and where it stands. -/
def Running.act (ctx : AppCtx) (db : Db) (running : Running) : Db × Running :=
  let out := running.activity.step ctx (Conn.of db, running.faults)
  (out.2.1.committed, ⟨out.1, out.2.2⟩)

/-- Activities running side by side on one database. -/
abbrev Service (ι : Type) := Pool Db Running ι

/-- What an activity's step leaves, in terms of a specification of its SQL. -/
theorem Running.act_spec {ctx : AppCtx} {db : Db} {running : Running} {post : Activity → Db → Prop}
    (spec : Sql.Leaves (running.faults = []) (running.activity.step ctx) db post) :
    post (running.act ctx db).2.activity (running.act ctx db).1 :=
  (spec running.faults id).1

end PlatformService.Api
