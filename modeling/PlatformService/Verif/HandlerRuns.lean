import PlatformService.Api.Routes

/-!
# Handlers run to their answer

A handler is a short walk through its phases. `AnsweredWithin` bounds the steps that
are left of the walk, so that `Activity.turns` steps take every handler to its
answer, whatever its statements return.
-/

namespace PlatformService.Verif

open Lib Store Api

/-- What holds of the value of a command, from whatever state it is run. -/
def Yields {α : Type} (command : Sql α) (holds : α → Prop) : Prop :=
  ∀ state, holds (command state).1

section Rules

variable {α β : Type} {holds : β → Prop}

/-- A returned value. -/
theorem yields_pure {value : β} (h : holds value) : Yields (pure value) holds := fun _ => h

/-- A sequence yields what its second command yields, whatever the first returns. -/
theorem yields_bind {first : Sql α} {next : α → Sql β} (h : ∀ value, Yields (next value) holds) :
    Yields (first >>= next) holds := fun state => h (first state).1 (first state).2

/-- Both branches of a conditional. -/
theorem yields_ite {condition : Prop} [Decidable condition] {yes no : Sql β}
    (taken : Yields yes holds) (otherwise : Yields no holds) :
    Yields (if condition then yes else no) holds := by
  by_cases decided : condition
  · rw [if_pos decided]
    exact taken
  · rw [if_neg decided]
    exact otherwise

/-- A value that is wrapped. -/
theorem Yields.map {command : Sql α} {inner : α → Prop} (h : Yields command inner) (wrap : α → β)
    (outer : ∀ value, inner value → holds (wrap value)) :
    Yields (do return wrap (← command)) holds := fun state => outer _ (h state)

/-- A returned phase, at most so many steps from the end. -/
theorem yields_closer {turns : β → Nat} {bound : Nat} {phase : β}
    (closer : (turns phase).ble bound = true) :
    Yields (pure phase) fun next => turns next ≤ bound := yields_pure (Nat.le_of_ble_eq_true closer)

end Rules

section Phases

variable {ctx : AppCtx} {env : Env}

/-- The most steps from a phase of a registration to its answer. -/
def registerTurns : Register.Phase → Nat
  | .write => 4
  | .findOwner => 3
  | .auditDuplicate _ => 2
  | .mailOwner _ => 1
  | .sendEmail _ => 1
  | .done _ => 0

/-- A step of a registration comes closer to its answer. -/
theorem register_yields (input : Register.Input) (phase : Register.Phase) :
    Yields (Register.step ctx env input phase)
      fun next => registerTurns next ≤ registerTurns phase - 1 := by
  cases phase with
  | write =>
    apply yields_bind
    intro result
    match result with
    | .ok rawToken => exact yields_closer rfl
    | .error .duplicateUsername => exact yields_closer rfl
    | .error .duplicateEmail => exact yields_closer rfl
    | .error .failed => exact yields_closer rfl
  | sendEmail rawToken => exact yields_bind fun _ => yields_closer rfl
  | findOwner => exact yields_bind fun _ => yields_closer rfl
  | auditDuplicate existing =>
    apply yields_bind
    intro audited
    cases existing with
    | none => exact yields_closer rfl
    | some owner => exact yields_closer rfl
  | mailOwner existing => exact yields_bind fun _ => yields_closer rfl
  | done result => exact yields_closer rfl

/-- The most steps from a phase of a verification to its answer. -/
def verifyTurns : Verify.Phase → Nat
  | .lookup => 2
  | .auditFailure _ => 1
  | .write _ => 1
  | .done _ => 0

/-- A step of a verification comes closer to its answer. -/
theorem verify_yields (tokenHash : Bytes) (phase : Verify.Phase) :
    Yields (Verify.step env tokenHash phase)
      fun next => verifyTurns next ≤ verifyTurns phase - 1 := by
  cases phase with
  | lookup =>
    apply yields_bind
    intro found
    cases found with
    | none => exact yields_closer rfl
    | some token =>
      dsimp only
      by_cases valid : Verify.usable env.now token
      · rw [if_pos valid]
        exact yields_closer rfl
      · rw [if_neg valid]
        exact yields_closer rfl
  | auditFailure found => exact yields_bind fun _ => yields_closer rfl
  | write token =>
    apply yields_bind
    intro result
    cases result with
    | ok _ => exact yields_closer rfl
    | error reason => exact yields_closer rfl
  | done result => exact yields_closer rfl

/-- The most steps from a phase of a resend to its answer. -/
def resendTurns : Resend.Phase → Nat
  | .lookup => 5
  | .countMinute _ => 4
  | .countDay _ _ => 3
  | .write _ => 2
  | .auditFailure _ _ => 1
  | .sendEmail _ _ => 1
  | .done _ => 0

/-- A step of a resend comes closer to its answer. -/
theorem resend_yields (email : Bytes) (phase : Resend.Phase) :
    Yields (Resend.step ctx env email phase)
      fun next => resendTurns next ≤ resendTurns phase - 1 := by
  cases phase with
  | lookup =>
    apply yields_bind
    intro found
    cases found with
    | none => exact yields_closer rfl
    | some user => exact yields_ite (yields_closer rfl) (yields_closer rfl)
  | auditFailure userId reason => exact yields_bind fun _ => yields_closer rfl
  | countMinute user =>
    apply yields_bind
    intro counted
    cases counted with
    | none => exact yields_closer rfl
    | some recent => exact yields_closer rfl
  | countDay user recentMinute =>
    apply yields_bind
    intro counted
    cases counted with
    | none => exact yields_closer rfl
    | some recent => exact yields_ite (yields_closer rfl) (yields_closer rfl)
  | write user =>
    apply yields_bind
    intro result
    cases result with
    | ok _ => exact yields_closer rfl
    | error reason => exact yields_closer rfl
  | sendEmail user rawToken => exact yields_bind fun _ => yields_closer rfl
  | done result => exact yields_closer rfl

/-- The most steps from a phase of a login to its answer. -/
def loginTurns : Login.Phase → Nat
  | .lookup => 3
  | .write _ => 2
  | .readRoles _ _ => 1
  | .done _ => 0

/-- A step of a login comes closer to its answer. -/
theorem login_yields (input : Login.Input) (phase : Login.Phase) :
    Yields (Login.step ctx env input phase)
      fun next => loginTurns next ≤ loginTurns phase - 1 := by
  cases phase with
  | lookup => exact yields_bind fun _ => yields_closer rfl
  | write decision =>
    cases decision with
    | refuse found passwordOk =>
      apply yields_bind
      intro result
      cases result with
      | ok _ => exact yields_closer rfl
      | error reason => exact yields_closer rfl
    | accept user =>
      apply yields_bind
      intro result
      cases result with
      | ok session => exact yields_closer rfl
      | error reason => exact yields_closer rfl
  | readRoles userId session => exact yields_bind fun _ => yields_closer rfl
  | done result => exact yields_closer rfl

/-- The most steps from a phase of a refresh to its answer. -/
def refreshTurns : Refresh.Phase → Nat
  | .write => 2
  | .readRoles _ => 1
  | .done _ => 0

/-- A step of a refresh comes closer to its answer. -/
theorem refresh_yields (tokenHash : Bytes) (phase : Refresh.Phase) :
    Yields (Refresh.step ctx env tokenHash phase)
      fun next => refreshTurns next ≤ refreshTurns phase - 1 := by
  cases phase with
  | write =>
    apply yields_bind
    intro result
    match result with
    | .ok (.ok, refreshed) => exact yields_closer rfl
    | .ok (.invalid, refreshed) => exact yields_closer rfl
    | .ok (.reuseDetected, refreshed) => exact yields_closer rfl
    | .ok (.error, refreshed) => exact yields_closer rfl
    | .error reason => exact yields_closer rfl
  | readRoles refreshed => exact yields_bind fun _ => yields_closer rfl
  | done result => exact yields_closer rfl

/-- The most steps from a phase of a logout to its answer. -/
def logoutTurns : Logout.Phase → Nat
  | .findToken => 3
  | .findFamily _ => 2
  | .write _ _ => 1
  | .done _ => 0

/-- A step of a logout comes closer to its answer. -/
theorem logout_yields (claims : Claims) (tokenHash : Bytes) (phase : Logout.Phase) :
    Yields (Logout.step env claims tokenHash phase)
      fun next => logoutTurns next ≤ logoutTurns phase - 1 := by
  cases phase with
  | findToken =>
    apply yields_bind
    intro found
    cases found with
    | none => exact yields_closer rfl
    | some token => exact yields_closer rfl
  | findFamily token =>
    apply yields_bind
    intro found
    cases found with
    | none => exact yields_closer rfl
    | some family => exact yields_ite (yields_closer rfl) (yields_closer rfl)
  | write token family =>
    apply yields_bind
    intro result
    cases result with
    | ok _ => exact yields_closer rfl
    | error reason => exact yields_closer rfl
  | done result => exact yields_closer rfl

/-- The most steps from a phase of a password change to its answer. -/
def passwordChangeTurns : PasswordChange.Phase → Nat
  | .lookup => 2
  | .auditFailure => 1
  | .write _ _ _ => 1
  | .done _ => 0

/-- A step of a password change comes closer to its answer. -/
theorem passwordChange_yields (claims : Claims) (input : PasswordChange.Input)
    (phase : PasswordChange.Phase) :
    Yields (PasswordChange.step ctx env claims input phase)
      fun next => passwordChangeTurns next ≤ passwordChangeTurns phase - 1 := by
  cases phase with
  | lookup =>
    apply yields_bind
    intro found
    apply yields_pure
    generalize PasswordChange.decision ctx env claims input found = decision
    cases decision with
    | answer result => exact Nat.le_of_ble_eq_true rfl
    | auditFailure => exact Nat.le_of_ble_eq_true rfl
    | write user newHash survivingFamilyId => exact Nat.le_of_ble_eq_true rfl
  | auditFailure => exact yields_bind fun _ => yields_closer rfl
  | write user newHash survivingFamilyId =>
    apply yields_bind
    intro result
    cases result with
    | ok _ => exact yields_closer rfl
    | error reason => exact yields_closer rfl
  | done result => exact yields_closer rfl

end Phases

/-- At most so many steps take an activity to its answer; a sweep and an operator have none. -/
def AnsweredWithin (turns : Nat) : Activity → Prop
  | .register _ _ phase => registerTurns phase ≤ turns
  | .verify _ _ phase => verifyTurns phase ≤ turns
  | .resend _ _ phase => resendTurns phase ≤ turns
  | .login _ _ phase => loginTurns phase ≤ turns
  | .refresh _ _ phase => refreshTurns phase ≤ turns
  | .logout _ _ _ phase => logoutTurns phase ≤ turns
  | .passwordChange _ _ _ phase => passwordChangeTurns phase ≤ turns
  | .sweep _ _ _ _ => False
  | .operator _ _ _ => False

/-- A step takes an activity closer to its answer. -/
theorem answeredWithin_step {ctx : AppCtx} {turns : Nat} {activity : Activity}
    (within : AnsweredWithin (turns + 1) activity) :
    Yields (activity.step ctx) (AnsweredWithin turns) := by
  have closer {next before : Nat} (bound : before ≤ turns + 1) (step : next ≤ before - 1) :
      next ≤ turns := by omega
  cases activity with
  | register env input phase => exact (register_yields input phase).map _ fun _ => closer within
  | verify env tokenHash phase => exact (verify_yields tokenHash phase).map _ fun _ => closer within
  | resend env email phase => exact (resend_yields email phase).map _ fun _ => closer within
  | login env input phase => exact (login_yields input phase).map _ fun _ => closer within
  | refresh env tokenHash phase =>
    exact (refresh_yields tokenHash phase).map _ fun _ => closer within
  | logout env claims tokenHash phase =>
    exact (logout_yields claims tokenHash phase).map _ fun _ => closer within
  | passwordChange env claims input phase =>
    exact (passwordChange_yields claims input phase).map _ fun _ => closer within
  | sweep settings now choices targets => exact within.elim
  | operator userId now done => exact within.elim

/-- After enough steps an activity is at its answer. -/
theorem answeredWithin_run {ctx : AppCtx} {turns : Nat} {activity : Activity}
    (within : AnsweredWithin turns activity) :
    Yields (activity.run ctx turns) (AnsweredWithin 0) := by
  induction turns generalizing activity with
  | zero => exact yields_pure within
  | succ turns ih =>
    intro state
    exact ih (answeredWithin_step within state) _

/-- An activity that has no step left has its answer. -/
theorem answer_of_answeredWithin {activity : Activity} (within : AnsweredWithin 0 activity) :
    activity.answer.isSome := by
  have spent {turns : Nat} (excess : turns + 1 ≤ 0) : False := by omega
  cases activity with
  | register env input phase =>
    cases phase with
    | done result => rfl
    | _ => exact (spent within).elim
  | verify env tokenHash phase =>
    cases phase with
    | done result => rfl
    | _ => exact (spent within).elim
  | resend env email phase =>
    cases phase with
    | done result => rfl
    | _ => exact (spent within).elim
  | login env input phase =>
    cases phase with
    | done result => rfl
    | _ => exact (spent within).elim
  | refresh env tokenHash phase =>
    cases phase with
    | done result => rfl
    | _ => exact (spent within).elim
  | logout env claims tokenHash phase =>
    cases phase with
    | done result => rfl
    | _ => exact (spent within).elim
  | passwordChange env claims input phase =>
    cases phase with
    | done result => rfl
    | _ => exact (spent within).elim
  | sweep settings now choices targets => exact within.elim
  | operator userId now done => exact within.elim

/-- An answered activity takes no more steps. -/
theorem step_of_answered {ctx : AppCtx} {activity : Activity} (answered : activity.answer.isSome) :
    activity.step ctx = pure activity := by
  cases activity with
  | register env input phase =>
    cases phase with
    | done result => rfl
    | _ => contradiction
  | verify env tokenHash phase =>
    cases phase with
    | done result => rfl
    | _ => contradiction
  | resend env email phase =>
    cases phase with
    | done result => rfl
    | _ => contradiction
  | login env input phase =>
    cases phase with
    | done result => rfl
    | _ => contradiction
  | refresh env tokenHash phase =>
    cases phase with
    | done result => rfl
    | _ => contradiction
  | logout env claims tokenHash phase =>
    cases phase with
    | done result => rfl
    | _ => contradiction
  | passwordChange env claims input phase =>
    cases phase with
    | done result => rfl
    | _ => contradiction
  | sweep settings now choices targets => contradiction
  | operator userId now done => contradiction

/-- An answered activity does nothing in any number of steps. -/
theorem run_of_answered {ctx : AppCtx} {activity : Activity} (answered : activity.answer.isSome)
    (turns : Nat) : activity.run ctx turns = pure activity := by
  induction turns with
  | zero => rfl
  | succ turns ih =>
    unfold Activity.run
    rw [step_of_answered answered, pure_bind]
    exact ih

/-- Some steps of an activity, each on a connection of its own. -/
def Running.acts (ctx : AppCtx) : (turns : Nat) → Db → Running → Db × Running
  | 0, db, running => (db, running)
  | turns + 1, db, running =>
    Running.acts ctx turns (running.act ctx db).1 (running.act ctx db).2

/-- An answered activity does nothing on connections of its own. -/
theorem acts_of_answered {ctx : AppCtx} {running : Running}
    (answered : running.activity.answer.isSome) (turns : Nat) (db : Db) :
    Running.acts ctx turns db running = (db, running) := by
  induction turns with
  | zero => rfl
  | succ turns ih =>
    have stays : running.act ctx db = (db, running) := by
      unfold Running.act
      rw [step_of_answered answered]
      rfl
    unfold Running.acts
    rw [stays]
    exact ih

/-- The activities that handlers begin, each at its first use of the database. -/
inductive FirstPhase : Activity → Prop
  | register (env : Env) (input : Register.Input) : FirstPhase (.register env input .write)
  | verify (env : Env) (tokenHash : Bytes) : FirstPhase (.verify env tokenHash .lookup)
  | resend (env : Env) (email : Bytes) : FirstPhase (.resend env email .lookup)
  | login (env : Env) (input : Login.Input) : FirstPhase (.login env input .lookup)
  | refresh (env : Env) (tokenHash : Bytes) : FirstPhase (.refresh env tokenHash .write)
  | logout (env : Env) (claims : Claims) (tokenHash : Bytes) :
    FirstPhase (.logout env claims tokenHash .findToken)
  | passwordChange (env : Env) (claims : Claims) (input : PasswordChange.Input) :
    FirstPhase (.passwordChange env claims input .lookup)

/-- What an activity draws from its surroundings, if it is a handler's. -/
def surroundings : Activity → Option Env
  | .register env _ _ => some env
  | .verify env _ _ => some env
  | .resend env _ _ => some env
  | .login env _ _ => some env
  | .refresh env _ _ => some env
  | .logout env _ _ _ => some env
  | .passwordChange env _ _ _ => some env
  | .sweep _ _ _ _ => none
  | .operator _ _ _ => none

/-- What a handler begins is at its first phase, in the surroundings of the handler. -/
theorem firstPhase_start {ctx : AppCtx} {env : Env} {draining : Bool} {request : Http.Request}
    {handler : Handler} {activity : Activity}
    (begun : handler.start ctx env draining request = .activity activity) :
    FirstPhase activity ∧ surroundings activity = some env := by
  have first {α : Type} {admission : Except HandlerResult α} {begin : α → Activity}
      (admitted : Call.admitted admission (fun input => .activity (begin input)) = .activity activity)
      (starts : ∀ input, FirstPhase (begin input))
      (within : ∀ input, surroundings (begin input) = some env) :
      FirstPhase activity ∧ surroundings activity = some env := by
    cases admission with
    | error result => contradiction
    | ok input =>
      cases admitted
      exact ⟨starts input, within input⟩
  cases handler with
  | register => exact first begun (fun input => .register env input) fun _ => rfl
  | verify => exact first begun (fun tokenHash => .verify env tokenHash) fun _ => rfl
  | resendVerification => exact first begun (fun email => .resend env email) fun _ => rfl
  | login => exact first begun (fun input => .login env input) fun _ => rfl
  | refresh => exact first begun (fun tokenHash => .refresh env tokenHash) fun _ => rfl
  | logout claims => exact first begun (fun tokenHash => .logout env claims tokenHash) fun _ => rfl
  | passwordChange claims =>
    exact first begun (fun input => .passwordChange env claims input) fun _ => rfl
  | listUsers claims =>
    unfold Handler.start at begun
    generalize Admin.page request.query = admission at begun
    cases admission with
    | error result => contradiction
    | ok page => contradiction
  | _ => contradiction

/-- The activities that handlers begin are answered in time. -/
theorem FirstPhase.answeredWithin {activity : Activity} (first : FirstPhase activity) :
    AnsweredWithin Activity.turns activity := by
  cases first with
  | _ => exact Nat.le_of_ble_eq_true rfl

/-- Every handler runs to its answer, whatever its statements return. -/
theorem run_start_answers (ctx : AppCtx) (env : Env) (draining : Bool) (request : Http.Request)
    (handler : Handler) :
    Yields ((handler.start ctx env draining request).run ctx) fun answer => answer.isSome := by
  cases begun : handler.start ctx env draining request with
  | answered result => exact yields_pure rfl
  | activity activity =>
    have ends : Yields (activity.run ctx Activity.turns) (AnsweredWithin 0) :=
      answeredWithin_run (firstPhase_start begun).1.answeredWithin
    exact ends.map _ fun _ => answer_of_answeredWithin
  | getUser env claims targetUserId => exact yields_bind fun _ => yields_pure rfl
  | countUsers => exact yields_bind fun _ => yields_pure rfl
  | listUsers env claims page => exact yields_bind fun _ => yields_pure rfl

end PlatformService.Verif
