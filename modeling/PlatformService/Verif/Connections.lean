import PlatformService.Api.Routes
import PlatformService.Verif.AccountSpecs
import PlatformService.Verif.Deployment
import PlatformService.Verif.HandlerRuns

/-!
# Connections back in the pool

A handler gives its connection back when it answers. Every path of a transaction
ends it by `COMMIT` or `ROLLBACK`, except one: after a `COMMIT` that fails the
handlers answer 500 without a `ROLLBACK`, and SQLite leaves the transaction open.
`CommitRefused` is that case of one transaction, and `CommitFails` that case of a
whole handler: exactly then the connection comes back inside a transaction.
-/

namespace PlatformService.Verif.Connections

open Lib Store Crypto Api

section Transactions

variable {α β ε : Type}

/-- SQL that leaves every transaction as open as it finds it. -/
def Plain (command : Sql α) : Prop := Sql.Keeps (fun _ => ()) command

/-- SQL that may be the body of a transaction: it does not end it. -/
def StaysInside (body : Sql α) : Prop := ∀ db, Sql.Inside False body db fun _ _ => True

/-- Plain SQL may be the body of a transaction. -/
theorem Plain.staysInside {body : Sql α} (plain : Plain body) : StaysInside body := fun db =>
  ((plain False db).mono fun _ _ _ => trivial).inside

/-- A transaction that began and whose statements succeeded is refused its `COMMIT`. -/
def CommitRefused (failed : ε) (command : Sql (Except ε α)) (db : Db) (faults : List Bool) : Prop :=
  ∃ body, command = Sql.transaction failed body ∧ StaysInside body ∧
    faults.headD false = false ∧
    (∃ value, (body (⟨db, [db]⟩, faults.tail)).1 = .ok value) ∧
    (body (⟨db, [db]⟩, faults.tail)).2.2.headD false = true

/-- A command that is a transaction. -/
def IsTransaction (failed : ε) (command : Sql (Except ε α)) : Prop :=
  ∃ body, command = Sql.transaction failed body ∧ StaysInside body

/-- A refused `COMMIT` is reported as a failure and leaves the transaction open. -/
theorem of_commitRefused {failed : ε} {command : Sql (Except ε α)} {db : Db} {faults : List Bool}
    (refused : CommitRefused failed command db faults) :
    (command (Conn.of db, faults)).1 = .error failed ∧
      (command (Conn.of db, faults)).2.1.undo ≠ [] := by
  obtain ⟨body, transaction, stays, begins, ⟨value, finished⟩, fault⟩ := refused
  have inside := (stays db faults.tail False.elim).1.1
  rw [transaction, Sql.transaction_eq, begins, if_neg (by simp)]
  generalize body (⟨db, [db]⟩, faults.tail) = out at finished fault inside ⊢
  obtain ⟨result, conn, rest⟩ := out
  have opened : conn.undo ≠ [] := by
    intro empty
    rw [empty] at inside
    contradiction
  cases finished
  dsimp only at fault ⊢
  rw [Sql.commit_eq opened, fault, if_pos rfl]
  exact ⟨rfl, opened⟩

/-- A transaction whose `COMMIT` is not refused leaves the connection closed. -/
theorem closed_of_not_refused {failed : ε} {command : Sql (Except ε α)} {db : Db}
    {faults : List Bool} (transaction : IsTransaction failed command)
    (granted : ¬CommitRefused failed command db faults) :
    (command (Conn.of db, faults)).2.1.undo = [] := by
  obtain ⟨body, transaction, stays⟩ := transaction
  have inside := (stays db faults.tail False.elim).1.1
  have refused (begins : faults.headD false = false)
      (finished : ∃ value, (body (⟨db, [db]⟩, faults.tail)).1 = .ok value)
      (fault : (body (⟨db, [db]⟩, faults.tail)).2.2.headD false = true) : False :=
    granted ⟨body, transaction, stays, begins, finished, fault⟩
  rw [transaction, Sql.transaction_eq]
  cases begins : faults.headD false with
  | true => rfl
  | false =>
    rw [if_neg (by simp)]
    have refused := refused begins
    generalize body (⟨db, [db]⟩, faults.tail) = out at refused inside ⊢
    obtain ⟨result, conn, rest⟩ := out
    cases result with
    | error reason => rfl
    | ok value =>
      have opened : conn.undo ≠ [] := by
        intro empty
        rw [empty] at inside
        contradiction
      dsimp only at refused ⊢
      cases fault : rest.headD false with
      | true => exact (refused ⟨value, rfl⟩ fault).elim
      | false =>
        rw [Sql.commit_eq opened, fault, if_neg (by simp)]
        rfl

/-- SQL with a specification of what it does to the content is plain. -/
theorem plain_of_guarantees {command : Sql α} {post : Prop → Db → α → Db → Prop}
    (spec : ∀ reliable db, Sql.Guarantees reliable command db (post reliable db)) : Plain command :=
  fun reliable db => (spec reliable db).mono fun _ _ _ => rfl

/-- Plain SQL leaves a closed connection closed. -/
theorem Plain.closed {command : Sql α} (plain : Plain command) (db : Db) (faults : List Bool) :
    (command (Conn.of db, faults)).2.1.undo = [] :=
  (plain False db [] faults False.elim).1.1

end Transactions

section Bodies

variable {ctx : AppCtx} {env : Env}

/-- Looking up a row is plain. -/
theorem plain_lookup {α : Type} (read : Db → Option α) :
    Plain (do return (← Sql.query read).join) := Sql.keeps_lookup read

/-- A statement that reports success or failure is plain. -/
theorem plain_execute (run : Db → Option Db) : Plain (Sql.execute run) :=
  Sql.keeps_execute fun _ _ _ => rfl

/-- The last statement of every transaction is plain. -/
theorem plain_audited {α ε : Type} (entry : AuditEntry) (value : α) (reason : ε) :
    Plain (do
      if ← AuditStore.write entry then return (Except.ok value : Except ε α)
      else return .error reason) := by
  apply Sql.keeps_bind (plain_execute _)
  intro audited
  exact Sql.keeps_ite (Sql.keeps_pure _) (Sql.keeps_pure _)

/-- Registration writes in one transaction. -/
theorem isTransaction_register (input : Register.Input) :
    IsTransaction .failed (Register.write ctx env input) := by
  refine ⟨_, rfl, fun db => ?_⟩
  apply Sql.inside_bind (insert_spec _ _ _ db)
  intro result seen _
  have ends {command : Sql (Except Register.Refusal Bytes)} (plain : Plain command) :
      Sql.Guarantees False command seen fun _ _ => True :=
    (plain False seen).mono fun _ _ _ => trivial
  cases result with
  | duplicateUsername => exact ends (Sql.keeps_pure _)
  | duplicateEmail => exact ends (Sql.keeps_pure _)
  | error => exact ends (Sql.keeps_pure _)
  | ok userId =>
    apply ends
    apply Sql.keeps_bind (plain_of_guarantees fun _ db => insertFreshToken_spec ctx env userId db)
    intro issued
    cases issued with
    | none => exact Sql.keeps_pure _
    | some rawToken => exact plain_audited _ _ _

/-- Verification writes in one transaction. -/
theorem isTransaction_verify (tokenHash : Bytes) (token : VerificationTokenRow) :
    IsTransaction () (Verify.write env tokenHash token) := by
  refine ⟨_, rfl, Plain.staysInside ?_⟩
  apply Sql.keeps_bind (plain_execute _)
  intro consumed
  apply Sql.keeps_ite (Sql.keeps_pure _)
  apply Sql.keeps_bind (plain_execute _)
  intro updated
  exact Sql.keeps_ite (Sql.keeps_pure _) (plain_audited _ _ _)

/-- Resending writes in one transaction. -/
theorem isTransaction_resend (user : UserRow) : IsTransaction () (Resend.write ctx env user) := by
  refine ⟨_, rfl, Plain.staysInside ?_⟩
  apply Sql.keeps_bind (plain_execute _)
  intro invalidated
  apply Sql.keeps_ite (Sql.keeps_pure _)
  apply Sql.keeps_bind (plain_of_guarantees fun _ db => insertFreshToken_spec ctx env user.userId db)
  intro issued
  cases issued with
  | none => exact Sql.keeps_pure _
  | some rawToken => exact plain_audited _ _ _

/-- A refused login writes in one transaction. -/
theorem isTransaction_writeFailure (found : Option UserRow) (passwordOk : Bool) :
    IsTransaction () (Login.writeFailure ctx env found passwordOk) := by
  refine ⟨_, rfl, Plain.staysInside ?_⟩
  apply Sql.keeps_bind (plain_of_guarantees fun _ db => recordFailure_spec ctx env found passwordOk db)
  intro recorded
  cases recorded with
  | none => exact Sql.keeps_pure _
  | some locks =>
    apply Sql.keeps_bind (plain_execute _)
    intro audited
    apply Sql.keeps_ite (Sql.keeps_pure _)
    exact Sql.keeps_ite (Sql.keeps_pure _) (plain_audited _ _ _)

/-- An accepted login writes in one transaction. -/
theorem isTransaction_writeSuccess (userId : Int) :
    IsTransaction () (Login.writeSuccess ctx env userId) := by
  refine ⟨_, rfl, Plain.staysInside ?_⟩
  apply Sql.keeps_bind (plain_execute _)
  intro cleared
  apply Sql.keeps_ite (Sql.keeps_pure _)
  apply Sql.keeps_bind (plain_of_guarantees fun _ db => create_spec _ _ _ _ _ _ _ db)
  intro created
  cases created with
  | none => exact Sql.keeps_pure _
  | some session => exact plain_audited _ _ _

/-- A refresh writes in one transaction. -/
theorem isTransaction_refresh (tokenHash : Bytes) :
    IsTransaction () (Refresh.write ctx env tokenHash) := by
  refine ⟨_, rfl, Plain.staysInside ?_⟩
  apply Sql.keeps_bind (plain_of_guarantees fun _ db => refresh_spec _ _ _ _ _ db)
  intro outcome
  exact Sql.keeps_ite (Sql.keeps_pure _) (plain_audited _ _ _)

/-- A logout writes in one transaction. -/
theorem isTransaction_logout (familyId : Bytes) (ownerId : Int) :
    IsTransaction () (Logout.write env familyId ownerId) := by
  refine ⟨_, rfl, Plain.staysInside ?_⟩
  apply Sql.keeps_bind (plain_execute _)
  intro revoked
  exact Sql.keeps_ite (Sql.keeps_pure _) (plain_audited _ _ _)

/-- A password change writes in one transaction. -/
theorem isTransaction_passwordChange (claims : Claims) (newHash : Password.Hash)
    (survivingFamilyId : Bytes) :
    IsTransaction () (PasswordChange.write env claims newHash survivingFamilyId) := by
  refine ⟨_, rfl, Plain.staysInside ?_⟩
  apply Sql.keeps_bind (plain_execute _)
  intro updated
  apply Sql.keeps_ite (Sql.keeps_pure _)
  apply Sql.keeps_bind (Sql.keeps_statement fun _ _ _ _ => rfl)
  intro revoked
  cases revoked with
  | none => exact Sql.keeps_pure _
  | some count => exact plain_audited _ _ _

end Bodies

section Phases

variable {α β ε : Type}

/-- What a phase of a handler does to a closed connection: it leaves it closed, unless a `COMMIT` is
refused, and then the handler is over. -/
structure Releases (refused : Prop) (command : Sql α) (db : Db) (faults : List Bool) (verdict : α) :
    Prop where
  closed : ¬refused → (command (Conn.of db, faults)).2.1.undo = []
  stuck : refused → (command (Conn.of db, faults)).1 = verdict ∧
    (command (Conn.of db, faults)).2.1.undo ≠ []

/-- A phase without a transaction leaves the connection closed. -/
theorem Plain.releases {command : Sql α} (plain : Plain command) (db : Db) (faults : List Bool)
    (verdict : α) : Releases False command db faults verdict where
  closed _ := plain.closed db faults
  stuck impossible := impossible.elim

/-- A phase that is a transaction. -/
theorem IsTransaction.releases {failed : ε} {command : Sql (Except ε α)}
    (transaction : IsTransaction failed command) (db : Db) (faults : List Bool)
    {next : Except ε α → Sql β} {verdict : β} (returns : ∀ value, ∃ result, next value = pure result)
    (gaveUp : next (.error failed) = pure verdict) :
    Releases (CommitRefused failed command db faults) (command >>= next) db faults verdict := by
  constructor
  · intro granted
    rw [Faulty.state_bind returns]
    exact closed_of_not_refused transaction granted
  · intro refused
    obtain ⟨error, opened⟩ := of_commitRefused refused
    rw [Faulty.state_bind returns, Faulty.run_bind, error, gaveUp]
    exact ⟨rfl, opened⟩

/-- What a phase does is what the step of its activity does. -/
theorem Releases.map {refused : Prop} {command : Sql α} {db : Db} {faults : List Bool} {verdict : α}
    (h : Releases refused command db faults verdict) (wrap : α → β) :
    Releases refused (do return wrap (← command)) db faults (wrap verdict) where
  closed granted := h.closed granted
  stuck refusal := ⟨congrArg wrap (h.stuck refusal).1, (h.stuck refusal).2⟩

end Phases

/-- Whether the next step of an activity is a transaction that is refused its `COMMIT`. -/
def RefusesCommit (ctx : AppCtx) : Activity → Db → List Bool → Prop
  | .register env input .write => CommitRefused .failed (Register.write ctx env input)
  | .verify env tokenHash (.write token) => CommitRefused () (Verify.write env tokenHash token)
  | .resend env _ (.write user) => CommitRefused () (Resend.write ctx env user)
  | .login env _ (.write (.refuse found passwordOk)) =>
    CommitRefused () (Login.writeFailure ctx env found passwordOk)
  | .login env _ (.write (.accept user)) =>
    CommitRefused () (Login.writeSuccess ctx env user.userId)
  | .refresh env tokenHash .write => CommitRefused () (Refresh.write ctx env tokenHash)
  | .logout env _ _ (.write token family) =>
    CommitRefused () (Logout.write env token.familyId family.userId)
  | .passwordChange env claims _ (.write _ newHash survivingFamilyId) =>
    CommitRefused () (PasswordChange.write env claims newHash survivingFamilyId)
  | _ => fun _ _ => False

/-- The activity whose `COMMIT` was refused: it answers 500. -/
def failedActivity : Activity → Activity
  | .register env input _ => .register env input (.done internalErrorResult)
  | .verify env tokenHash _ => .verify env tokenHash (.done internalErrorResult)
  | .resend env email _ => .resend env email (.done internalErrorResult)
  | .login env input _ => .login env input (.done internalErrorResult)
  | .refresh env tokenHash _ => .refresh env tokenHash (.done internalErrorResult)
  | .logout env claims tokenHash _ => .logout env claims tokenHash (.done internalErrorResult)
  | .passwordChange env claims input _ => .passwordChange env claims input (.done internalErrorResult)
  | .sweep settings now choices targets => .sweep settings now choices targets
  | .operator userId now done => .operator userId now done

section Steps

variable {ctx : AppCtx} {env : Env} {db : Db} {faults : List Bool}

/-- A single audit row outside a transaction. -/
theorem plain_audit {α : Type} (entry : AuditEntry) (next : Bool → α) :
    Plain (do return next (← AuditStore.write entry)) :=
  Sql.keeps_bind (plain_execute _) fun _ => Sql.keeps_pure _

/-- A mail outside a transaction. -/
theorem plain_mail {α : Type} (toEmail subject body : Bytes) (now : Int) (next : Bool → α) :
    Plain (do return next (← Mailer.send toEmail subject body now)) :=
  Sql.keeps_bind (plain_execute _) fun _ => Sql.keeps_pure _

/-- A lookup outside a transaction, and what is made of the row. -/
theorem plain_find {α β : Type} (read : Db → Option α) {next : Option α → Sql β}
    (continues : ∀ found, Plain (next found)) :
    Plain ((do return (← Sql.query read).join) >>= next) :=
  Sql.keeps_bind (plain_lookup read) continues

/-- What a phase of registration does to the connection. -/
theorem register_releases (input : Register.Input) (phase : Register.Phase) :
    Releases (RefusesCommit ctx (.register env input phase) db faults)
      (Register.step ctx env input phase) db faults (.done internalErrorResult) := by
  cases phase with
  | write =>
    apply (isTransaction_register input).releases db faults
    · intro result
      match result with
      | .ok rawToken => exact ⟨_, rfl⟩
      | .error .duplicateUsername => exact ⟨_, rfl⟩
      | .error .duplicateEmail => exact ⟨_, rfl⟩
      | .error .failed => exact ⟨_, rfl⟩
    · rfl
  | sendEmail rawToken => exact (plain_mail _ _ _ _ _).releases db faults _
  | findOwner => exact (plain_find _ fun _ => Sql.keeps_pure _).releases db faults _
  | auditDuplicate existing => exact (plain_audit _ _).releases db faults _
  | mailOwner existing => exact (plain_mail _ _ _ _ _).releases db faults _
  | done result => exact Plain.releases (Sql.keeps_pure _) db faults _

/-- What a phase of verification does to the connection. -/
theorem verify_releases (tokenHash : Bytes) (phase : Verify.Phase) :
    Releases (RefusesCommit ctx (.verify env tokenHash phase) db faults)
      (Verify.step env tokenHash phase) db faults (.done internalErrorResult) := by
  cases phase with
  | lookup =>
    refine (plain_find _ fun found => ?_).releases db faults _
    cases found with
    | none => exact Sql.keeps_pure _
    | some token => exact Sql.keeps_pure _
  | auditFailure found => exact (plain_audit _ _).releases db faults _
  | write token =>
    apply (isTransaction_verify tokenHash token).releases db faults
    · intro result
      cases result with
      | ok _ => exact ⟨_, rfl⟩
      | error reason => exact ⟨_, rfl⟩
    · rfl
  | done result => exact Plain.releases (Sql.keeps_pure _) db faults _

/-- What a phase of resending does to the connection. -/
theorem resend_releases (email : Bytes) (phase : Resend.Phase) :
    Releases (RefusesCommit ctx (.resend env email phase) db faults)
      (Resend.step ctx env email phase) db faults (.done internalErrorResult) := by
  cases phase with
  | lookup =>
    refine (plain_find _ fun found => ?_).releases db faults _
    cases found with
    | none => exact Sql.keeps_pure _
    | some user => exact Sql.keeps_ite (Sql.keeps_pure _) (Sql.keeps_pure _)
  | auditFailure userId reason => exact (plain_audit _ _).releases db faults _
  | countMinute user =>
    refine Plain.releases (Sql.keeps_bind (Sql.keeps_query _) fun counted => ?_) db faults _
    cases counted with
    | none => exact Sql.keeps_pure _
    | some recent => exact Sql.keeps_pure _
  | countDay user recentMinute =>
    refine Plain.releases (Sql.keeps_bind (Sql.keeps_query _) fun counted => ?_) db faults _
    cases counted with
    | none => exact Sql.keeps_pure _
    | some recent => exact Sql.keeps_ite (Sql.keeps_pure _) (Sql.keeps_pure _)
  | write user =>
    apply (isTransaction_resend user).releases db faults
    · intro result
      cases result with
      | ok _ => exact ⟨_, rfl⟩
      | error reason => exact ⟨_, rfl⟩
    · rfl
  | sendEmail user rawToken => exact (plain_mail _ _ _ _ _).releases db faults _
  | done result => exact Plain.releases (Sql.keeps_pure _) db faults _

/-- What a phase of a login does to the connection. -/
theorem login_releases (input : Login.Input) (phase : Login.Phase) :
    Releases (RefusesCommit ctx (.login env input phase) db faults)
      (Login.step ctx env input phase) db faults (.done internalErrorResult) := by
  cases phase with
  | lookup => exact (plain_find _ fun _ => Sql.keeps_pure _).releases db faults _
  | write decision =>
    cases decision with
    | refuse found passwordOk =>
      apply (isTransaction_writeFailure found passwordOk).releases db faults
      · intro result
        cases result with
        | ok _ => exact ⟨_, rfl⟩
        | error reason => exact ⟨_, rfl⟩
      · rfl
    | accept user =>
      apply (isTransaction_writeSuccess user.userId).releases db faults
      · intro result
        cases result with
        | ok session => exact ⟨_, rfl⟩
        | error reason => exact ⟨_, rfl⟩
      · rfl
  | readRoles userId session =>
    exact Plain.releases (Sql.keeps_bind (Sql.keeps_query _) fun _ => Sql.keeps_pure _) db faults _
  | done result => exact Plain.releases (Sql.keeps_pure _) db faults _

/-- What a phase of a refresh does to the connection. -/
theorem refresh_releases (tokenHash : Bytes) (phase : Refresh.Phase) :
    Releases (RefusesCommit ctx (.refresh env tokenHash phase) db faults)
      (Refresh.step ctx env tokenHash phase) db faults (.done internalErrorResult) := by
  cases phase with
  | write =>
    apply (isTransaction_refresh tokenHash).releases db faults
    · intro result
      match result with
      | .ok (.ok, refreshed) => exact ⟨_, rfl⟩
      | .ok (.invalid, refreshed) => exact ⟨_, rfl⟩
      | .ok (.reuseDetected, refreshed) => exact ⟨_, rfl⟩
      | .ok (.error, refreshed) => exact ⟨_, rfl⟩
      | .error reason => exact ⟨_, rfl⟩
    · rfl
  | readRoles refreshed =>
    exact Plain.releases (Sql.keeps_bind (Sql.keeps_query _) fun _ => Sql.keeps_pure _) db faults _
  | done result => exact Plain.releases (Sql.keeps_pure _) db faults _

/-- What a phase of a logout does to the connection. -/
theorem logout_releases (claims : Claims) (tokenHash : Bytes) (phase : Logout.Phase) :
    Releases (RefusesCommit ctx (.logout env claims tokenHash phase) db faults)
      (Logout.step env claims tokenHash phase) db faults (.done internalErrorResult) := by
  cases phase with
  | findToken =>
    refine (plain_find _ fun found => ?_).releases db faults _
    cases found with
    | none => exact Sql.keeps_pure _
    | some token => exact Sql.keeps_pure _
  | findFamily token =>
    refine (plain_find _ fun found => ?_).releases db faults _
    cases found with
    | none => exact Sql.keeps_pure _
    | some family => exact Sql.keeps_ite (Sql.keeps_pure _) (Sql.keeps_pure _)
  | write token family =>
    apply (isTransaction_logout token.familyId family.userId).releases db faults
    · intro result
      cases result with
      | ok _ => exact ⟨_, rfl⟩
      | error reason => exact ⟨_, rfl⟩
    · rfl
  | done result => exact Plain.releases (Sql.keeps_pure _) db faults _

/-- What a phase of a password change does to the connection. -/
theorem passwordChange_releases (claims : Claims) (input : PasswordChange.Input)
    (phase : PasswordChange.Phase) :
    Releases (RefusesCommit ctx (.passwordChange env claims input phase) db faults)
      (PasswordChange.step ctx env claims input phase) db faults (.done internalErrorResult) := by
  cases phase with
  | lookup => exact (plain_find _ fun _ => Sql.keeps_pure _).releases db faults _
  | auditFailure => exact (plain_audit _ _).releases db faults _
  | write user newHash survivingFamilyId =>
    apply (isTransaction_passwordChange claims newHash survivingFamilyId).releases db faults
    · intro result
      cases result with
      | ok _ => exact ⟨_, rfl⟩
      | error reason => exact ⟨_, rfl⟩
    · rfl
  | done result => exact Plain.releases (Sql.keeps_pure _) db faults _

/-- What a step of an activity does to the connection. -/
theorem activity_releases (ctx : AppCtx) (activity : Activity) (db : Db) (faults : List Bool) :
    Releases (RefusesCommit ctx activity db faults) (activity.step ctx) db faults
      (failedActivity activity) := by
  cases activity with
  | register env input phase => exact (register_releases input phase).map _
  | verify env tokenHash phase => exact (verify_releases tokenHash phase).map _
  | resend env email phase => exact (resend_releases email phase).map _
  | login env input phase => exact (login_releases input phase).map _
  | refresh env tokenHash phase => exact (refresh_releases tokenHash phase).map _
  | logout env claims tokenHash phase => exact (logout_releases claims tokenHash phase).map _
  | passwordChange env claims input phase =>
    exact (passwordChange_releases claims input phase).map _
  | sweep settings now choices targets =>
    refine Plain.releases (Sql.keeps_bind ?_ fun _ => Sql.keeps_pure _) db faults _
    cases targets with
    | nil => exact Sql.keeps_pure _
    | cons target targets =>
      exact Sql.keeps_bind (Sql.keeps_statement fun _ _ _ _ => rfl) fun _ => Sql.keeps_pure _
  | operator userId now done =>
    exact Plain.releases (Sql.keeps_ite (Sql.keeps_pure _)
      (Sql.keeps_bind (plain_execute _) fun _ => Sql.keeps_pure _)) db faults _

end Steps

section Handlers

variable {ctx : AppCtx} {env : Env}

/-- An activity whose `COMMIT` was refused is over. -/
theorem failedActivity_answered {activity : Activity} {db : Db} {faults : List Bool}
    (refused : RefusesCommit ctx activity db faults) : (failedActivity activity).answer.isSome := by
  cases activity with
  | sweep settings now choices targets => exact refused.elim
  | operator userId now done => exact refused.elim
  | _ => rfl

/-- Some steps of an activity on one connection are its steps on connections of their own: a refused
`COMMIT` is the last thing a handler does with its connection. -/
theorem run_eq_acts (turns : Nat) (activity : Activity) (db : Db) (faults : List Bool) :
    Running.acts ctx turns db ⟨activity, faults⟩ =
      ((activity.run ctx turns (Conn.of db, faults)).2.1.committed,
        ⟨(activity.run ctx turns (Conn.of db, faults)).1,
          (activity.run ctx turns (Conn.of db, faults)).2.2⟩) := by
  induction turns generalizing activity db faults with
  | zero => rfl
  | succ turns ih =>
    have effect := activity_releases ctx activity db faults
    unfold Activity.run Running.acts
    rw [Faulty.run_bind]
    by_cases refused : RefusesCommit ctx activity db faults
    · have stuck := effect.stuck refused
      have answered := failedActivity_answered refused
      have acted : (Running.act ctx db ⟨activity, faults⟩).2.activity = failedActivity activity :=
        stuck.1
      rw [acts_of_answered (by rw [acted]; exact answered), stuck.1, run_of_answered answered]
      unfold Running.act
      dsimp only
      rw [stuck.1]
      rfl
    · unfold Running.act
      have closed := effect.closed refused
      generalize activity.step ctx (Conn.of db, faults) = out at closed ⊢
      obtain ⟨next, ⟨after, undo⟩, rest⟩ := out
      dsimp only at closed ⊢
      subst closed
      exact ih next after rest

section Reads

variable {V : Type} {view : Db → V} (unaudited : ∀ db entry, view (db.insertAudit entry) = view db)

include unaudited

/-- Reading a user writes at most an audit row. -/
theorem keeps_getUser (claims : Claims) (targetUserId : Int) :
    Sql.Keeps view (Users.getUser env claims targetUserId) := by
  apply Sql.keeps_bind (Sql.keeps_lookup _)
  intro found
  cases found with
  | none => exact Sql.keeps_pure _
  | some target =>
    apply Sql.keeps_ite (Sql.keeps_pure _)
    apply Sql.keeps_bind (Sql.keeps_update fun db => unaudited db _)
    intro audited
    exact Sql.keeps_pure _

omit unaudited in
/-- Counting the users writes nothing. -/
theorem keeps_countUsers : Sql.Keeps view Admin.countUsers := by
  apply Sql.keeps_bind (Sql.keeps_query _)
  intro counted
  cases counted with
  | none => exact Sql.keeps_pure _
  | some count => exact Sql.keeps_pure _

/-- Listing users writes at most an audit row. -/
theorem keeps_listUsers (claims : Claims) (page : Admin.Page) :
    Sql.Keeps view (Admin.listUsers env claims page) := by
  apply Sql.keeps_bind (Sql.keeps_query _)
  intro listed
  cases listed with
  | none => exact Sql.keeps_pure _
  | some rows =>
    apply Sql.keeps_bind (Sql.keeps_update fun db => unaudited db _)
    intro audited
    exact Sql.keeps_pure _

end Reads

end Handlers

end PlatformService.Verif.Connections
