import PlatformService.Api.System
import PlatformService.Verif.AccountSpecs
import PlatformService.Verif.Deployment

/-!
# The lifecycle of an account

A user is created PENDING_VERIFICATION, becomes ACTIVE by verification and
DISABLED by an operator. `StatusChange` lists what a step of the service may do to
the status of a user, and `activity_spec` shows that every step does nothing else,
except for a verification that reaches its transaction when the operator has
disabled the user: `ps_user_store_update_status` does not ask for the status it
replaces.
-/

namespace PlatformService.Verif.Lifecycle

open Lib Store Api Maintenance

/-- The status stored for a user. -/
def statusOf (db : Db) (userId : Int) : Option UserStatus :=
  (db.users.find? userId).map UserRow.status

/-- An update of users changes the status of those it selects. -/
theorem statusOf_updateUsers (db : Db) (selected : UserRow → Bool) (change : Db.UserChange)
    (userId : Int) :
    statusOf (db.updateUsers selected change) userId = (db.users.find? userId).map fun user =>
      if selected user then (change.apply user).status else user.status := by
  rw [statusOf, Db.find?_updateUsers, Option.map_map]
  congr 1
  funext user
  exact apply_ite UserRow.status _ _ _

/-- An update of users that sets other columns leaves every status alone. -/
theorem statusOf_updateUsers_of_kept {db : Db} {selected : UserRow → Bool} {change : Db.UserChange}
    (keeps : ∀ user, (change.apply user).status = user.status) :
    statusOf (db.updateUsers selected change) = statusOf db := by
  funext userId
  rw [statusOf_updateUsers]
  simp only [keeps, ite_self]
  rfl

/-- What has the same users has the same statuses. -/
theorem statusOf_congr {db after : Db} (same : after.users = db.users) :
    statusOf after = statusOf db := by
  funext userId
  rw [statusOf, same, statusOf]

section Frames

variable {ctx : AppCtx} {env : Env}

/-- A finished activity changes nothing. -/
theorem keeps_done {α : Type} (value : α) :
    Sql.KeepsCommitted statusOf (pure value : Sql α) := (Sql.keeps_pure value).committed

/-- Writing an audit row outside a transaction changes no status. -/
theorem keeps_audit {α : Type} (entry : AuditEntry) (next : Bool → α) :
    Sql.KeepsCommitted statusOf (do return next (← AuditStore.write entry)) := by
  apply Sql.Keeps.committed
  apply Sql.keeps_bind
  · apply Sql.keeps_update
    intro db
    rfl
  · intro audited
    exact Sql.keeps_pure _

/-- Sending mail changes no status. -/
theorem keeps_mail {α : Type} (toEmail subject body : Bytes) (now : Int) (next : Bool → α) :
    Sql.KeepsCommitted statusOf (do return next (← Mailer.send toEmail subject body now)) := by
  apply Sql.Keeps.committed
  apply Sql.keeps_bind
  · apply Sql.keeps_update
    intro db
    rfl
  · intro sent
    exact Sql.keeps_pure _

/-- No phase of a resend changes a status. -/
theorem keeps_resend (email : Bytes) (phase : Resend.Phase) :
    Sql.KeepsCommitted statusOf (Resend.step ctx env email phase) := by
  cases phase with
  | lookup =>
    apply Sql.Keeps.committed
    apply Sql.keeps_bind (Sql.keeps_lookup _)
    intro found
    cases found with
    | none => exact Sql.keeps_pure _
    | some user => exact Sql.keeps_ite (Sql.keeps_pure _) (Sql.keeps_pure _)
  | auditFailure userId reason => exact keeps_audit _ _
  | countMinute user =>
    apply Sql.Keeps.committed
    apply Sql.keeps_bind (Sql.keeps_query _)
    intro counted
    cases counted with
    | none => exact Sql.keeps_pure _
    | some recent => exact Sql.keeps_pure _
  | countDay user recentMinute =>
    apply Sql.Keeps.committed
    apply Sql.keeps_bind (Sql.keeps_query _)
    intro counted
    cases counted with
    | none => exact Sql.keeps_pure _
    | some recent => exact Sql.keeps_ite (Sql.keeps_pure _) (Sql.keeps_pure _)
  | write user =>
    have written : Sql.KeepsCommitted statusOf (Resend.write ctx env user) :=
      Sql.keepsCommitted_of_effect (fun _ db => resend_write_spec ctx env user db)
        fun _ _ _ _ left => statusOf_congr left.2.2
    apply written.andThen
    intro result
    cases result with
    | ok rawToken => exact ⟨_, rfl⟩
    | error result => exact ⟨_, rfl⟩
  | sendEmail user rawToken => exact keeps_mail _ _ _ _ _
  | done result => exact keeps_done _

/-- `ps_session_refresh` leaves the users alone, short of an error. -/
theorem users_of_refreshStep {reliable : Prop} {crypto : Crypto.Primitives} {tokenHash : Bytes}
    {idleTtlS now : Int} {newRaw : Option (Crypto.Drawn 32)} {db after : Db}
    {outcome : Session.RefreshResult × Session.Refreshed} (fine : outcome.1 ≠ .error)
    (step : RefreshStep reliable crypto tokenHash idleTtlS now newRaw db outcome after) :
    after.users = db.users := by
  cases step with
  | unknown absent => rfl
  | reused token family stored owner consumed after revoked =>
    cases revoked with
    | inl revoked =>
      rw [revoked]
      rfl
    | inr unnoticed => rw [unnoticed.2]
  | stale token family stored owner unconsumed dead => rfl
  | rotated token family raw stored owner unconsumed live inTime notIdle drawn after issued =>
    exact (Db.insertRefreshToken_eq_some issued).2.1
  | failed out after => exact absurd rfl fine

/-- No phase of a refresh changes a status. -/
theorem keeps_refresh (tokenHash : Bytes) (phase : Refresh.Phase) :
    Sql.KeepsCommitted statusOf (Refresh.step ctx env tokenHash phase) := by
  cases phase with
  | write =>
    have written : Sql.KeepsCommitted statusOf (Refresh.write ctx env tokenHash) := by
      apply Sql.keepsCommitted_of_effect fun _ db => refresh_write_spec ctx env tokenHash db
      intro reliable db outcome after left
      obtain ⟨fine, seen, rfl, step⟩ := left
      have unaudited : statusOf seen = statusOf db := statusOf_congr (users_of_refreshStep fine step)
      exact unaudited
    apply written.andThen
    intro result
    match result with
    | .ok (.ok, refreshed) => exact ⟨_, rfl⟩
    | .ok (.invalid, refreshed) => exact ⟨_, rfl⟩
    | .ok (.reuseDetected, refreshed) => exact ⟨_, rfl⟩
    | .ok (.error, refreshed) => exact ⟨_, rfl⟩
    | .error result => exact ⟨_, rfl⟩
  | readRoles refreshed =>
    exact (Sql.keeps_bind (Sql.keeps_query _) fun _ => Sql.keeps_pure _).committed
  | done result => exact keeps_done _

/-- No phase of a logout changes a status. -/
theorem keeps_logout (claims : Claims) (tokenHash : Bytes) (phase : Logout.Phase) :
    Sql.KeepsCommitted statusOf (Logout.step env claims tokenHash phase) := by
  cases phase with
  | findToken =>
    apply Sql.Keeps.committed
    apply Sql.keeps_bind (Sql.keeps_lookup _)
    intro found
    cases found with
    | none => exact Sql.keeps_pure _
    | some token => exact Sql.keeps_pure _
  | findFamily token =>
    apply Sql.Keeps.committed
    apply Sql.keeps_bind (Sql.keeps_lookup _)
    intro found
    cases found with
    | none => exact Sql.keeps_pure _
    | some family => exact Sql.keeps_ite (Sql.keeps_pure _) (Sql.keeps_pure _)
  | write token family =>
    have written : Sql.KeepsCommitted statusOf (Logout.write env token.familyId family.userId) := by
      apply Sql.keepsCommitted_of_effect fun _ db =>
        logout_write_spec env token.familyId family.userId db
      intro reliable db outcome after left
      rw [left]
      rfl
    apply written.andThen
    intro result
    cases result with
    | ok _ => exact ⟨_, rfl⟩
    | error result => exact ⟨_, rfl⟩
  | done result => exact keeps_done _

/-- No phase of a password change changes a status. -/
theorem keeps_passwordChange (claims : Claims) (input : PasswordChange.Input)
    (phase : PasswordChange.Phase) :
    Sql.KeepsCommitted statusOf (PasswordChange.step ctx env claims input phase) := by
  cases phase with
  | lookup => exact (Sql.keeps_bind (Sql.keeps_lookup _) fun _ => Sql.keeps_pure _).committed
  | auditFailure => exact keeps_audit _ _
  | write user newHash survivingFamilyId =>
    have written : Sql.KeepsCommitted statusOf
        (PasswordChange.write env claims newHash survivingFamilyId) := by
      apply Sql.keepsCommitted_of_effect fun _ db =>
        passwordChange_write_spec env claims newHash survivingFamilyId db
      intro reliable db outcome after left
      rw [left]
      exact statusOf_updateUsers_of_kept fun _ => rfl
    apply written.andThen
    intro result
    cases result with
    | ok _ => exact ⟨_, rfl⟩
    | error result => exact ⟨_, rfl⟩
  | done result => exact keeps_done _

/-- No batch of a sweep changes a status. -/
theorem keeps_sweep (settings : Settings) (scan : Scan) (stopping : Bool) (now : Int)
    (targets : List Target) :
    Sql.KeepsCommitted statusOf (runSweep settings scan stopping now targets) := by
  cases targets with
  | nil => exact keeps_done _
  | cons target targets =>
    apply Sql.Keeps.committed
    apply Sql.keeps_bind
    · apply Sql.keeps_statement
      intro db changed after done
      have result : after = (batch settings scan now target db).2 :=
        (congrArg Prod.snd (Option.some.inj done)).symm
      rw [result]
      cases target with
      | emailVerificationTokens => rfl
      | refreshTokens => rfl
      | sessionFamilies => rfl
      | devOutbox => rfl
      | auditLog => rfl
      | expiredLockouts => exact statusOf_updateUsers_of_kept fun _ => rfl
    · intro changed
      exact Sql.keeps_pure _

end Frames

/-- What a step of an activity may do to the status of a user. -/
inductive StatusChange : Activity → Int → Option UserStatus → Option UserStatus → Prop where
  /-- Nothing. -/
  | kept (activity : Activity) (userId : Int) (status : Option UserStatus) :
    StatusChange activity userId status status
  /-- Registration creates the user. -/
  | registered (env : Env) (input : Register.Input) (phase : Register.Phase) (userId : Int) :
    StatusChange (.register env input phase) userId none (some .pendingVerification)
  /-- Verification activates a pending user. -/
  | verified (env : Env) (tokenHash : Bytes) (phase : Verify.Phase) (userId : Int) :
    StatusChange (.verify env tokenHash phase) userId (some .pendingVerification) (some .active)
  /-- The operator disables the user. -/
  | disabled (userId now : Int) (done : Bool) (status : UserStatus) :
    StatusChange (.operator userId now done) userId (some status) (some .disabled)

/-- The user whose status an activity is about to set to ACTIVE. -/
def activates : Activity → Option Int
  | .verify _ _ (.write token) => some token.userId
  | _ => none

/-- What a step leaves of the statuses, if it does not activate a disabled user. -/
def StatusesChange (activity : Activity) (db after : Db) : Prop :=
  (∀ userId ∈ activates activity, statusOf db userId ≠ some .disabled) →
    ∀ userId, StatusChange activity userId (statusOf db userId) (statusOf after userId)

/-- A step that keeps every status is allowed. -/
theorem statusesChange_of_kept {activity : Activity} {db after : Db}
    (same : statusOf after = statusOf db) : StatusesChange activity db after := by
  intro _ userId
  rw [same]
  exact StatusChange.kept activity userId _

section Steps

variable {reliable : Prop} {ctx : AppCtx}

/-- A step that keeps every status, as a step of the service. -/
theorem leaves_of_keeps {α : Type} {command : Sql α} {next : α → Activity} {activity : Activity}
    (kept : Sql.KeepsCommitted statusOf command) (db : Db) :
    Sql.Leaves reliable (do return next (← command)) db fun _ after =>
      StatusesChange activity db after := by
  apply Sql.Leaves.map _ fun _ => rfl
  exact (kept reliable db).mono fun _ _ same => statusesChange_of_kept same

/-- Registration changes statuses only by creating a pending user. -/
theorem register_step_spec (env : Env) (input : Register.Input) (phase : Register.Phase) (db : Db) :
    Sql.Leaves reliable (Register.step ctx env input phase) db fun _ after =>
      StatusesChange (.register env input phase) db after := by
  have kept {command : Sql Register.Phase} (keeps : Sql.KeepsCommitted statusOf command) :
      Sql.Leaves reliable command db fun _ after =>
        StatusesChange (.register env input phase) db after :=
    (keeps reliable db).mono fun _ _ same => statusesChange_of_kept same
  cases phase with
  | write =>
    have written : Sql.Leaves reliable (Register.write ctx env input) db fun _ after =>
        StatusesChange (.register env input .write) db after := by
      refine (register_write_spec ctx env input db).mono fun result after left => ?_
      cases result with
      | error reason =>
        have same : after = db := left
        exact statusesChange_of_kept (by rw [same])
      | ok rawToken =>
        obtain ⟨newId, inserted⟩ := left
        intro _ userId
        rw [statusOf, statusOf, Table.find?_insert inserted]
        split
        · rename_i own
          have absent : db.users.find? userId = none :=
            Table.find?_eq_none_iff.mpr fun other stored same =>
              (Table.mem_insert inserted).2 other stored (same.trans own.symm)
          rw [absent]
          exact StatusChange.registered env input .write userId
        · exact StatusChange.kept _ userId _
    apply written.andThen
    intro result
    match result with
    | .ok rawToken => exact ⟨_, rfl⟩
    | .error .duplicateUsername => exact ⟨_, rfl⟩
    | .error .duplicateEmail => exact ⟨_, rfl⟩
    | .error .failed => exact ⟨_, rfl⟩
  | sendEmail rawToken => exact kept (keeps_mail _ _ _ _ _)
  | findOwner =>
    exact kept (Sql.keeps_bind (Sql.keeps_lookup _) fun _ => Sql.keeps_pure _).committed
  | auditDuplicate existing => exact kept (keeps_audit _ _)
  | mailOwner existing => exact kept (keeps_mail _ _ _ _ _)
  | done result => exact kept (keeps_done _)

/-- An update of a status is seen by its user only. -/
theorem statusOf_updateStatus (db : Db) (ownId userId : Int) (status : UserStatus) (now : Int) :
    statusOf (db.updateUsers (fun user => user.userId = ownId) (UserStore.statusChange status now))
      userId = if userId = ownId then (statusOf db userId).map fun _ => status
        else statusOf db userId := by
  rw [statusOf_updateUsers, statusOf]
  cases found : db.users.find? userId with
  | none => simp
  | some user =>
    have id := (Table.find?_eq_some_iff.mp found).2
    simp only [Option.map_some, id, decide_eq_true_eq, UserStore.statusChange]
    split
    · rfl
    · rfl

/-- Verification changes statuses only by activating a pending user, unless the user is disabled. -/
theorem verify_step_spec (env : Env) (tokenHash : Bytes) (phase : Verify.Phase) (db : Db) :
    Sql.Leaves reliable (Verify.step env tokenHash phase) db fun _ after =>
      StatusesChange (.verify env tokenHash phase) db after := by
  have kept {command : Sql Verify.Phase} (keeps : Sql.KeepsCommitted statusOf command) :
      Sql.Leaves reliable command db fun _ after =>
        StatusesChange (.verify env tokenHash phase) db after :=
    (keeps reliable db).mono fun _ _ same => statusesChange_of_kept same
  cases phase with
  | lookup =>
    apply kept
    apply Sql.Keeps.committed
    apply Sql.keeps_bind (Sql.keeps_lookup _)
    intro found
    cases found with
    | none => exact Sql.keeps_pure _
    | some token => exact Sql.keeps_pure _
  | auditFailure found => exact kept (keeps_audit _ _)
  | write token =>
    have written : Sql.Leaves reliable (Verify.write env tokenHash token) db fun _ after =>
        StatusesChange (.verify env tokenHash (.write token)) db after := by
      refine (verify_write_spec env tokenHash token db).mono fun result after left => ?_
      cases result with
      | error reason =>
        have same : after = db := left
        exact statusesChange_of_kept (by rw [same])
      | ok _ =>
        intro enabled userId
        have activated : statusOf (verifiedDb env tokenHash token.userId db) userId =
            if userId = token.userId then (statusOf db userId).map fun _ => .active
            else statusOf db userId := statusOf_updateStatus _ token.userId userId _ _
        rw [left, activated]
        by_cases own : userId = token.userId
        · rw [if_pos own]
          have here : statusOf db userId ≠ some .disabled := own ▸ enabled token.userId rfl
          match status : statusOf db userId with
          | none => exact StatusChange.kept _ userId _
          | some .pendingVerification => exact StatusChange.verified env tokenHash _ userId
          | some .active => exact StatusChange.kept _ userId _
          | some .disabled => exact absurd status here
        · rw [if_neg own]
          exact StatusChange.kept _ userId _
    apply written.andThen
    intro result
    cases result with
    | ok _ => exact ⟨_, rfl⟩
    | error result => exact ⟨_, rfl⟩
  | done result => exact kept (keeps_done _)

/-- The operator changes statuses only by disabling the chosen user. -/
theorem operator_step_spec (ownId now : Int) (done : Bool) (db : Db) :
    Sql.Leaves reliable (Activity.step ctx (.operator ownId now done)) db fun _ after =>
      StatusesChange (.operator ownId now done) db after := by
  apply Sql.Guarantees.leaves
  apply Sql.guarantees_ite
  · intro _
    exact Sql.guarantees_pure (statusesChange_of_kept rfl)
  · intro _
    apply Sql.guarantees_update
    · intro _
      exact Sql.guarantees_pure (statusesChange_of_kept rfl)
    · apply Sql.guarantees_pure
      intro _ userId
      rw [statusOf_updateStatus]
      by_cases own : userId = ownId
      · rw [if_pos own, own]
        cases statusOf db ownId with
        | none => exact StatusChange.kept _ ownId _
        | some status => exact StatusChange.disabled ownId now done status
      · rw [if_neg own]
        exact StatusChange.kept _ userId _

/-- A step of an activity changes statuses only as allowed, unless it activates a disabled user. -/
theorem activity_spec (ctx : AppCtx) (activity : Activity) (db : Db) :
    Sql.Leaves reliable (activity.step ctx) db fun _ after => StatusesChange activity db after := by
  cases activity with
  | register env input phase =>
    exact (register_step_spec env input phase db).andThen fun _ => ⟨_, rfl⟩
  | verify env tokenHash phase =>
    exact (verify_step_spec env tokenHash phase db).andThen fun _ => ⟨_, rfl⟩
  | resend env email phase => exact leaves_of_keeps (keeps_resend email phase) db
  | login env input phase =>
    have kept : Sql.KeepsCommitted statusOf (Login.step ctx env input phase) :=
      keeps_login (fun _ _ same => statusOf_congr same)
        (fun _ _ _ _ _ => statusOf_updateUsers_of_kept fun _ => rfl) ctx env input phase
    exact leaves_of_keeps kept db
  | refresh env tokenHash phase => exact leaves_of_keeps (keeps_refresh tokenHash phase) db
  | logout env claims tokenHash phase =>
    exact leaves_of_keeps (keeps_logout claims tokenHash phase) db
  | passwordChange env claims input phase =>
    exact leaves_of_keeps (keeps_passwordChange claims input phase) db
  | sweep settings now choices targets =>
    exact leaves_of_keeps (keeps_sweep settings _ _ now targets) db
  | operator ownId now done => exact operator_step_spec ownId now done db

end Steps

section Runs

variable {ι : Type} [DecidableEq ι] {ctx : AppCtx}

/-- The condition of a step: it does not activate a disabled user. -/
def ActivatesEnabled (service : Service ι) (i : ι) : Prop :=
  ∀ userId ∈ activates (service.thread i).activity, statusOf service.shared userId ≠ some .disabled

instance decidableActivatesEnabled (service : Service ι) (i : ι) :
    Decidable (ActivatesEnabled service i) :=
  inferInstanceAs (Decidable (∀ userId ∈ activates (service.thread i).activity, _))

/-- A step that meets the condition changes statuses only as allowed. -/
theorem statusChange_step {service : Service ι} {i : ι} (enabled : ActivatesEnabled service i)
    (userId : Int) :
    StatusChange (service.thread i).activity userId (statusOf service.shared userId)
      (statusOf (service.step (Running.act ctx) i).shared userId) :=
  Running.act_spec (activity_spec ctx (service.thread i).activity service.shared) enabled userId

/-- What is disabled stays disabled. -/
theorem StatusChange.stays_disabled {activity : Activity} {userId : Int}
    {before after : Option UserStatus} (change : StatusChange activity userId before after)
    (disabled : before = some .disabled) : after = some .disabled := by
  cases change with
  | kept => exact disabled
  | registered => contradiction
  | verified => simp at disabled
  | disabled => rfl

/-- As long as no verification reaches its transaction for a disabled user, statuses change only by
registration, by the verification of a pending user and by the operator, and a disabled user stays
disabled. -/
theorem status_changes_of_activatesEnabled (ctx : AppCtx) (service : Service ι) (schedule : List ι)
    (enabled : Pool.Along (Running.act ctx) ActivatesEnabled service schedule) (userId : Int) :
    (∀ before i rest, schedule = before ++ i :: rest →
      StatusChange ((service.run (Running.act ctx) before).thread i).activity userId
        (statusOf (service.run (Running.act ctx) before).shared userId)
        (statusOf (service.run (Running.act ctx) (before ++ [i])).shared userId)) ∧
    ∀ before rest, schedule = before ++ rest →
      statusOf (service.run (Running.act ctx) before).shared userId = some .disabled →
      statusOf (service.run (Running.act ctx) schedule).shared userId = some .disabled := by
  constructor
  · intro before i rest split
    rw [split] at enabled
    rw [Pool.run_append]
    exact statusChange_step enabled.at_split userId
  · intro before rest split disabled
    rw [split] at enabled ⊢
    rw [Pool.run_append]
    refine Pool.run_invariant (fun service => statusOf service.shared userId = some .disabled)
      (fun service i here allowed => ?_) disabled enabled.continuation
    exact (statusChange_step allowed userId).stays_disabled here

end Runs

/-- A verification of the outstanding token, and an operator who disables its user. -/
def verifyAndDisable : Service Bool where
  shared := Deployment.unverified .pendingVerification
  thread disables :=
    if disables then ⟨.operator 1 2000 false, []⟩
    else ⟨.verify (Deployment.env 2000 1 1) Deployment.outstanding.tokenHash .lookup, []⟩

/-- The user is verified, then disabled. -/
theorem status_changes_on_disabling_after_verification :
    statusOf (verifyAndDisable.run (Running.act Deployment.ctx) [false, false]).shared 1 =
      some .active ∧
    statusOf (verifyAndDisable.run (Running.act Deployment.ctx) [false, false, true, true]).shared 1 =
      some .disabled := by
  refine ⟨by decide +kernel, ?_⟩
  exact (status_changes_of_activatesEnabled Deployment.ctx verifyAndDisable
    [false, false, true, true] (by decide +kernel) 1).2 [false, false, true] [true] rfl
    (by decide +kernel)

/-- The user is disabled, and then activated by the token issued before. -/
theorem verification_activates_disabled_user :
    let disabled := verifyAndDisable.run (Running.act Deployment.ctx) [true, false]
    let activated := verifyAndDisable.run (Running.act Deployment.ctx) [true, false, false]
    statusOf disabled.shared 1 = some .disabled ∧ statusOf activated.shared 1 = some .active ∧
      ¬StatusChange (disabled.thread false).activity 1 (statusOf disabled.shared 1)
        (statusOf activated.shared 1) := by
  have before : statusOf (verifyAndDisable.run (Running.act Deployment.ctx) [true, false]).shared 1 =
      some .disabled := by decide +kernel
  have after : statusOf (verifyAndDisable.run (Running.act Deployment.ctx)
      [true, false, false]).shared 1 = some .active := by decide +kernel
  refine ⟨before, after, fun change => ?_⟩
  have still := change.stays_disabled before
  rw [after] at still
  contradiction

end PlatformService.Verif.Lifecycle
