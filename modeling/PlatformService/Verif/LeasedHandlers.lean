import PlatformService.Api.Resources
import PlatformService.Verif.HandlerRuns

/-!
# A handler alone

On one connection, with the slot that its `Env` grants and with memory, a handler with its
leases does what it does as an admission that is followed by phases: the leases add
nothing to the SQL that a handler issues, nor to its answer.
-/

namespace PlatformService.Verif.LeasedHandlers

open Api Json Lib Lib.Leasing Store

section Alone

variable {α ε : Type} {slot : Bool}

/-- What a handler with its leases answers on one connection, if all allocations succeed. -/
def alone (slot : Bool) (program : Leased HandlerResult) : Sql (Option HandlerResult) := do
  return some (← program.runOn (fun command => command) 0 slot true)

/-- The first connection is the one. -/
theorem alone_acquireConn (next : Nat → Leased HandlerResult) :
    alone slot (acquireConn >>= next) = alone slot (next 0) := rfl

/-- SQL is what it is. -/
theorem alone_onConn (conn : Nat) (command : Sql α) (next : α → Leased HandlerResult) :
    alone slot (onConn conn command >>= next) =
      command >>= fun value => alone slot (next value) := rfl

/-- A transaction written out, with an answer to each of its results. -/
theorem alone_transaction {failed : ε} {body : Sql (Except ε α)} {conn : Nat}
    {refused : Leased HandlerResult} {finish : Except ε α → Leased HandlerResult}
    {closing : α → Bool → Leased HandlerResult} {answer : Except ε α → Sql (Option HandlerResult)}
    (refuses : alone slot refused = answer (.error failed))
    (rollsBack : ∀ reason, alone slot (finish (.error reason)) =
      Sql.rollback >>= fun _ => answer (.error reason))
    (commits : ∀ value, finish (.ok value) = onConn conn Sql.commit >>= closing value)
    (committed : ∀ value, alone slot (closing value true) = answer (.ok value))
    (lost : ∀ value, alone slot (closing value false) = answer (.error failed)) :
    alone slot (onConn conn Sql.begin >>= fun begun =>
      if (!begun) = true then refused else onConn conn body >>= finish) =
    Sql.transaction failed body >>= answer := by
  unfold Sql.transaction
  rw [alone_onConn, bind_assoc]
  refine bind_congr fun begun => ?_
  cases begun with
  | false => exact refuses
  | true =>
    simp only [Bool.not_true, Bool.false_eq_true, if_false, bind_assoc]
    rw [alone_onConn]
    refine bind_congr fun written => ?_
    cases written with
    | error reason => exact rollsBack reason
    | ok value =>
      rw [commits, alone_onConn]
      dsimp only
      rw [bind_assoc]
      refine bind_congr fun done => ?_
      cases done with
      | false => exact lost value
      | true => exact committed value

end Alone

variable (ctx : AppCtx) (env : Env) (claims : Claims) (body : Bytes)

/-- The answer of an activity after some steps, if it has one. -/
def answering (turns : Nat) (activity : Activity) : Sql (Option HandlerResult) := do
  return (← Activity.run ctx turns activity).answer

/-- The first of some steps. -/
theorem answering_step (turns : Nat) (activity : Activity) :
    answering ctx (turns + 1) activity = activity.step ctx >>= answering ctx turns := by
  unfold answering
  simp only [Activity.run, bind_assoc]

/-- A phase of an activity that is one of a kind. -/
theorem answering_phase {Phase : Type} {wrap : Phase → Activity} {phase : Phase} {step : Sql Phase}
    (turns : Nat) (steps : (wrap phase).step ctx = do return wrap (← step)) :
    answering ctx (turns + 1) (wrap phase) =
      step >>= fun next => answering ctx turns (wrap next) := by
  rw [answering_step, steps, bind_assoc]
  rfl

/-- Parsing a body with its leases. -/
theorem alone_parsedBody {slot : Bool}
    (next : Except HandlerResult Value → Leased HandlerResult) :
    alone slot (parsedBody body >>= next) = alone slot (next (parseBody body)) := rfl

/-- Reading a token with its leases. -/
theorem alone_presentedToken {slot : Bool} (key : String) (malformed : HandlerResult)
    (next : Except HandlerResult Bytes → Leased HandlerResult) :
    alone slot (presentedToken ctx body key malformed >>= next) =
      alone slot (next (presentedHash ctx.crypto body key malformed)) := by
  unfold presentedHash presentedToken
  rw [bind_assoc, alone_parsedBody]
  cases parseBody body with
  | error refusal => rfl
  | ok object =>
    simp only [bind, Except.bind]
    cases readStringField object key 128 with
    | none => rfl
    | some text =>
      dsimp only
      cases Base64url.decode (cString text) with
      | none => rfl
      | some raw =>
        by_cases sized : raw.length = 32
        · simp only [ne_eq, sized, not_true_eq_false, if_false, if_true]
          rfl
        · simp only [ne_eq, sized, not_false_eq_true, if_true, if_false]
          rfl

/-- A phase of a verification. -/
theorem answering_verify (turns : Nat) (tokenHash : Bytes) (phase : Verify.Phase) :
    answering ctx (turns + 1) (.verify env tokenHash phase) =
      Verify.step env tokenHash phase >>= fun next =>
        answering ctx turns (.verify env tokenHash next) :=
  answering_phase ctx turns rfl

/-- Verification. -/
theorem alone_verify {slot : Bool} :
    alone slot (Verify.handle ctx env body) =
      (Call.admitted (Verify.admission ctx body) fun tokenHash =>
        .activity (.verify env tokenHash .lookup)).run ctx := by
  unfold Verify.handle Verify.admission
  rw [alone_presentedToken]
  cases presentedHash ctx.crypto body "token" Verify.invalidToken with
  | error refusal => rfl
  | ok tokenHash =>
    show _ = answering ctx 5 (.verify env tokenHash .lookup)
    rw [answering_verify]
    dsimp only
    rw [alone_acquireConn, alone_onConn]
    unfold Verify.step
    dsimp only
    rw [bind_assoc]
    refine bind_congr fun found => ?_
    cases found with
    | none =>
      show alone slot (onConn 0 _ >>= _) =
        answering ctx 4 (.verify env tokenHash (.auditFailure none))
      rw [answering_verify, alone_onConn]
      rfl
    | some token =>
      by_cases usable : Verify.usable env.now token = true
      · rw [Option.filter_some_pos usable]
        show _ = answering ctx 4 (.verify env tokenHash
          (if Verify.usable env.now token = true then _ else _))
        rw [if_pos usable, answering_verify]
        dsimp only
        unfold Verify.step
        dsimp only
        rw [bind_assoc]
        exact alone_transaction rfl (fun _ => rfl) (fun _ => rfl) (fun _ => rfl) fun _ => rfl
      · rw [Option.filter_some_neg (Bool.not_eq_true _ ▸ usable)]
        show _ = answering ctx 4 (.verify env tokenHash
          (if Verify.usable env.now token = true then _ else _))
        rw [if_neg usable, answering_verify]
        rfl

/-- A phase of a logout. -/
theorem answering_logout (turns : Nat) (tokenHash : Bytes) (phase : Logout.Phase) :
    answering ctx (turns + 1) (.logout env claims tokenHash phase) =
      Logout.step env claims tokenHash phase >>= fun next =>
        answering ctx turns (.logout env claims tokenHash next) :=
  answering_phase ctx turns rfl

/-- Logout. -/
theorem alone_logout {slot : Bool} :
    alone slot (Logout.handle ctx env claims body) =
      (Call.admitted (Logout.admission ctx body) fun tokenHash =>
        .activity (.logout env claims tokenHash .findToken)).run ctx := by
  unfold Logout.handle Logout.admission
  rw [alone_presentedToken]
  cases presentedHash ctx.crypto body "refresh_token"
    (errorResult 400 "BAD_REQUEST" "refresh_token is invalid") with
  | error refusal => rfl
  | ok tokenHash =>
    show _ = answering ctx 5 (.logout env claims tokenHash .findToken)
    rw [answering_logout]
    dsimp only
    rw [alone_acquireConn, alone_onConn]
    unfold Logout.step
    dsimp only
    rw [bind_assoc]
    refine bind_congr fun found => ?_
    cases found with
    | none => rfl
    | some token =>
      show _ = answering ctx 4 (.logout env claims tokenHash (.findFamily token))
      rw [answering_logout]
      dsimp only
      rw [alone_onConn]
      unfold Logout.step
      dsimp only
      rw [bind_assoc]
      refine bind_congr fun family => ?_
      cases family with
      | none => rfl
      | some family =>
        by_cases foreign : family.userId ≠ claims.userId
        · simp only [if_pos foreign]
          rfl
        · simp only [if_neg foreign]
          show _ = answering ctx 3 (.logout env claims tokenHash (.write token family))
          rw [answering_logout]
          unfold Logout.step
          dsimp only
          rw [bind_assoc]
          exact alone_transaction rfl (fun _ => rfl) (fun _ => rfl) (fun _ => rfl) fun _ => rfl

/-- A phase of a refresh. -/
theorem answering_refresh (turns : Nat) (tokenHash : Bytes) (phase : Refresh.Phase) :
    answering ctx (turns + 1) (.refresh env tokenHash phase) =
      Refresh.step ctx env tokenHash phase >>= fun next =>
        answering ctx turns (.refresh env tokenHash next) :=
  answering_phase ctx turns rfl

/-- Refresh. -/
theorem alone_refresh {slot : Bool} :
    alone slot (Refresh.handle ctx env body) =
      (Call.admitted (Refresh.admission ctx body) fun tokenHash =>
        .activity (.refresh env tokenHash .write)).run ctx := by
  unfold Refresh.handle Refresh.admission
  rw [alone_presentedToken]
  cases presentedHash ctx.crypto body "refresh_token" Refresh.unauthorized with
  | error refusal => rfl
  | ok tokenHash =>
    show _ = answering ctx 5 (.refresh env tokenHash .write)
    rw [answering_refresh]
    dsimp only
    rw [alone_acquireConn, alone_onConn]
    unfold Refresh.step Refresh.write Sql.transaction
    dsimp only
    simp only [bind_assoc]
    refine bind_congr fun begun => ?_
    cases begun with
    | false => rfl
    | true =>
      simp only [Bool.not_true, Bool.false_eq_true, if_false, bind_assoc]
      rw [alone_onConn]
      refine bind_congr fun outcome => ?_
      obtain ⟨result, refreshed⟩ := outcome
      dsimp only
      by_cases failed : result = .error
      · simp only [if_pos failed]
        rfl
      · simp only [if_neg failed, bind_assoc]
        rw [alone_onConn]
        refine bind_congr fun audited => ?_
        cases audited with
        | false => rfl
        | true =>
          simp only [Bool.not_true, Bool.false_eq_true, if_false, if_true, bind_assoc, pure_bind]
          rw [alone_onConn]
          refine bind_congr fun committed => ?_
          cases committed with
          | false => rfl
          | true =>
            cases result with
            | ok => rfl
            | error => contradiction
            | _ => rfl

/-- A phase of a login. -/
theorem answering_login (turns : Nat) (input : Login.Input) (phase : Login.Phase) :
    answering ctx (turns + 1) (.login env input phase) =
      Login.step ctx env input phase >>= fun next =>
        answering ctx turns (.login env input next) :=
  answering_phase ctx turns rfl

/-- A login with its slot. -/
theorem alone_login_admitted {slot : Bool} (input : Login.Input) :
    alone slot (Login.handleAdmitted ctx env input) =
      answering ctx 5 (.login env input .lookup) := by
  unfold Login.handleAdmitted
  rw [answering_login, alone_acquireConn, alone_onConn]
  unfold Login.step
  dsimp only
  rw [bind_assoc]
  refine bind_congr fun found => ?_
  generalize Login.decision ctx env input found = decided
  cases decided with
  | refuse found passwordOk =>
    show alone slot (Login.handleRefused ctx env 0 found passwordOk) =
      answering ctx 4 (.login env input (.write (.refuse found passwordOk)))
    rw [answering_login]
    unfold Login.step
    dsimp only
    rw [bind_assoc]
    exact alone_transaction rfl (fun _ => rfl) (fun _ => rfl) (fun _ => rfl) fun _ => rfl
  | accept user =>
    show alone slot (Login.handleAccepted ctx env 0 user) =
      answering ctx 4 (.login env input (.write (.accept user)))
    rw [answering_login]
    unfold Login.step
    dsimp only
    rw [bind_assoc]
    exact alone_transaction rfl (fun _ => rfl) (fun _ => rfl) (fun _ => rfl) fun _ => rfl

/-- Login. -/
theorem alone_login :
    alone env.kdfSlot (Login.handle ctx env body) =
      (Call.admitted (Login.admission ctx env body) fun input =>
        .activity (.login env input .lookup)).run ctx := by
  unfold Login.handle Login.admission
  dsimp only
  by_cases perIp : (!env.allow .perIp (namespacedIpKey (ascii "login-ip") env.peerAddr)
      (devRelaxedCount ctx.config ctx.config.ratelimitLoginPerMinute)) = true
  · rw [if_pos perIp, if_pos perIp]
    rfl
  rw [if_neg perIp, if_neg perIp, alone_parsedBody]
  cases parseBody body with
  | error refusal => rfl
  | ok object =>
    dsimp only [bind, Except.bind, pure, Except.pure]
    cases readStringField object "username" 512 with
    | none => rfl
    | some username =>
      dsimp only
      cases stringField object (ascii "password") with
      | none => rfl
      | some password =>
        dsimp only
        by_cases perUsername : (!env.allow .perUsername (lowercaseInto username Ratelimit.keyMax)
          (devRelaxedCount ctx.config ctx.config.ratelimitLoginUsernamePerMinute)) = true
        · rw [if_pos perUsername, if_pos perUsername]
          rfl
        rw [if_neg perUsername, if_neg perUsername]
        cases granted : env.kdfSlot with
        | false => rfl
        | true => exact alone_login_admitted ctx env ⟨username, password⟩

/-- A phase of a registration. -/
theorem answering_register (turns : Nat) (input : Register.Input) (phase : Register.Phase) :
    answering ctx (turns + 1) (.register env input phase) =
      Register.step ctx env input phase >>= fun next =>
        answering ctx turns (.register env input next) :=
  answering_phase ctx turns rfl

/-- A registration that uses the database. -/
theorem alone_register_admitted {slot : Bool} (input : Register.Input) :
    alone slot (Register.handleAdmitted ctx env input) =
      answering ctx 5 (.register env input .write) := by
  unfold Register.handleAdmitted
  rw [answering_register, alone_acquireConn, alone_onConn]
  unfold Register.step Register.write Sql.transaction
  dsimp only
  simp only [bind_assoc]
  refine bind_congr fun begun => ?_
  cases begun with
  | false => rfl
  | true =>
    simp only [Bool.not_true, Bool.false_eq_true, if_false, bind_assoc]
    rw [alone_onConn]
    refine bind_congr fun inserted => ?_
    cases inserted with
    | duplicateUsername => rfl
    | duplicateEmail =>
      dsimp only
      rw [alone_onConn]
      simp only [pure_bind, bind_assoc]
      refine bind_congr fun _ => ?_
      rw [answering_register]
      unfold Register.step
      dsimp only
      rw [bind_assoc]
      unfold Register.notifyDuplicate
      rw [bind_assoc, alone_onConn]
      refine bind_congr fun found => ?_
      show _ = answering ctx 3 (.register env input (.auditDuplicate found))
      rw [answering_register]
      cases found with
      | none => rfl
      | some owner => rfl
    | error => rfl
    | ok userId =>
      dsimp only
      simp only [bind_assoc]
      rw [alone_onConn]
      refine bind_congr fun inserted => ?_
      cases inserted with
      | none => rfl
      | some rawToken =>
        dsimp only
        simp only [bind_assoc]
        rw [alone_onConn]
        refine bind_congr fun audited => ?_
        cases audited with
        | false => rfl
        | true =>
          simp only [Bool.not_true, Bool.false_eq_true, if_false, if_true, pure_bind, bind_assoc]
          rw [alone_onConn]
          refine bind_congr fun committed => ?_
          cases committed with
          | false => rfl
          | true => rfl

/-- Registration. -/
theorem alone_register :
    alone env.kdfSlot (Register.handle ctx env body) =
      (Call.admitted (Register.admission ctx env body) fun input =>
        .activity (.register env input .write)).run ctx := by
  unfold Register.handle Register.admission
  dsimp only
  by_cases limited : (!(env.allow .perIp (namespacedIpKey (ascii "register-ip") env.peerAddr)
        (devRelaxedCount ctx.config ctx.config.ratelimitRegisterPerMinute) &&
      env.allow .global (ascii "register:__global__")
        (devRelaxedCount ctx.config ctx.config.ratelimitRegisterGlobalPerMinute))) = true
  · rw [if_pos limited, if_pos limited]
    rfl
  rw [if_neg limited, if_neg limited, alone_parsedBody]
  cases parseBody body with
  | error refusal => rfl
  | ok object =>
    dsimp only [bind, Except.bind, pure, Except.pure]
    cases readStringField object "username" 512 with
    | none => rfl
    | some rawUsername =>
      dsimp only
      cases readStringField object "email" 512 with
      | none => rfl
      | some rawEmail =>
        dsimp only
        cases stringField object (ascii "password") with
        | none => rfl
        | some password =>
          dsimp only
          cases Validate.username rawUsername Validate.usernameMax true with
          | valid username =>
            dsimp only
            cases Validate.email rawEmail Validate.emailMax with
            | valid emailNormalized =>
              dsimp only
              by_cases weak : Password.policyCheck password ctx.config.passwordMinLength
                  ctx.config.passwordMaxLength ctx.passwordDenylist ≠ .ok
              · rw [if_pos weak, if_pos weak]
                rfl
              rw [if_neg weak, if_neg weak]
              cases granted : env.kdfSlot with
              | false => rfl
              | true =>
                cases Password.hash ctx.crypto password ctx.config.kdfIterations env.salt with
                | none => rfl
                | some hash =>
                  exact alone_register_admitted ctx env ⟨username, rawEmail, emailNormalized, hash⟩
            | _ => rfl
          | _ => rfl

/-- A phase of a resend. -/
theorem answering_resend (turns : Nat) (email : Bytes) (phase : Resend.Phase) :
    answering ctx (turns + 1) (.resend env email phase) =
      Resend.step ctx env email phase >>= fun next =>
        answering ctx turns (.resend env email next) :=
  answering_phase ctx turns rfl

/-- A resend that uses the database. -/
theorem alone_resend_admitted {slot : Bool} (email : Bytes) :
    alone slot (Resend.handleAdmitted ctx env email) =
      answering ctx 5 (.resend env email .lookup) := by
  unfold Resend.handleAdmitted
  rw [answering_resend, alone_acquireConn, alone_onConn]
  unfold Resend.step
  dsimp only
  rw [bind_assoc]
  refine bind_congr fun found => ?_
  cases found with
  | none => rfl
  | some user =>
    dsimp only
    by_cases settled : user.status ≠ .pendingVerification
    · simp only [if_pos settled]
      rfl
    simp only [if_neg settled]
    show _ = answering ctx 4 (.resend env email (.countMinute user))
    rw [answering_resend, alone_onConn]
    unfold Resend.step
    dsimp only
    rw [bind_assoc]
    refine bind_congr fun recentMinute => ?_
    cases recentMinute with
    | none => rfl
    | some recentMinute =>
      show _ = answering ctx 3 (.resend env email (.countDay user recentMinute))
      dsimp only
      rw [answering_resend, alone_onConn]
      unfold Resend.step
      dsimp only
      rw [bind_assoc]
      refine bind_congr fun recentDay => ?_
      cases recentDay with
      | none => rfl
      | some recentDay =>
        dsimp only
        by_cases throttled : 0 < recentMinute ∨
            devRelaxedCount ctx.config ctx.config.resendMaxPerDay ≤ (recentDay : Int)
        · simp only [if_pos throttled]
          rfl
        simp only [if_neg throttled]
        show alone slot (Resend.handlePending ctx env 0 user) =
          answering ctx 2 (.resend env email (.write user))
        rw [answering_resend]
        unfold Resend.step
        dsimp only
        rw [bind_assoc]
        exact alone_transaction rfl (fun _ => rfl) (fun _ => rfl) (fun _ => rfl) fun _ => rfl

/-- Resending. -/
theorem alone_resend {slot : Bool} :
    alone slot (Resend.handle ctx env body) =
      (Call.admitted (Resend.admission body) fun email =>
        .activity (.resend env email .lookup)).run ctx := by
  unfold Resend.handle Resend.admission
  rw [alone_parsedBody]
  cases parseBody body with
  | error refusal => rfl
  | ok object =>
    dsimp only [bind, Except.bind, pure, Except.pure]
    cases readStringField object "email" 512 with
    | none => rfl
    | some rawEmail =>
      dsimp only
      cases Validate.email rawEmail Validate.emailMax with
      | valid emailNormalized => exact alone_resend_admitted ctx env emailNormalized
      | _ => rfl

/-- A phase of a password change. -/
theorem answering_password (turns : Nat) (input : PasswordChange.Input)
    (phase : PasswordChange.Phase) :
    answering ctx (turns + 1) (.passwordChange env claims input phase) =
      PasswordChange.step ctx env claims input phase >>= fun next =>
        answering ctx turns (.passwordChange env claims input next) :=
  answering_phase ctx turns rfl

/-- A password change that uses the database. -/
theorem alone_password_admitted (input : PasswordChange.Input) :
    alone env.kdfSlot (PasswordChange.handleAdmitted ctx env claims input) =
      answering ctx 5 (.passwordChange env claims input .lookup) := by
  unfold PasswordChange.handleAdmitted
  rw [answering_password, alone_acquireConn, alone_onConn]
  unfold PasswordChange.step PasswordChange.decision
  dsimp only
  rw [bind_assoc]
  refine bind_congr fun found => ?_
  by_cases limited : (!env.allow .perUsername (PasswordChange.limiterKey claims found)
      (devRelaxedCount ctx.config ctx.config.ratelimitLoginUsernamePerMinute)) = true
  · simp only [if_pos limited]
    rfl
  simp only [if_neg limited]
  cases granted : env.kdfSlot with
  | false => rfl
  | true =>
    cases found with
    | none => rfl
    | some user =>
      by_cases wrong : Password.verify ctx.crypto input.currentPassword (storedHash user) = true
      · simp only [Option.any_some, wrong, Bool.not_true, Bool.false_eq_true, if_false, if_true]
        cases Password.hash ctx.crypto input.newPassword ctx.config.kdfIterations env.salt with
        | none => rfl
        | some newHash =>
          cases hexDecode claims.familyId with
          | none => rfl
          | some survivor =>
            show alone true (PasswordChange.handleVerified env claims 0 newHash survivor) =
              answering ctx 4 (.passwordChange env claims input (.write user newHash survivor))
            rw [answering_password]
            unfold PasswordChange.step
            dsimp only
            rw [bind_assoc]
            exact alone_transaction rfl (fun _ => rfl) (fun _ => rfl) (fun _ => rfl) fun _ => rfl
      · simp only [Option.any_some, wrong, Bool.not_false, if_true]
        rfl

/-- Password change. -/
theorem alone_password :
    alone env.kdfSlot (PasswordChange.handle ctx env claims body) =
      (Call.admitted (PasswordChange.admission ctx body) fun input =>
        .activity (.passwordChange env claims input .lookup)).run ctx := by
  unfold PasswordChange.handle PasswordChange.admission
  dsimp only
  rw [alone_parsedBody]
  cases parseBody body with
  | error refusal => rfl
  | ok object =>
    dsimp only [bind, Except.bind, pure, Except.pure]
    cases stringField object (ascii "current_password") with
    | none => rfl
    | some currentPassword =>
      cases stringField object (ascii "new_password") with
      | none => rfl
      | some newPassword =>
        dsimp only
        by_cases weak : Password.policyCheck newPassword ctx.config.passwordMinLength
            ctx.config.passwordMaxLength ctx.passwordDenylist ≠ .ok
        · rw [if_pos weak, if_pos weak]
          rfl
        · rw [if_neg weak, if_neg weak]
          exact alone_password_admitted ctx env claims ⟨currentPassword, newPassword⟩

/-- Reading a user. -/
theorem alone_users {slot : Bool} (targetUserId : Int) :
    alone slot (Users.handle env claims targetUserId) =
      (Call.getUser env claims targetUserId).run ctx := by
  unfold Users.handle
  rw [alone_acquireConn, alone_onConn]
  unfold Call.run Users.getUser
  dsimp only
  rw [bind_assoc]
  refine bind_congr fun found => ?_
  cases found with
  | none => rfl
  | some target =>
    by_cases own : claims.userId = targetUserId
    · simp only [own, ne_eq, not_true_eq_false, if_false, if_true]
      rfl
    · simp only [own, ne_eq, not_false_eq_true, if_true, if_false]
      rfl

/-- Counting users. -/
theorem alone_count {slot : Bool} : alone slot Admin.handleCount = Call.countUsers.run ctx := by
  unfold Admin.handleCount
  rw [alone_acquireConn, alone_onConn]
  unfold Call.run Admin.countUsers
  dsimp only
  rw [bind_assoc]
  refine bind_congr fun counted => ?_
  cases counted with
  | none => rfl
  | some count => rfl

/-- Listing users. -/
theorem alone_list {slot : Bool} (query : Option Bytes) :
    alone slot (Admin.handleList env claims query) =
      (Call.admitted (Admin.page query) fun page => .listUsers env claims page).run ctx := by
  unfold Admin.handleList
  cases Admin.page query with
  | error refusal => rfl
  | ok page =>
    dsimp only
    rw [alone_acquireConn, alone_onConn]
    unfold Call.admitted Call.run Admin.listUsers
    dsimp only
    rw [bind_assoc]
    refine bind_congr fun rows => ?_
    cases rows with
    | none => rfl
    | some rows => rfl

/-- A handler with its leases, alone on a connection, does what it does from its admission on. -/
theorem alone_handle (draining : Bool) (request : Http.Request) (handler : Handler) :
    alone env.kdfSlot (handler.handle ctx env draining request) =
      (handler.start ctx env draining request).run ctx := by
  cases handler with
  | healthz => rfl
  | readyz =>
    cases draining with
    | false => rfl
    | true => rfl
  | register => exact alone_register ctx env _
  | verify => exact alone_verify ctx env _
  | resendVerification => exact alone_resend ctx env _
  | login => exact alone_login ctx env _
  | refresh => exact alone_refresh ctx env _
  | logout claims => exact alone_logout ctx env claims _
  | passwordChange claims => exact alone_password ctx env claims _
  | getUser claims targetUserId => exact alone_users ctx env claims targetUserId
  | countUsers claims => exact alone_count ctx
  | listUsers claims => exact alone_list ctx env claims _

end PlatformService.Verif.LeasedHandlers
