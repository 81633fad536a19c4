import PlatformService.Api.System
import PlatformService.Verif.Deployment
import PlatformService.Verif.SessionSpecs

/-!
# Freshness of credentials

Login and password change read the password columns of a user, run the KDF outside
the database and write in a later transaction, which does not look at the columns
again. A session is opened, and a password replaced, against the stored password
as long as the columns that were read are still stored when the transaction
begins; a password change then leaves no session open that an old password opened.
-/

namespace PlatformService.Verif.Credentials

open Lib Store Crypto Api SessionStore

/-- The stored password of a user. -/
def passwordOf (db : Db) (userId : Int) : Option Password.Hash :=
  (db.users.find? userId).map storedHash

/-- A login or a password change at its beginning. -/
def Begins : Activity → Prop
  | .login _ _ .lookup => True
  | .passwordChange _ _ _ .lookup => True
  | _ => False

/-- What an activity that is about to write has checked. -/
structure Check where
  userId : Int
  /-- The password submitted. -/
  password : Bytes
  /-- The password columns it was checked against. -/
  read : Password.Hash
  deriving DecidableEq, Repr

/-- The check on which the transaction of an activity rests. -/
def checked : Activity → Option Check
  | .login _ input (.write (.accept user)) => some ⟨user.userId, input.password, storedHash user⟩
  | .passwordChange _ claims input (.write user _ _) =>
    some ⟨claims.userId, input.currentPassword, storedHash user⟩
  | _ => none

/-- A login or a password change, whose check has succeeded if it is about to write. -/
def UnderWay (ctx : AppCtx) (activity : Activity) : Prop :=
  (match activity with
    | .login .. => True
    | .passwordChange .. => True
    | _ => False) ∧
  ∀ check, checked activity = some check →
    Password.verify ctx.crypto check.password check.read = true

/-- The activity has opened its session, or replaced the password. -/
def committed : Activity → Bool
  | .login _ _ (.readRoles _ _) => true
  | .passwordChange _ _ _ (.done result) => result.status = 204
  | _ => false

/-- The user, the new password and the surviving family of a password change about to write. -/
def replaces : Activity → Option (Int × Password.Hash × Bytes)
  | .passwordChange _ claims _ (.write _ newHash survivingFamilyId) =>
    some (claims.userId, newHash, survivingFamilyId)
  | _ => none

/-- A password accepted by what is stored for a user. -/
def Authorised (ctx : AppCtx) (db : Db) (userId : Int) (password : Bytes) : Prop :=
  ∃ hash, passwordOf db userId = some hash ∧ Password.verify ctx.crypto password hash = true

/-- The transaction of a login that opens a family of a user with a password. -/
def OpensFamily (activity : Activity) (family : SessionFamilyRow) (password : Bytes) : Prop :=
  ∃ env input user, activity = .login env input (.write (.accept user)) ∧
    input.password = password ∧ family.userId = user.userId ∧
      env.familyId.map Drawn.bytes = some family.familyId

/-- What a step of a login or a password change does to sessions and passwords. -/
structure CredentialStep (ctx : AppCtx) (activity : Activity) (db : Db) (next : Activity)
    (after : Db) : Prop where
  underWay : UnderWay ctx next
  /-- A live family is one that was live, or one that a login opened. -/
  families : ∀ family ∈ after.sessionFamilies, family.revokedAt = none →
    family ∈ db.sessionFamilies ∨ ∃ password, OpensFamily activity family password
  /-- A password change stores the new password and spares one family of the user. -/
  changes : ∀ userId newHash survivingFamilyId,
    replaces activity = some (userId, newHash, survivingFamilyId) → committed next = true →
    (∀ family ∈ after.sessionFamilies, family.userId = userId → family.revokedAt = none →
      family.familyId = survivingFamilyId) ∧
    passwordOf after userId = (passwordOf db userId).map fun _ => newHash

section Steps

variable {reliable : Prop} {ctx : AppCtx} {env : Env}

/-- A step that is no password change and leaves the families alone. -/
theorem credentialStep_of_kept {activity next : Activity} {db after : Db}
    (underWay : UnderWay ctx next) (same : after.sessionFamilies = db.sessionFamilies)
    (unchanged : committed next = true → replaces activity = none) :
    CredentialStep ctx activity db next after where
  underWay := underWay
  families _ stored _ := Or.inl (same ▸ stored)
  changes userId newHash survivingFamilyId here done := by
    rw [unchanged done] at here
    contradiction

/-- What a step of a login does to sessions and passwords. -/
theorem login_step_spec {input : Login.Input} {phase : Login.Phase} (db : Db) :
    Sql.Leaves reliable (Login.step ctx env input phase) db fun next after =>
      CredentialStep ctx (.login env input phase) db (.login env input next) after := by
  have kept {next : Login.Phase} {after : Db}
      (underWay : UnderWay ctx (.login env input next))
      (same : after.sessionFamilies = db.sessionFamilies) :
      CredentialStep ctx (.login env input phase) db (.login env input next) after :=
    credentialStep_of_kept underWay same fun _ => rfl
  cases phase with
  | lookup =>
    have decided (found : Option UserRow) :
        UnderWay ctx (.login env input (.write (Login.decision ctx env input found))) := by
      refine ⟨trivial, fun check rests => ?_⟩
      cases outcome : Login.decision ctx env input found with
      | refuse found passwordOk =>
        rw [outcome] at rests
        contradiction
      | accept user =>
        rw [outcome] at rests
        rw [← Option.some.inj rests]
        exact (decision_eq_accept outcome).2.1
    apply Sql.Guarantees.leaves
    apply Sql.guarantees_lookup
    · intro _
      exact Sql.guarantees_pure (kept (decided none) rfl)
    · exact Sql.guarantees_pure (kept (decided _) rfl)
  | write decision =>
    cases decision with
    | refuse found passwordOk =>
      have done (result : HandlerResult) : UnderWay ctx (.login env input (.done result)) :=
        ⟨trivial, fun _ impossible => by contradiction⟩
      apply (writeFailure_spec ctx env found passwordOk db).andReturn
      intro result after left
      cases result with
      | error reason => exact ⟨_, rfl, kept (done _) (by rw [left.2])⟩
      | ok _ => exact ⟨_, rfl, kept (done _) left.2⟩
    | accept user =>
      apply (writeSuccess_spec ctx env user.userId db).andReturn
      intro result after left
      cases result with
      | error reason =>
        have same : after = db := left
        exact ⟨_, rfl, kept ⟨trivial, fun _ impossible => by contradiction⟩ (by rw [same])⟩
      | ok session =>
        have opened : Opens _ _ _ _ _ _ _ _ session after := left
        refine ⟨_, rfl, ⟨trivial, fun _ impossible => by contradiction⟩, fun family stored _ => ?_,
          fun _ _ _ impossible => by contradiction⟩
        cases ((Table.mem_insert opened.family).1 family).mp stored with
        | inl old => exact Or.inl old
        | inr new =>
          refine Or.inr ⟨input.password, env, input, user, rfl, rfl, ?_⟩
          rw [new]
          exact ⟨rfl, opened.familyDrawn⟩
  | readRoles userId session =>
    have done (result : HandlerResult) : UnderWay ctx (.login env input (.done result)) :=
      ⟨trivial, fun _ impossible => by contradiction⟩
    apply Sql.Guarantees.leaves
    apply Sql.guarantees_query
    · intro _
      exact Sql.guarantees_pure (kept (done _) rfl)
    · exact Sql.guarantees_pure (kept (done _) rfl)
  | done result =>
    exact Sql.Guarantees.leaves (Sql.guarantees_pure
      (kept ⟨trivial, fun _ impossible => by contradiction⟩ rfl))

/-- A decision to write rests on a check that succeeded. -/
theorem verify_of_write {claims : Claims} {input : PasswordChange.Input} {found : Option UserRow}
    {user : UserRow} {newHash : Password.Hash} {survivingFamilyId : Bytes}
    (decided : PasswordChange.decision ctx env claims input found =
      .write user newHash survivingFamilyId) :
    Password.verify ctx.crypto input.currentPassword (storedHash user) = true :=
  (passwordChange_decides_write decided).2.1

/-- The stored password after a password change. -/
theorem passwordOf_changedUsers (db : Db) (userId : Int) (newHash : Password.Hash) (now : Int) :
    passwordOf (changedUsers db userId newHash now) userId =
      (passwordOf db userId).map fun _ => newHash := by
  rw [passwordOf, changedUsers, Db.find?_updateUsers, passwordOf]
  cases stored : db.users.find? userId with
  | none => rfl
  | some user => simp [(Table.find?_eq_some_iff.mp stored).2, storedHash, UserStore.passwordColumns]

/-- What a step of a password change does to sessions and passwords. -/
theorem passwordChange_step_spec {claims : Claims} {input : PasswordChange.Input}
    {phase : PasswordChange.Phase} (db : Db) :
    Sql.Leaves reliable (PasswordChange.step ctx env claims input phase) db fun next after =>
      CredentialStep ctx (.passwordChange env claims input phase) db
        (.passwordChange env claims input next) after := by
  have done (result : HandlerResult) :
      UnderWay ctx (.passwordChange env claims input (.done result)) :=
    ⟨trivial, fun _ impossible => by contradiction⟩
  cases phase with
  | lookup =>
    have decided (found : Option UserRow) :
        CredentialStep ctx (.passwordChange env claims input .lookup) db (.passwordChange env claims
          input (PasswordChange.decision ctx env claims input found).phase) db := by
      refine credentialStep_of_kept ⟨trivial, fun check rests => ?_⟩ rfl fun _ => rfl
      cases outcome : PasswordChange.decision ctx env claims input found with
      | answer result =>
        rw [outcome] at rests
        contradiction
      | auditFailure =>
        rw [outcome] at rests
        contradiction
      | write user newHash survivingFamilyId =>
        rw [outcome] at rests
        rw [← Option.some.inj rests]
        exact verify_of_write outcome
    apply Sql.Guarantees.leaves
    apply Sql.guarantees_lookup
    · intro _
      exact Sql.guarantees_pure (decided none)
    · exact Sql.guarantees_pure (decided _)
  | auditFailure =>
    have refused (after : Db) (result : HandlerResult)
        (same : after.sessionFamilies = db.sessionFamilies) :
        CredentialStep ctx (.passwordChange env claims input .auditFailure) db
          (.passwordChange env claims input (.done result)) after :=
      credentialStep_of_kept (done result) same fun _ => rfl
    apply Sql.Guarantees.leaves
    apply Sql.guarantees_update
    · intro _
      exact Sql.guarantees_pure (refused db _ rfl)
    · exact Sql.guarantees_pure (refused _ _ rfl)
  | write user newHash survivingFamilyId =>
    apply (passwordChange_write_spec env claims newHash survivingFamilyId db).andReturn
    intro result after left
    cases result with
    | error reason =>
      have same : after = db := left
      refine ⟨_, rfl, credentialStep_of_kept (done _) (by rw [same]) fun impossible => ?_⟩
      simp [committed, internalErrorResult] at impossible
    | ok _ =>
      have changed : after = passwordChangedDb env claims.userId newHash survivingFamilyId db := left
      rw [changed]
      refine ⟨_, rfl, done _, fun family stored live => ?_, ?_⟩
      · obtain ⟨old, member, rfl⟩ := Db.mem_revokeFamilies.mp stored
        split at live
        · contradiction
        · rename_i spared
          rw [if_neg spared]
          exact Or.inl member
      · intro userId newHash' survivingFamilyId' here _
        cases here
        refine ⟨fun family stored owner live => ?_, passwordOf_changedUsers db _ _ _⟩
        obtain ⟨old, member, rfl⟩ := Db.mem_revokeFamilies.mp stored
        split at live
        · contradiction
        · rename_i spared
          rw [if_neg spared] at owner ⊢
          by_contra other
          exact spared (by simp [liveFamilyOf, owner, live, other])
  | done result =>
    exact Sql.Guarantees.leaves (Sql.guarantees_pure (credentialStep_of_kept (done result) rfl
      fun _ => rfl))

/-- What a step of an activity under way does to sessions and passwords. -/
theorem activity_spec {activity : Activity} (underWay : UnderWay ctx activity) (db : Db) :
    Sql.Leaves reliable (activity.step ctx) db (CredentialStep ctx activity db) := by
  cases activity with
  | login env input phase => exact Sql.Leaves.map (login_step_spec db) fun _ => rfl
  | passwordChange env claims input phase =>
    exact Sql.Leaves.map (passwordChange_step_spec db) fun _ => rfl
  | register env input phase => exact underWay.1.elim
  | verify env tokenHash phase => exact underWay.1.elim
  | resend env email phase => exact underWay.1.elim
  | refresh env tokenHash phase => exact underWay.1.elim
  | logout env claims tokenHash phase => exact underWay.1.elim
  | sweep settings now choices targets => exact underWay.1.elim
  | operator userId now done => exact underWay.1.elim

end Steps

section Runs

variable {ι : Type} {ctx : AppCtx}

/-- The condition of a step: an activity that begins its transaction finds the password columns that
it read. -/
def Undisturbed (service : Service ι) (i : ι) : Prop :=
  ∀ check ∈ checked (service.thread i).activity,
    passwordOf service.shared check.userId = some check.read

instance decidableUndisturbed (service : Service ι) (i : ι) : Decidable (Undisturbed service i) :=
  inferInstanceAs (Decidable (∀ check ∈ checked (service.thread i).activity, _))

/-- An undisturbed transaction is authorised by what is stored. -/
theorem authorised_of_undisturbed {service : Service ι} {i : ι}
    (underWay : UnderWay ctx (service.thread i).activity) (undisturbed : Undisturbed service i)
    {check : Check} (rests : checked (service.thread i).activity = some check) :
    Authorised ctx service.shared check.userId check.password :=
  ⟨check.read, undisturbed check rests, underWay.2 check rests⟩

/-- An undisturbed login opens a family with a password that is stored. -/
theorem authorised_of_opensFamily {service : Service ι} {i : ι}
    (underWay : UnderWay ctx (service.thread i).activity) (undisturbed : Undisturbed service i)
    {family : SessionFamilyRow} {password : Bytes}
    (opens : OpensFamily (service.thread i).activity family password) :
    Authorised ctx service.shared family.userId password := by
  obtain ⟨env, input, user, here, given, owner, _⟩ := opens
  have rests : checked (service.thread i).activity =
      some ⟨user.userId, input.password, storedHash user⟩ := by
    rw [here]
    rfl
  rw [← given, owner]
  exact authorised_of_undisturbed underWay undisturbed rests

/-- A password change about to write rests on a check of its own user. -/
theorem checked_of_replaces {activity : Activity} {userId : Int} {newHash : Password.Hash}
    {survivingFamilyId : Bytes}
    (here : replaces activity = some (userId, newHash, survivingFamilyId)) :
    ∃ check, checked activity = some check ∧ check.userId = userId := by
  unfold replaces at here
  split at here
  · exact ⟨_, rfl, congrArg Prod.fst (Option.some.inj here)⟩
  · contradiction

/-- A beginning activity is under way. -/
theorem underWay_of_begins {activity : Activity} (begins : Begins activity) :
    UnderWay ctx activity := by
  unfold Begins at begins
  split at begins
  · exact ⟨trivial, fun _ impossible => by contradiction⟩
  · exact ⟨trivial, fun _ impossible => by contradiction⟩
  · exact begins.elim

variable [DecidableEq ι]

/-- What a step of the service does to sessions and passwords. -/
theorem credentialStep_step {service : Service ι} {i : ι}
    (underWay : UnderWay ctx (service.thread i).activity) :
    CredentialStep ctx (service.thread i).activity service.shared
      ((service.step (Running.act ctx) i).thread i).activity
      (service.step (Running.act ctx) i).shared := by
  rw [Pool.thread_step_self]
  exact Running.act_spec (activity_spec underWay service.shared)

/-- Activities under way stay so. -/
theorem underWay_run {service : Service ι} (start : ∀ i, UnderWay ctx (service.thread i).activity)
    (schedule : List ι) (i : ι) :
    UnderWay ctx ((service.run (Running.act ctx) schedule).thread i).activity := by
  revert i
  refine Pool.run_keeps (fun service : Service ι => ∀ i, UnderWay ctx (service.thread i).activity) ?_
    start schedule
  intro service j here i
  by_cases own : i = j
  · rw [own]
    exact (credentialStep_step (here j)).underWay
  · rw [Pool.thread_step_of_ne service own]
    exact here i

/-- Where all live families of a user but one have been revoked, every other live family found later
was opened since, with the password stored at that time. -/
theorem opened_since {service : Service ι} {userId : Int} {survivingFamilyId : Bytes}
    (underWay : ∀ i, UnderWay ctx (service.thread i).activity)
    (revoked : ∀ family ∈ service.shared.sessionFamilies, family.userId = userId →
      family.revokedAt = none → family.familyId = survivingFamilyId) {rest : List ι}
    (undisturbed : Pool.Along (Running.act ctx) Undisturbed service rest) {family : SessionFamilyRow}
    (stored : family ∈ (service.run (Running.act ctx) rest).shared.sessionFamilies)
    (owner : family.userId = userId) (live : family.revokedAt = none)
    (other : family.familyId ≠ survivingFamilyId) :
    ∃ middle j later password, rest = middle ++ j :: later ∧
      OpensFamily ((service.run (Running.act ctx) middle).thread j).activity family password ∧
      Authorised ctx (service.run (Running.act ctx) middle).shared userId password := by
  -- Backwards along the run: the last step opened the family, or found it live.
  induction rest using List.reverseRecOn with
  | nil => exact absurd (revoked family stored owner live) other
  | append_singleton rest j ih =>
    rw [Pool.run_append] at stored
    have under := underWay_run underWay rest j
    cases (credentialStep_step under).families family stored live with
    | inl before =>
      obtain ⟨middle, k, later, password, split, opened⟩ := ih undisturbed.beginning before
      exact ⟨middle, k, later ++ [j], password, by simp [split], opened⟩
    | inr opened =>
      obtain ⟨password, opens⟩ := opened
      have authorised := authorised_of_opensFamily under undisturbed.at_split opens
      rw [owner] at authorised
      exact ⟨rest, j, [], password, rfl, opens, authorised⟩

/-- As long as every login and password change finds, when its transaction begins, the password
columns it read: each opened session and each replaced password was authorised against the stored
password, and after a password change every live family of the user but the surviving one was opened
later, with the password stored then. -/
theorem credentials_fresh_of_undisturbed (ctx : AppCtx) (service : Service ι) (schedule : List ι)
    (begins : ∀ i, Begins (service.thread i).activity)
    (undisturbed : Pool.Along (Running.act ctx) Undisturbed service schedule) :
    (∀ before i rest check, schedule = before ++ i :: rest →
      checked ((service.run (Running.act ctx) before).thread i).activity = some check →
      committed ((service.run (Running.act ctx) (before ++ [i])).thread i).activity = true →
      Authorised ctx (service.run (Running.act ctx) before).shared check.userId check.password) ∧
    ∀ before i rest userId newHash survivingFamilyId, schedule = before ++ i :: rest →
      replaces ((service.run (Running.act ctx) before).thread i).activity =
        some (userId, newHash, survivingFamilyId) →
      committed ((service.run (Running.act ctx) (before ++ [i])).thread i).activity = true →
      passwordOf (service.run (Running.act ctx) (before ++ [i])).shared userId = some newHash ∧
      ∀ family ∈ (service.run (Running.act ctx) schedule).shared.sessionFamilies,
        family.userId = userId → family.revokedAt = none → family.familyId ≠ survivingFamilyId →
        ∃ middle j later password, rest = middle ++ j :: later ∧
          OpensFamily ((service.run (Running.act ctx) (before ++ i :: middle)).thread j).activity
            family password ∧
          Authorised ctx (service.run (Running.act ctx) (before ++ i :: middle)).shared userId
            password := by
  have start (i : ι) : UnderWay ctx (service.thread i).activity := underWay_of_begins (begins i)
  have underWay := underWay_run start
  constructor
  · intro before i rest check split rests _
    rw [split] at undisturbed
    exact authorised_of_undisturbed (underWay before i) undisturbed.at_split rests
  · intro before i rest userId newHash survivingFamilyId split here done
    rw [split] at undisturbed
    have changed : CredentialStep ctx ((service.run (Running.act ctx) before).thread i).activity
        (service.run (Running.act ctx) before).shared
        ((service.run (Running.act ctx) (before ++ [i])).thread i).activity
        (service.run (Running.act ctx) (before ++ [i])).shared := by
      rw [Pool.run_append]
      exact credentialStep_step (underWay before i)
    obtain ⟨revoked, replaced⟩ := changed.changes userId newHash survivingFamilyId here done
    obtain ⟨check, rests, own⟩ := checked_of_replaces here
    have found := undisturbed.at_split check rests
    refine ⟨by rw [replaced, ← own, found]; rfl, fun family stored owner live other => ?_⟩
    have steps (middle : List ι) : service.run (Running.act ctx) (before ++ i :: middle) =
        (service.run (Running.act ctx) (before ++ [i])).run (Running.act ctx) middle := by
      rw [← Pool.run_append, List.append_assoc, List.singleton_append]
    rw [split, steps] at stored
    rw [← List.singleton_append, ← List.append_assoc] at undisturbed
    obtain ⟨middle, j, later, password, parts, opened⟩ := opened_since
      (underWay (before ++ [i])) revoked undisturbed.continuation stored owner live other
    exact ⟨middle, j, later, password, parts, by rw [steps]; exact opened⟩

end Runs

/-- The claims of an access token whose session is the family of nines. -/
def changerClaims : Claims where
  userId := 1
  roles := 1
  iat := 1500
  nbf := 1500
  exp := 2400
  jti := hexEncodeLower (Deployment.sixteen 1).bytes
  familyId := hexEncodeLower (Deployment.sixteen 9).bytes

/-- A login with the current password, and a change of that password. -/
def loginAndChange : Service Bool where
  shared := Deployment.database .active
  thread changes :=
    if changes then
      ⟨.passwordChange (Deployment.env 2000 1 1) changerClaims
        ⟨ascii "correct horse", ascii "new horse staple"⟩ .lookup, []⟩
    else ⟨.login (Deployment.env 2000 2 2) ⟨ascii "alice", ascii "correct horse"⟩ .lookup, []⟩

/-- The family the login opens, while it is live. -/
def openedFamily : SessionFamilyRow := newFamily (Deployment.sixteen 2).bytes 1 7776000 2000

/-- A login, then the password change: the new password is stored and the login's family is dead. -/
theorem credentials_fresh_on_change_after_login :
    let final := loginAndChange.run (Running.act Deployment.ctx) [false, false, true, true]
    (passwordOf final.shared 1).map Password.Hash.salt = some (Deployment.sixteen 34).bytes ∧
      openedFamily ∉ final.shared.sessionFamilies := by
  have begins (i : Bool) : Begins (loginAndChange.thread i).activity := by
    cases i with
    | false => trivial
    | true => trivial
  have fresh := (credentials_fresh_of_undisturbed Deployment.ctx loginAndChange
    [false, false, true, true] begins (by decide +kernel)).2 [false, false, true] true [] 1
    ⟨(Deployment.sixteen 34).bytes,
      Deployment.hex "87b54c348e114e87dafb3796fb33a32846fb2d5556c63d4d4cd37e5ad3960718", 600000⟩
    (Deployment.sixteen 9).bytes rfl (by decide +kernel) (by decide +kernel)
  refine ⟨congrArg (Option.map Password.Hash.salt) fresh.1, fun stored => ?_⟩
  obtain ⟨middle, j, later, password, split, _⟩ :=
    fresh.2 openedFamily stored rfl rfl (by decide +kernel)
  simp at split

/-- A login that reads the row before the password change and commits after it opens a family,
although its password is no longer the stored one. -/
theorem login_with_replaced_password :
    let before := loginAndChange.run (Running.act Deployment.ctx) [false, true, true]
    let after := loginAndChange.run (Running.act Deployment.ctx) [false, true, true, false]
    committed (before.thread true).activity = true ∧ committed (after.thread false).activity = true ∧
      ¬Authorised Deployment.ctx before.shared 1 (ascii "correct horse") ∧
      openedFamily ∈ after.shared.sessionFamilies := by
  have replaced : ((passwordOf (loginAndChange.run (Running.act Deployment.ctx)
      [false, true, true]).shared 1).all fun hash =>
        !Password.verify Deployment.ctx.crypto (ascii "correct horse") hash) ∧
      committed ((loginAndChange.run (Running.act Deployment.ctx) [false, true, true]).thread
        true).activity = true ∧
      committed ((loginAndChange.run (Running.act Deployment.ctx) [false, true, true, false]).thread
        false).activity = true ∧
      openedFamily ∈ (loginAndChange.run (Running.act Deployment.ctx)
        [false, true, true, false]).shared.sessionFamilies := by
    simp only [loginAndChange, Deployment.ctx, Deployment.crypto_eq, Deployment.database_eq]
    decide +kernel
  refine ⟨replaced.2.1, replaced.2.2.1, fun authorised => ?_, replaced.2.2.2⟩
  obtain ⟨hash, stored, verified⟩ := authorised
  have refused := replaced.1
  rw [stored] at refused
  simp [verified] at refused

end PlatformService.Verif.Credentials
