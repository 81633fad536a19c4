import PlatformService.Lib.Follow
import PlatformService.Verif.Authorization
import PlatformService.Verif.Commits
import PlatformService.Verif.HandlerRuns
import PlatformService.Verif.SessionEffects
import PlatformService.Verif.Sweeping

/-!
# Accounts apart

What is stored of an account is its row, its roles, its verification links, its sessions and their refresh
tokens. In every life of the service an event leaves all of this alone, unless it is a turn of a sweep,
which takes only what is over, or the write of a request that has presented a credential of the account:
its username or address, one of its links or refresh tokens, or its access token.
-/

namespace PlatformService.Verif.Isolation

open Lib Store Api Maintenance Roster

section Estates

variable {db middle after : Db} {userId : Int}

/-- A refresh token belongs to the owner of its family. -/
def Owned (db : Db) (userId : Int) (token : RefreshTokenRow) : Prop :=
  ∃ family ∈ db.sessionFamilies, family.familyId = token.familyId ∧ family.userId = userId

/-- What is stored of an account is the same. -/
structure SameEstate (userId : Int) (db after : Db) : Prop where
  user : db.users.Agrees after.users fun user => user.userId = userId
  roles : db.userRoles.Agrees after.userRoles fun grant => grant.1 = userId
  links : db.emailVerificationTokens.Agrees after.emailVerificationTokens fun link =>
    link.userId = userId
  families : db.sessionFamilies.Agrees after.sessionFamilies fun family => family.userId = userId
  tokens : db.refreshTokens.Agrees after.refreshTokens (Owned db userId)

/-- Where no table of the accounts changes, every estate is the same. -/
theorem SameEstate.of_tables (users : after.users = db.users) (roles : after.userRoles = db.userRoles)
    (links : after.emailVerificationTokens = db.emailVerificationTokens)
    (families : after.sessionFamilies = db.sessionFamilies)
    (tokens : after.refreshTokens = db.refreshTokens) : SameEstate userId db after where
  user := Table.Agrees.of_eq users
  roles := Table.Agrees.of_eq roles
  links := Table.Agrees.of_eq links
  families := Table.Agrees.of_eq families
  tokens := Table.Agrees.of_eq tokens

/-- An estate is the same as itself. -/
theorem SameEstate.refl (userId : Int) (db : Db) : SameEstate userId db db :=
  .of_tables rfl rfl rfl rfl rfl

/-- An update of the row of another user. -/
theorem agrees_updateUsers {other : Int} {change : Db.UserChange} (apart : other ≠ userId) :
    db.users.Agrees (db.updateUsers (fun user => user.userId = other) change).users
      fun user => user.userId = userId := by
  refine Table.Agrees.update rfl fun user _ picked => ?_
  have own : user.userId = other := of_decide_eq_true picked
  have same : (change.apply user).userId = user.userId := change.keepsId user
  refine ⟨?_, ?_⟩
  · rw [own]
    exact apart
  · show (change.apply user).userId ≠ userId
    rw [same, own]
    exact apart

/-- Verification links of others that are consumed. -/
theorem agrees_consumeVerificationTokens {selected : VerificationTokenRow → Bool} {now : Int}
    (others : ∀ link ∈ db.emailVerificationTokens, selected link = true → link.userId ≠ userId) :
    db.emailVerificationTokens.Agrees
      (db.consumeVerificationTokens selected now).emailVerificationTokens
      fun link => link.userId = userId :=
  Table.Agrees.update rfl fun link stored picked => ⟨others link stored picked, others link stored picked⟩

/-- Sessions of others that are revoked. -/
theorem agrees_revokeFamilies {selected : SessionFamilyRow → Bool} {now : Int} {cause : RevokeCause}
    (others : ∀ family ∈ db.sessionFamilies, selected family = true → family.userId ≠ userId) :
    db.sessionFamilies.Agrees (db.revokeFamilies selected now cause).sessionFamilies
      fun family => family.userId = userId :=
  Table.Agrees.update rfl fun family stored picked =>
    ⟨others family stored picked, others family stored picked⟩

/-- Refresh tokens of others that are consumed. -/
theorem agrees_consumeRefreshTokens {selected : RefreshTokenRow → Bool} {now : Int}
    (others : ∀ token ∈ db.refreshTokens, selected token = true → ¬Owned db userId token) :
    db.refreshTokens.Agrees (db.consumeRefreshTokens selected now).refreshTokens (Owned db userId) :=
  Table.Agrees.update rfl fun token stored picked =>
    ⟨others token stored picked, others token stored picked⟩

/-- A user that is added is another one. -/
theorem sameEstate_addsUser {row : UserRow} {names : List Bytes} {roles : List Role} {now newId : Int}
    (stored : ∃ user ∈ db.users, user.userId = userId) (adds : AddsUser row names now db newId after)
    (known : names.map UserStore.roleNamed = roles.map some) : SameEstate userId db after := by
  have others := adds.others
  have rows := adds_of_addsUser adds known
  obtain ⟨user, member, own⟩ := stored
  have apart : newId ≠ userId := by
    rw [← own]
    exact (rows.fresh user member).symm
  refine ⟨?_, ?_, Table.Agrees.of_eq others.1, Table.Agrees.of_eq others.2.1,
    Table.Agrees.of_eq others.2.2.1⟩
  · exact (Table.Agrees.of_eq rfl).insert adds.inserts apart
  · intro grant mine
    rw [Table.mem_def, rows.grants, List.mem_append, ← Table.mem_def]
    refine or_iff_left fun new => ?_
    obtain ⟨role, -, same⟩ := List.mem_map.mp new
    rw [← same] at mine
    exact apart mine

/-- A session opened for another user. -/
theorem sameEstate_loggedIn {ctx : AppCtx} {env : Env} {other : Int} {created : Session.Created}
    (effect : LoginEffect ctx env other db created after) (apart : other ≠ userId) :
    SameEstate userId db after := by
  obtain ⟨seen, creates, rfl⟩ := effect
  obtain ⟨opened, inserted, issued⟩ := creates.inserts
  have opening := others_insertFamily inserted
  have issuing := others_insertRefreshToken issued
  have family := (Db.insertFamily_eq_some inserted).1
  have token := (Db.insertRefreshToken_eq_some issued).1
  rw [opening.2.2.2.1] at token
  rw [← issuing.2.2.2.1] at family
  refine ⟨?_, ?_, ?_, ?_, ?_⟩
  · show db.users.Agrees seen.users _
    rw [issuing.1, opening.1]
    exact agrees_updateUsers apart
  · exact Table.Agrees.of_eq (issuing.2.1.trans opening.2.1)
  · exact Table.Agrees.of_eq (issuing.2.2.1.trans opening.2.2.1)
  · exact (Table.Agrees.of_eq rfl).insert family apart
  · refine (Table.Agrees.of_eq rfl).insert token ?_
    rintro ⟨mine, member, named, -⟩
    exact (Table.mem_insert family).2 mine member named

/-- A link sent to another user. -/
theorem sameEstate_resent {ctx : AppCtx} {env : Env} {other : Int} {rawToken : Bytes}
    (effect : ResendEffect ctx env other db rawToken after) (apart : other ≠ userId) :
    SameEstate userId db after := by
  obtain ⟨-, issued, inserted, rfl⟩ := effect
  have tables := others_insertVerificationToken inserted
  have link := (Db.insertVerificationToken_eq_some inserted).1
  refine ⟨Table.Agrees.of_eq tables.1, Table.Agrees.of_eq tables.2.1, ?_,
    Table.Agrees.of_eq tables.2.2.1, Table.Agrees.of_eq tables.2.2.2.1⟩
  refine Table.Agrees.insert (agrees_consumeVerificationTokens fun token _ picked => ?_) link apart
  have own : token.userId = other := by
    simp only [TokenStore.outstandingOf, Bool.and_eq_true, decide_eq_true_eq] at picked
    exact picked.1
  rw [own]
  exact apart

/-- A user that registers. -/
theorem sameEstate_registered {ctx : AppCtx} {env : Env} {input : Register.Input} {rawToken : Bytes}
    (stored : ∃ user ∈ db.users, user.userId = userId)
    (effect : RegisterEffect ctx env input db rawToken after) : SameEstate userId db after := by
  obtain ⟨-, newId, added, issued, adds, inserted, rfl⟩ := effect
  have still := sameEstate_addsUser stored adds registered_roles
  have tables := others_insertVerificationToken inserted
  have link := (Db.insertVerificationToken_eq_some inserted).1
  have apart : newId ≠ userId := by
    obtain ⟨user, member, own⟩ := stored
    rw [← own]
    exact ((adds_of_addsUser adds registered_roles).fresh user member).symm
  refine ⟨?_, ?_, still.links.insert link apart, ?_, ?_⟩
  · show db.users.Agrees issued.users _
    rw [tables.1]
    exact still.user
  · show db.userRoles.Agrees issued.userRoles _
    rw [tables.2.1]
    exact still.roles
  · show db.sessionFamilies.Agrees issued.sessionFamilies _
    rw [tables.2.2.1]
    exact still.families
  · show db.refreshTokens.Agrees issued.refreshTokens _
    rw [tables.2.2.2.1]
    exact still.tokens

/-- A link of another user that is verified. -/
theorem sameEstate_verified {env : Env} {tokenHash : Bytes} {other : Int} (apart : other ≠ userId)
    (others : ∀ link ∈ db.emailVerificationTokens, link.tokenHash = tokenHash →
      link.userId ≠ userId) : SameEstate userId db (verifiedDb env tokenHash other db) where
  user := agrees_updateUsers apart
  roles := Table.Agrees.of_eq rfl
  links := agrees_consumeVerificationTokens fun link stored picked =>
    others link stored (of_decide_eq_true picked)
  families := Table.Agrees.of_eq rfl
  tokens := Table.Agrees.of_eq rfl

/-- A login of another user that is refused. -/
theorem sameEstate_loginRefused {ctx : AppCtx} {env : Env} {found : Option UserRow}
    {passwordOk : Bool} (apart : ∀ user, found = some user → user.userId ≠ userId) :
    SameEstate userId db (refusedDb ctx env found passwordOk db) := by
  obtain ⟨users, roles, links, families, tokens⟩ := tables_refusedDb ctx env db found passwordOk
  refine ⟨?_, Table.Agrees.of_eq roles, Table.Agrees.of_eq links, Table.Agrees.of_eq families,
    Table.Agrees.of_eq tokens⟩
  rw [users]
  cases found with
  | none => exact Table.Agrees.of_eq rfl
  | some user =>
    unfold failedUsers
    dsimp only
    split
    · exact Table.Agrees.of_eq rfl
    · exact agrees_updateUsers (apart user rfl)

/-- A refresh with a token of another user. -/
theorem sameEstate_refreshed {ctx : AppCtx} {env : Env} {tokenHash : Bytes}
    {outcome : Session.RefreshResult × Session.Refreshed} {seen : Db} {entry : AuditEntry}
    (fine : outcome.1 ≠ .error)
    (step : RefreshStep False ctx.crypto tokenHash ctx.config.refreshIdleTtlS env.now env.rawToken db
      outcome seen)
    (others : ∀ token ∈ db.refreshTokens, token.tokenHash = tokenHash → ¬Owned db userId token) :
    SameEstate userId db (seen.insertAudit entry) := by
  have spared (row : RefreshTokenRow) (member : row ∈ db.refreshTokens)
      (picked : SessionStore.openToken tokenHash row = true) : ¬Owned db userId row := by
    simp only [SessionStore.openToken, Bool.and_eq_true, decide_eq_true_eq] at picked
    exact others row member picked.1
  cases step with
  | unknown absent => exact SameEstate.of_tables rfl rfl rfl rfl rfl
  | reused token family stored owner consumed after revoked =>
    obtain ⟨member, own⟩ := Table.find?_eq_some_iff.mp stored
    rcases revoked with same | ⟨-, same⟩
    · rw [same]
      have still := SameEstate.refl userId db
      refine ⟨still.user, still.roles, still.links, ?_, still.tokens⟩
      refine agrees_revokeFamilies fun row held picked mine => ?_
      exact others token member own ⟨row, held, (of_liveFamily picked).1, mine⟩
    · rw [same]
      exact SameEstate.of_tables rfl rfl rfl rfl rfl
  | stale token family stored owner unconsumed dead =>
    exact ⟨Table.Agrees.of_eq rfl, Table.Agrees.of_eq rfl, Table.Agrees.of_eq rfl,
      Table.Agrees.of_eq rfl, agrees_consumeRefreshTokens spared⟩
  | rotated token family raw stored owner unconsumed live inTime notIdle drawn after issued =>
    have tables := others_insertRefreshToken issued
    have next := (Db.insertRefreshToken_eq_some issued).1
    obtain ⟨member, own⟩ := Table.find?_eq_some_iff.mp stored
    refine ⟨Table.Agrees.of_eq tables.1, Table.Agrees.of_eq tables.2.1,
      Table.Agrees.of_eq tables.2.2.1, Table.Agrees.of_eq tables.2.2.2.1, ?_⟩
    exact (agrees_consumeRefreshTokens spared).insert next fun mine => others token member own mine
  | failed out => exact absurd rfl fine

/-- A session of another user that is logged out. -/
theorem sameEstate_loggedOut {env : Env} {familyId : Bytes} {ownerId : Int}
    (others : ∀ family ∈ db.sessionFamilies, family.familyId = familyId → family.userId ≠ userId) :
    SameEstate userId db (loggedOutDb env familyId ownerId db) where
  user := Table.Agrees.of_eq rfl
  roles := Table.Agrees.of_eq rfl
  links := Table.Agrees.of_eq rfl
  families := agrees_revokeFamilies fun family stored picked =>
    others family stored (of_liveFamily picked).1
  tokens := Table.Agrees.of_eq rfl

/-- A password of another user that is changed. -/
theorem sameEstate_passwordChanged {env : Env} {other : Int} {newHash : Password.Hash}
    {survivingFamilyId : Bytes} (apart : other ≠ userId) :
    SameEstate userId db (passwordChangedDb env other newHash survivingFamilyId db) where
  user := agrees_updateUsers apart
  roles := Table.Agrees.of_eq rfl
  links := Table.Agrees.of_eq rfl
  families := agrees_revokeFamilies fun family _ picked mine => by
    obtain ⟨own, -⟩ := of_liveFamilyOf picked
    exact apart (own.symm.trans mine)
  tokens := Table.Agrees.of_eq rfl

/-- Some rows of a table go, and only those that are due. -/
def Drops {K R : Type} {key : R → K} (before after : Table K R key) (due : R → Prop) : Prop :=
  (∀ row ∈ after, row ∈ before) ∧ ∀ row ∈ before, row ∈ after ∨ due row

/-- What a turn of a sweep takes: locks that are over, links, sessions and tokens past their time. -/
structure Sheds (now : Int) (db after : Db) : Prop where
  users : db.users.Follows after.users (fun _ => False) fun old user =>
    user = old ∨ Sweeping.lockOver now old = true ∧ user = (Sweeping.unlock now).apply old
  present : ∀ user ∈ db.users, ∃ same ∈ after.users, same.userId = user.userId
  roles : after.userRoles = db.userRoles
  links : Drops db.emailVerificationTokens after.emailVerificationTokens fun link =>
    Sweeping.expiredLink now link = true
  families : Drops db.sessionFamilies after.sessionFamilies fun family =>
    Sweeping.deadFamily now family = true
  tokens : Drops db.refreshTokens after.refreshTokens fun token => ∃ family ∈ db.sessionFamilies,
    family.familyId = token.familyId ∧ Sweeping.deadFamily now family = true

/-- A table that stays. -/
theorem Drops.refl {K R : Type} {key : R → K} (table : Table K R key) (due : R → Prop) :
    Drops table table due := ⟨fun _ stored => stored, fun _ stored => Or.inl stored⟩

/-- Deleting the rows that a sweep has chosen. -/
theorem drops_chosen {K R : Type} [BEq K] [LawfulBEq K] {key : R → K} (table : Table K R key) (scan : Scan)
    (limit : Nat) (condition : R → Bool) {due : R → Prop}
    (meets : ∀ row ∈ table, condition row = true → due row) :
    Drops table (table.delete fun row =>
      key row ∈ (scan.chosen limit table.rows condition).map key) due := by
  refine ⟨fun row stored => (Table.mem_delete.mp stored).1, fun row stored => ?_⟩
  cases chosen : decide (key row ∈ (scan.chosen limit table.rows condition).map key) with
  | false => exact Or.inl (Table.mem_delete.mpr ⟨stored, chosen⟩)
  | true =>
    exact Or.inr (meets row stored
      (Sweeping.meets_of_chosen scan limit condition table.unique row stored chosen))

/-- A turn that touches no account. -/
theorem Sheds.of_tables {now : Int} (users : after.users = db.users)
    (roles : after.userRoles = db.userRoles)
    (links : after.emailVerificationTokens = db.emailVerificationTokens)
    (families : after.sessionFamilies = db.sessionFamilies)
    (tokens : after.refreshTokens = db.refreshTokens) : Sheds now db after where
  users := Table.Follows.of_eq (fun _ => Or.inl rfl) users
  present user stored := ⟨user, by rw [users]; exact stored, rfl⟩
  roles := roles
  links := by rw [links]; exact Drops.refl _ _
  families := by rw [families]; exact Drops.refl _ _
  tokens := by rw [tokens]; exact Drops.refl _ _

/-- A batch of a sweep takes only what is over. -/
theorem sheds_batch (settings : Settings) (scan : Scan) (now : Int) (target : Target) (db : Db) :
    Sheds now db (batch settings scan now target db).2 := by
  have still : Sheds now db db := .of_tables rfl rfl rfl rfl rfl
  cases target with
  | emailVerificationTokens =>
    have gone := drops_chosen db.emailVerificationTokens scan settings.batchSize
      (Sweeping.expiredLink now) fun _ _ expired => expired
    exact ⟨still.users, still.present, rfl, gone, still.families, still.tokens⟩
  | refreshTokens =>
    refine ⟨still.users, still.present, rfl, still.links, still.families, ?_⟩
    refine drops_chosen db.refreshTokens scan settings.batchSize (Sweeping.deadToken now db)
      fun token _ dead => ?_
    obtain ⟨family, held, both⟩ := List.any_eq_true.mp dead
    simp only [Bool.and_eq_true, decide_eq_true_eq] at both
    exact ⟨family, held, both.1, by simp [Sweeping.deadFamily, both.2]⟩
  | sessionFamilies =>
    have gone := drops_chosen db.sessionFamilies scan settings.batchSize (Sweeping.deadFamily now)
      fun _ _ dead => dead
    refine ⟨still.users, still.present, rfl, still.links, gone, ?_⟩
    refine ⟨fun token stored => (Db.mem_deleteFamilies.mp stored).1, fun token stored => ?_⟩
    obtain ⟨family, held, named⟩ := db.tokenFamilies token stored
    rcases gone.2 family held with spared | dead
    · refine Or.inl (Db.mem_deleteFamilies.mpr ⟨stored, fun other member alike => ?_⟩)
      rw [Table.eq_of_key member held (alike.trans named.symm)]
      exact (Table.mem_delete.mp spared).2
    · exact Or.inr ⟨family, held, named, dead⟩
  | devOutbox => exact .of_tables rfl rfl rfl rfl rfl
  | auditLog => exact .of_tables rfl rfl rfl rfl rfl
  | expiredLockouts =>
    refine ⟨?_, fun user stored => ?_, rfl, still.links, still.families, still.tokens⟩
    · refine Table.Follows.update (fun _ => Or.inl rfl) rfl (fun _ => rfl) fun user stored picked => ?_
      exact Or.inr ⟨Sweeping.meets_of_chosen scan settings.batchSize (Sweeping.lockOver now)
        db.users.unique user stored picked, rfl⟩
    · exact Table.exists_of_keys (Table.keys_update (Sweeping.unlock now).keepsId).symm user stored

end Estates

section Reading

variable {ctx : AppCtx} {env : Env} {past db : Db} {faults : List Bool}

/-- A row that is found is stored and meets the condition. -/
theorem met_of_find? {R : Type} {rows : List R} {condition : R → Prop} [DecidablePred condition]
    {row : R} (found : (rows.find? fun row => condition row) = some row) :
    row ∈ rows ∧ condition row := by
  have met := List.find?_some found
  rw [decide_eq_true_eq] at met
  exact ⟨List.mem_of_find?_eq_some found, met⟩

/-- What follows an attempt, from its success and from its failure. -/
theorem yields_attempt {α β ε : Type} {attempt : Sql (Except ε α)} {next : Except ε α → Sql β}
    {holds : β → Prop} (success : ∀ value, Yields (next (.ok value)) holds)
    (failure : ∀ reason, Yields (next (.error reason)) holds) : Yields (attempt >>= next) holds := by
  apply yields_bind
  intro result
  cases result with
  | ok value => exact success value
  | error reason => exact failure reason

/-- A password is that of an account. -/
def Knows (ctx : AppCtx) (user : UserRow) (password : Bytes) : Prop :=
  Password.verify ctx.crypto password (storedHash user) = true

/-- What an activity carries of an account or a token is what was stored. -/
def Grounded (ctx : AppCtx) (db : Db) : Activity → Prop
  | .verify _ tokenHash (.write link) =>
    link ∈ db.emailVerificationTokens ∧ link.tokenHash = tokenHash
  | .resend _ email (.countMinute user) => user ∈ db.users ∧ user.emailNormalized = cString email
  | .resend _ email (.countDay user _) => user ∈ db.users ∧ user.emailNormalized = cString email
  | .resend _ email (.write user) => user ∈ db.users ∧ user.emailNormalized = cString email
  | .login _ input (.write (.refuse (some user) _)) =>
    user ∈ db.users ∧ nocase user.username = nocase input.username
  | .login _ input (.write (.accept user)) =>
    user ∈ db.users ∧ nocase user.username = nocase input.username ∧ Knows ctx user input.password
  | .logout _ _ tokenHash (.findFamily token) =>
    token ∈ db.refreshTokens ∧ token.tokenHash = tokenHash
  | .logout _ _ tokenHash (.write token _) => token ∈ db.refreshTokens ∧ token.tokenHash = tokenHash
  | .passwordChange _ claims input (.write user _ _) =>
    user ∈ db.users ∧ user.userId = claims.userId ∧ Knows ctx user input.currentPassword
  | _ => True

/-- A step carries what it reads, or what was carried before it. -/
def Carries (ctx : AppCtx) (past db : Db) (next : Activity) : Prop :=
  Grounded ctx db next ∨ Grounded ctx past next

/-- A step of a verification. -/
theorem carries_verify {tokenHash : Bytes} (phase : Verify.Phase) :
    Carries ctx past db
      (.verify env tokenHash (Verify.step env tokenHash phase (Conn.of db, faults)).1) := by
  cases phase with
  | lookup =>
    have read : Sql.Leaves False (Verify.step env tokenHash .lookup) db fun next _ =>
        Carries ctx past db (.verify env tokenHash next) := by
      apply Sql.Guarantees.leaves
      apply Sql.guarantees_lookup
      · intro _
        exact Sql.guarantees_pure (Or.inl trivial)
      cases found : db.emailVerificationTokens.find? tokenHash with
      | none => exact Sql.guarantees_pure (Or.inl trivial)
      | some link =>
        apply Sql.guarantees_pure
        split
        · exact Or.inl (Table.find?_eq_some_iff.mp found)
        · exact Or.inl trivial
    exact (read faults (by simp)).1
  | auditFailure found => exact Or.inl trivial
  | write link =>
    have done : Yields (Verify.step env tokenHash (.write link)) fun next =>
        Carries ctx past db (.verify env tokenHash next) := by
      exact yields_attempt (fun _ => yields_pure (Or.inl trivial)) fun _ => yields_pure (Or.inl trivial)
    exact done _
  | done result => exact Or.inl trivial

/-- A step of a resend. -/
theorem carries_resend {email : Bytes} (phase : Resend.Phase)
    (grounded : Grounded ctx past (.resend env email phase)) :
    Carries ctx past db
      (.resend env email (Resend.step ctx env email phase (Conn.of db, faults)).1) := by
  cases phase with
  | lookup =>
    have read : Sql.Leaves False (Resend.step ctx env email .lookup) db fun next _ =>
        Carries ctx past db (.resend env email next) := by
      apply Sql.Guarantees.leaves
      apply Sql.guarantees_lookup
      · intro _
        exact Sql.guarantees_pure (Or.inl trivial)
      cases found : db.users.rows.find? fun user => user.emailNormalized = cString email with
      | none => exact Sql.guarantees_pure (Or.inl trivial)
      | some user =>
        dsimp only
        split
        · exact Sql.guarantees_pure (Or.inl trivial)
        · exact Sql.guarantees_pure (Or.inl (met_of_find? found))
    exact (read faults (by simp)).1
  | auditFailure userId reason => exact Or.inl trivial
  | countMinute user =>
    have done : Yields (Resend.step ctx env email (.countMinute user)) fun next =>
        Carries ctx past db (.resend env email next) := by
      apply yields_bind
      intro count
      cases count with
      | none => exact yields_pure (Or.inl trivial)
      | some recentMinute => exact yields_pure (Or.inr grounded)
    exact done _
  | countDay user recentMinute =>
    have done : Yields (Resend.step ctx env email (.countDay user recentMinute)) fun next =>
        Carries ctx past db (.resend env email next) := by
      apply yields_bind
      intro count
      cases count with
      | none => exact yields_pure (Or.inl trivial)
      | some recentDay => exact yields_ite (yields_pure (Or.inl trivial)) (yields_pure (Or.inr grounded))
    exact done _
  | write user =>
    have done : Yields (Resend.step ctx env email (.write user)) fun next =>
        Carries ctx past db (.resend env email next) := by
      exact yields_attempt (fun _ => yields_pure (Or.inl trivial)) fun _ => yields_pure (Or.inl trivial)
    exact done _
  | sendEmail user rawToken => exact Or.inl trivial
  | done result => exact Or.inl trivial

/-- What a login decides is about the account that it has found. -/
theorem grounded_decision {input : Login.Input} {found : Option UserRow}
    (held : ∀ user, found = some user →
      user ∈ db.users ∧ nocase user.username = nocase input.username) :
    Grounded ctx db (.login env input (.write (Login.decision ctx env input found))) := by
  cases decided : Login.decision ctx env input found with
  | accept user =>
    obtain ⟨same, verified, -⟩ := decision_eq_accept decided
    obtain ⟨stored, named⟩ := held user same
    exact ⟨stored, named, verified⟩
  | refuse row passwordOk =>
    cases row with
    | none => trivial
    | some user =>
      refine held user ?_
      unfold Login.decision at decided
      cases found with
      | none => cases decided
      | some other =>
        dsimp only at decided
        split at decided
        · contradiction
        · exact (Login.Decision.refuse.inj decided).1

/-- A step of a login. -/
theorem carries_login {input : Login.Input} (phase : Login.Phase) :
    Carries ctx past db
      (.login env input (Login.step ctx env input phase (Conn.of db, faults)).1) := by
  cases phase with
  | lookup =>
    have read : Sql.Leaves False (Login.step ctx env input .lookup) db fun next _ =>
        Carries ctx past db (.login env input next) := by
      apply Sql.Guarantees.leaves
      apply Sql.guarantees_lookup
      · intro _
        exact Sql.guarantees_pure (Or.inl (grounded_decision fun _ impossible => by contradiction))
      · exact Sql.guarantees_pure (Or.inl (grounded_decision fun user found => met_of_find? found))
    exact (read faults (by simp)).1
  | write decision =>
    have done : Yields (Login.step ctx env input (.write decision)) fun next =>
        Carries ctx past db (.login env input next) := by
      cases decision with
      | refuse found passwordOk =>
        exact yields_attempt (fun _ => yields_pure (Or.inl trivial)) fun _ => yields_pure (Or.inl trivial)
      | accept user =>
        exact yields_attempt (fun _ => yields_pure (Or.inl trivial)) fun _ => yields_pure (Or.inl trivial)
    exact done _
  | readRoles userId session => exact Or.inl trivial
  | done result => exact Or.inl trivial

/-- A step of a logout. -/
theorem carries_logout {claims : Claims} {tokenHash : Bytes} (phase : Logout.Phase)
    (grounded : Grounded ctx past (.logout env claims tokenHash phase)) :
    Carries ctx past db
      (.logout env claims tokenHash (Logout.step env claims tokenHash phase (Conn.of db, faults)).1) := by
  cases phase with
  | findToken =>
    have read : Sql.Leaves False (Logout.step env claims tokenHash .findToken) db fun next _ =>
        Carries ctx past db (.logout env claims tokenHash next) := by
      apply Sql.Guarantees.leaves
      apply Sql.guarantees_lookup
      · intro _
        exact Sql.guarantees_pure (Or.inl trivial)
      cases found : db.refreshTokens.find? tokenHash with
      | none => exact Sql.guarantees_pure (Or.inl trivial)
      | some token => exact Sql.guarantees_pure (Or.inl (Table.find?_eq_some_iff.mp found))
    exact (read faults (by simp)).1
  | findFamily token =>
    have done : Yields (Logout.step env claims tokenHash (.findFamily token)) fun next =>
        Carries ctx past db (.logout env claims tokenHash next) := by
      apply yields_bind
      intro found
      cases found with
      | none => exact yields_pure (Or.inl trivial)
      | some family => exact yields_ite (yields_pure (Or.inl trivial)) (yields_pure (Or.inr grounded))
    exact done _
  | write token family =>
    have done : Yields (Logout.step env claims tokenHash (.write token family)) fun next =>
        Carries ctx past db (.logout env claims tokenHash next) := by
      exact yields_attempt (fun _ => yields_pure (Or.inl trivial)) fun _ => yields_pure (Or.inl trivial)
    exact done _
  | done result => exact Or.inl trivial

/-- What a password change decides is about the account of its claims. -/
theorem grounded_passwordDecision {claims : Claims} {input : PasswordChange.Input}
    {found : Option UserRow}
    (held : ∀ user, found = some user → user ∈ db.users ∧ user.userId = claims.userId) :
    Grounded ctx db (.passwordChange env claims input
      (PasswordChange.decision ctx env claims input found).phase) := by
  cases decided : PasswordChange.decision ctx env claims input found with
  | answer result => trivial
  | auditFailure => trivial
  | write user newHash survivingFamilyId =>
    obtain ⟨same, verified, -⟩ := passwordChange_decides_write decided
    obtain ⟨stored, own⟩ := held user same
    exact ⟨stored, own, verified⟩

/-- A step of a password change. -/
theorem carries_passwordChange {claims : Claims} {input : PasswordChange.Input}
    (phase : PasswordChange.Phase) :
    Carries ctx past db (.passwordChange env claims input
      (PasswordChange.step ctx env claims input phase (Conn.of db, faults)).1) := by
  cases phase with
  | lookup =>
    have read : Sql.Leaves False (PasswordChange.step ctx env claims input .lookup) db fun next _ =>
        Carries ctx past db (.passwordChange env claims input next) := by
      apply Sql.Guarantees.leaves
      apply Sql.guarantees_lookup
      · intro _
        exact Sql.guarantees_pure (Or.inl
          (grounded_passwordDecision fun _ impossible => by contradiction))
      · exact Sql.guarantees_pure (Or.inl (grounded_passwordDecision fun user found =>
          Table.find?_eq_some_iff.mp found))
    exact (read faults (by simp)).1
  | auditFailure => exact Or.inl trivial
  | write user newHash survivingFamilyId =>
    have done : Yields (PasswordChange.step ctx env claims input (.write user newHash survivingFamilyId))
        fun next => Carries ctx past db (.passwordChange env claims input next) := by
      exact yields_attempt (fun _ => yields_pure (Or.inl trivial)) fun _ => yields_pure (Or.inl trivial)
    exact done _
  | done result => exact Or.inl trivial

/-- A step of a handler carries what it reads, or what it carried. -/
theorem carries_act {running : Running} (grounded : Grounded ctx past running.activity) :
    Carries ctx past db (running.act ctx db).2.activity := by
  obtain ⟨activity, faults⟩ := running
  cases activity with
  | register env input phase => exact Or.inl trivial
  | verify env tokenHash phase => exact carries_verify phase
  | resend env email phase => exact carries_resend phase grounded
  | login env input phase => exact carries_login phase
  | refresh env tokenHash phase => exact Or.inl trivial
  | logout env claims tokenHash phase => exact carries_logout phase grounded
  | passwordChange env claims input phase => exact carries_passwordChange phase
  | sweep settings now choices targets => exact Or.inl trivial
  | operator userId now done =>
    cases done with
    | true => exact Or.inl trivial
    | false => exact Or.inl trivial

end Reading

section Requests

variable {ctx : AppCtx} {past db : Db} {userId : Int}

/-- What an activity has presented of an account that it may write to: one of its links, its address,
its username and, where a session is opened, its password, one of its refresh tokens, or its claims with
its password. A refresh token that a logout has read may name a session of the account by now. -/
def Presents (ctx : AppCtx) (past db : Db) (userId : Int) : Activity → Prop
  | .verify _ tokenHash _ => ∃ link,
    (link ∈ past.emailVerificationTokens ∨ link ∈ db.emailVerificationTokens) ∧
      link.tokenHash = tokenHash ∧ link.userId = userId
  | .resend _ email _ =>
    ∃ user ∈ past.users, user.userId = userId ∧ user.emailNormalized = cString email
  | .login _ input (.write (.accept _)) => ∃ user ∈ past.users, user.userId = userId ∧
    nocase user.username = nocase input.username ∧ Knows ctx user input.password
  | .login _ input _ =>
    ∃ user ∈ past.users, user.userId = userId ∧ nocase user.username = nocase input.username
  | .refresh _ tokenHash _ =>
    ∃ token ∈ db.refreshTokens, token.tokenHash = tokenHash ∧ Owned db userId token
  | .logout _ _ tokenHash _ =>
    ∃ token ∈ past.refreshTokens, token.tokenHash = tokenHash ∧ Owned db userId token
  | .passwordChange _ claims input _ => claims.userId = userId ∧
    ∃ user ∈ past.users, user.userId = userId ∧ Knows ctx user input.currentPassword
  | .operator other _ _ => other = userId
  | _ => False

/-- What a step leaves of an account whose credentials it does not hold. -/
theorem estate_of_commit {activity : Activity} {after : Db}
    (stored : ∃ user ∈ db.users, user.userId = userId) (grounded : Grounded ctx past activity)
    (commit : Commit ctx db activity after) :
    SameEstate userId db after ∨ Presents ctx past db userId activity ∨
      ∃ settings now choices targets, activity = .sweep settings now choices targets ∧
        Sheds now db after := by
  cases commit with
  | nothing => exact Or.inl (.refl userId db)
  | noted => exact Or.inl (.of_tables rfl rfl rfl rfl rfl)
  | mailed => exact Or.inl (.of_tables rfl rfl rfl rfl rfl)
  | registered env input rawToken _ effect => exact Or.inl (sameEstate_registered stored effect)
  | verified env tokenHash link =>
    obtain ⟨held, named⟩ := grounded
    by_cases own : link.userId = userId
    · exact Or.inr (Or.inl ⟨link, Or.inl held, named, own⟩)
    by_cases mine : ∃ other ∈ db.emailVerificationTokens, other.tokenHash = tokenHash ∧
        other.userId = userId
    · obtain ⟨other, member, alike, owner⟩ := mine
      exact Or.inr (Or.inl ⟨other, Or.inr member, alike, owner⟩)
    · exact Or.inl (sameEstate_verified own fun other member alike owner =>
        mine ⟨other, member, alike, owner⟩)
  | resent env email user rawToken _ effect =>
    obtain ⟨held, named⟩ := grounded
    by_cases own : user.userId = userId
    · exact Or.inr (Or.inl ⟨user, held, own, named⟩)
    · exact Or.inl (sameEstate_resent effect own)
  | loginRefused env input found passwordOk =>
    by_cases own : ∃ user, found = some user ∧ user.userId = userId
    · obtain ⟨user, rfl, same⟩ := own
      exact Or.inr (Or.inl ⟨user, grounded.1, same, grounded.2⟩)
    · exact Or.inl (sameEstate_loginRefused fun user same mine => own ⟨user, same, mine⟩)
  | loggedIn env input user created _ effect =>
    obtain ⟨held, named, known⟩ := grounded
    by_cases own : user.userId = userId
    · exact Or.inr (Or.inl ⟨user, held, own, named, known⟩)
    · exact Or.inl (sameEstate_loggedIn effect own)
  | refreshed env tokenHash outcome seen fine step =>
    by_cases mine : ∃ token ∈ db.refreshTokens, token.tokenHash = tokenHash ∧ Owned db userId token
    · exact Or.inr (Or.inl mine)
    · exact Or.inl (sameEstate_refreshed fine step fun token member named own =>
        mine ⟨token, member, named, own⟩)
  | loggedOut env claims tokenHash token family =>
    obtain ⟨held, named⟩ := grounded
    by_cases mine : Owned db userId token
    · exact Or.inr (Or.inl ⟨token, held, named, mine⟩)
    · exact Or.inl (sameEstate_loggedOut fun other member alike own =>
        mine ⟨other, member, alike, own⟩)
  | passwordChanged env claims input user newHash survivingFamilyId =>
    obtain ⟨held, own, known⟩ := grounded
    by_cases same : claims.userId = userId
    · exact Or.inr (Or.inl ⟨same, user, held, own.trans same, known⟩)
    · exact Or.inl (sameEstate_passwordChanged same)
  | swept settings now choices target targets =>
    exact Or.inr (Or.inr ⟨settings, now, choices, target :: targets, rfl,
      sheds_batch settings _ now target db⟩)
  | disabled other now =>
    by_cases own : other = userId
    · exact Or.inr (Or.inl own)
    · exact Or.inl ⟨agrees_updateUsers own, Table.Agrees.of_eq rfl, Table.Agrees.of_eq rfl,
        Table.Agrees.of_eq rfl, Table.Agrees.of_eq rfl⟩

/-- An activity as it has begun. -/
def asBegun : Activity → Activity
  | .register env input _ => .register env input .write
  | .verify env tokenHash _ => .verify env tokenHash .lookup
  | .resend env email _ => .resend env email .lookup
  | .login env input _ => .login env input .lookup
  | .refresh env tokenHash _ => .refresh env tokenHash .write
  | .logout env claims tokenHash _ => .logout env claims tokenHash .findToken
  | .passwordChange env claims input _ => .passwordChange env claims input .lookup
  | .sweep settings now _ _ => .sweep settings now [] Target.all
  | .operator userId now _ => .operator userId now false

/-- A step goes on with what has begun. -/
theorem asBegun_act (running : Running) (db : Db) :
    asBegun (running.act ctx db).2.activity = asBegun running.activity := by
  obtain ⟨activity, faults⟩ := running
  cases activity with
  | operator userId now done =>
    cases done with
    | true => rfl
    | false => rfl
  | _ => rfl

/-- What a request begins carries nothing yet. -/
theorem begun_firstPhase {activity : Activity} (first : FirstPhase activity) :
    asBegun activity = activity ∧ Grounded ctx db activity := by
  cases first with
  | _ => exact ⟨rfl, trivial⟩

/-- The claims that an activity acts on. -/
def claimsOf : Activity → Option Claims
  | .logout _ claims _ _ => some claims
  | .passwordChange _ claims _ _ => some claims
  | _ => none

/-- A request has begun an activity, and has borne an access token with the claims that it acts on. -/
def Asked (ctx : AppCtx) (events : List LifeEvent) (activity : Activity) : Prop :=
  ∃ arrival handler, LifeEvent.request arrival ∈ events ∧ arrival.dispatched ctx = .ok handler ∧
    arrival.begins ctx handler = .activity (asBegun activity) ∧
    ∀ claims, claimsOf activity = some claims →
      authenticateBearer ctx arrival.request arrival.now = some claims

/-- What a handler begins acts on the claims that it was called with. -/
theorem handler_of_claims {env : Env} {draining : Bool} {request : Http.Request} {handler : Handler}
    {activity : Activity} (begun : handler.start ctx env draining request = .activity activity)
    {claims : Claims} (acts : claimsOf activity = some claims) :
    handler = .logout claims ∨ handler = .passwordChange claims := by
  have called {α : Type} {admission : Except HandlerResult α} {begin : α → Activity}
      {acting : Option Claims}
      (admitted : Call.admitted admission (fun input => .activity (begin input)) = .activity activity)
      (own : ∀ input, claimsOf (begin input) = acting) : acting = some claims := by
    cases admission with
    | error result => contradiction
    | ok input =>
      cases admitted
      exact (own input).symm.trans acts
  have quiet (absent : (none : Option Claims) = some claims) :
      handler = .logout claims ∨ handler = .passwordChange claims := by contradiction
  cases handler with
  | register => exact quiet (called begun fun _ => rfl)
  | verify => exact quiet (called begun fun _ => rfl)
  | resendVerification => exact quiet (called begun fun _ => rfl)
  | login => exact quiet (called begun fun _ => rfl)
  | refresh => exact quiet (called begun fun _ => rfl)
  | logout own =>
    have same : some own = some claims := called begun fun _ => rfl
    exact Or.inl (congrArg Handler.logout (Option.some.inj same))
  | passwordChange own =>
    have same : some own = some claims := called begun fun _ => rfl
    exact Or.inr (congrArg Handler.passwordChange (Option.some.inj same))
  | listUsers own =>
    unfold Handler.start at begun
    generalize Admin.page request.query = admission at begun
    cases admission with
    | error result => contradiction
    | ok page => contradiction
  | _ => contradiction

/-- The claims that a handler of a route is called with. -/
theorem claims_of_handlerOf {routeId : RouteId} {own claims : Claims} {target : Int}
    (called : handlerOf routeId own target = .logout claims ∨
      handlerOf routeId own target = .passwordChange claims) :
    own = claims ∧ (routeId = .logout ∨ routeId = .passwordChange) := by
  cases routeId with
  | logout =>
    refine ⟨?_, Or.inl rfl⟩
    cases called with
    | inl same => exact Handler.logout.inj same
    | inr same => contradiction
  | passwordChange =>
    refine ⟨?_, Or.inr rfl⟩
    cases called with
    | inl same => contradiction
    | inr same => exact Handler.passwordChange.inj same
  | _ =>
    cases called with
    | inl same => contradiction
    | inr same => contradiction

/-- The routes that act on claims are for authenticated requests. -/
theorem kind_of_acting : ∀ policy ∈ Rbac.policies,
    policy.routeId = .logout ∨ policy.routeId = .passwordChange → policy.kind = .authenticated := by
  decide

/-- A handler that acts on claims is called for a request that bears them. -/
theorem bears_of_begins {arrival : Arrival} {handler : Handler} {activity : Activity}
    (admitted : arrival.dispatched ctx = .ok handler)
    (begins : arrival.begins ctx handler = .activity activity) {claims : Claims}
    (acts : claimsOf activity = some claims) :
    authenticateBearer ctx arrival.request arrival.now = some claims := by
  have called := handler_of_claims begins acts
  obtain ⟨policy, found, checks⟩ := Authorization.dispatch_eq_ok admitted
  have listed : policy ∈ Rbac.policies := List.mem_of_find?_eq_some found
  by_cases anyone : policy.kind = .anyone
  · have same : handlerOf policy.routeId noClaims 0 = handler := by
      unfold Arrival.dispatched dispatch at admitted
      simp only [found, anyone] at admitted
      exact Except.ok.inj admitted
    rw [← same] at called
    have kind := kind_of_acting policy listed (claims_of_handlerOf called).2
    rw [kind] at anyone
    contradiction
  · obtain ⟨own, target, authenticated, same, -⟩ := checks anyone
    rw [same] at called
    rw [authenticated, (claims_of_handlerOf called).1]

/-- What begins acts on the claims of what goes on with it. -/
theorem claimsOf_asBegun (activity : Activity) : claimsOf (asBegun activity) = claimsOf activity := by
  cases activity with
  | _ => rfl

end Requests

section Lives

variable {ctx : AppCtx} {start : Db} {events : List LifeEvent}

/-- What is known of a handler at work: what has begun it, and that it carries what was stored at some
earlier time. -/
structure Standing (ctx : AppCtx) (start : Db) (events : List LifeEvent) (running : Running) : Prop where
  origin : Asked ctx events running.activity ∨
    ∃ settings now, asBegun running.activity = .sweep settings now [] Target.all
  carried : ∃ past, past <+: events ∧ Grounded ctx (life ctx start past).db running.activity

/-- What was asked for stays asked for. -/
theorem Asked.later {activity next : Activity} (asked : Asked ctx events activity)
    (same : asBegun next = asBegun activity) (event : LifeEvent) :
    Asked ctx (events ++ [event]) next := by
  obtain ⟨arrival, handler, member, admitted, begins, bears⟩ := asked
  refine ⟨arrival, handler, List.mem_append_left _ member, admitted, ?_, fun claims acts => ?_⟩
  · rw [same]
    exact begins
  · apply bears
    rw [← claimsOf_asBegun, ← same, claimsOf_asBegun]
    exact acts

/-- A handler that does not move stands as it stood. -/
theorem Standing.later {running : Running} (stands : Standing ctx start events running)
    (event : LifeEvent) : Standing ctx start (events ++ [event]) running := by
  obtain ⟨past, part, grounded⟩ := stands.carried
  refine ⟨stands.origin.imp (fun asked => asked.later rfl event) id, past, ?_, grounded⟩
  exact part.trans (List.prefix_append _ _)

/-- A handler that takes a step carries what it reads. -/
theorem Standing.act {running : Running} (stands : Standing ctx start events running)
    (event : LifeEvent) :
    Standing ctx start (events ++ [event]) (running.act ctx (life ctx start events).db).2 := by
  have same : asBegun (running.act ctx (life ctx start events).db).2.activity =
      asBegun running.activity := asBegun_act running _
  obtain ⟨past, part, grounded⟩ := stands.carried
  constructor
  · cases stands.origin with
    | inl asked => exact Or.inl (asked.later same event)
    | inr swept =>
      obtain ⟨settings, now, begun⟩ := swept
      exact Or.inr ⟨settings, now, same.trans begun⟩
  · have moved : Carries ctx (life ctx start past).db (life ctx start events).db
        (running.act ctx (life ctx start events).db).2.activity := carries_act grounded
    cases moved with
    | inl read => exact ⟨events, List.prefix_append _ _, read⟩
    | inr kept => exact ⟨past, part.trans (List.prefix_append _ _), kept⟩

/-- Every handler at work in a life stands so. -/
theorem standing_of_life (ctx : AppCtx) (start : Db) (events : List LifeEvent) :
    ∀ (index : Nat) (running : Running), (life ctx start events).handlers[index]? = some running →
      Standing ctx start events running := by
  induction events using List.reverseRecOn with
  | nil =>
    intro index running present
    contradiction
  | append_singleton events event ih =>
    intro index running present
    rw [life_concat] at present
    cases event with
    | request arrival =>
      unfold next Server.next at present
      dsimp only at present
      cases admitted : arrival.dispatched ctx with
      | error result =>
        rw [admitted] at present
        exact (ih index running present).later _
      | ok handler =>
        rw [admitted] at present
        cases Server.handlers_begin present with
        | inl old => exact (ih index running old).later _
        | inr begins =>
          obtain ⟨same, grounded⟩ : asBegun running.activity = running.activity ∧
              Grounded ctx (life ctx start events).db running.activity :=
            begun_firstPhase (firstPhase_start begins).1
          refine ⟨Or.inl ⟨arrival, handler, by simp, admitted, ?_, fun claims acts => ?_⟩, events,
            List.prefix_append _ _, grounded⟩
          · rw [same]
            exact begins
          · exact bears_of_begins admitted begins acts
    | turn handler =>
      cases Server.handlers_step present with
      | inl old => exact (ih index running old).later _
      | inr moved =>
        obtain ⟨earlier, -, found, rfl⟩ := moved
        exact (ih index earlier found).act _
    | maintenance settings now choices faults =>
      unfold next at present
      dsimp only at present
      by_cases old : index < (life ctx start events).handlers.length
      · rw [List.getElem?_append_left old] at present
        exact (ih index running present).later _
      · rw [List.getElem?_append_right (by omega), List.getElem?_singleton] at present
        split at present
        · cases present
          exact ⟨Or.inr ⟨settings, now, rfl⟩, events, List.prefix_append _ _, trivial⟩
        · contradiction
    | restart boot => contradiction

/-- A request has presented a credential of an account, for an activity at work. -/
def Credited (ctx : AppCtx) (start : Db) (events : List LifeEvent) (userId : Int) (activity : Activity) :
    Prop :=
  Asked ctx events activity ∧ ∃ past, past <+: events ∧
    Presents ctx (life ctx start past).db (life ctx start events).db userId activity

/-- In every life of the service, whatever its handlers, its sweeps and its starts do in whatever order and
with whatever failures, what is stored of an account stays the same in every event, unless a sweep takes
what is over or a request writes that has presented a credential of the account. -/
theorem isolation_of_life (ctx : AppCtx) (start : Db) (events : List LifeEvent) (event : LifeEvent)
    (userId : Int) (stored : ∃ user ∈ (life ctx start events).db.users, user.userId = userId) :
    SameEstate userId (life ctx start events).db (life ctx start (events ++ [event])).db ∨
      ∃ handler running, event = .turn handler ∧
        (life ctx start events).handlers[handler]? = some running ∧
        (Credited ctx start events userId running.activity ∨
          ∃ settings now choices targets,
            running.activity = .sweep settings now choices targets ∧
              Sheds now (life ctx start events).db (life ctx start (events ++ [event])).db) := by
  have change := change_next ctx (life ctx start events) event
  rw [← life_concat] at change
  have standing := standing_of_life ctx start events
  generalize (life ctx start (events ++ [event])).db = after at change ⊢
  cases change with
  | nothing => exact Or.inl (.refl userId _)
  | watched arrival entry reading => exact Or.inl (.of_tables rfl rfl rfl rfl rfl)
  | turned handler running _ present commit =>
    have stands := standing handler running present
    obtain ⟨past, part, grounded⟩ := stands.carried
    rcases estate_of_commit stored grounded commit with same | presented | swept
    · exact Or.inl same
    · refine Or.inr ⟨handler, running, rfl, present, Or.inl ?_⟩
      cases stands.origin with
      | inl asked => exact ⟨asked, past, part, presented⟩
      | inr begun =>
        obtain ⟨settings, now, begun⟩ := begun
        generalize running.activity = activity at presented begun
        cases activity with
        | sweep => exact absurd presented id
        | _ => contradiction
    · exact Or.inr ⟨handler, running, rfl, present, Or.inr swept⟩
  | started boot row _ begins effect =>
    obtain ⟨newId, added, adds, rfl⟩ := effect
    have still := sameEstate_addsUser stored adds administrator_roles
    exact Or.inl ⟨still.user, still.roles, still.links, still.families, still.tokens⟩

/-- A first start, and a registration that has begun. -/
def registering : List LifeEvent := [.restart firstBoot, .request greedyRegistration]

/-- The registration leaves the administrator alone. -/
theorem isolation_of_registration :
    (life Deployment.ctx Db.initial (registering ++ [.turn 0])).db.users.rows.length = 2 ∧
      (SameEstate 1 (life Deployment.ctx Db.initial registering).db
          (life Deployment.ctx Db.initial (registering ++ [.turn 0])).db ∨
        ∃ handler running, LifeEvent.turn 0 = .turn handler ∧
          (life Deployment.ctx Db.initial registering).handlers[handler]? = some running ∧
          (Credited Deployment.ctx Db.initial registering 1 running.activity ∨
            ∃ settings now choices targets,
              running.activity = .sweep settings now choices targets ∧
                Sheds now (life Deployment.ctx Db.initial registering).db
                  (life Deployment.ctx Db.initial (registering ++ [.turn 0])).db)) :=
  ⟨by decide +kernel, isolation_of_life Deployment.ctx Db.initial registering (.turn 0) 1
    (by decide +kernel : ∃ user ∈
      (life Deployment.ctx Db.initial registering).db.users.rows, user.userId = 1)⟩

end Lives

end PlatformService.Verif.Isolation
