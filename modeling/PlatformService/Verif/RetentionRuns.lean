import PlatformService.Store.SideBySide
import PlatformService.Verif.Retention

/-!
# Handlers on a swept database

Login, refresh and verification run side by side on two databases, one of which
retains what can be seen of the other, phase by phase. Where a row that a phase reads
is only in one of them, the row has expired, and the runs part only in what they
record; otherwise both read the same rows and write the same values.
-/

namespace PlatformService.Verif.Retention

open Lib Store Crypto Session Api

variable {ctx : AppCtx} {env : Env} {now : Int} {full swept : Db}

/-- Two transactions that run through. -/
def BothOk (result result' : Except Unit Unit) : Prop := result = .ok () ∧ result' = .ok ()

/-- Two transactions that run through end alike. -/
theorem bothOk_sameKind (result result' : Except Unit Unit) (both : BothOk result result') :
    Sql.SameKind result result' := by
  rw [both.1, both.2]
  trivial

section Verify

/-- Where a verification stands on the two databases. -/
inductive VerifyPair : Verify.Phase → Verify.Phase → Prop where
  | lookup : VerifyPair .lookup .lookup
  | auditFailure (found found' : Option VerificationTokenRow) :
    VerifyPair (.auditFailure found) (.auditFailure found')
  | write (token : VerificationTokenRow) : VerifyPair (.write token) (.write token)
  | done (result : HandlerResult) : VerifyPair (.done result) (.done result)

/-- A verification does not accept a token that is not seen any more. -/
theorem unusable_of_unseen (later : now ≤ env.now) {db : Db} {tokenHash : Bytes}
    (unseen : seenLink now db tokenHash = none) {token : VerificationTokenRow}
    (found : db.emailVerificationTokens.find? tokenHash = some token) :
    ¬Verify.usable env.now token = true := by
  intro usable
  have unexpired : env.now ≤ token.expiresAt := by
    rw [Verify.usable, Bool.and_eq_true, decide_eq_true_eq, decide_eq_true_eq] at usable
    exact usable.2
  have seen := seenLink_eq_some.mpr ⟨found, le_trans later unexpired⟩
  rw [unseen] at seen
  contradiction

/-- `UPDATE users SET status` reads nothing of a lock. -/
theorem seenUser_statusChange (status : UserStatus) (time : Int) (user : UserRow) :
    seenUser now ((UserStore.statusChange status time).apply user) =
      seenUser now ((UserStore.statusChange status time).apply (seenUser now user)) := by
  simp [seenUser, UserStore.statusChange, Option.filter_filter]

/-- A verification whose link is not seen is refused. -/
theorem refuses_of_unseen (later : now ≤ env.now) {db : Db} {tokenHash : Bytes}
    (unseen : seenLink now db tokenHash = none) : ∃ found,
      (match db.emailVerificationTokens.find? tokenHash with
        | none => pure (.auditFailure none)
        | some token => pure (if Verify.usable env.now token then .write token
            else .auditFailure (some token)) : Sql Verify.Phase) = pure (.auditFailure found) := by
  cases found : db.emailVerificationTokens.find? tokenHash with
  | none => exact ⟨none, rfl⟩
  | some token =>
    dsimp only
    rw [if_neg (unusable_of_unseen later unseen found)]
    exact ⟨some token, rfl⟩

/-- A phase of a verification on both databases. -/
theorem verify_pairs (later : now ≤ env.now) (tokenHash : Bytes) {phase phase' : Verify.Phase}
    (pair : VerifyPair phase phase') (retains : Retains now full swept) :
    Sql.BothLeave (Verify.step env tokenHash phase) (Verify.step env tokenHash phase') full swept
      fun next next' left right => VerifyPair next next' ∧ Retains now left right := by
  cases pair with
  | lookup =>
    apply Sql.BothGuarantee.leave
    apply Sql.bothGuarantee_lookup
    cases seen : seenLink now full tokenHash with
    | some token =>
      have seen' := (retains.links tokenHash).trans seen
      rw [(seenLink_eq_some.mp seen).1, (seenLink_eq_some.mp seen').1]
      apply Sql.bothGuarantee_pure
      by_cases usable : Verify.usable env.now token = true
      · rw [if_pos usable]
        exact ⟨.write token, retains⟩
      · rw [if_neg usable]
        exact ⟨.auditFailure _ _, retains⟩
    | none =>
      have seen' := (retains.links tokenHash).trans seen
      obtain ⟨found, refused⟩ := refuses_of_unseen later seen
      obtain ⟨found', refused'⟩ := refuses_of_unseen later seen'
      have both : Sql.BothGuarantee (pure (.auditFailure found)) (pure (.auditFailure found')) full
          swept fun next next' left right => VerifyPair next next' ∧ Retains now left right :=
        Sql.bothGuarantee_pure ⟨.auditFailure found found', retains⟩
      rw [← refused, ← refused'] at both
      exact both
  | auditFailure found found' =>
    apply Sql.BothGuarantee.leave
    apply Sql.bothGuarantee_update
    exact Sql.bothGuarantee_pure ⟨.done _, retains.insertAudit _ _⟩
  | write token =>
    have bodies : Sql.BothLeave (Verify.write env tokenHash token) (Verify.write env tokenHash token)
        full swept fun result result' left right => BothOk result result' ∧
          Retains now left right := by
      apply Sql.bothLeave_transaction bothOk_sameKind retains
      apply Sql.bothGuarantee_update
      apply Sql.bothGuarantee_update
      apply Sql.bothGuarantee_update
      refine Sql.bothGuarantee_pure ⟨⟨rfl, rfl⟩, fun _ => ?_⟩
      apply Retains.insertAudit
      apply Retains.updateUsers
      · exact retains.consumeLinks _ _
      · exact seenUser_statusChange .active env.now
    apply Sql.bothLeave_bind bodies
    intro result result' left right reached
    obtain ⟨⟨rfl, rfl⟩, retained⟩ := reached
    exact (Sql.bothGuarantee_pure ⟨.done _, retained⟩).leave
  | done result => exact (Sql.bothGuarantee_pure ⟨.done result, retains⟩).leave

end Verify

section Login

/-- The hash of the refresh token drawn, and the family id drawn, are not stored. -/
structure Fresh (ctx : AppCtx) (env : Env) (db : Db) : Prop where
  token : ∀ raw, env.rawToken = some raw →
    ∀ stored ∈ db.refreshTokens, stored.tokenHash ≠ ctx.crypto.sha256 raw.bytes
  family : ∀ drawn, env.familyId = some drawn →
    ∀ stored ∈ db.sessionFamilies, stored.familyId ≠ drawn.bytes

/-- What is fresh on the full database is fresh on the swept one. -/
theorem Fresh.retained (fresh : Fresh ctx env full) (retains : Retains now full swept) :
    Fresh ctx env swept where
  token raw drawn stored member same := by
    obtain ⟨old, known, hash⟩ := retains.fewerTokens stored member
    exact fresh.token raw drawn old known (hash.trans same)
  family drawn given stored member same := by
    obtain ⟨old, known, id⟩ := retains.fewerFamilies stored member
    exact fresh.family drawn given old known (id.trans same)

/-- Where a login stands on the two databases. -/
inductive LoginPair (ctx : AppCtx) (env : Env) (now : Int) (full : Db) :
    Login.Phase → Login.Phase → Prop where
  | lookup (fresh : Fresh ctx env full) : LoginPair ctx env now full .lookup .lookup
  | refuse (found found' : Option UserRow) (passwordOk : Bool)
    (same : found'.map (seenUser now) = found.map (seenUser now)) :
    LoginPair ctx env now full (.write (.refuse found passwordOk)) (.write (.refuse found' passwordOk))
  | accept (user user' : UserRow) (same : user'.userId = user.userId) (fresh : Fresh ctx env full) :
    LoginPair ctx env now full (.write (.accept user)) (.write (.accept user'))
  | readRoles (userId : Int) (session : Created) :
    LoginPair ctx env now full (.readRoles userId session) (.readRoles userId session)
  | done (result : HandlerResult) : LoginPair ctx env now full (.done result) (.done result)

/-- Whether a user is locked can be seen as long as it matters. -/
theorem locked_seenUser (later : now ≤ env.now) (user : UserRow) :
    Login.locked env.now (seenUser now user) = Login.locked env.now user := by
  unfold Login.locked seenUser
  dsimp only
  cases lock : user.lockedUntil with
  | none => rfl
  | some time =>
    rw [Option.filter_some]
    by_cases ended : now ≤ time
    · rw [if_pos (decide_eq_true ended)]
    · have past : ¬env.now < time := by omega
      rw [if_neg (by simpa using ended)]
      simp [nullAsZero, past]

/-- The same rows, as far as they are seen, lead a login to the same decision. -/
theorem decision_pair (later : now ≤ env.now) (input : Login.Input) {found found' : Option UserRow}
    (same : found'.map (seenUser now) = found.map (seenUser now)) (fresh : Fresh ctx env full) :
    LoginPair ctx env now full (.write (Login.decision ctx env input found))
      (.write (Login.decision ctx env input found')) := by
  cases found with
  | none =>
    have absent : found' = none := Option.map_eq_none_iff.mp same
    rw [absent]
    exact .refuse none none false rfl
  | some user =>
    obtain ⟨user', present, alike⟩ := Option.map_eq_some_iff.mp same
    rw [present]
    have verdict : Password.verify ctx.crypto input.password (storedHash user') =
        Password.verify ctx.crypto input.password (storedHash user) := by
      have hash : storedHash (seenUser now user') = storedHash (seenUser now user) := by rw [alike]
      have stored : storedHash user' = storedHash user := hash
      rw [stored]
    have status : user'.status = user.status := by
      have seen : (seenUser now user').status = (seenUser now user).status := by rw [alike]
      exact seen
    have id : user'.userId = user.userId := by
      have seen : (seenUser now user').userId = (seenUser now user).userId := by rw [alike]
      exact seen
    have lock : Login.locked env.now user' = Login.locked env.now user := by
      rw [← locked_seenUser later user', alike, locked_seenUser later user]
    unfold Login.decision
    dsimp only
    rw [verdict, status, lock]
    by_cases accepted : (Password.verify ctx.crypto input.password (storedHash user) &&
        decide (user.status = .active) && !Login.locked env.now user) = true
    · rw [if_pos accepted, if_pos accepted]
      exact .accept user user' id fresh
    · rw [if_neg accepted, if_neg accepted]
      exact .refuse _ _ _ (by rw [Option.map_some, Option.map_some, alike])

/-- `UPDATE users` after a login replaces the lock, so it reads nothing of it. -/
theorem seenUser_loginFailureChange (failedLogins lockedUntil time : Int) (user : UserRow) :
    seenUser now ((UserStore.loginFailureChange failedLogins lockedUntil time).apply user) =
      seenUser now ((UserStore.loginFailureChange failedLogins lockedUntil time).apply
        (seenUser now user)) := rfl

/-- The transaction of a refused login depends only on what is seen of the row. -/
theorem writeFailure_seenUser (later : now ≤ env.now) (found : Option UserRow) (passwordOk : Bool) :
    Login.writeFailure ctx env (found.map (seenUser now)) passwordOk =
      Login.writeFailure ctx env found passwordOk := by
  cases found with
  | none => rfl
  | some user =>
    have lock := locked_seenUser later user
    have recorded : Login.recordFailure ctx env (some (seenUser now user)) passwordOk =
        Login.recordFailure ctx env (some user) passwordOk := by
      unfold Login.recordFailure
      dsimp only
      rw [lock]
      rfl
    have reason : Login.reason env (some (seenUser now user)) passwordOk =
        Login.reason env (some user) passwordOk := by
      unfold Login.reason
      dsimp only
      rw [lock]
    unfold Login.writeFailure
    rw [Option.map_some, recorded, reason]
    rfl

/-- The bookkeeping of a refused login on both databases. -/
theorem recordFailure_pairs (found : Option UserRow) (passwordOk : Bool)
    (retains : Retains now full swept) :
    Sql.BothGuarantee (Login.recordFailure ctx env found passwordOk)
      (Login.recordFailure ctx env found passwordOk) full swept fun result result' left right =>
        (∃ justLocked, result = some justLocked ∧ result' = some justLocked) ∧
          Retains now left right := by
  cases found with
  | none => exact Sql.bothGuarantee_pure ⟨⟨false, rfl, rfl⟩, retains⟩
  | some user =>
    unfold Login.recordFailure
    dsimp only
    by_cases unrecorded : (Login.locked env.now user || passwordOk) = true
    · rw [if_pos unrecorded]
      exact Sql.bothGuarantee_pure ⟨⟨false, rfl, rfl⟩, retains⟩
    · rw [if_neg unrecorded]
      apply Sql.bothGuarantee_update
      refine Sql.bothGuarantee_pure ⟨⟨_, rfl, rfl⟩, ?_⟩
      exact retains.updateUsers _ _ (seenUser_loginFailureChange _ _ _)

/-- The transaction of a refused login on both databases. -/
theorem writeFailure_pairs (later : now ≤ env.now) {found found' : Option UserRow}
    (passwordOk : Bool) (same : found'.map (seenUser now) = found.map (seenUser now))
    (retains : Retains now full swept) :
    Sql.BothLeave (Login.writeFailure ctx env found passwordOk)
      (Login.writeFailure ctx env found' passwordOk) full swept fun result result' left right =>
        BothOk result result' ∧ Retains now left right := by
  rw [← writeFailure_seenUser later found', same, writeFailure_seenUser later found]
  apply Sql.bothLeave_transaction bothOk_sameKind retains
  apply Sql.bothGuarantee_bind (recordFailure_pairs found passwordOk retains)
  intro result result' left right reached
  obtain ⟨⟨justLocked, recorded, recorded'⟩, kept⟩ := reached
  rw [recorded, recorded']
  apply Sql.bothGuarantee_update
  have audited := kept.insertAudit
  cases justLocked with
  | false => exact Sql.bothGuarantee_pure ⟨⟨rfl, rfl⟩, fun _ => audited _ _⟩
  | true =>
    apply Sql.bothGuarantee_update
    exact Sql.bothGuarantee_pure ⟨⟨rfl, rfl⟩, fun _ => (audited _ _).insertAudit _ _⟩

/-- A family with a new id is inserted into both databases, or its owner is stored in neither. -/
theorem insertFamily_pairs {row : SessionFamilyRow}
    (fresh : ∀ stored ∈ full.sessionFamilies, stored.familyId ≠ row.familyId)
    (fresh' : ∀ stored ∈ swept.sessionFamilies, stored.familyId ≠ row.familyId)
    (retains : Retains now full swept) :
    (∃ left right, full.insertFamily row = some left ∧ swept.insertFamily row = some right) ∨
      full.insertFamily row = none ∧ swept.insertFamily row = none := by
  by_cases owned : ∃ user ∈ full.users, user.userId = row.userId
  · obtain ⟨left, done⟩ := Db.insertFamily_isSome owned fresh
    obtain ⟨right, done'⟩ := Db.insertFamily_isSome ((retains.owner_iff row.userId).mpr owned) fresh'
    exact Or.inl ⟨left, right, done, done'⟩
  · have orphan : ¬∃ user ∈ swept.users, user.userId = row.userId := fun stored =>
      owned ((retains.owner_iff row.userId).mp stored)
    exact Or.inr ⟨dif_neg owned, dif_neg orphan⟩

/-- The session a login opens on both databases. -/
theorem create_pairs (userId absoluteTtlS idleTtlS : Int) (fresh : Fresh ctx env full)
    (retains : Retains now full swept) :
    let creates := Session.create ctx.crypto userId absoluteTtlS idleTtlS env.now env.familyId
      env.rawToken
    Sql.BothGuarantee creates creates full swept fun created created' left right =>
      created' = created ∧ (created ≠ none → Retains now left right) := by
  have fresh' := fresh.retained retains
  have failed {left right : Db} : Sql.BothGuarantee (pure none) (pure none) left right
      fun (created created' : Option Created) left right =>
        created' = created ∧ (created ≠ none → Retains now left right) :=
    Sql.bothGuarantee_pure ⟨rfl, fun impossible => absurd rfl impossible⟩
  dsimp only
  cases drawnFamily : env.familyId with
  | none => exact failed
  | some family =>
    let row : SessionFamilyRow :=
      ⟨family.bytes, userId, env.now, env.now + absoluteTtlS, none, none⟩
    have inserts : (∃ left right, full.insertFamily row = some left ∧
        swept.insertFamily row = some right) ∨
          full.insertFamily row = none ∧ swept.insertFamily row = none :=
      insertFamily_pairs (fresh.family family drawnFamily) (fresh'.family family drawnFamily) retains
    cases inserts with
    | inr refused =>
      exact Sql.bothGuarantee_executeRefused refused.1 refused.2 failed
    | inl inserted =>
      obtain ⟨left, right, done, done'⟩ := inserted
      apply Sql.bothGuarantee_execute done done'
      cases drawnToken : env.rawToken with
      | none => exact failed
      | some raw =>
        obtain ⟨stored, _, tokens⟩ := Db.insertFamily_eq_some done
        obtain ⟨stored', _, tokens'⟩ := Db.insertFamily_eq_some done'
        let token : RefreshTokenRow :=
          ⟨ctx.crypto.sha256 raw.bytes, family.bytes, 1, env.now + idleTtlS, none, env.now⟩
        have issues {db after : Db} (opened : db.sessionFamilies.insert row = some after.sessionFamilies)
            (same : after.refreshTokens = db.refreshTokens) (fresh : Fresh ctx env db) :
            ∃ issued, after.insertRefreshToken token = some issued := by
          apply Db.insertRefreshToken_isSome
          · exact ⟨row, ((Table.mem_insert opened).1 row).mpr (Or.inr rfl), rfl⟩
          · rw [same]
            exact fresh.token raw drawnToken
        obtain ⟨issued, issue⟩ := issues stored tokens fresh
        obtain ⟨issued', issue'⟩ := issues stored' tokens' fresh'
        apply Sql.bothGuarantee_execute issue issue'
        refine Sql.bothGuarantee_pure ⟨rfl, fun _ => ?_⟩
        exact (retains.insertFamily done done').insertToken issue issue'

/-- Two transactions that report the same. -/
def SameResult {ε α : Type} (result result' : Except ε α) : Prop := result' = result

/-- Transactions that report the same end alike. -/
theorem sameResult_sameKind {ε α : Type} (result result' : Except ε α)
    (same : SameResult result result') : Sql.SameKind result result' := by
  rw [same]
  cases result with
  | ok value => trivial
  | error reason => trivial

/-- The transaction of an accepted login on both databases. -/
theorem writeSuccess_pairs (userId : Int) (fresh : Fresh ctx env full)
    (retains : Retains now full swept) :
    Sql.BothLeave (Login.writeSuccess ctx env userId) (Login.writeSuccess ctx env userId) full swept
      fun result result' left right => SameResult result result' ∧ Retains now left right := by
  apply Sql.bothLeave_transaction sameResult_sameKind retains
  apply Sql.bothGuarantee_update
  have cleared := retains.updateUsers userId (UserStore.loginFailureChange 0 0 env.now)
    (seenUser_loginFailureChange 0 0 env.now)
  have still : Fresh ctx env (full.updateUsers (fun user => user.userId = userId)
      (UserStore.loginFailureChange 0 0 env.now)) := ⟨fresh.token, fresh.family⟩
  have opens := create_pairs userId ctx.config.refreshAbsoluteTtlS ctx.config.refreshIdleTtlS still
    cleared
  apply Sql.bothGuarantee_bind opens
  intro created created' left right reached
  obtain ⟨same, kept⟩ := reached
  rw [same]
  cases created with
  | none => exact Sql.bothGuarantee_pure ⟨rfl, fun impossible => by contradiction⟩
  | some session =>
    apply Sql.bothGuarantee_update
    exact Sql.bothGuarantee_pure ⟨rfl, fun _ => (kept (by simp)).insertAudit _ _⟩

/-- A phase of a login on both databases. -/
theorem login_pairs (later : now ≤ env.now) (input : Login.Input) {phase phase' : Login.Phase}
    (pair : LoginPair ctx env now full phase phase') (retains : Retains now full swept) :
    Sql.BothLeave (Login.step ctx env input phase) (Login.step ctx env input phase') full swept
      fun next next' left right => LoginPair ctx env now left next next' ∧ Retains now left right := by
  cases pair with
  | lookup fresh =>
    apply Sql.BothGuarantee.leave
    apply Sql.bothGuarantee_lookup
    apply Sql.bothGuarantee_pure
    exact ⟨decision_pair later input (retains.find fun _ => rfl) fresh, retains⟩
  | refuse found found' passwordOk same =>
    apply Sql.bothLeave_bind (writeFailure_pairs later passwordOk same retains)
    intro result result' left right reached
    obtain ⟨⟨rfl, rfl⟩, kept⟩ := reached
    exact (Sql.bothGuarantee_pure ⟨.done _, kept⟩).leave
  | accept user user' same fresh =>
    dsimp only [Login.step]
    rw [same]
    apply Sql.bothLeave_bind (writeSuccess_pairs user.userId fresh retains)
    intro result result' left right reached
    obtain ⟨report, kept⟩ := reached
    have same : result' = result := report
    rw [same]
    cases result with
    | ok session => exact (Sql.bothGuarantee_pure ⟨.readRoles user.userId session, kept⟩).leave
    | error reason => exact (Sql.bothGuarantee_pure ⟨.done _, kept⟩).leave
  | readRoles userId session =>
    apply Sql.BothGuarantee.leave
    apply Sql.bothGuarantee_query
    rw [retains.rolesOf]
    exact Sql.bothGuarantee_pure ⟨.done _, retains⟩
  | done result => exact (Sql.bothGuarantee_pure ⟨.done result, retains⟩).leave

end Login

section Refresh

/-- Where a refresh stands on the two databases. -/
inductive RefreshPair (ctx : AppCtx) (env : Env) (full : Db) :
    Refresh.Phase → Refresh.Phase → Prop where
  | write (fresh : Fresh ctx env full) : RefreshPair ctx env full .write .write
  | readRoles (refreshed : Refreshed) :
    RefreshPair ctx env full (.readRoles refreshed) (.readRoles refreshed)
  | done (result : HandlerResult) : RefreshPair ctx env full (.done result) (.done result)

/-- The verdicts that a client cannot tell apart. -/
def Refused (result : RefreshResult) : Prop := result = .invalid ∨ result = .reuseDetected

/-- Verdicts on the two databases that a client cannot tell apart. -/
def SameVerdict (outcome outcome' : RefreshResult × Refreshed) : Prop :=
  outcome' = outcome ∨ Refused outcome.1 ∧ Refused outcome'.1

/-- Revoking a family that is not seen changes nothing that is. -/
theorem retains_revokeUnseen {db : Db} {familyId : Bytes}
    (unseen : seenFamily now db familyId = none) (time : Int) (cause : RevokeCause) :
    ∀ other, seenFamily now (db.revokeFamilies (SessionStore.liveFamily familyId) time cause) other =
      seenFamily now db other := by
  intro other
  unfold seenFamily Db.revokeFamilies
  dsimp only
  rw [Table.find?_update]
  cases found : db.sessionFamilies.find? other with
  | none => rfl
  | some family =>
    rw [Option.map_some]
    by_cases selected : SessionStore.liveFamily familyId family = true
    · obtain ⟨own, unrevoked⟩ := of_liveFamily selected
      have id : family.familyId = other := (Table.find?_eq_some_iff.mp found).2
      have dead : live now family = false := by
        apply Bool.eq_false_of_not_eq_true
        intro alive
        unfold seenFamily at unseen
        rw [← own, id, found, Option.filter_some, if_pos alive] at unseen
        contradiction
      have onlyLive : ∀ row, SessionStore.liveFamily familyId row = true → row.revokedAt = none :=
        fun row chosen => (of_liveFamily chosen).2
      rw [Option.filter_some, Option.filter_some, dead, live_revoked onlyLive dead]
      rfl
    · rw [if_neg selected]

/-- Two contents of which one is as good as the other. -/
def Equals (now : Int) (db after : Db) : Prop := Retains now db after ∧ Retains now after db

/-- Revoking a family that is not seen. -/
theorem equals_revokeUnseen {db : Db} {familyId : Bytes}
    (unseen : seenFamily now db familyId = none) (time : Int) (cause : RevokeCause) :
    Equals now db (db.revokeFamilies (SessionStore.liveFamily familyId) time cause) := by
  have families := retains_revokeUnseen unseen time cause
  have tokens : ∀ tokenHash, seenToken now
      (db.revokeFamilies (SessionStore.liveFamily familyId) time cause) tokenHash =
        seenToken now db tokenHash := by
    intro tokenHash
    unfold seenToken
    simp only [families]
    rfl
  have ids : (db.revokeFamilies (SessionStore.liveFamily familyId) time cause).sessionFamilies.rows.map
      SessionFamilyRow.familyId = db.sessionFamilies.rows.map SessionFamilyRow.familyId := by
    apply Table.keys_update
    intro _
    rfl
  constructor
  · exact { Retains.refl now db with
      families := families
      tokens := tokens
      fewerFamilies := Table.exists_of_keys ids }
  · exact { Retains.refl now db with
      families := fun familyId => (families familyId).symm
      tokens := fun tokenHash => (tokens tokenHash).symm
      fewerFamilies := Table.exists_of_keys ids.symm }

/-- Consuming a token that is not seen. -/
theorem equals_consumeUnseen {db : Db} {tokenHash : Bytes}
    (unseen : seenToken now db tokenHash = none) (time : Int) :
    Equals now db (db.consumeRefreshTokens (SessionStore.openToken tokenHash) time) := by
  have tokens : ∀ other, seenToken now
      (db.consumeRefreshTokens (SessionStore.openToken tokenHash) time) other =
        seenToken now db other := by
    intro other
    by_cases own : other = tokenHash
    · rw [own, unseen]
      unfold seenToken at unseen ⊢
      unfold Db.consumeRefreshTokens
      dsimp only
      rw [Table.find?_update, filter_map_of_keeps _ _]
      · have hidden := congrArg (Option.map fun token =>
          if SessionStore.openToken tokenHash token = true then
            { token with consumedAt := some time } else token) unseen
        exact hidden
      · intro token
        split
        · rfl
        · rfl
    · unfold seenToken Db.consumeRefreshTokens
      dsimp only
      rw [Table.find?_update]
      cases found : db.refreshTokens.find? other with
      | none => rfl
      | some token =>
        have hash : token.tokenHash = other := (Table.find?_eq_some_iff.mp found).2
        have unselected : ¬SessionStore.openToken tokenHash token = true := by
          intro selected
          rw [SessionStore.openToken, Bool.and_eq_true, decide_eq_true_eq] at selected
          exact own (hash.symm.trans selected.1)
        rw [Option.map_some, if_neg unselected]
        rfl
  have hashes : (db.consumeRefreshTokens (SessionStore.openToken tokenHash)
      time).refreshTokens.rows.map RefreshTokenRow.tokenHash =
        db.refreshTokens.rows.map RefreshTokenRow.tokenHash := by
    apply Table.keys_update
    intro _
    rfl
  constructor
  · exact { Retains.refl now db with
      tokens := tokens
      fewerTokens := Table.exists_of_keys hashes }
  · exact { Retains.refl now db with
      tokens := fun other => (tokens other).symm
      fewerTokens := Table.exists_of_keys hashes.symm }

/-- A token that is not seen any more is refused, and what is seen stays as it is. -/
theorem refresh_of_unseen (later : now ≤ env.now) {db : Db} {tokenHash : Bytes} (idleTtlS : Int)
    (unseen : seenToken now db tokenHash = none) :
    Sql.Guarantees True (Session.refresh ctx.crypto tokenHash idleTtlS env.now env.rawToken) db
      fun outcome after => Refused outcome.1 ∧ Equals now db after := by
  apply Sql.guarantees_lookup
  · intro possible
    exact absurd trivial possible
  cases stored : db.refreshTokens.find? tokenHash with
  | none => exact Sql.guarantees_pure ⟨Or.inl rfl, Retains.refl now db, Retains.refl now db⟩
  | some token =>
    apply Sql.guarantees_lookup
    · intro possible
      exact absurd trivial possible
    have hidden : seenFamily now db token.familyId = none := by
      cases seen : seenFamily now db token.familyId with
      | none => rfl
      | some family =>
        rw [seenToken_eq_some.mpr ⟨stored, family, seen⟩] at unseen
        contradiction
    have reused (out : Refreshed) : Sql.Guarantees True (do
        let _ ← SessionStore.revokeFamily token.familyId .reuseDetected env.now
        return (RefreshResult.reuseDetected, out)) db
        fun outcome after => Refused outcome.1 ∧ Equals now db after := by
      apply Sql.guarantees_update
      · intro possible
        exact absurd trivial possible
      · exact Sql.guarantees_pure ⟨Or.inr rfl, equals_revokeUnseen hidden _ _⟩
    cases owner : db.sessionFamilies.find? token.familyId with
    | none =>
      obtain ⟨family, member, same⟩ :=
        db.tokenFamilies token (Table.find?_eq_some_iff.mp stored).1
      exact absurd same (Table.find?_eq_none_iff.mp owner family member)
    | some family =>
      -- not being seen, the family is over for every refresh from now on
      have ended : nullAsZero family.revokedAt ≠ 0 ∨ family.absoluteExp < env.now ∨
          token.idleExp < env.now := by
        by_contra alive
        simp only [not_or, not_not, Int.not_lt] at alive
        have seen := seenFamily_eq_some.mpr ⟨owner, le_trans later alive.2.1, alive.1⟩
        rw [hidden] at seen
        contradiction
      apply Sql.guarantees_ite
      · intro _
        exact reused _
      intro _
      apply Sql.guarantees_statement
      · intro cause
        exact absurd trivial (cause.resolve_right (by simp))
      intro claimed after done
      cases done
      by_cases open_ : 0 < db.refreshTokens.count (SessionStore.openToken tokenHash)
      · rw [decide_eq_true open_]
        apply Sql.guarantees_ite
        · intro _
          exact Sql.guarantees_pure ⟨Or.inl rfl, equals_consumeUnseen unseen _⟩
        · intro alive
          exact absurd ended alive
      · have closed : db.consumeRefreshTokens (SessionStore.openToken tokenHash) env.now = db := by
          apply Db.consumeRefreshTokens_eq_self
          intro other member
          exact Bool.eq_false_of_not_eq_true fun selected =>
            open_ (Table.count_pos_iff.mpr ⟨other, member, selected⟩)
        rw [decide_eq_false open_, closed]
        exact reused _

/-- A token that is seen is refreshed alike on both databases. -/
theorem refresh_of_seen {tokenHash : Bytes} (idleTtlS : Int) {token : RefreshTokenRow}
    (seen : seenToken now full tokenHash = some token) (fresh : Fresh ctx env full)
    (retains : Retains now full swept) :
    let refreshes := Session.refresh ctx.crypto tokenHash idleTtlS env.now env.rawToken
    Sql.BothGuarantee refreshes refreshes full swept fun outcome outcome' left right =>
      outcome' = outcome ∧ Retains now left right := by
  obtain ⟨stored, family, visible⟩ := seenToken_eq_some.mp seen
  obtain ⟨stored', _⟩ := seenToken_eq_some.mp ((retains.tokens tokenHash).trans seen)
  have owner := (seenFamily_eq_some.mp visible).1
  have owner' := (seenFamily_eq_some.mp ((retains.families token.familyId).trans visible)).1
  have reused (out : Refreshed) : Sql.BothGuarantee
      (do
        let _ ← SessionStore.revokeFamily token.familyId .reuseDetected env.now
        return (RefreshResult.reuseDetected, out))
      (do
        let _ ← SessionStore.revokeFamily token.familyId .reuseDetected env.now
        return (RefreshResult.reuseDetected, out)) full swept fun outcome outcome' left right =>
          outcome' = outcome ∧ Retains now left right := by
    apply Sql.bothGuarantee_update
    refine Sql.bothGuarantee_pure ⟨rfl, ?_⟩
    exact retains.revokeFamilies (fun _ chosen => (of_liveFamily chosen).2) _ _
  apply Sql.bothGuarantee_lookup
  rw [stored, stored']
  apply Sql.bothGuarantee_lookup
  rw [owner, owner']
  dsimp only
  by_cases consumed : nullAsZero token.consumedAt ≠ 0
  · rw [if_pos consumed]
    exact reused _
  rw [if_neg consumed]
  have claims {db : Db} (present : db.refreshTokens.find? tokenHash = some token) :
      decide (0 < db.refreshTokens.count (SessionStore.openToken tokenHash)) =
        decide (token.consumedAt = none) := decide_eq_decide.mpr (count_openToken_pos present)
  have consumes := retains.consumeTokens (SessionStore.openToken tokenHash) env.now
  apply Sql.bothGuarantee_statement rfl rfl
  rw [claims stored, claims stored']
  by_cases unconsumed : token.consumedAt = none
  · rw [decide_eq_true unconsumed]
    dsimp only
    by_cases dead : nullAsZero family.revokedAt ≠ 0 ∨ family.absoluteExp < env.now ∨
        token.idleExp < env.now
    · rw [if_pos dead]
      exact Sql.bothGuarantee_pure ⟨rfl, consumes⟩
    rw [if_neg dead]
    cases drawn : env.rawToken with
    | none => exact Sql.bothGuarantee_pure ⟨rfl, consumes⟩
    | some raw =>
      let row := successor (ctx.crypto.sha256 raw.bytes) idleTtlS env.now token
      have issues {db : Db} (known : db.sessionFamilies.find? token.familyId = some family)
          (fresh : Fresh ctx env db) : ∃ issued,
          (db.consumeRefreshTokens (SessionStore.openToken tokenHash) env.now).insertRefreshToken row =
            some issued := by
        apply Db.insertRefreshToken_isSome
        · exact ⟨family, Table.find?_eq_some_iff.mp known⟩
        · intro other member
          obtain ⟨old, before, same⟩ := Db.mem_consumeRefreshTokens.mp member
          rw [same]
          split
          · exact fresh.token raw drawn old before
          · exact fresh.token raw drawn old before
      obtain ⟨issued, issue⟩ := issues owner fresh
      obtain ⟨issued', issue'⟩ := issues owner' (fresh.retained retains)
      apply Sql.bothGuarantee_execute issue issue'
      exact Sql.bothGuarantee_pure ⟨rfl, consumes.insertToken issue issue'⟩
  · have consumption : token.consumedAt = some 0 := by
      cases column : token.consumedAt with
      | none => exact absurd column unconsumed
      | some time =>
        rw [column] at consumed
        have zero : time = 0 := not_not.mp consumed
        rw [zero]
    have closed {db : Db} (present : db.refreshTokens.find? tokenHash = some token) :
        db.consumeRefreshTokens (SessionStore.openToken tokenHash) env.now = db := by
      apply Db.consumeRefreshTokens_eq_self
      intro other member
      apply Bool.eq_false_of_not_eq_true
      intro selected
      have positive := Table.count_pos_iff.mpr ⟨other, member, selected⟩
      exact unconsumed ((count_openToken_pos present).mp positive)
    rw [decide_eq_false unconsumed, closed stored, closed stored']
    exact reused _

/-- `ps_session_refresh` on both databases. -/
theorem refresh_session_pairs (later : now ≤ env.now) (tokenHash : Bytes) (idleTtlS : Int)
    (fresh : Fresh ctx env full) (retains : Retains now full swept) :
    let refreshes := Session.refresh ctx.crypto tokenHash idleTtlS env.now env.rawToken
    Sql.BothGuarantee refreshes refreshes full swept fun outcome outcome' left right =>
      SameVerdict outcome outcome' ∧ Retains now left right := by
  cases seen : seenToken now full tokenHash with
  | some token =>
    have alike := refresh_of_seen idleTtlS seen fresh retains
    intro refreshes undo undo'
    obtain ⟨outcome, outcome', left, right, ran, ran', same, kept⟩ := alike undo undo'
    exact ⟨outcome, outcome', left, right, ran, ran', Or.inl same, kept⟩
  | none =>
    have unseen' := (retains.tokens tokenHash).trans seen
    apply Sql.bothGuarantee_of_each (refresh_of_unseen later idleTtlS seen)
      (refresh_of_unseen later idleTtlS unseen')
    intro outcome outcome' left right refused refused'
    exact ⟨Or.inr ⟨refused.1, refused'.1⟩, (refused.2.2.trans retains).trans refused'.2.1⟩

/-- The results of two refresh transactions: verdicts that a client cannot tell apart, or errors. -/
inductive RefreshJoin : Except Unit (RefreshResult × Refreshed) →
    Except Unit (RefreshResult × Refreshed) → Prop where
  | verdict (outcome outcome' : RefreshResult × Refreshed) (same : SameVerdict outcome outcome') :
    RefreshJoin (.ok outcome) (.ok outcome')
  | error : RefreshJoin (.error ()) (.error ())

/-- Joined refresh transactions end alike. -/
theorem refreshJoin_sameKind (result result' : Except Unit (RefreshResult × Refreshed))
    (join : RefreshJoin result result') : Sql.SameKind result result' := by
  cases join with
  | verdict outcome outcome' same => trivial
  | error => trivial

/-- The transaction of a refresh on both databases. -/
theorem refresh_write_pairs (later : now ≤ env.now) (tokenHash : Bytes)
    (fresh : Fresh ctx env full) (retains : Retains now full swept) :
    Sql.BothLeave (Refresh.write ctx env tokenHash) (Refresh.write ctx env tokenHash) full swept
      fun result result' left right => RefreshJoin result result' ∧ Retains now left right := by
  apply Sql.bothLeave_transaction refreshJoin_sameKind retains
  apply Sql.bothGuarantee_bind
    (refresh_session_pairs later tokenHash ctx.config.refreshIdleTtlS fresh retains)
  intro outcome outcome' left right reached
  obtain ⟨same, kept⟩ := reached
  have audited (fine : outcome.1 ≠ .error) (fine' : outcome'.1 ≠ .error) :
      Sql.BothGuarantee
        (do
          if outcome.1 = .error then return .error ()
          if ← AuditStore.write (Refresh.auditEntry env outcome.1 outcome.2) then
            return .ok (outcome.1, outcome.2)
          else return .error ())
        (do
          if outcome'.1 = .error then return .error ()
          if ← AuditStore.write (Refresh.auditEntry env outcome'.1 outcome'.2) then
            return .ok (outcome'.1, outcome'.2)
          else return .error ()) left right fun result result' left right =>
            RefreshJoin result result' ∧ (result.isOk → Retains now left right) := by
    rw [if_neg fine, if_neg fine']
    apply Sql.bothGuarantee_update
    exact Sql.bothGuarantee_pure
      ⟨RefreshJoin.verdict outcome outcome' same, fun _ => kept.insertAudit _ _⟩
  have fine_of_refused {outcome : RefreshResult × Refreshed} (refused : Refused outcome.1) :
      outcome.1 ≠ .error := by
    intro error
    rw [error] at refused
    cases refused with
    | inl impossible => contradiction
    | inr impossible => contradiction
  cases same with
  | inr refused => exact audited (fine_of_refused refused.1) (fine_of_refused refused.2)
  | inl equal =>
    by_cases error : outcome.1 = .error
    · rw [equal]
      dsimp only
      rw [if_pos error]
      exact Sql.bothGuarantee_pure ⟨RefreshJoin.error, fun impossible => by contradiction⟩
    · exact audited error (equal ▸ error)

/-- Verdicts that a client cannot tell apart lead to phases that stand alike. -/
theorem refreshedPhase_pair {outcome outcome' : RefreshResult × Refreshed}
    (same : SameVerdict outcome outcome') :
    RefreshPair ctx env full (refreshedPhase outcome) (refreshedPhase outcome') := by
  have unauthorized {outcome : RefreshResult × Refreshed} (refused : Refused outcome.1) :
      refreshedPhase outcome = .done Refresh.unauthorized := by
    have failed : outcome.1 ≠ .ok := by
      intro success
      rw [success] at refused
      cases refused with
      | inl impossible => contradiction
      | inr impossible => contradiction
    unfold refreshedPhase
    rw [if_neg failed]
  cases same with
  | inr refused =>
    rw [unauthorized refused.1, unauthorized refused.2]
    exact .done _
  | inl equal =>
    rw [equal]
    by_cases success : outcome.1 = .ok
    · rw [refreshedPhase, if_pos success]
      exact .readRoles _
    · rw [refreshedPhase, if_neg success]
      exact .done _

/-- A phase of a refresh on both databases. -/
theorem refresh_pairs (later : now ≤ env.now) (tokenHash : Bytes) {phase phase' : Refresh.Phase}
    (pair : RefreshPair ctx env full phase phase') (retains : Retains now full swept) :
    Sql.BothLeave (Refresh.step ctx env tokenHash phase) (Refresh.step ctx env tokenHash phase') full
      swept fun next next' left right => RefreshPair ctx env left next next' ∧
        Retains now left right := by
  cases pair with
  | write fresh =>
    apply Sql.bothLeave_bind (refresh_write_pairs later tokenHash fresh retains)
    intro result result' left right reached
    obtain ⟨join, kept⟩ := reached
    cases join with
    | error => exact (Sql.bothGuarantee_pure ⟨.done _, kept⟩).leave
    | verdict outcome outcome' same =>
      have both : Sql.BothLeave (pure (refreshedPhase outcome)) (pure (refreshedPhase outcome')) left
          right fun next next' left right => RefreshPair ctx env left next next' ∧
            Retains now left right :=
        (Sql.bothGuarantee_pure ⟨refreshedPhase_pair same, kept⟩).leave
      obtain ⟨verdict, refreshed⟩ := outcome
      obtain ⟨verdict', refreshed'⟩ := outcome'
      cases verdict with
      | _ =>
        cases verdict' with
        | _ => exact both
  | readRoles refreshed =>
    apply Sql.BothGuarantee.leave
    apply Sql.bothGuarantee_query
    rw [retains.rolesOf]
    exact Sql.bothGuarantee_pure ⟨.done _, retains⟩
  | done result => exact (Sql.bothGuarantee_pure ⟨.done result, retains⟩).leave

end Refresh

end PlatformService.Verif.Retention
