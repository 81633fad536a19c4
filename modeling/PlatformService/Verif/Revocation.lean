import PlatformService.Verif.Deployment
import PlatformService.Verif.SessionEffects

/-!
# Who ends a session

Three paths write the revocation columns, two of them after reads made outside
their transaction. A logout acts on a row that it read some steps ago: what
connects that row with the stored one is that a family id, once used, is never
used again, because the ids that logins draw are new. `Known` are the ids in use,
now or before; what is stored under a known id only changes by revocation.
-/

namespace PlatformService.Verif.Revocation

open Lib Store Crypto Session Api SessionStore

/-- The first phases. -/
def Begins : Activity → Prop
  | .register _ _ .write => True
  | .verify _ _ .lookup => True
  | .resend _ _ .lookup => True
  | .login _ _ .lookup => True
  | .refresh _ _ .write => True
  | .logout _ _ _ .findToken => True
  | .passwordChange _ _ _ .lookup => True
  | .sweep _ _ _ _ => True
  | .operator _ _ _ => True
  | _ => False

/-- The family id that a login draws. -/
def drawsFamily : Activity → Option Bytes
  | .login env _ _ => env.familyId.map Drawn.bytes
  | _ => none

/-- Whether a login is past its transaction. -/
def past : Activity → Bool
  | .login _ _ (.readRoles _ _) => true
  | .login _ _ (.done _) => true
  | _ => false

section Threads

variable {ctx : AppCtx} {db : Db} {running : Running}

/-- A step draws no other family id. -/
theorem drawsFamily_act :
    drawsFamily (running.act ctx db).2.activity = drawsFamily running.activity := by
  obtain ⟨activity, faults⟩ := running
  cases activity with
  | operator userId now done =>
    cases done with
    | true => rfl
    | false => rfl
  | login env input phase => rfl
  | register env input phase => rfl
  | verify env tokenHash phase => rfl
  | resend env email phase => rfl
  | refresh env tokenHash phase => rfl
  | logout env claims tokenHash phase => rfl
  | passwordChange env claims input phase => rfl
  | sweep settings now choices targets => rfl

/-- A step goes by the same time. -/
theorem clock_act : clock (running.act ctx db).2.activity = clock running.activity := by
  obtain ⟨activity, faults⟩ := running
  cases activity with
  | operator userId now done =>
    cases done with
    | true => rfl
    | false => rfl
  | login env input phase => rfl
  | register env input phase => rfl
  | verify env tokenHash phase => rfl
  | resend env email phase => rfl
  | refresh env tokenHash phase => rfl
  | logout env claims tokenHash phase => rfl
  | passwordChange env claims input phase => rfl
  | sweep settings now choices targets => rfl

/-- A login past its transaction stays past it. -/
theorem past_act (before : past running.activity = true) :
    past (running.act ctx db).2.activity = true := by
  obtain ⟨activity, faults⟩ := running
  cases activity with
  | login env input phase =>
    cases phase with
    | readRoles userId session => rfl
    | done result => rfl
    | lookup => contradiction
    | write decision => contradiction
  | register env input phase => contradiction
  | verify env tokenHash phase => contradiction
  | resend env email phase => contradiction
  | refresh env tokenHash phase => contradiction
  | logout env claims tokenHash phase => contradiction
  | passwordChange env claims input phase => contradiction
  | sweep settings now choices targets => contradiction
  | operator userId now done => contradiction

/-- The transaction of an accepted login takes it past its transaction. -/
theorem past_of_write {env : Env} {input : Login.Input} {user : UserRow}
    (login : running.activity = .login env input (.write (.accept user))) :
    past (running.act ctx db).2.activity = true := by
  have spec : Sql.Leaves (running.faults = []) (Login.step ctx env input (.write (.accept user))) db
      fun next _ => past (.login env input next) = true := by
    apply (writeSuccess_spec ctx env user.userId db).andReturn
    intro result after _
    cases result with
    | ok session => exact ⟨_, rfl, rfl⟩
    | error reason => exact ⟨_, rfl, rfl⟩
  have stepped : Sql.Leaves (running.faults = []) (running.activity.step ctx) db
      fun next _ => past next = true := by
    rw [login]
    exact Sql.Leaves.map spec fun _ => rfl
  exact Running.act_spec stepped

/-- Without faults before a step there are none after it. -/
theorem faults_act (reliable : running.faults = []) : (running.act ctx db).2.faults = [] :=
  (activity_sessions_spec ctx running.activity db running.faults id).2 reliable

end Threads

variable {ι : Type}

/-- What is assumed of a run: requests start at their beginning, no statement fails, times are
positive, and the family ids that logins draw are new. -/
structure Starts (service : Service ι) : Prop where
  begins : ∀ i, Begins (service.thread i).activity
  reliable : ∀ i, (service.thread i).faults = []
  positive : ∀ i, 0 < clock (service.thread i).activity
  revocations : ∀ family ∈ service.shared.sessionFamilies, family.revokedAt ≠ some 0
  distinct : ∀ i j familyId, drawsFamily (service.thread i).activity = some familyId →
    drawsFamily (service.thread j).activity = some familyId → i = j
  unused : ∀ i familyId, drawsFamily (service.thread i).activity = some familyId →
    ∀ family ∈ service.shared.sessionFamilies, family.familyId ≠ familyId

/-- A family id in use now or before. -/
def Known (start service : Service ι) (familyId : Bytes) : Prop :=
  (∃ family ∈ start.shared.sessionFamilies, family.familyId = familyId) ∨
    ∃ i, past (service.thread i).activity = true ∧
      drawsFamily (service.thread i).activity = some familyId

/-- What an activity rests on that it read in an earlier step. -/
def Holds (start service : Service ι) : Activity → Prop
  | .logout _ _ tokenHash (.findFamily token) =>
    token.tokenHash = tokenHash ∧ Known start service token.familyId
  | .logout _ claims tokenHash (.write token _) =>
    token.tokenHash = tokenHash ∧ Known start service token.familyId ∧
      ∀ family ∈ service.shared.sessionFamilies, family.familyId = token.familyId →
        family.userId = claims.userId
  | .passwordChange _ claims _ (.write _ _ survivingFamilyId) =>
    hexDecode claims.familyId = some survivingFamilyId
  | _ => True

/-- What holds in every state of a run. -/
structure Sound (start service : Service ι) : Prop where
  reliable : ∀ i, (service.thread i).faults = []
  positive : ∀ i, 0 < clock (service.thread i).activity
  draws : ∀ i, drawsFamily (service.thread i).activity = drawsFamily (start.thread i).activity
  stored : ∀ family ∈ service.shared.sessionFamilies, Known start service family.familyId
  revocations : ∀ family ∈ service.shared.sessionFamilies, family.revokedAt ≠ some 0
  holds : ∀ i, Holds start service (service.thread i).activity

/-- A run starts soundly. -/
theorem sound_start {service : Service ι} (starts : Starts service) : Sound service service where
  reliable := starts.reliable
  positive := starts.positive
  draws _ := rfl
  stored family member := Or.inl ⟨family, member, rfl⟩
  revocations := starts.revocations
  holds i := by
    have begins := starts.begins i
    cases activity : (service.thread i).activity with
    | logout env claims tokenHash phase =>
      rw [activity] at begins
      cases phase with
      | findToken => trivial
      | findFamily token => exact begins.elim
      | write token family => exact begins.elim
      | done result => exact begins.elim
    | passwordChange env claims input phase =>
      rw [activity] at begins
      cases phase with
      | lookup => trivial
      | auditFailure => trivial
      | write user newHash survivingFamilyId => exact begins.elim
      | done result => exact begins.elim
    | register env input phase => trivial
    | verify env tokenHash phase => trivial
    | resend env email phase => trivial
    | login env input phase => trivial
    | refresh env tokenHash phase => trivial
    | sweep settings now choices targets => trivial
    | operator userId now done => trivial

section Steps

variable {ctx : AppCtx} {start service : Service ι} {i : ι}

/-- A login that opens a family uses an id that was never in use. -/
theorem not_known_of_opens (starts : Starts start) (sound : Sound start service) {env : Env}
    {input : Login.Input} {user : UserRow} {familyId : Bytes}
    (login : (service.thread i).activity = .login env input (.write (.accept user)))
    (drawn : env.familyId.map Drawn.bytes = some familyId) : ¬Known start service familyId := by
  have own : drawsFamily (start.thread i).activity = some familyId := by
    rw [← sound.draws i, login]
    exact drawn
  intro known
  cases known with
  | inl before =>
    obtain ⟨family, stored, same⟩ := before
    exact starts.unused i familyId own family stored same
  | inr another =>
    obtain ⟨j, beyond, draws⟩ := another
    rw [sound.draws j] at draws
    have same : j = i := starts.distinct j i familyId draws own
    rw [same, login] at beyond
    contradiction

/-- A password change that leaves the sessions alone spares the family its access token names. -/
theorem holds_of_quiet {activity : Activity} (quiet : Quiet activity) :
    Holds start service activity := by
  cases activity with
  | logout env claims tokenHash phase => exact quiet.elim
  | passwordChange env claims input phase =>
    cases phase with
    | write user newHash survivingFamilyId => exact quiet
    | lookup => trivial
    | auditFailure => trivial
    | done result => trivial
  | register env input phase => trivial
  | verify env tokenHash phase => trivial
  | resend env email phase => trivial
  | login env input phase => trivial
  | refresh env tokenHash phase => trivial
  | sweep settings now choices targets => trivial
  | operator userId now done => trivial

/-- What a logout rests on after its own step is what it has just read. -/
theorem holds_of_logoutStep (sound : Sound start service) {reliable : Prop} {env : Env}
    {claims : Claims} {tokenHash : Bytes} {phase next : Logout.Phase} {after : Db}
    (before : Holds start service (.logout env claims tokenHash phase))
    (step : LogoutStep reliable env claims tokenHash service.shared phase next after) :
    Holds start service (.logout env claims tokenHash next) := by
  cases step with
  | found token stored =>
    obtain ⟨member, hash⟩ := Table.find?_eq_some_iff.mp stored
    obtain ⟨family, familyStored, same⟩ := service.shared.tokenFamilies token member
    exact ⟨hash, same ▸ sound.stored family familyStored⟩
  | owned token family stored own =>
    obtain ⟨member, id⟩ := Table.find?_eq_some_iff.mp stored
    refine ⟨before.1, before.2, fun other otherStored same => ?_⟩
    rw [Table.eq_of_key otherStored member (same.trans id.symm)]
    exact own
  | unknown absent => trivial
  | missing token absent => trivial
  | foreign token family stored other => trivial
  | revoked token family => trivial
  | failed token family possible => trivial
  | finished result => trivial

/-- A family that is over: its id is in use, and what is stored under it is revoked. -/
structure Ended (start service : Service ι) (familyId : Bytes) : Prop where
  known : Known start service familyId
  revoked : ∀ family ∈ service.shared.sessionFamilies, family.familyId = familyId →
    family.revokedAt ≠ none

/-- No token of a family that is over is rotated. -/
theorem Ended.not_ok (sound : Sound start service) {familyId : Bytes}
    (ended : Ended start service familyId) {presented : RefreshTokenRow} {tokenHash : Bytes}
    (stored : service.shared.refreshTokens.find? tokenHash = some presented)
    (ofFamily : presented.familyId = familyId) (idleTtlS now : Int) (newRaw : Option (Drawn 32))
    (undo : List Db) (faults : List Bool) :
    (refresh ctx.crypto tokenHash idleTtlS now newRaw (⟨service.shared, undo⟩, faults)).1.1 ≠ .ok := by
  intro success
  obtain ⟨token, family, found, owner, _, live, _⟩ := of_refresh_ok success
  have same : token = presented := Option.some.inj (found.symm.trans stored)
  obtain ⟨member, id⟩ := Table.find?_eq_some_iff.mp owner
  have names : family.familyId = familyId := by rw [id, same, ofFamily]
  have finished := ended.revoked family member names
  have dated := sound.revocations family member
  cases revokedAt : family.revokedAt with
  | none => exact finished revokedAt
  | some time =>
    rw [revokedAt] at live dated
    exact dated (congrArg some live)

variable [DecidableEq ι]

/-- An id in use stays known. -/
theorem Known.step {familyId : Bytes} (known : Known start service familyId) :
    Known start (service.step (Running.act ctx) i) familyId := by
  cases known with
  | inl before => exact Or.inl before
  | inr drawn =>
    obtain ⟨j, beyond, draws⟩ := drawn
    refine Or.inr ⟨j, ?_⟩
    by_cases same : j = i
    · rw [same] at beyond draws ⊢
      rw [Pool.thread_step_self]
      exact ⟨past_act beyond, drawsFamily_act.trans draws⟩
    · rw [Pool.thread_step_of_ne service same]
      exact ⟨beyond, draws⟩

/-- What is stored after a step under an id in use was stored before, and is the same or was live and
is revoked. -/
theorem row_of_known (starts : Starts start) (sound : Sound start service)
    {later : SessionFamilyRow}
    (stored : later ∈ (service.step (Running.act ctx) i).shared.sessionFamilies)
    (known : Known start service later.familyId) :
    ∃ old ∈ service.shared.sessionFamilies, old.familyId = later.familyId ∧
      old.userId = later.userId ∧
      (later = old ∨ old.revokedAt = none ∧ later.revokedAt ≠ none ∧
        RevokedBy service.shared old (service.thread i).activity) := by
  cases (sessionEffect_step ctx service i).family stored with
  | same stored => exact ⟨later, stored, rfl, rfl, Or.inl rfl⟩
  | revoked old cause stored live row revokedBy =>
    refine ⟨old, stored, ?_⟩
    rw [row]
    exact ⟨rfl, rfl, Or.inr ⟨live, by simp, revokedBy⟩⟩
  | opened env input user login drawn row unused =>
    exact absurd known (not_known_of_opens starts sound login drawn)

/-- What other threads rest on stays. -/
theorem Holds.step (starts : Starts start) (sound : Sound start service) {activity : Activity}
    (holds : Holds start service activity) :
    Holds start (service.step (Running.act ctx) i) activity := by
  cases activity with
  | logout env claims tokenHash phase =>
    cases phase with
    | findFamily token => exact ⟨holds.1, holds.2.step⟩
    | write token held =>
      refine ⟨holds.1, holds.2.1.step, fun later stored same => ?_⟩
      have known : Known start service later.familyId := same ▸ holds.2.1
      obtain ⟨old, member, id, owner, _⟩ := row_of_known starts sound stored known
      rw [← owner]
      exact holds.2.2 old member (id.trans same)
    | findToken => trivial
    | done result => trivial
  | passwordChange env claims input phase =>
    cases phase with
    | write user newHash survivingFamilyId => exact holds
    | lookup => trivial
    | auditFailure => trivial
    | done result => trivial
  | register env input phase => trivial
  | verify env tokenHash phase => trivial
  | resend env email phase => trivial
  | login env input phase => trivial
  | refresh env tokenHash phase => trivial
  | sweep settings now choices targets => trivial
  | operator userId now done => trivial

/-- What an activity rests on after its own step. -/
theorem holds_own (starts : Starts start) (sound : Sound start service) :
    Holds start (service.step (Running.act ctx) i)
      ((service.step (Running.act ctx) i).thread i).activity := by
  apply Holds.step starts sound
  have before := sound.holds i
  have effect := sessionEffect_step ctx service i
  generalize ((service.step (Running.act ctx) i).thread i).activity = next at effect ⊢
  generalize (service.step (Running.act ctx) i).shared = after at effect
  generalize (service.thread i).activity = activity at effect before
  cases effect with
  | kept activity next after same other quiet => exact holds_of_quiet quiet
  | opened env input user created after opens => trivial
  | refreshed env tokenHash outcome seen after fine step same => trivial
  | logout env claims tokenHash phase next after step =>
    exact holds_of_logoutStep sound before step
  | passwordChanged env claims input user newHash survivingFamilyId next after same quiet =>
    exact holds_of_quiet quiet
  | swept settings now choices target targets remaining after same => trivial

/-- Every step keeps the run sound. -/
theorem Sound.step (starts : Starts start) (sound : Sound start service) :
    Sound start (service.step (Running.act ctx) i) := by
  constructor
  · intro j
    by_cases same : j = i
    · rw [same, Pool.thread_step_self]
      exact faults_act (sound.reliable i)
    · rw [Pool.thread_step_of_ne service same]
      exact sound.reliable j
  · intro j
    by_cases same : j = i
    · rw [same, Pool.thread_step_self, clock_act]
      exact sound.positive i
    · rw [Pool.thread_step_of_ne service same]
      exact sound.positive j
  · intro j
    rw [← sound.draws j]
    by_cases same : j = i
    · rw [same, Pool.thread_step_self]
      exact drawsFamily_act
    · rw [Pool.thread_step_of_ne service same]
  · intro later stored
    cases (sessionEffect_step ctx service i).family stored with
    | same stored => exact (sound.stored later stored).step
    | revoked old cause stored live row revokedBy =>
      rw [row]
      exact (sound.stored old stored).step
    | opened env input user login drawn row unused =>
      refine Or.inr ⟨i, ?_⟩
      rw [Pool.thread_step_self, drawsFamily_act, login]
      exact ⟨past_of_write login, drawn⟩
  · intro later stored
    cases (sessionEffect_step ctx service i).family stored with
    | same stored => exact sound.revocations later stored
    | revoked old cause stored live row revokedBy =>
      have positive := sound.positive i
      rw [row]
      simp only [ne_eq, Option.some.injEq]
      omega
    | opened env input user login drawn row unused =>
      rw [row]
      simp [newFamily]
  · intro j
    by_cases same : j = i
    · rw [same]
      exact holds_own starts sound
    · rw [Pool.thread_step_of_ne service same]
      exact (sound.holds j).step starts sound

/-- Every run is sound. -/
theorem sound_run (ctx : AppCtx) {service : Service ι} (starts : Starts service)
    (schedule : List ι) : Sound service (service.run (Running.act ctx) schedule) :=
  Pool.run_keeps (Sound service) (fun _ _ sound => sound.step starts) (sound_start starts) schedule

/-- The ways in which a live family of a user is revoked. -/
inductive Provenance (db : Db) (family : SessionFamilyRow) : Activity → Prop where
  /-- A logout of the user that names a token of the family. -/
  | logout (env : Env) (claims : Claims) (tokenHash : Bytes) (token : RefreshTokenRow)
    (held : SessionFamilyRow) (names : token.tokenHash = tokenHash)
    (ofFamily : token.familyId = family.familyId) (owner : family.userId = claims.userId) :
    Provenance db family (.logout env claims tokenHash (.write token held))
  /-- A refresh that presents a consumed token of the family. -/
  | reuse (env : Env) (tokenHash : Bytes) (token : RefreshTokenRow)
    (stored : db.refreshTokens.find? tokenHash = some token) (consumed : token.consumedAt ≠ none)
    (ofFamily : token.familyId = family.familyId) :
    Provenance db family (.refresh env tokenHash .write)
  /-- A password change of the user whose access token names another family. -/
  | passwordChange (env : Env) (claims : Claims) (input : PasswordChange.Input) (user : UserRow)
    (newHash : Password.Hash) (survivingFamilyId : Bytes) (owner : family.userId = claims.userId)
    (names : hexDecode claims.familyId = some survivingFamilyId)
    (other : family.familyId ≠ survivingFamilyId) :
    Provenance db family (.passwordChange env claims input (.write user newHash survivingFamilyId))

/-- A live family that a step revokes is revoked in one of the listed ways. -/
theorem provenance_step (sound : Sound start service) {family row : SessionFamilyRow}
    (stored : family ∈ service.shared.sessionFamilies) (live : family.revokedAt = none)
    (rowStored : row ∈ (service.step (Running.act ctx) i).shared.sessionFamilies)
    (same : row.familyId = family.familyId) (revoked : row.revokedAt ≠ none) :
    Provenance service.shared family (service.thread i).activity := by
  cases (sessionEffect_step ctx service i).family rowStored with
  | same rowStored =>
    rw [Table.eq_of_key rowStored stored same] at revoked
    exact absurd live revoked
  | opened env input user login drawn row unused => exact absurd same.symm (unused family stored)
  | revoked old cause oldStored oldLive row revokedBy =>
    have own : old = family := Table.eq_of_key oldStored stored (by rw [← same, row])
    rw [own] at revokedBy
    have holds := sound.holds i
    generalize (service.thread i).activity = activity at revokedBy holds
    cases revokedBy with
    | logout env claims tokenHash token held names =>
      exact Provenance.logout env claims tokenHash token held holds.1 names
        (holds.2.2 family stored names.symm)
    | reuse env tokenHash token found consumed names =>
      exact Provenance.reuse env tokenHash token found consumed names
    | passwordChange env claims input user newHash survivingFamilyId owner other =>
      exact Provenance.passwordChange env claims input user newHash survivingFamilyId owner holds other

/-- A logout that found a token of another user's family: it stands before its second read, or it was
refused, or the family was gone by then. -/
structure Refused (start service : Service ι) (i : ι) (env : Env) (claims : Claims)
    (tokenHash : Bytes) (token : RefreshTokenRow) : Prop where
  known : Known start service token.familyId
  foreign : ∀ family ∈ service.shared.sessionFamilies, family.familyId = token.familyId →
    family.userId ≠ claims.userId
  phase : (service.thread i).activity = .logout env claims tokenHash (.findFamily token) ∨
    (service.thread i).activity = .logout env claims tokenHash (.done forbidden) ∨
    (service.thread i).activity = .logout env claims tokenHash (.done internalErrorResult) ∧
      ∀ family ∈ service.shared.sessionFamilies, family.familyId ≠ token.familyId

section Refusals

variable {env : Env} {claims : Claims} {tokenHash : Bytes} {token : RefreshTokenRow}

/-- The first step of a logout that names a stored token of another user's family. -/
theorem refused_first (starts : Starts start) (sound : Sound start service)
    (logout : (service.thread i).activity = .logout env claims tokenHash .findToken)
    (stored : service.shared.refreshTokens.find? tokenHash = some token) {family : SessionFamilyRow}
    (owner : service.shared.sessionFamilies.find? token.familyId = some family)
    (other : family.userId ≠ claims.userId) :
    (service.step (Running.act ctx) i).shared = service.shared ∧
      Refused start (service.step (Running.act ctx) i) i env claims tokenHash token := by
  have effect := sessionEffect_step ctx service i
  have holds : Holds start (service.step (Running.act ctx) i)
    ((service.step (Running.act ctx) i).thread i).activity := holds_own starts sound
  rw [logout] at effect
  obtain ⟨reached, next, step⟩ := effect.logoutStep
  generalize unchanged : (service.step (Running.act ctx) i).shared = after at step
  rw [next] at holds
  cases step with
  | unknown absent =>
    cases absent with
    | inl possible => exact absurd (sound.reliable i) possible
    | inr absent => simp [stored] at absent
  | found found foundStored =>
    have same : found = token := Option.some.inj (foundStored.symm.trans stored)
    rw [same] at next holds
    refine ⟨rfl, holds.2, fun row rowStored names => ?_, Or.inl next⟩
    rw [unchanged] at rowStored
    obtain ⟨member, id⟩ := Table.find?_eq_some_iff.mp owner
    rw [Table.eq_of_key rowStored member (names.trans id.symm)]
    exact other

/-- A refused logout changes nothing. -/
theorem Refused.unchanged (refused : Refused start service i env claims tokenHash token) :
    (service.step (Running.act ctx) i).shared = service.shared := by
  have effect := sessionEffect_step ctx service i
  have done {result : HandlerResult}
      (finished : (service.thread i).activity = .logout env claims tokenHash (.done result)) :
      (service.step (Running.act ctx) i).shared = service.shared := by
    rw [finished] at effect
    obtain ⟨reached, next, step⟩ := effect.logoutStep
    generalize (service.step (Running.act ctx) i).shared = after at step
    cases step with
    | finished result => rfl
  cases refused.phase with
  | inl waits =>
    rw [waits] at effect
    obtain ⟨reached, next, step⟩ := effect.logoutStep
    generalize (service.step (Running.act ctx) i).shared = after at step
    cases step with
    | missing token absent => rfl
    | foreign token family stored other => rfl
    | owned token family stored own => rfl
  | inr finished =>
    cases finished with
    | inl finished => exact done finished
    | inr finished => exact done finished.1

/-- A refused logout stays refused. -/
theorem Refused.step (starts : Starts start) (sound : Sound start service)
    (refused : Refused start service i env claims tokenHash token) (j : ι) :
    Refused start (service.step (Running.act ctx) j) i env claims tokenHash token := by
  have old {later : SessionFamilyRow}
      (stored : later ∈ (service.step (Running.act ctx) j).shared.sessionFamilies)
      (names : later.familyId = token.familyId) :=
    row_of_known starts sound stored (names ▸ refused.known)
  have foreign (later : SessionFamilyRow)
      (stored : later ∈ (service.step (Running.act ctx) j).shared.sessionFamilies)
      (names : later.familyId = token.familyId) : later.userId ≠ claims.userId := by
    obtain ⟨before, member, id, owner, _⟩ := old stored names
    rw [← owner]
    exact refused.foreign before member (id.trans names)
  have gone (absent : ∀ family ∈ service.shared.sessionFamilies, family.familyId ≠ token.familyId)
      (later : SessionFamilyRow)
      (stored : later ∈ (service.step (Running.act ctx) j).shared.sessionFamilies) :
      later.familyId ≠ token.familyId := by
    intro names
    obtain ⟨before, member, id, _⟩ := old stored names
    exact absent before member (id.trans names)
  refine ⟨refused.known.step, foreign, ?_⟩
  by_cases same : i = j
  · rw [← same] at gone ⊢
    have effect := sessionEffect_step ctx service i
    have done {result : HandlerResult}
        (finished : (service.thread i).activity = .logout env claims tokenHash (.done result)) :
        ((service.step (Running.act ctx) i).thread i).activity =
          .logout env claims tokenHash (.done result) := by
      rw [finished] at effect
      obtain ⟨reached, next, step⟩ := effect.logoutStep
      generalize (service.step (Running.act ctx) i).shared = after at step
      cases step with
      | finished result => exact next
    cases refused.phase with
    | inl waits =>
      rw [waits] at effect
      obtain ⟨reached, next, step⟩ := effect.logoutStep
      generalize (service.step (Running.act ctx) i).shared = after at step
      cases step with
      | missing token absent =>
        have absent := absent.resolve_left fun possible => possible (sound.reliable i)
        exact Or.inr (Or.inr ⟨next, Table.find?_eq_none_iff.mp absent⟩)
      | foreign token family stored other => exact Or.inr (Or.inl next)
      | owned token family stored own =>
        obtain ⟨member, id⟩ := Table.find?_eq_some_iff.mp stored
        exact absurd own (refused.foreign family member id)
    | inr finished =>
      cases finished with
      | inl finished => exact Or.inr (Or.inl (done finished))
      | inr finished => exact Or.inr (Or.inr ⟨done finished.1, gone finished.2⟩)
  · rw [Pool.thread_step_of_ne service same]
    cases refused.phase with
    | inl waits => exact Or.inl waits
    | inr finished =>
      cases finished with
      | inl finished => exact Or.inr (Or.inl finished)
      | inr finished => exact Or.inr (Or.inr ⟨finished.1, gone finished.2⟩)

end Refusals

/-- A logout that reaches its transaction ends the family. -/
theorem ended_of_logout (sound : Sound start service) {env : Env} {claims : Claims}
    {tokenHash : Bytes} {token : RefreshTokenRow} {held : SessionFamilyRow}
    (logout : (service.thread i).activity = .logout env claims tokenHash (.write token held)) :
    Ended start (service.step (Running.act ctx) i) token.familyId := by
  have effect := sessionEffect_step ctx service i
  have holds := sound.holds i
  rw [logout] at effect holds
  obtain ⟨reached, next, step⟩ := effect.logoutStep
  refine ⟨holds.2.1.step, ?_⟩
  generalize (service.step (Running.act ctx) i).shared = after at step ⊢
  cases step with
  | revoked token held =>
    intro family stored names live
    obtain ⟨old, member, row⟩ := Db.mem_revokeFamilies.mp stored
    by_cases chosen : liveFamily token.familyId old = true
    · rw [row, if_pos chosen] at live
      contradiction
    · rw [if_neg chosen] at row
      rw [row] at names live
      exact chosen (by simp [liveFamily, names, live])
  | failed token held possible => exact absurd (sound.reliable i) possible

/-- What is over stays over. -/
theorem Ended.step (starts : Starts start) (sound : Sound start service) {familyId : Bytes}
    (ended : Ended start service familyId) :
    Ended start (service.step (Running.act ctx) i) familyId := by
  refine ⟨ended.known.step, fun later stored names => ?_⟩
  obtain ⟨old, member, id, _, change⟩ := row_of_known starts sound stored (names ▸ ended.known)
  have finished := ended.revoked old member (id.trans names)
  cases change with
  | inl same =>
    rw [same]
    exact finished
  | inr revoked => exact absurd revoked.1 finished

end Steps

section Runs

variable [DecidableEq ι]

/-- What every step from a sound state keeps holds at the end of every run from there. -/
theorem run_keeps_of_sound (ctx : AppCtx) {start service : Service ι} (starts : Starts start)
    {property : Service ι → Prop}
    (kept : ∀ service i, Sound start service → property service →
      property (service.step (Running.act ctx) i))
    (sound : Sound start service) (here : property service) (schedule : List ι) :
    property (service.run (Running.act ctx) schedule) := by
  have both : Sound start (service.run (Running.act ctx) schedule) ∧
      property (service.run (Running.act ctx) schedule) :=
    Pool.run_keeps (fun service => Sound start service ∧ property service)
      (fun service i both => ⟨both.1.step starts, kept service i both.1 both.2⟩) ⟨sound, here⟩ schedule
  exact both.2

/-- In a run without failing statements a live family is revoked only by a logout of its user that
names one of its tokens, by a refresh that presents one of its consumed tokens, or by a password
change of its user from another family. A logout that names a token of another user's family changes
nothing, whenever it takes its steps, and is refused with 403, or with 500 if the family is gone when
it asks for the owner. A logout answers 204 for a stored token only by its transaction, after which
everything stored of the family is revoked in every later state, and none of its tokens is rotated. -/
theorem revocation_provenance (ctx : AppCtx) (service : Service ι) (starts : Starts service) :
    (∀ before i family row,
      let now := service.run (Running.act ctx) before
      let later := service.run (Running.act ctx) (before ++ [i])
      family ∈ now.shared.sessionFamilies → family.revokedAt = none →
      row ∈ later.shared.sessionFamilies → row.familyId = family.familyId → row.revokedAt ≠ none →
      Provenance now.shared family (now.thread i).activity) ∧
    (∀ before i env claims tokenHash token family,
      let now := service.run (Running.act ctx) before
      (now.thread i).activity = .logout env claims tokenHash .findToken →
      now.shared.refreshTokens.find? tokenHash = some token →
      now.shared.sessionFamilies.find? token.familyId = some family →
      family.userId ≠ claims.userId →
      (service.run (Running.act ctx) (before ++ [i])).shared = now.shared ∧
      ∀ rest,
        let reached := service.run (Running.act ctx) (before ++ i :: rest)
        Refused service reached i env claims tokenHash token ∧
        (reached.step (Running.act ctx) i).shared = reached.shared) ∧
    (∀ before i env claims tokenHash token phase,
      let now := service.run (Running.act ctx) before
      let later := service.run (Running.act ctx) (before ++ [i])
      (now.thread i).activity = .logout env claims tokenHash phase →
      phase = .findFamily token ∨ (∃ held, phase = .write token held) →
      (later.thread i).activity = .logout env claims tokenHash (.done Logout.noContent) →
      ∀ rest,
        let reached := service.run (Running.act ctx) (before ++ i :: rest)
        (∀ family ∈ reached.shared.sessionFamilies, family.familyId = token.familyId →
          family.revokedAt ≠ none) ∧
        ∀ presentedHash presented idleTtlS time newRaw undo faults,
          reached.shared.refreshTokens.find? presentedHash = some presented →
          presented.familyId = token.familyId →
          (refresh ctx.crypto presentedHash idleTtlS time newRaw
            (⟨reached.shared, undo⟩, faults)).1.1 ≠ .ok) := by
  have sound := sound_run ctx starts
  have last (before : List ι) (i : ι) : service.run (Running.act ctx) (before ++ [i]) =
      (service.run (Running.act ctx) before).step (Running.act ctx) i := Pool.run_append ..
  have rest (before rest : List ι) (i : ι) : service.run (Running.act ctx) (before ++ i :: rest) =
      ((service.run (Running.act ctx) before).step (Running.act ctx) i).run (Running.act ctx) rest :=
    Pool.run_append ..
  refine ⟨fun before i family row stored live rowStored same revoked => ?_, ?_, ?_⟩
  · rw [last] at rowStored
    exact provenance_step (sound before) stored live rowStored same revoked
  · intro before i env claims tokenHash token family now logout stored owner other
    obtain ⟨unchanged, first⟩ := refused_first starts (sound before) logout stored owner other
    rw [last]
    refine ⟨unchanged, fun later => ?_⟩
    rw [rest]
    have refused := run_keeps_of_sound ctx starts
      (fun _ j sound refused => Refused.step starts sound refused j) ((sound before).step starts)
      first later
    exact ⟨refused, refused.unchanged⟩
  · intro before i env claims tokenHash token phase now later logout stored answer schedule reached
    have ended : Ended service
        ((service.run (Running.act ctx) before).step (Running.act ctx) i) token.familyId := by
      cases stored with
      | inr write =>
        obtain ⟨held, write⟩ := write
        rw [write] at logout
        exact ended_of_logout (sound before) logout
      | inl waits =>
        -- the second read of a logout answers 500 or 403, or leads to the transaction
        have effect := sessionEffect_step ctx now i
        rw [logout, waits] at effect
        obtain ⟨next, same, step⟩ := effect.logoutStep
        rw [← last, answer] at same
        generalize (now.step (Running.act ctx) i).shared = after at step
        cases step with
        | missing token absent => simp [Logout.noContent, internalErrorResult] at same
        | foreign token family stored other =>
          simp [Logout.noContent, forbidden, errorResult] at same
        | owned token family stored own => simp at same
    have finished : Ended service reached token.familyId := by
      rw [show reached = _ from rest before schedule i]
      exact run_keeps_of_sound ctx starts (fun _ _ sound ended => Ended.step starts sound ended)
        ((sound before).step starts) ended schedule
    have soundReached : Sound service reached := sound (before ++ i :: schedule)
    refine ⟨finished.revoked, ?_⟩
    intro presentedHash presented idleTtlS time newRaw undo faults found ofFamily
    exact finished.not_ok soundReached found ofFamily idleTtlS time newRaw undo faults

end Runs

/-- The claims of an access token. -/
def claimsOf (userId : Int) : Claims where
  userId := userId
  roles := 1
  iat := 2000
  nbf := 2000
  exp := 2900
  jti := hexEncodeLower (Deployment.sixteen 1).bytes
  familyId := hexEncodeLower (Deployment.sixteen 1).bytes

/-- Who acts: a login, a logout of the same user, a logout of another user and a sweep. -/
inductive Actor where
  | login
  | logout
  | stranger
  | sweep
  deriving DecidableEq

/-- Two logouts that name the token of a login, and a sweep after the lifetime of its family. -/
def logouts : Service Actor where
  shared := Deployment.database .active
  thread
    | .login =>
      ⟨.login (Deployment.env 2000 1 1) ⟨ascii "alice", ascii "correct horse"⟩ .lookup, []⟩
    | .logout => ⟨.logout (Deployment.env 7778001 2 2) (claimsOf 1)
        (Deployment.crypto.sha256 (Deployment.rawToken 1).bytes) .findToken, []⟩
    | .stranger => ⟨.logout (Deployment.env 7778001 2 2) (claimsOf 2)
        (Deployment.crypto.sha256 (Deployment.rawToken 1).bytes) .findToken, []⟩
    | .sweep => ⟨.sweep ⟨1000, 365⟩ 7778001 [] [.sessionFamilies], []⟩

/-- The assumptions hold of the two logouts. -/
theorem starts_logouts : Starts logouts where
  begins i := by
    cases i with
    | login => trivial
    | logout => trivial
    | stranger => trivial
    | sweep => trivial
  reliable i := by
    cases i with
    | login => rfl
    | logout => rfl
    | stranger => rfl
    | sweep => rfl
  positive i := by
    cases i with
    | login => decide
    | logout => decide
    | stranger => decide
    | sweep => decide
  revocations family stored := absurd stored (Table.not_mem_empty family)
  distinct i j familyId first second := by
    cases i with
    | login =>
      cases j with
      | login => rfl
      | logout => contradiction
      | stranger => contradiction
      | sweep => contradiction
    | logout => contradiction
    | stranger => contradiction
    | sweep => contradiction
  unused i familyId drawn family stored := absurd stored (Table.not_mem_empty family)

/-- The family of the login is over after the logout of its user. -/
theorem revocation_provenance_on_logout :
    let opened := [Actor.login, .login, .logout, .logout]
    let reached := logouts.run (Running.act Deployment.ctx) (opened ++ [.logout])
    ∀ family ∈ reached.shared.sessionFamilies,
      family.familyId = (Deployment.sixteen 1).bytes → family.revokedAt ≠ none := by
  have token : ∃ token held,
      ((logouts.run (Running.act Deployment.ctx) [.login, .login, .logout, .logout]).thread
        .logout).activity = .logout (Deployment.env 7778001 2 2) (claimsOf 1)
        (Deployment.crypto.sha256 (Deployment.rawToken 1).bytes) (.write token held) ∧
      token.familyId = (Deployment.sixteen 1).bytes := by
    simp only [logouts, Deployment.ctx, Deployment.crypto_eq, Deployment.database_eq]
    exact ⟨_, _, rfl, by decide +kernel⟩
  obtain ⟨token, held, stands, names⟩ := token
  rw [← names]
  exact ((revocation_provenance Deployment.ctx logouts starts_logouts).2.2
    [.login, .login, .logout, .logout] .logout _ _ _ token _ stands (Or.inr ⟨held, rfl⟩) rfl []).1

/-- A logout that names a stored token of another user's family is answered 500 if a sweep deletes the
family between its two reads. -/
theorem logout_of_swept_family_fails :
    let opened := logouts.run (Running.act Deployment.ctx) [.login, .login]
    let answered := logouts.run (Running.act Deployment.ctx)
      [.login, .login, .stranger, .sweep, .stranger]
    (∃ token family, opened.shared.refreshTokens.find?
        (Deployment.crypto.sha256 (Deployment.rawToken 1).bytes) = some token ∧
      opened.shared.sessionFamilies.find? token.familyId = some family ∧
      family.userId ≠ (claimsOf 2).userId) ∧
    (answered.thread .stranger).activity = .logout (Deployment.env 7778001 2 2) (claimsOf 2)
      (Deployment.crypto.sha256 (Deployment.rawToken 1).bytes) (.done internalErrorResult) ∧
    internalErrorResult.status = 500 := by
  simp only [logouts, Deployment.ctx, Deployment.crypto_eq, Deployment.database_eq]
  exact ⟨⟨_, _, rfl, rfl, by decide +kernel⟩, rfl, rfl⟩

end PlatformService.Verif.Revocation
