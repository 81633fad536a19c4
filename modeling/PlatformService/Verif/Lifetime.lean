import PlatformService.Verif.Deployment
import PlatformService.Verif.SessionEffects

/-!
# The lifetime of a session

A family stores when it was created and when it ends, a refresh token when it was
issued and until when it may be presented. `Timely` ties the ends to the
beginnings by the settings; every step of the service keeps it, and no step moves
a beginning or an end that is stored. So a rotation is possible only within both
bounds, however many rotations came before it.
-/

namespace PlatformService.Verif.Lifetime

open Lib Store Crypto Session Api

/-- Every stored family ends its absolute lifetime after its creation, and every stored token its
idle time after its issue. -/
structure Timely (config : Config) (db : Db) : Prop where
  families : ∀ family ∈ db.sessionFamilies,
    family.absoluteExp = family.createdAt + config.refreshAbsoluteTtlS
  tokens : ∀ token ∈ db.refreshTokens, token.idleExp = token.issuedAt + config.refreshIdleTtlS

/-- Without sessions every time is right. -/
theorem timely_of_empty {config : Config} {db : Db} (families : db.sessionFamilies = Table.empty)
    (tokens : db.refreshTokens = Table.empty) : Timely config db := by
  constructor
  · rw [families]
    intro family stored
    exact absurd stored (Table.not_mem_empty family)
  · rw [tokens]
    intro token stored
    exact absurd stored (Table.not_mem_empty token)

section Steps

variable {reliable : Prop} {ctx : AppCtx} {db after : Db} {activity next : Activity}

/-- A step keeps the ends tied to the beginnings. -/
theorem Timely.step (timely : Timely ctx.config db)
    (effect : SessionEffect reliable ctx db activity next after) : Timely ctx.config after := by
  constructor
  · intro later stored
    cases effect.family stored with
    | same stored => exact timely.families later stored
    | revoked old cause stored live row revokedBy =>
      rw [row]
      exact timely.families old stored
    | opened env input user login drawn row unused =>
      rw [row]
      rfl
  · intro later stored
    cases effect.token stored with
    | same stored => exact timely.tokens later stored
    | consumed old stored row =>
      rw [row]
      exact timely.tokens old stored
    | issued time idle => exact idle

/-- A step leaves the beginning and the end of a stored family where they are. -/
theorem times_kept (effect : SessionEffect reliable ctx db activity next after)
    {family later : SessionFamilyRow} (before : family ∈ db.sessionFamilies)
    (stored : later ∈ after.sessionFamilies) (same : later.familyId = family.familyId) :
    later.createdAt = family.createdAt ∧ later.absoluteExp = family.absoluteExp := by
  cases effect.family stored with
  | same stored =>
    rw [Table.eq_of_key stored before same]
    exact ⟨rfl, rfl⟩
  | revoked old cause stored live row revokedBy =>
    rw [row] at same ⊢
    rw [Table.eq_of_key stored before same]
    exact ⟨rfl, rfl⟩
  | opened env input user login drawn row unused => exact absurd same.symm (unused family before)

/-- A step stores a family that was not stored only by a login, which dates it. -/
theorem dated_by_login (effect : SessionEffect reliable ctx db activity next after)
    {later : SessionFamilyRow} (stored : later ∈ after.sessionFamilies)
    (new : ∀ family ∈ db.sessionFamilies, family.familyId ≠ later.familyId) :
    (∃ env input user, activity = .login env input (.write (.accept user))) ∧
      later.createdAt = clock activity := by
  cases effect.family stored with
  | same stored => exact absurd rfl (new later stored)
  | revoked old cause stored live row revokedBy =>
    rw [row] at new
    exact absurd rfl (new old stored)
  | opened env input user login drawn row unused =>
    rw [row, login]
    exact ⟨⟨env, input, user, rfl⟩, rfl⟩

/-- A step issues a token that was not stored at its own time. -/
theorem token_dated (effect : SessionEffect reliable ctx db activity next after)
    {later : RefreshTokenRow} (stored : later ∈ after.refreshTokens)
    (new : ∀ token ∈ db.refreshTokens, token.tokenHash ≠ later.tokenHash) :
    later.issuedAt = clock activity := by
  cases effect.token stored with
  | same stored => exact absurd rfl (new later stored)
  | consumed old stored row =>
    rw [row] at new
    exact absurd rfl (new old stored)
  | issued time idle => exact time

/-- The bounds on the time of a rotation. -/
def InTime (config : Config) (db : Db) (tokenHash : Bytes) (now : Int) : Prop :=
  ∃ token family, db.refreshTokens.find? tokenHash = some token ∧
    db.sessionFamilies.find? token.familyId = some family ∧
    now ≤ family.createdAt + config.refreshAbsoluteTtlS ∧
    now ≤ token.issuedAt + config.refreshIdleTtlS

/-- `ps_session_refresh` reports success only within the bounds. -/
theorem refresh_inTime (timely : Timely ctx.config db) (tokenHash : Bytes) (now : Int)
    (newRaw : Option (Drawn 32)) (undo : List Db) (faults : List Bool)
    (success : (refresh ctx.crypto tokenHash ctx.config.refreshIdleTtlS now newRaw
      (⟨db, undo⟩, faults)).1.1 = .ok) : InTime ctx.config db tokenHash now := by
  obtain ⟨token, family, stored, owner, _, _, inTime, notIdle⟩ := of_refresh_ok success
  have familyEnd := timely.families family (Table.find?_eq_some_iff.mp owner).1
  have tokenEnd := timely.tokens token (Table.find?_eq_some_iff.mp stored).1
  exact ⟨token, family, stored, owner, familyEnd ▸ inTime, tokenEnd ▸ notIdle⟩

end Steps

section Runs

variable {ι : Type} [DecidableEq ι] {ctx : AppCtx}

/-- Every run keeps the ends tied to the beginnings. -/
theorem timely_run {service : Service ι} (start : Timely ctx.config service.shared)
    (schedule : List ι) : Timely ctx.config (service.run (Running.act ctx) schedule).shared := by
  refine Pool.run_keeps (fun service => Timely ctx.config service.shared)
    (fun service i timely => ?_) start schedule
  exact timely.step (sessionEffect_step ctx service i)

/-- In every run a refresh succeeds only within the absolute lifetime of its family and the idle time
of its token; a family is dated by the login that opens it and a token by the step that issues it, and
no step moves the beginning or the end of a stored family. -/
theorem session_lifetime_bounded (ctx : AppCtx) (service : Service ι)
    (start : Timely ctx.config service.shared) (schedule : List ι) :
    (∀ tokenHash now newRaw undo faults,
      (refresh ctx.crypto tokenHash ctx.config.refreshIdleTtlS now newRaw
        (⟨(service.run (Running.act ctx) schedule).shared, undo⟩, faults)).1.1 = .ok →
      InTime ctx.config (service.run (Running.act ctx) schedule).shared tokenHash now) ∧
    ∀ before i rest, schedule = before ++ i :: rest →
      let now := service.run (Running.act ctx) before
      let later := service.run (Running.act ctx) (before ++ [i])
      (∀ family ∈ now.shared.sessionFamilies, ∀ row ∈ later.shared.sessionFamilies,
        row.familyId = family.familyId →
        row.createdAt = family.createdAt ∧ row.absoluteExp = family.absoluteExp) ∧
      (∀ row ∈ later.shared.sessionFamilies,
        (∀ family ∈ now.shared.sessionFamilies, family.familyId ≠ row.familyId) →
        (∃ env input user, (now.thread i).activity = .login env input (.write (.accept user))) ∧
          row.createdAt = clock (now.thread i).activity) ∧
      ∀ row ∈ later.shared.refreshTokens,
        (∀ token ∈ now.shared.refreshTokens, token.tokenHash ≠ row.tokenHash) →
        row.issuedAt = clock (now.thread i).activity := by
  constructor
  · intro tokenHash now newRaw undo faults success
    exact refresh_inTime (timely_run start schedule) tokenHash now newRaw undo faults success
  · intro before i rest _
    have last : service.run (Running.act ctx) (before ++ [i]) =
        (service.run (Running.act ctx) before).step (Running.act ctx) i := Pool.run_append ..
    have effect := sessionEffect_step ctx (service.run (Running.act ctx) before) i
    rw [← last] at effect
    refine ⟨fun family stored row rowStored same => ?_, fun row stored new => ?_,
      fun row stored new => ?_⟩
    · exact times_kept effect stored rowStored same
    · exact dated_by_login effect stored new
    · exact token_dated effect stored new

end Runs

/-- One login on the account of the deployment. -/
def oneLogin : Service Unit where
  shared := Deployment.database .active
  thread _ := ⟨.login (Deployment.env 2000 1 1) ⟨ascii "alice", ascii "correct horse"⟩ .lookup, []⟩

/-- The token of a login is rotated in the last second of its idle time. -/
theorem session_lifetime_bounded_on_last_second :
    let opened := (oneLogin.run (Running.act Deployment.ctx) [(), ()]).shared
    let tokenHash := Deployment.crypto.sha256 (Deployment.rawToken 1).bytes
    InTime Deployment.config opened tokenHash 2594000 :=
  (session_lifetime_bounded Deployment.ctx oneLogin (timely_of_empty rfl rfl) [(), ()]).1 _ 2594000
    (some (Deployment.rawToken 2)) [] [] (by decide +kernel)

end PlatformService.Verif.Lifetime
