import PlatformService.Crypto.Primitives
import PlatformService.Store.Statements

/-!
# Sessions

`session.c`: opening a session family with its first refresh token, and the
rotation of a presented token. Both run inside the caller's transaction. A
consumed token ends its family; an unconsumed one is claimed before anything
else is decided about it. The generation of a successor is an `int` sum: it wraps
where C leaves the overflow undefined.
-/

namespace PlatformService.Session

open Crypto Store

/-- `ps_session_created_t` -/
structure Created where
  familyId : Bytes
  rawRefreshToken : Bytes
  refreshIdleExp : Int
  deriving DecidableEq, Repr

/-- `ps_session_create` -/
def create (crypto : Primitives) (userId absoluteTtlS idleTtlS now : Int)
    (familyId : Option (Drawn 16)) (rawToken : Option (Drawn 32)) : Sql (Option Created) := do
  match familyId with
  | none => return none
  | some family =>
    if !(← SessionStore.createFamily family.bytes userId now (now + absoluteTtlS)) then return none
    match rawToken with
    | none => return none
    | some raw =>
      let idleExp := now + idleTtlS
      if ← SessionStore.insertToken (crypto.sha256 raw.bytes) family.bytes 1 idleExp now then
        return some ⟨family.bytes, raw.bytes, idleExp⟩
      else return none

/-- `ps_session_refresh_result_t` -/
inductive RefreshResult where
  | ok
  | invalid
  | reuseDetected
  | error
  deriving DecidableEq, Repr

/-- `ps_session_refreshed_t`, zeroed by default. -/
structure Refreshed where
  userId : Int := 0
  familyId : Bytes := List.replicate 16 0
  rawRefreshToken : Bytes := List.replicate 32 0
  refreshIdleExp : Int := 0
  deriving DecidableEq, Repr

/-- `ps_session_refresh` -/
def refresh (crypto : Primitives) (oldTokenHash : Bytes) (idleTtlS now : Int)
    (newRaw : Option (Drawn 32)) : Sql (RefreshResult × Refreshed) := do
  match ← SessionStore.getToken oldTokenHash with
  | none => return (.invalid, {})
  | some token =>
    match ← SessionStore.getFamily token.familyId with
    | none => return (.error, {})
    | some family =>
      let out : Refreshed := { userId := family.userId, familyId := token.familyId }
      if nullAsZero token.consumedAt ≠ 0 then
        -- the revocation's own failure goes unnoticed
        let _ ← SessionStore.revokeFamily token.familyId .reuseDetected now
        return (.reuseDetected, out)
      match ← SessionStore.tryConsumeToken oldTokenHash now with
      | none => return (.error, out)
      | some false =>
        let _ ← SessionStore.revokeFamily token.familyId .reuseDetected now
        return (.reuseDetected, out)
      | some true =>
        if nullAsZero family.revokedAt ≠ 0 ∨ family.absoluteExp < now ∨ token.idleExp < now then
          return (.invalid, out)
        match newRaw with
        | none => return (.error, out)
        | some raw =>
          let idleExp := now + idleTtlS
          if ← SessionStore.insertToken (crypto.sha256 raw.bytes) token.familyId
              (token.generation + 1) idleExp now then
            return (.ok, { out with rawRefreshToken := raw.bytes, refreshIdleExp := idleExp })
          else return (.error, out)

end PlatformService.Session
