import Mathlib.Data.Nat.Bitwise
import PlatformService.Json.Parse
import PlatformService.Json.Write
import PlatformService.Store.Db

/-!
# Access-token claims

`claims.c`: the claims record, its JSON form, and the structural and semantic
checks on a payload. Strings read from a payload are C strings wherever the
source compares or converts them. Roles are a bit mask over `ROLE_NAMES`.
-/

namespace PlatformService

open Lib Json Store

/-- `ps_jwt_claims_t` -/
structure Claims where
  userId : Int
  roles : Nat
  iat : Int
  nbf : Int
  exp : Int
  jti : Bytes
  familyId : Bytes
  deriving DecidableEq, Repr

namespace Claims

/-- The bit of a role: `PS_JWT_ROLE_USER` and `PS_JWT_ROLE_ADMIN`. -/
def roleIndex : Role → Nat
  | .user => 0
  | .admin => 1

/-- `ROLE_NAMES`, in the order of the table. -/
def roleNames : List (Nat × Bytes) :=
  [(2 ^ roleIndex .user, ascii "USER"), (2 ^ roleIndex .admin, ascii "ADMIN")]

/-- The bit of a role name, compared by `strcmp`. -/
def roleBit (name : Bytes) : Option Nat :=
  (roleNames.find? fun row => cString name = row.2).map Prod.fst

/-- `ps_claims_roles_from_names`: unknown names are skipped. -/
def rolesFromNames (names : List Bytes) : Nat :=
  names.foldl (fun roles name => roles ||| (roleBit name).getD 0) 0

/-- The object `ps_claims_write` builds. -/
def claimsObject (claims : Claims) (issuer audience : Bytes) : List (Bytes × Value) :=
  let names := roleNames.filter fun row => claims.roles &&& row.1 ≠ 0
  let fields : List (Bytes × Value) :=
    [(ascii "iss", .string (cString issuer)),
      (ascii "sub", .string (intDigits claims.userId)),
      (ascii "aud", .string (cString audience)),
      (ascii "exp", .number (Binary64.ofInt claims.exp)),
      (ascii "iat", .number (Binary64.ofInt claims.iat)),
      (ascii "nbf", .number (Binary64.ofInt claims.nbf)),
      (ascii "jti", .string (cString claims.jti)),
      (ascii "family_id", .string (cString claims.familyId)),
      (ascii "roles", .array (names.map fun row => .string row.2))]
  fields.foldl (fun members field => objectSet members field.1 field.2) []

/-- `ps_claims_write` -/
def write (claims : Claims) (issuer audience : Bytes) : Option Bytes :=
  Json.write (.object (claimsObject claims issuer audience))

/-- `parse_int64_field` -/
def parseInt64Field (value : Value) (key : Bytes) : Option Int :=
  match objectGet value key with
  | some (.number number) => some number.toInt64
  | _ => none

/-- `parse_sub`: `strtoll` must convert something, reach the end and stay in range. -/
def parseSub (value : Value) : Option Int := do
  let text ← stringField value (ascii "sub")
  let sub := cString text
  if sub = [] then none
  else
    let parsed := strtoll sub
    if parsed.erange ∨ ¬parsed.converted ∨ parsed.rest ≠ [] then none else some parsed.value

/-- The loop of `parse_roles`: an item that is not a known name fails the whole list. -/
def parseRoleItems : List Value → Nat → Option Nat
  | [], roles => some roles
  | .string name :: items, roles =>
    match roleBit name with
    | some bit => parseRoleItems items (roles ||| bit)
    | none => none
  | _ :: _, _ => none

/-- `parse_roles` -/
def parseRoles (value : Value) : Option Nat :=
  match objectGet value (ascii "roles") with
  | some (.array items) => parseRoleItems items 0
  | _ => none

/-- `ps_claims_result_t`, with the claims that are written on success. -/
inductive Result where
  | ok (claims : Claims)
  | malformed
  | badIssuer
  | badAudience
  | expired
  | notYetValid
  deriving DecidableEq, Repr

/-- The claims of a payload that is structurally sound, with its issuer and audience. -/
def readFields (value : Value) : Option (Bytes × Bytes × Claims) := do
  let iss ← stringField value (ascii "iss")
  let aud ← stringField value (ascii "aud")
  let jti ← stringField value (ascii "jti")
  if jti.length ≠ 32 then none
  else
    let familyId ← stringField value (ascii "family_id")
    if familyId.length ≠ 32 then none
    else
      let userId ← parseSub value
      let iat ← parseInt64Field value (ascii "iat")
      let nbf ← parseInt64Field value (ascii "nbf")
      let exp ← parseInt64Field value (ascii "exp")
      let roles ← parseRoles value
      some (iss, aud, { userId, roles, iat, nbf, exp, jti, familyId })

/-- `ps_claims_parse` -/
def parse (json issuer audience : Bytes) (now clockSkewS : Int) : Result :=
  match Json.parse json with
  | some (.object members) =>
    match readFields (.object members) with
    | none => .malformed
    | some (iss, aud, claims) =>
      if cString iss ≠ cString issuer then .badIssuer
      else if cString aud ≠ cString audience then .badAudience
      else if claims.exp + clockSkewS < now then .expired
      else if now < claims.nbf - clockSkewS then .notYetValid
      else .ok claims
  | _ => .malformed

end Claims

end PlatformService
