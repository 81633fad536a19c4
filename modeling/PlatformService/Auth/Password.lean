import PlatformService.Crypto.Primitives

/-!
# Passwords

`password.c`: hashing, verification and the policy on new passwords. The denylist
is the sorted array of lines that loading leaves, searched by bisection.
-/

namespace PlatformService.Password

open Crypto

/-- `ps_password_hash_t` -/
structure Hash where
  salt : Bytes
  hash : Bytes
  iterations : Int
  deriving DecidableEq, Repr

/-- `ps_password_hash` -/
def hash (crypto : Primitives) (password : Bytes) (iterations : Int) (salt : Option (Drawn 16)) :
    Option Hash := do
  let salt ← salt
  let derived ← crypto.kdfDerive password salt.bytes iterations
  some ⟨salt.bytes, derived, iterations⟩

/-- `ps_password_verify` -/
def verify (crypto : Primitives) (password : Bytes) (stored : Hash) : Bool :=
  crypto.kdfDerive password stored.salt stored.iterations = some stored.hash

/-- `strcmp` -/
def strcmp (left right : Bytes) : Ordering := compareOfLessAndEq (cString left) (cString right)

/-- The loop of `denylist_contains` on the lines from `lo` to `hi`, with `steps` at least their
number. -/
def bisect (lines : List Bytes) (candidate : Bytes) : (steps lo hi : Nat) → Bool
  | 0, _, _ => false
  | steps + 1, lo, hi =>
    if lo < hi then
      let mid := lo + (hi - lo) / 2
      match strcmp (lines.getD mid []) candidate with
      | .eq => true
      | .lt => bisect lines candidate steps (mid + 1) hi
      | .gt => bisect lines candidate steps lo mid
    else false

/-- `denylist_contains` -/
def denylistContains (lines : List Bytes) (candidate : Bytes) : Bool :=
  bisect lines candidate (lines.length + 1) 0 lines.length

/-- `ps_password_policy_result_t` without its allocation failure. -/
inductive PolicyResult where
  | ok
  | tooShort
  | tooLong
  | breached
  deriving DecidableEq, Repr

/-- `ps_password_policy_check` -/
def policyCheck (password : Bytes) (minLength maxLength : Int) (denylist : Option (List Bytes)) :
    PolicyResult :=
  if (password.length : Int) < minLength then .tooShort
  else if maxLength < (password.length : Int) then .tooLong
  else match denylist with
    | none => .ok
    | some lines => if denylistContains lines (password.map toLower) then .breached else .ok

end PlatformService.Password
