import Mathlib.Data.List.DropRight
import PlatformService.Lib.Bytes

/-!
# Usernames and email addresses

`validate.c`: what registration accepts, and the form in which it is stored. Both
checks read C strings and write into bounded buffers.
-/

namespace PlatformService.Validate

/-- `PS_USERNAME_MAX` -/
def usernameMax : Nat := 33

/-- `PS_EMAIL_MAX` -/
def emailMax : Nat := 255

/-- `RESERVED_USERNAMES` -/
def reservedUsernames : List Bytes :=
  ["admin", "administrator", "root", "system", "support", "security", "null", "undefined",
    "moderator", "staff", "owner", "superuser", "sysadmin", "webmaster", "postmaster", "api",
    "test"].map ascii

/-- `is_alnum_ascii` -/
def isAlnumAscii (byte : UInt8) : Bool := (97 ≤ byte && byte ≤ 122) || (48 ≤ byte && byte ≤ 57)

/-- `is_username_char` -/
def isUsernameChar (byte : UInt8) : Bool := isAlnumAscii byte || byte = 95 || byte = 45

/-- `ps_username_validate_result_t`, with the normalized name on success. -/
inductive UsernameResult where
  | valid (username : Bytes)
  | tooShort
  | tooLong
  | badCharset
  | startsNonAlphanumeric
  | reserved
  deriving DecidableEq, Repr

/-- `ps_username_validate` into a buffer of `outSize` octets. -/
def username (raw : Bytes) (outSize : Nat) (checkReserved : Bool) : UsernameResult :=
  let text := cString raw
  let out := (text.take (outSize - 1)).map toLower
  if text.length < 3 then .tooShort
  else if 32 < text.length then .tooLong
  else if !out.all isUsernameChar then .badCharset
  else if !isAlnumAscii (out.headD 0) then .startsNonAlphanumeric
  else if checkReserved && reservedUsernames.contains out then .reserved
  else .valid out

/-- A space or a tab. -/
def isBlank (byte : UInt8) : Bool := byte = 32 || byte = 9

/-- The C string of a buffer without the blanks around it. -/
def trim (raw : Bytes) : Bytes := ((cString raw).dropWhile isBlank).rdropWhile isBlank

/-- `ps_email_validate_result_t`, with the normalized address on success. -/
inductive EmailResult where
  | valid (email : Bytes)
  | tooLong
  | malformed
  deriving DecidableEq, Repr

/-- `ps_email_validate` into a buffer of `outSize` octets. -/
def email (raw : Bytes) (outSize : Nat) : EmailResult :=
  let trimmed := trim raw
  let out := (trimmed.take (outSize - 1)).map toLower
  if 254 < trimmed.length then .tooLong
  else
    let domain := (out.dropWhile (· ≠ 64)).tail
    if 64 ∉ out ∨ 64 ∈ domain then .malformed
    else if out.head? = some 64 ∨ domain = [] ∨ 46 ∉ domain then .malformed
    else .valid out

end PlatformService.Validate
