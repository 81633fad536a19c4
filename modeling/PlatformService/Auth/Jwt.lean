import PlatformService.Auth.Claims
import PlatformService.Crypto.Base64url
import PlatformService.Crypto.Primitives

/-!
# Access tokens

`jwt.c`: compact JWS with one fixed header. Verification splits the token at its
dots, compares the header segment with the constant, checks the signature over
the text before the second dot, and only then decodes the payload and hands it
to the claims checks.
-/

namespace PlatformService.Jwt

open Crypto

/-- `PS_JWT_HEADER_B64` -/
def headerB64 : Bytes := ascii "eyJhbGciOiJIUzI1NiIsInR5cCI6IkpXVCJ9"

/-- `ps_jwt_encode` -/
def encode (crypto : Primitives) (claims : Claims) (issuer audience secret : Bytes) :
    Option Bytes := do
  let payload ← Claims.write claims issuer audience
  let signed := headerB64 ++ [46] ++ Base64url.encode payload
  some (signed ++ [46] ++ Base64url.encode (crypto.hmacSha256 secret signed))

/-- What `memchr` splits off: the bytes before the first dot and those after it. -/
def splitDot (text : Bytes) : Option (Bytes × Bytes) :=
  if 46 ∈ text then
    some (text.takeWhile (· ≠ 46), (text.dropWhile (· ≠ 46)).tail)
  else none

/-- `ps_jwt_verify_result_t`, with the claims that are written on success. -/
inductive Result where
  | ok (claims : Claims)
  | malformed
  | badAlg
  | badSignature
  | badClaims
  | expired
  | notYetValid
  | badIssuer
  | badAudience
  deriving DecidableEq, Repr

/-- The three segments of a token; a fourth is refused. -/
def segments (token : Bytes) : Option (Bytes × Bytes × Bytes) := do
  let (header, rest) ← splitDot token
  let (payload, signature) ← splitDot rest
  if 46 ∈ signature then none else some (header, payload, signature)

/-- The verdict on a payload whose signature matched. -/
def claimsResult : Claims.Result → Result
  | .ok claims => .ok claims
  | .malformed => .badClaims
  | .badIssuer => .badIssuer
  | .badAudience => .badAudience
  | .expired => .expired
  | .notYetValid => .notYetValid

/-- `ps_jwt_verify` -/
def verify (crypto : Primitives) (token issuer audience secret : Bytes) (now clockSkewS : Int) :
    Result :=
  match segments token with
  | none => .malformed
  | some (header, payload, signature) =>
    if header = [] ∨ payload = [] ∨ signature = [] then .malformed
    else if header ≠ headerB64 then .badAlg
    else match Base64url.decode signature with
      | none => .malformed
      | some given =>
        if given.length ≠ 32 then .malformed
        else if given ≠ crypto.hmacSha256 secret (header ++ [46] ++ payload) then .badSignature
        else match Base64url.decode payload with
          | none => .malformed
          | some json => claimsResult (Claims.parse json issuer audience now clockSkewS)

end PlatformService.Jwt
