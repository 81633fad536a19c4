import PlatformService.Auth.Jwt

/-!
# The shape of an accepted access token

A token is accepted only in the form `tokenFor`: the fixed header, a payload in
canonical base64url and the canonical base64url of the signature over both. What
is left is the verdict of the claims checks on the payload, whose fields
`readFields_eq_some_iff` lists.
-/

namespace PlatformService.Verif.Tokens

open Lib Json Crypto Claims

/-- A token whose middle segment decodes to a payload. -/
def CarriesPayload (token payload : Bytes) : Prop :=
  ∃ header middle signature, Jwt.segments token = some (header, middle, signature) ∧
    Base64url.decode middle = some payload

/-- A split at the first dot is a split at a dot with none before it. -/
theorem splitDot_eq_some_iff {text before after : Bytes} :
    Jwt.splitDot text = some (before, after) ↔ text = before ++ 46 :: after ∧ 46 ∉ before := by
  unfold Jwt.splitDot
  constructor
  · intro split
    split_ifs at split with dotted
    simp only [Option.some.injEq, Prod.mk.injEq] at split
    obtain ⟨rfl, rfl⟩ := split
    have remains : text.dropWhile (· ≠ 46) ≠ [] := by
      intro empty
      have undotted := List.dropWhile_eq_nil_iff.mp empty 46 dotted
      simp at undotted
    have first := List.head_dropWhile_not (fun byte : UInt8 => decide (byte ≠ 46)) remains
    constructor
    · have rejoin := List.takeWhile_append_dropWhile (p := fun byte : UInt8 => decide (byte ≠ 46))
        (l := text)
      have dot : (text.dropWhile (· ≠ 46)).head remains = 46 := by simpa using first
      have cons := List.cons_head_tail remains
      rw [dot] at cons
      rw [cons]
      exact rejoin.symm
    · intro stored
      have kept := List.mem_takeWhile_imp stored
      simp at kept
  · rintro ⟨rfl, undotted⟩
    have kept : ∀ byte ∈ before, (decide (byte ≠ 46)) = true := by
      intro byte stored
      simp only [ne_eq, decide_not, Bool.not_eq_eq_eq_not, Bool.not_true, decide_eq_false_iff_not]
      rintro rfl
      exact undotted stored
    rw [if_pos (by simp), List.takeWhile_append_of_pos kept, List.dropWhile_append_of_pos kept]
    simp

/-- A token has three segments exactly when it is three dot-free texts joined by dots. -/
theorem segments_eq_some_iff {token header payload signature : Bytes} :
    Jwt.segments token = some (header, payload, signature) ↔
      token = header ++ 46 :: (payload ++ 46 :: signature) ∧
        46 ∉ header ∧ 46 ∉ payload ∧ 46 ∉ signature := by
  unfold Jwt.segments
  constructor
  · intro split
    simp only [Option.bind_eq_bind, Option.bind_eq_some_iff, Prod.exists] at split
    obtain ⟨first, rest, outer, second, third, inner, last⟩ := split
    split_ifs at last with dotted
    simp only [Option.some.injEq, Prod.mk.injEq] at last
    obtain ⟨rfl, rfl, rfl⟩ := last
    obtain ⟨rfl, firstUndotted⟩ := splitDot_eq_some_iff.mp outer
    obtain ⟨rfl, secondUndotted⟩ := splitDot_eq_some_iff.mp inner
    exact ⟨rfl, firstUndotted, secondUndotted, dotted⟩
  · rintro ⟨rfl, firstUndotted, secondUndotted, thirdUndotted⟩
    have outer : Jwt.splitDot (header ++ 46 :: (payload ++ 46 :: signature)) =
        some (header, payload ++ 46 :: signature) := splitDot_eq_some_iff.mpr ⟨rfl, firstUndotted⟩
    have inner : Jwt.splitDot (payload ++ 46 :: signature) = some (payload, signature) :=
      splitDot_eq_some_iff.mpr ⟨rfl, secondUndotted⟩
    simp only [outer, inner, Option.bind_eq_bind, Option.bind_some, if_neg thirdUndotted]

/-- Encoded text has no dot. -/
theorem dot_not_mem_encode (bytes : Bytes) : 46 ∉ Base64url.encode bytes := by
  intro stored
  obtain ⟨index, dot⟩ := Base64url.mem_encode stored
  have decoded := Base64url.decodeChar_encodeChar index
  rw [← dot] at decoded
  have foreign : Base64url.decodeChar 46 = none := by decide
  rw [foreign] at decoded
  contradiction

/-- The constant header has no dot. -/
theorem dot_not_mem_header : 46 ∉ Jwt.headerB64 := by decide

/-- The encoding of a signature is not empty. -/
theorem encode_hmac_ne_nil (crypto : Primitives) (secret text : Bytes) :
    Base64url.encode (crypto.hmacSha256 secret text) ≠ [] := by
  apply Base64url.encode_ne_nil
  intro empty
  have size := crypto.length_hmacSha256 secret text
  rw [empty] at size
  contradiction

/-- The token that carries a payload under a secret. -/
def tokenFor (crypto : Primitives) (secret payload : Bytes) : Bytes :=
  let signed := Jwt.headerB64 ++ [46] ++ Base64url.encode payload
  signed ++ [46] ++ Base64url.encode (crypto.hmacSha256 secret signed)

/-- The segments of the token that carries a payload. -/
theorem segments_tokenFor (crypto : Primitives) (secret payload : Bytes) :
    Jwt.segments (tokenFor crypto secret payload) =
      some (Jwt.headerB64, Base64url.encode payload, Base64url.encode
        (crypto.hmacSha256 secret (Jwt.headerB64 ++ [46] ++ Base64url.encode payload))) :=
  segments_eq_some_iff.mpr ⟨by simp [tokenFor], dot_not_mem_header, dot_not_mem_encode _,
    dot_not_mem_encode _⟩

/-- A token carries the payload it is made for and no other. -/
theorem carriesPayload_tokenFor {crypto : Primitives} {secret payload other : Bytes} :
    CarriesPayload (tokenFor crypto secret payload) other ↔ other = payload := by
  unfold CarriesPayload
  rw [segments_tokenFor]
  constructor
  · rintro ⟨header, middle, signature, split, decoded⟩
    simp only [Option.some.injEq, Prod.mk.injEq] at split
    obtain ⟨rfl, rfl, rfl⟩ := split
    rw [Base64url.decode_encode] at decoded
    exact (Option.some.inj decoded).symm
  · rintro rfl
    exact ⟨_, _, _, rfl, Base64url.decode_encode other⟩

/-- What an accepted token consists of, whatever its payload. -/
theorem verify_eq_ok_iff {crypto : Primitives} {token issuer audience secret : Bytes}
    {now clockSkewS : Int} {claims : Claims} :
    Jwt.verify crypto token issuer audience secret now clockSkewS = .ok claims ↔
      ∃ payload, token = tokenFor crypto secret payload ∧
        Base64url.encode payload ≠ [] ∧
        Claims.parse payload issuer audience now clockSkewS = .ok claims := by
  constructor
  · intro accepted
    unfold Jwt.verify at accepted
    split at accepted
    · contradiction
    · rename_i header payload signature split
      obtain ⟨rfl, -, -, -⟩ := segments_eq_some_iff.mp split
      split_ifs at accepted with empty other
      obtain rfl : header = Jwt.headerB64 := not_not.mp other
      split at accepted
      · contradiction
      · rename_i given decodedSignature
        split_ifs at accepted with short mismatch
        have matching := not_not.mp mismatch
        split at accepted
        · contradiction
        · rename_i json decodedPayload
          rw [Base64url.decode_eq_some_iff] at decodedSignature decodedPayload
          subst decodedPayload
          refine ⟨json, by simp [tokenFor, decodedSignature, matching],
            fun none => empty (by simp [none]), ?_⟩
          cases verdict : Claims.parse json issuer audience now clockSkewS with
          | ok other =>
            rw [verdict] at accepted
            exact congrArg Claims.Result.ok (Jwt.Result.ok.inj accepted)
          | malformed => simp [verdict, Jwt.claimsResult] at accepted
          | badIssuer => simp [verdict, Jwt.claimsResult] at accepted
          | badAudience => simp [verdict, Jwt.claimsResult] at accepted
          | expired => simp [verdict, Jwt.claimsResult] at accepted
          | notYetValid => simp [verdict, Jwt.claimsResult] at accepted
  · rintro ⟨payload, rfl, nonempty, verdict⟩
    have size := crypto.length_hmacSha256 secret (Jwt.headerB64 ++ [46] ++ Base64url.encode payload)
    have signed := encode_hmac_ne_nil crypto secret (Jwt.headerB64 ++ [46] ++ Base64url.encode payload)
    have header : Jwt.headerB64 ≠ [] := by decide
    unfold Jwt.verify
    rw [segments_tokenFor]
    simp only [header, nonempty, signed, or_self, if_false, ne_eq, not_true_eq_false,
      Base64url.decode_encode, size, verdict, Jwt.claimsResult]

/-- A string member is read exactly when it is present and a string. -/
theorem stringField_eq_some_iff {value : Value} {key text : Bytes} :
    stringField value key = some text ↔ objectGet value key = some (.string text) := by
  unfold stringField
  split
  · rename_i other found
    rw [found]
    simp
  · rename_i none
    constructor
    · intro absurd
      contradiction
    · intro found
      exact absurd found (none text)

/-- The fields a payload is read into. -/
theorem readFields_eq_some_iff {value : Value} {iss aud : Bytes} {claims : Claims} :
    readFields value = some (iss, aud, claims) ↔
      (objectGet value (ascii "iss") = some (.string iss) ∧
        objectGet value (ascii "aud") = some (.string aud)) ∧
      (objectGet value (ascii "jti") = some (.string claims.jti) ∧ claims.jti.length = 32) ∧
      (objectGet value (ascii "family_id") = some (.string claims.familyId) ∧
        claims.familyId.length = 32) ∧
      parseSub value = some claims.userId ∧
      parseInt64Field value (ascii "iat") = some claims.iat ∧
      parseInt64Field value (ascii "nbf") = some claims.nbf ∧
      parseInt64Field value (ascii "exp") = some claims.exp ∧
      parseRoles value = some claims.roles := by
  unfold readFields
  simp only [Option.bind_eq_bind, Option.bind_eq_some_iff, stringField_eq_some_iff]
  constructor
  · rintro ⟨_, issFound, _, audFound, jti, jtiFound, fields⟩
    split_ifs at fields with jtiShort
    simp only [Option.bind_eq_some_iff, stringField_eq_some_iff] at fields
    obtain ⟨familyId, familyFound, fields⟩ := fields
    split_ifs at fields with familyShort
    simp only [Option.bind_eq_some_iff, Option.some.injEq, Prod.mk.injEq] at fields
    obtain ⟨userId, sub, iat, iatRead, nbf, nbfRead, exp, expRead, mask, masked, rfl, rfl, rfl⟩ :=
      fields
    exact ⟨⟨issFound, audFound⟩, ⟨jtiFound, not_not.mp jtiShort⟩,
      ⟨familyFound, not_not.mp familyShort⟩, sub, iatRead, nbfRead, expRead, masked⟩
  · rintro ⟨⟨issFound, audFound⟩, ⟨jtiFound, jtiLong⟩, ⟨familyFound, familyLong⟩, sub, iatRead,
      nbfRead, expRead, masked⟩
    refine ⟨iss, issFound, aud, audFound, claims.jti, jtiFound, ?_⟩
    rw [if_neg (not_not.mpr jtiLong)]
    simp only [Option.bind_eq_some_iff, stringField_eq_some_iff]
    refine ⟨claims.familyId, familyFound, ?_⟩
    rw [if_neg (not_not.mpr familyLong), sub, iatRead, nbfRead, expRead, masked]
    rfl

end PlatformService.Verif.Tokens
