import PlatformService.Verif.JsonRoundTrip
import PlatformService.Verif.Tokens

/-!
# Verifying what was issued

The service's own tokens verify, and to the claims they were made from: the
payload is parsed back, each field is read as it was written, and the verdict is
left to the time window alone. `Exact` is what `build_access_token` guarantees of
the claims it signs whatever the database holds, and `Issuable` adds what the
database guarantees: what is signed but not `Issuable` is never accepted.
-/

namespace PlatformService.Verif.ClaimsRoundTrip

open Lib Json Crypto Claims Tokens JsonRoundTrip

/-- Claims the service signs: an identifier in range, known roles, times a double holds exactly, and
identifiers of 32 bytes without NUL. -/
structure Issuable (claims : Claims) : Prop where
  userId : -2 ^ 63 ≤ claims.userId ∧ claims.userId < 2 ^ 63
  roles : claims.roles < 4
  iat : claims.iat.natAbs ≤ 2 ^ 53
  nbf : claims.nbf.natAbs ≤ 2 ^ 53
  exp : claims.exp.natAbs ≤ 2 ^ 53
  jti : claims.jti.length = 32 ∧ (0 : UInt8) ∉ claims.jti
  familyId : claims.familyId.length = 32 ∧ (0 : UInt8) ∉ claims.familyId

/-- Claims that nothing is lost of in writing: known roles, times a double holds exactly, and
identifiers without NUL. -/
structure Exact (claims : Claims) : Prop where
  roles : claims.roles < 4
  iat : claims.iat.natAbs ≤ 2 ^ 53
  nbf : claims.nbf.natAbs ≤ 2 ^ 53
  exp : claims.exp.natAbs ≤ 2 ^ 53
  jti : (0 : UInt8) ∉ claims.jti
  familyId : (0 : UInt8) ∉ claims.familyId

/-- Nothing is lost of claims that can be issued. -/
theorem Issuable.exact {claims : Claims} (issuable : Issuable claims) : Exact claims :=
  ⟨issuable.roles, issuable.iat, issuable.nbf, issuable.exp, issuable.jti.2, issuable.familyId.2⟩

/-- A digit is no space. -/
theorem isSpace_of_isDigit {byte : UInt8} (digit : isDigit byte = true) : isSpace byte = false := by
  simp only [isDigit, Bool.and_eq_true, decide_eq_true_eq, UInt8.le_iff_toNat_le] at digit
  have low : 48 ≤ byte.toNat := by simpa using digit.1
  have space : byte ≠ 32 := by
    rintro rfl
    simp at low
  simp only [isSpace, Bool.or_eq_false_iff, decide_eq_false_iff_not, Bool.and_eq_false_iff,
    UInt8.le_iff_toNat_le]
  refine ⟨space, Or.inr ?_⟩
  simp only [UInt8.reduceToNat]
  omega

/-- `strtoll` reads every 64-bit integer back from its digits, and reports the others. -/
theorem strtoll_intDigits (n : Int) :
    strtoll (intDigits n) =
      if n < -2 ^ 63 then ⟨-2 ^ 63, [], true, true⟩
      else if 2 ^ 63 ≤ n then ⟨2 ^ 63 - 1, [], true, true⟩
      else ⟨n, [], true, false⟩ := by
  have all : ∀ byte ∈ natDigits n.natAbs, isDigit byte = true := fun byte => isDigit_of_mem_natDigits
  have taken : (natDigits n.natAbs).takeWhile isDigit = natDigits n.natAbs :=
    List.takeWhile_eq_self_iff.mpr all
  have dropped : (natDigits n.natAbs).dropWhile isDigit = [] := List.dropWhile_eq_nil_iff.mpr all
  obtain ⟨first, digits, split, digit, unsigned⟩ := natDigits_opens n.natAbs
  have nonempty : natDigits n.natAbs ≠ [] := by simp [split]
  by_cases negative : n < 0
  · have solid : (45 :: natDigits n.natAbs).dropWhile isSpace = 45 :: natDigits n.natAbs :=
      List.dropWhile_cons_of_neg (by decide)
    have flip : -(n.natAbs : Int) = n := by omega
    simp only [intDigits, if_pos negative, strtoll, solid, List.head?_cons, decide_true,
      Bool.true_or, if_true, List.tail_cons, taken, dropped, natOfDigits_natDigits, flip,
      if_neg nonempty]
  · have solid : (natDigits n.natAbs).dropWhile isSpace = natDigits n.natAbs := by
      rw [split]
      exact List.dropWhile_cons_of_neg (by simp [isSpace_of_isDigit digit])
    have plus : first ≠ 43 := by
      rintro rfl
      revert digit
      decide
    have minusHead : (natDigits n.natAbs).head? ≠ some 45 := by simpa [split] using unsigned
    have plusHead : (natDigits n.natAbs).head? ≠ some 43 := by simpa [split] using plus
    have keep : (n.natAbs : Int) = n := by omega
    simp only [intDigits, if_neg negative, strtoll, solid, minusHead, plusHead, decide_false,
      Bool.or_self, Bool.false_eq_true, if_false, taken, dropped, natOfDigits_natDigits, keep,
      if_neg nonempty]

/-- The digits of an integer have no NUL. -/
theorem zero_not_mem_intDigits (n : Int) : (0 : UInt8) ∉ intDigits n :=
  byte_not_mem_intDigits (by decide) (by decide) n

/-- The members of the payload object, in order. -/
theorem claimsObject_eq (claims : Claims) (issuer audience : Bytes) :
    claimsObject claims issuer audience =
      [(ascii "iss", .string (cString issuer)),
        (ascii "sub", .string (intDigits claims.userId)),
        (ascii "aud", .string (cString audience)),
        (ascii "exp", .number (Binary64.ofInt claims.exp)),
        (ascii "iat", .number (Binary64.ofInt claims.iat)),
        (ascii "nbf", .number (Binary64.ofInt claims.nbf)),
        (ascii "jti", .string (cString claims.jti)),
        (ascii "family_id", .string (cString claims.familyId)),
        (ascii "roles", .array
          ((roleNames.filter fun row => claims.roles &&& row.1 ≠ 0).map fun row => .string row.2))] :=
  rfl

/-- The names of the payload's members. -/
def memberNames : List Bytes :=
  [ascii "iss", ascii "sub", ascii "aud", ascii "exp", ascii "iat", ascii "nbf", ascii "jti",
    ascii "family_id", ascii "roles"]

/-- The names are distinct C strings. -/
theorem memberNames_sound : memberNames.Nodup ∧ ∀ name ∈ memberNames, (0 : UInt8) ∉ name := by
  decide

/-- The payload object is one the parser reads back. -/
theorem plain_claimsObject {claims : Claims} (whole : Exact claims) (issuer audience : Bytes) :
    Plain maxDepth (.object (claimsObject claims issuer audience)) := by
  have names : (claimsObject claims issuer audience).map Prod.fst = memberNames := rfl
  refine ⟨names ▸ memberNames_sound.1, fun member stored => ⟨?_, ?_⟩⟩
  · exact memberNames_sound.2 _ (names ▸ List.mem_map_of_mem stored)
  · rw [claimsObject_eq] at stored
    simp only [List.mem_cons, List.not_mem_nil, or_false] at stored
    rcases stored with rfl | rfl | rfl | rfl | rfl | rfl | rfl | rfl | rfl
    · trivial
    · trivial
    · trivial
    · exact readable_ofInt whole.exp
    · exact readable_ofInt whole.iat
    · exact readable_ofInt whole.nbf
    · trivial
    · trivial
    · intro item listed
      obtain ⟨row, -, rfl⟩ := List.mem_map.mp listed
      trivial

/-- The role names of a mask are read back as the mask. -/
theorem parseRoleItems_mask {mask : Nat} (known : mask < 4) :
    parseRoleItems
      ((roleNames.filter fun row => mask &&& row.1 ≠ 0).map fun row => Value.string row.2) 0 =
        some mask := by
  have table : ∀ m < 4, parseRoleItems
      ((roleNames.filter fun row => m &&& row.1 ≠ 0).map fun row => Value.string row.2) 0 =
        some m := by decide
  exact table mask known

/-- An integer a double holds exactly is read back. -/
theorem toInt64_ofInt {n : Int} (small : n.natAbs ≤ 2 ^ 53) : (Binary64.ofInt n).toInt64 = n := by
  obtain ⟨number, converted, denotes⟩ := Binary64.value_ofInt small
  rw [converted]
  exact Binary64.toInt64_of_value denotes (by omega)

/-- The subject is read back exactly when it is a 64-bit integer. -/
theorem parseSub_claimsObject (claims : Claims) (issuer audience : Bytes) (userId : Int) :
    parseSub (.object (claimsObject claims issuer audience)) = some userId ↔
      userId = claims.userId ∧ -2 ^ 63 ≤ claims.userId ∧ claims.userId < 2 ^ 63 := by
  have sub := strtoll_intDigits claims.userId
  have found : stringField (.object (claimsObject claims issuer audience)) (ascii "sub") =
      some (intDigits claims.userId) := rfl
  have nonempty : intDigits claims.userId ≠ [] := by
    obtain ⟨first, digits, opens, _⟩ := natDigits_opens claims.userId.natAbs
    unfold intDigits
    split
    · exact List.cons_ne_nil _ _
    · rw [opens]
      exact List.cons_ne_nil _ _
  unfold parseSub
  simp only [found, Option.bind_eq_bind, Option.bind_some,
    cString_eq_self (zero_not_mem_intDigits _), if_neg nonempty, sub]
  by_cases low : claims.userId < -2 ^ 63
  · simp only [if_pos low, true_or, if_true, reduceCtorEq, false_iff]
    omega
  · by_cases high : 2 ^ 63 ≤ claims.userId
    · simp only [if_neg low, if_pos high, true_or, if_true, reduceCtorEq, false_iff]
      omega
    · simp only [if_neg low, if_neg high, Bool.false_eq_true, not_true_eq_false, ne_eq, or_self,
        if_false, Option.some.injEq]
      omega

/-- Every field is read back as it was written, and only claims that can be issued are read. -/
theorem readFields_claimsObject {claims read : Claims} (whole : Exact claims)
    (issuer audience iss aud : Bytes) :
    readFields (.object (claimsObject claims issuer audience)) = some (iss, aud, read) ↔
      (iss = cString issuer ∧ aud = cString audience ∧ read = claims) ∧ Issuable claims := by
  have jti : objectGet (.object (claimsObject claims issuer audience)) (ascii "jti") =
      some (.string claims.jti) := by
    rw [claimsObject_eq, cString_eq_self whole.jti]
    rfl
  have familyId : objectGet (.object (claimsObject claims issuer audience)) (ascii "family_id") =
      some (.string claims.familyId) := by
    rw [claimsObject_eq, cString_eq_self whole.familyId]
    rfl
  have issued : objectGet (.object (claimsObject claims issuer audience)) (ascii "iss") =
      some (.string (cString issuer)) := rfl
  have meant : objectGet (.object (claimsObject claims issuer audience)) (ascii "aud") =
      some (.string (cString audience)) := rfl
  have iat : parseInt64Field (.object (claimsObject claims issuer audience)) (ascii "iat") =
      some claims.iat := congrArg some (toInt64_ofInt whole.iat)
  have nbf : parseInt64Field (.object (claimsObject claims issuer audience)) (ascii "nbf") =
      some claims.nbf := congrArg some (toInt64_ofInt whole.nbf)
  have exp : parseInt64Field (.object (claimsObject claims issuer audience)) (ascii "exp") =
      some claims.exp := congrArg some (toInt64_ofInt whole.exp)
  have roles : parseRoles (.object (claimsObject claims issuer audience)) = some claims.roles :=
    parseRoleItems_mask whole.roles
  rw [readFields_eq_some_iff, parseSub_claimsObject, jti, familyId, issued, meant, iat, nbf, exp,
    roles]
  simp only [Option.some.injEq, Value.string.injEq]
  constructor
  · intro fields
    obtain ⟨⟨rfl, rfl⟩, ⟨sameJti, jtiLong⟩, ⟨sameFamily, familyLong⟩, ⟨sameUser, range⟩, sameIat,
      sameNbf, sameExp, sameRoles⟩ := fields
    rw [← sameJti] at jtiLong
    rw [← sameFamily] at familyLong
    refine ⟨⟨rfl, rfl, ?_⟩, ?_⟩
    · cases read
      simp only at sameJti sameFamily sameUser sameIat sameNbf sameExp sameRoles
      rw [← sameJti, ← sameFamily, sameUser, ← sameIat, ← sameNbf, ← sameExp, ← sameRoles]
    · exact ⟨range, whole.roles, whole.iat, whole.nbf, whole.exp, ⟨jtiLong, whole.jti⟩,
        ⟨familyLong, whole.familyId⟩⟩
  · intro fields
    obtain ⟨⟨rfl, rfl, rfl⟩, issuable⟩ := fields
    exact ⟨⟨rfl, rfl⟩, ⟨rfl, issuable.jti.1⟩, ⟨rfl, issuable.familyId.1⟩, ⟨rfl, issuable.userId⟩,
      rfl, rfl, rfl, rfl⟩

/-- The service's own payloads are parsed back, subject to the time window alone. -/
theorem parse_write_claims {claims : Claims} (issuable : Issuable claims) (issuer audience : Bytes) :
    ∃ payload, Claims.write claims issuer audience = some payload ∧
      Json.parse payload = some (.object (claimsObject claims issuer audience)) ∧
      ∀ now clockSkewS, Claims.parse payload issuer audience now clockSkewS =
        if claims.exp + clockSkewS < now then .expired
        else if now < claims.nbf - clockSkewS then .notYetValid
        else .ok claims := by
  obtain ⟨payload, written, parsed⟩ := parse_of_write (plain_claimsObject issuable.exact issuer audience)
  refine ⟨payload, written, parsed, fun now clockSkewS => ?_⟩
  have fields : readFields (.object (claimsObject claims issuer audience)) =
      some (cString issuer, cString audience, claims) :=
    (readFields_claimsObject issuable.exact _ _ _ _).mpr ⟨⟨rfl, rfl, rfl⟩, issuable⟩
  have issuerFree := cString_eq_self (zero_not_mem_cString issuer)
  have audienceFree := cString_eq_self (zero_not_mem_cString audience)
  unfold Claims.parse
  rw [parsed]
  simp only [fields, issuerFree, audienceFree, ne_eq, not_true_eq_false, if_false]

/-- A payload that is parsed has a text in its token. -/
theorem encode_payload_ne_nil {payload : Bytes} {value : Value}
    (parsed : Json.parse payload = some value) : Base64url.encode payload ≠ [] := by
  apply Base64url.encode_ne_nil
  rintro rfl
  contradiction

/-- Of the payloads the service writes, those that are accepted are of claims that can be issued. -/
theorem issuable_of_parse {claims accepted : Claims} {payload issuer audience : Bytes}
    {now clockSkewS : Int} (whole : Exact claims)
    (written : Claims.write claims issuer audience = some payload)
    (verdict : Claims.parse payload issuer audience now clockSkewS = .ok accepted) :
    Issuable claims := by
  obtain ⟨other, same, parsed⟩ := parse_of_write (plain_claimsObject whole issuer audience)
  have carried : other = payload := Option.some.inj (same.symm.trans written)
  rw [carried] at parsed
  unfold Claims.parse at verdict
  rw [parsed] at verdict
  dsimp only at verdict
  split at verdict
  · contradiction
  · rename_i iss aud read fields
    exact ((readFields_claimsObject whole issuer audience iss aud).mp fields).2

/-- What an issued token that verifies carries is the payload of its claims. -/
theorem payload_of_issued {crypto : Primitives} {claims accepted : Claims}
    {issuer audience secret token : Bytes} {now clockSkewS : Int}
    (issued : Jwt.encode crypto claims issuer audience secret = some token)
    (verified : Jwt.verify crypto token issuer audience secret now clockSkewS = .ok accepted) :
    ∃ payload, Claims.write claims issuer audience = some payload ∧
      Claims.parse payload issuer audience now clockSkewS = .ok accepted := by
  obtain ⟨other, same, -, outcome⟩ := verify_eq_ok_iff.mp verified
  unfold Jwt.encode at issued
  simp only [Option.bind_eq_bind, Option.bind_eq_some_iff, Option.some.injEq] at issued
  obtain ⟨payload, written, shape⟩ := issued
  have carries : CarriesPayload token payload := by
    rw [← shape]
    exact carriesPayload_tokenFor.mpr rfl
  rw [same] at carries
  have carried : payload = other := carriesPayload_tokenFor.mp carries
  rw [← carried] at outcome
  exact ⟨payload, written, outcome⟩

/-- A token the service issued verifies to its own claims or not at all. -/
theorem verify_issued {crypto : Primitives} {claims accepted : Claims}
    {issuer audience secret token : Bytes} {now clockSkewS : Int} (whole : Exact claims)
    (issued : Jwt.encode crypto claims issuer audience secret = some token)
    (verified : Jwt.verify crypto token issuer audience secret now clockSkewS = .ok accepted) :
    accepted = claims ∧ claims.nbf - clockSkewS ≤ now ∧ now ≤ claims.exp + clockSkewS := by
  obtain ⟨payload, written, outcome⟩ := payload_of_issued issued verified
  have issuable := issuable_of_parse whole written outcome
  obtain ⟨again, rewritten, -, verdict⟩ := parse_write_claims issuable issuer audience
  have unique : again = payload := Option.some.inj (rewritten.symm.trans written)
  rw [← unique, verdict] at outcome
  split_ifs at outcome with expired early
  exact ⟨(Claims.Result.ok.inj outcome).symm, not_lt.mp early, not_lt.mp expired⟩

end PlatformService.Verif.ClaimsRoundTrip
