import PlatformService.Verif.ClaimsRoundTrip

/-!
# Which access tokens are accepted

Verification accepts a token exactly when it has the canonical form and its
payload is a JSON object with sound claims, issued for this service and valid at
the time. The statement is about payloads whose time claims are integers that a
double holds exactly and whose compared strings have no NUL: outside that domain
the C conversions truncate. As both segments are canonical, a payload has at most
one accepted token under a secret.
-/

namespace PlatformService.Verif.Acceptance

open Lib Json Crypto Claims Tokens ClaimsRoundTrip

/-- A member that is a number denoting the given integer. -/
def WholeField (value : Value) (key : Bytes) (n : Int) : Prop :=
  ∃ number : Binary64.Finite, objectGet value key = some (.number (.finite number)) ∧
    number.value = n

/-- A payload with sound claims for an issuer and audience, valid at a time. -/
structure ClaimsValid (value : Value) (issuer audience : Bytes) (now clockSkewS : Int) : Prop where
  iss : objectGet value (ascii "iss") = some (.string issuer)
  aud : objectGet value (ascii "aud") = some (.string audience)
  sub : ∃ text, objectGet value (ascii "sub") = some (.string text) ∧
    (strtoll text).converted = true ∧ (strtoll text).rest = [] ∧ (strtoll text).erange = false
  jti : ∃ text, objectGet value (ascii "jti") = some (.string text) ∧ text.length = 32
  familyId : ∃ text, objectGet value (ascii "family_id") = some (.string text) ∧ text.length = 32
  iat : ∃ iat, WholeField value (ascii "iat") iat
  window : ∃ nbf exp, WholeField value (ascii "nbf") nbf ∧ WholeField value (ascii "exp") exp ∧
    nbf - clockSkewS ≤ now ∧ now ≤ exp + clockSkewS
  roles : ∃ items, objectGet value (ascii "roles") = some (.array items) ∧
    ∀ item ∈ items, ∃ row ∈ roleNames, item = .string row.2

/-- Payloads whose time claims, if numbers, are integers a double holds exactly, and whose compared
strings have no NUL. -/
structure InDomain (value : Value) : Prop where
  times : ∀ key ∈ [ascii "iat", ascii "nbf", ascii "exp"], ∀ number,
    objectGet value key = some (.number number) →
      ∃ n : Int, n.natAbs ≤ 2 ^ 53 ∧ WholeField value key n
  texts : ∀ key ∈ [ascii "iss", ascii "aud", ascii "sub"], ∀ text,
    objectGet value key = some (.string text) → (0 : UInt8) ∉ text
  names : ∀ items, objectGet value (ascii "roles") = some (.array items) →
    ∀ name, Value.string name ∈ items → (0 : UInt8) ∉ name

/-- A token that some call with the secret accepts. -/
def Accepted (crypto : Primitives) (secret token : Bytes) : Prop :=
  ∃ issuer audience now clockSkewS claims,
    Jwt.verify crypto token issuer audience secret now clockSkewS = .ok claims

/-- A known role name has a bit. -/
theorem roleBit_isSome_iff {name : Bytes} (free : (0 : UInt8) ∉ name) :
    (∃ bit, roleBit name = some bit) ↔ ∃ row ∈ roleNames, name = row.2 := by
  unfold roleBit
  rw [cString_eq_self free]
  constructor
  · rintro ⟨bit, found⟩
    obtain ⟨row, selected, -⟩ := Option.map_eq_some_iff.mp found
    exact ⟨row, List.mem_of_find?_eq_some selected, by simpa using List.find?_some selected⟩
  · rintro ⟨row, stored, rfl⟩
    cases found : roleNames.find? fun other => row.2 = other.2 with
    | none =>
      have absent := List.find?_eq_none.mp found row stored
      simp at absent
    | some other => exact ⟨other.1, rfl⟩

/-- The role loop succeeds exactly on lists of known names. -/
theorem parseRoleItems_isSome_iff {items : List Value} {roles : Nat}
    (free : ∀ name, Value.string name ∈ items → (0 : UInt8) ∉ name) :
    (∃ mask, parseRoleItems items roles = some mask) ↔
      ∀ item ∈ items, ∃ row ∈ roleNames, item = .string row.2 := by
  induction items generalizing roles with
  | nil => simp [parseRoleItems]
  | cons item items ih =>
    have later := fun mask => @ih mask fun name stored =>
      free name (List.mem_cons_of_mem _ stored)
    simp only [List.forall_mem_cons]
    cases item with
    | string name =>
      have known := roleBit_isSome_iff (free name List.mem_cons_self)
      rw [parseRoleItems]
      cases bit : roleBit name with
      | none =>
        rw [bit] at known
        simp only [reduceCtorEq, exists_false, false_iff] at known ⊢
        rintro ⟨⟨row, stored, same⟩, -⟩
        exact known ⟨row, stored, by simpa using same⟩
      | some mask =>
        obtain ⟨row, stored, same⟩ := known.mp ⟨mask, bit⟩
        rw [later]
        exact ⟨fun rest => ⟨⟨row, stored, by rw [same]⟩, rest⟩, And.right⟩
    | null => simp [parseRoleItems]
    | bool value => simp [parseRoleItems]
    | number value => simp [parseRoleItems]
    | array value => simp [parseRoleItems]
    | object value => simp [parseRoleItems]

/-- A number member in the domain is read as the integer it denotes. -/
theorem parseInt64Field_eq_some_iff {value : Value} {key : Bytes} {n : Int}
    (whole : ∀ number, objectGet value key = some (.number number) →
      ∃ m : Int, m.natAbs ≤ 2 ^ 53 ∧ WholeField value key m) :
    parseInt64Field value key = some n ↔ WholeField value key n := by
  unfold parseInt64Field
  constructor
  · intro read
    split at read
    · rename_i number found
      obtain ⟨m, small, finite, stored, denotes⟩ := whole number found
      rw [found] at stored
      obtain rfl : number = .finite finite := by simpa using stored
      rw [Binary64.toInt64_of_value denotes (by omega)] at read
      exact ⟨finite, found, by rw [denotes, Option.some.inj read]⟩
    · contradiction
  · rintro ⟨finite, found, denotes⟩
    obtain ⟨m, small, other, stored, same⟩ := whole _ found
    rw [found] at stored
    obtain rfl : finite = other := by simpa using stored
    have agree : n = m := by exact_mod_cast denotes.symm.trans same
    rw [found]
    simp only [Binary64.toInt64_of_value denotes (by omega)]

/-- The subject is read exactly when `strtoll` takes all of it, in range. -/
theorem parseSub_isSome_iff {value : Value}
    (free : ∀ text, objectGet value (ascii "sub") = some (.string text) → (0 : UInt8) ∉ text) :
    (∃ userId, parseSub value = some userId) ↔
      ∃ text, objectGet value (ascii "sub") = some (.string text) ∧
        (strtoll text).converted = true ∧ (strtoll text).rest = [] ∧
          (strtoll text).erange = false := by
  unfold parseSub
  simp only [Option.bind_eq_bind, Option.bind_eq_some_iff, stringField_eq_some_iff]
  constructor
  · rintro ⟨userId, text, found, read⟩
    rw [cString_eq_self (free text found)] at read
    split_ifs at read with empty failed
    simp only [not_or, Bool.not_eq_true, not_not, ne_eq] at failed
    exact ⟨text, found, by simpa using failed.2.1, failed.2.2, failed.1⟩
  · rintro ⟨text, found, converted, rest, range⟩
    refine ⟨(strtoll text).value, text, found, ?_⟩
    rw [cString_eq_self (free text found)]
    have nonempty : text ≠ [] := by
      rintro rfl
      simp [strtoll] at converted
    simp [nonempty, converted, rest, range]

/-- A role list is read exactly when it is an array of known names. -/
theorem parseRoles_isSome_iff {value : Value} (inside : InDomain value) :
    (∃ mask, parseRoles value = some mask) ↔
      ∃ items, objectGet value (ascii "roles") = some (.array items) ∧
        ∀ item ∈ items, ∃ row ∈ roleNames, item = .string row.2 := by
  unfold parseRoles
  constructor
  · rintro ⟨mask, read⟩
    split at read
    · rename_i items found
      exact ⟨items, found, (parseRoleItems_isSome_iff (inside.names items found)).mp ⟨mask, read⟩⟩
    · contradiction
  · rintro ⟨items, found, known⟩
    rw [found]
    exact (parseRoleItems_isSome_iff (inside.names items found)).mpr known

/-- The claims checks pass exactly on the objects with sound and current claims. -/
theorem parse_isOk_iff {payload issuer audience : Bytes} {now clockSkewS : Int}
    (domain : ∀ value, Json.parse payload = some value → InDomain value) :
    (∃ claims, Claims.parse payload issuer audience now clockSkewS = .ok claims) ↔
      ∃ value, Json.parse payload = some value ∧
        ClaimsValid value (cString issuer) (cString audience) now clockSkewS := by
  constructor
  · rintro ⟨claims, accepted⟩
    unfold Claims.parse at accepted
    split at accepted
    · rename_i members parsed
      have inside := domain _ parsed
      split at accepted
      · contradiction
      · rename_i iss aud read fields
        split_ifs at accepted with otherIssuer otherAudience expired early
        obtain ⟨⟨issFound, audFound⟩, ⟨jtiFound, jtiLong⟩, ⟨familyFound, familyLong⟩, sub, iat, nbf,
          exp, masked⟩ := readFields_eq_some_iff.mp fields
        have sameIssuer := not_not.mp otherIssuer
        have sameAudience := not_not.mp otherAudience
        rw [cString_eq_self (inside.texts _ (by simp) _ issFound)] at sameIssuer
        rw [cString_eq_self (inside.texts _ (by simp) _ audFound)] at sameAudience
        rw [parseInt64Field_eq_some_iff (inside.times _ (by simp))] at iat nbf exp
        exact ⟨_, parsed, {
          iss := by rw [issFound, sameIssuer]
          aud := by rw [audFound, sameAudience]
          sub := (parseSub_isSome_iff (inside.texts _ (by simp))).mp ⟨_, sub⟩
          jti := ⟨_, jtiFound, jtiLong⟩
          familyId := ⟨_, familyFound, familyLong⟩
          iat := ⟨_, iat⟩
          window := ⟨_, _, nbf, exp, not_lt.mp early, not_lt.mp expired⟩
          roles := (parseRoles_isSome_iff inside).mp ⟨_, masked⟩ }⟩
    · contradiction
  · rintro ⟨value, parsed, valid⟩
    have inside := domain _ parsed
    obtain ⟨members, rfl⟩ : ∃ members, value = .object members := by
      have found := valid.iss
      unfold objectGet at found
      split at found
      · exact ⟨_, rfl⟩
      · contradiction
    obtain ⟨userId, sub⟩ := (parseSub_isSome_iff (inside.texts _ (by simp))).mpr valid.sub
    obtain ⟨mask, masked⟩ := (parseRoles_isSome_iff inside).mpr valid.roles
    obtain ⟨jti, jtiFound, jtiLong⟩ := valid.jti
    obtain ⟨familyId, familyFound, familyLong⟩ := valid.familyId
    obtain ⟨iat, iatWhole⟩ := valid.iat
    obtain ⟨nbf, exp, nbfWhole, expWhole, late, soon⟩ := valid.window
    rw [← parseInt64Field_eq_some_iff (inside.times _ (by simp))] at iatWhole nbfWhole expWhole
    have fields : readFields (.object members) = some (cString issuer, cString audience,
        { userId := userId, roles := mask, iat := iat, nbf := nbf, exp := exp, jti := jti,
          familyId := familyId }) :=
      readFields_eq_some_iff.mpr ⟨⟨valid.iss, valid.aud⟩, ⟨jtiFound, jtiLong⟩,
        ⟨familyFound, familyLong⟩, sub, iatWhole, nbfWhole, expWhole, masked⟩
    have issuerFree := cString_eq_self (zero_not_mem_cString issuer)
    have audienceFree := cString_eq_self (zero_not_mem_cString audience)
    unfold Claims.parse
    rw [parsed]
    simp only [fields, issuerFree, audienceFree, ne_eq, not_true_eq_false, if_false, not_lt.mpr late,
      not_lt.mpr soon]
    exact ⟨_, rfl⟩

/-- Exactly which tokens are accepted, and that a payload has at most one accepted token. -/
theorem verify_accepts_exactly (crypto : Primitives) (token issuer audience secret : Bytes)
    (now clockSkewS : Int)
    (domain : ∀ payload value, CarriesPayload token payload → Json.parse payload = some value →
      InDomain value) :
    ((∃ claims, Jwt.verify crypto token issuer audience secret now clockSkewS = .ok claims) ↔
      ∃ p s payload value, token = Jwt.headerB64 ++ [46] ++ p ++ [46] ++ s ∧ p ≠ [] ∧ s ≠ [] ∧
        p = Base64url.encode payload ∧
        s = Base64url.encode (crypto.hmacSha256 secret (Jwt.headerB64 ++ [46] ++ p)) ∧
        Json.parse payload = some value ∧
        ClaimsValid value (cString issuer) (cString audience) now clockSkewS) ∧
    ∀ left right payload, CarriesPayload left payload → CarriesPayload right payload →
      Accepted crypto secret left → Accepted crypto secret right → left = right := by
  refine ⟨⟨?_, ?_⟩, ?_⟩
  · rintro ⟨claims, accepted⟩
    obtain ⟨payload, rfl, nonempty, verdict⟩ := verify_eq_ok_iff.mp accepted
    obtain ⟨value, parsed, valid⟩ :=
      (parse_isOk_iff fun value => domain payload value (carriesPayload_tokenFor.mpr rfl)).mp
        ⟨claims, verdict⟩
    exact ⟨_, _, payload, value, rfl, nonempty, encode_hmac_ne_nil _ _ _, rfl, rfl, parsed, valid⟩
  · rintro ⟨_, _, payload, value, rfl, nonempty, -, rfl, rfl, parsed, valid⟩
    obtain ⟨claims, verdict⟩ :=
      (parse_isOk_iff fun value => domain payload value (carriesPayload_tokenFor.mpr rfl)).mpr
        ⟨value, parsed, valid⟩
    exact ⟨claims, verify_eq_ok_iff.mpr ⟨payload, rfl, nonempty, verdict⟩⟩
  · rintro left right payload leftCarries rightCarries ⟨_, _, _, _, _, leftOk⟩ ⟨_, _, _, _, _, rightOk⟩
    obtain ⟨leftPayload, rfl, -⟩ := verify_eq_ok_iff.mp leftOk
    obtain ⟨rightPayload, rfl, -⟩ := verify_eq_ok_iff.mp rightOk
    rw [← carriesPayload_tokenFor.mp leftCarries, ← carriesPayload_tokenFor.mp rightCarries]

/-- The payloads of issued tokens are in the domain. -/
theorem inDomain_claimsObject {claims : Claims} (issuable : Issuable claims)
    (issuer audience : Bytes) : InDomain (.object (claimsObject claims issuer audience)) := by
  rw [claimsObject_eq]
  have whole : ∀ {value : Value} {key : Bytes} {n : Int}, n.natAbs ≤ 2 ^ 53 →
      objectGet value key = some (.number (Binary64.ofInt n)) →
        ∃ m : Int, m.natAbs ≤ 2 ^ 53 ∧ WholeField value key m := by
    intro value key n small found
    obtain ⟨number, converted, denotes⟩ := Binary64.value_ofInt small
    exact ⟨n, small, number, by rw [found, converted], denotes⟩
  refine ⟨?_, ?_, ?_⟩
  · intro key listed number _
    simp only [List.mem_cons, List.not_mem_nil, or_false] at listed
    rcases listed with rfl | rfl | rfl
    · exact whole issuable.iat rfl
    · exact whole issuable.nbf rfl
    · exact whole issuable.exp rfl
  · intro key listed text found
    simp only [List.mem_cons, List.not_mem_nil, or_false] at listed
    rcases listed with rfl | rfl | rfl
    · have same : cString issuer = text := by simpa using (Option.some.inj found : _)
      exact same ▸ zero_not_mem_cString issuer
    · have same : cString audience = text := by simpa using (Option.some.inj found : _)
      exact same ▸ zero_not_mem_cString audience
    · have same : intDigits claims.userId = text := by simpa using (Option.some.inj found : _)
      exact same ▸ zero_not_mem_intDigits claims.userId
  · intro items found name stored
    have same : ((roleNames.filter fun row => claims.roles &&& row.1 ≠ 0).map fun row =>
        Value.string row.2) = items := by simpa using (Option.some.inj found : _)
    rw [← same] at stored
    obtain ⟨row, listed, named⟩ := List.mem_map.mp stored
    have free : ∀ row ∈ roleNames, (0 : UInt8) ∉ row.2 := by decide
    obtain rfl : row.2 = name := by simpa using named
    exact free row (List.mem_filter.mp listed).1

/-- A user's claims with a validity from 100 to 1000. -/
def sampleClaims : Claims where
  userId := 7
  roles := 1
  iat := 100
  nbf := 100
  exp := 1000
  jti := ascii "aaaaaaaaaaaaaaaaaaaaaaaaaaaaaaaa"
  familyId := ascii "bbbbbbbbbbbbbbbbbbbbbbbbbbbbbbbb"

/-- HMAC-SHA256 of the sample token's signing input under the key `secret`. -/
def sampleCrypto : Primitives where
  sha256 := id
  hmacSha256 _ _ := [43, 127, 27, 80, 141, 41, 19, 146, 75, 190, 198, 108, 164, 175, 34, 17, 31, 39,
    32, 138, 27, 138, 136, 193, 143, 230, 144, 81, 6, 119, 252, 145]
  kdfDerive password _ _ := some password
  length_hmacSha256 _ _ := rfl

/-- The sample claims can be issued. -/
theorem issuable_sampleClaims : Issuable sampleClaims where
  userId := by decide
  roles := by decide
  iat := by decide
  nbf := by decide
  exp := by decide
  jti := by decide
  familyId := by decide

/-- The sample token is accepted, in the form that acceptance requires. -/
theorem verify_accepts_sample :
    ∃ token p s payload value,
      Jwt.verify sampleCrypto token (ascii "ps") (ascii "api") (ascii "secret") 500 60 =
          .ok sampleClaims ∧
      token = Jwt.headerB64 ++ [46] ++ p ++ [46] ++ s ∧ p ≠ [] ∧ s ≠ [] ∧
      p = Base64url.encode payload ∧
      s = Base64url.encode
        (sampleCrypto.hmacSha256 (ascii "secret") (Jwt.headerB64 ++ [46] ++ p)) ∧
      Json.parse payload = some value ∧
      ClaimsValid value (cString (ascii "ps")) (cString (ascii "api")) 500 60 := by
  obtain ⟨payload, written, parsed, verdict⟩ :=
    parse_write_claims issuable_sampleClaims (ascii "ps") (ascii "api")
  have nonempty := encode_payload_ne_nil parsed
  have accepted : Jwt.verify sampleCrypto (tokenFor sampleCrypto (ascii "secret") payload)
      (ascii "ps") (ascii "api") (ascii "secret") 500 60 = .ok sampleClaims :=
    verify_eq_ok_iff.mpr ⟨payload, rfl, nonempty, verdict 500 60⟩
  have domain : ∀ carried value,
      CarriesPayload (tokenFor sampleCrypto (ascii "secret") payload) carried →
        Json.parse carried = some value → InDomain value := by
    intro carried value carries read
    rw [carriesPayload_tokenFor.mp carries, parsed] at read
    rw [← Option.some.inj read]
    exact inDomain_claimsObject issuable_sampleClaims _ _
  obtain ⟨p, s, carried, value, shape⟩ :=
    (verify_accepts_exactly sampleCrypto _ (ascii "ps") (ascii "api") (ascii "secret") 500 60
      domain).1.mp ⟨_, accepted⟩
  exact ⟨_, p, s, carried, value, accepted, shape⟩

/-- Encoding succeeds on every issuable claims record, and within the record's window the token
verifies to exactly that record. -/
theorem verify_encode {claims : Claims} (issuable : Issuable claims) (crypto : Primitives)
    (issuer audience secret : Bytes) {now clockSkewS : Int}
    (started : claims.nbf - clockSkewS ≤ now) (unexpired : now ≤ claims.exp + clockSkewS) :
    ∃ token, Jwt.encode crypto claims issuer audience secret = some token ∧
      Jwt.verify crypto token issuer audience secret now clockSkewS = .ok claims := by
  obtain ⟨payload, written, parsed, verdict⟩ := parse_write_claims issuable issuer audience
  have accepted : Claims.parse payload issuer audience now clockSkewS = .ok claims := by
    rw [verdict, if_neg (not_lt.mpr unexpired), if_neg (not_lt.mpr started)]
  refine ⟨tokenFor crypto secret payload, ?_, ?_⟩
  · simp [Jwt.encode, written, tokenFor]
  · exact verify_eq_ok_iff.mpr ⟨payload, rfl, encode_payload_ne_nil parsed, accepted⟩

/-- The sample claims are encoded and verified within their window. -/
theorem verify_encode_sample :
    ∃ token,
      Jwt.encode sampleCrypto sampleClaims (ascii "ps") (ascii "api") (ascii "secret") =
          some token ∧
        Jwt.verify sampleCrypto token (ascii "ps") (ascii "api") (ascii "secret") 1030 60 =
          .ok sampleClaims :=
  verify_encode issuable_sampleClaims sampleCrypto _ _ _ (by decide) (by decide)

end PlatformService.Verif.Acceptance
