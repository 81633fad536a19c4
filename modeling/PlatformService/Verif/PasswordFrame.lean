import PlatformService.Verif.Atomicity
import PlatformService.Verif.Authorization
import PlatformService.Verif.Credentials
import PlatformService.Verif.JsonInverse

/-!
# What a password change touches

A password change rewrites one user and revokes the user's other live sessions.
The session it spares is named by the access token: an identifier that was written
in hexadecimal, put into a JSON payload, signed, verified, parsed and decoded
again. The identifiers of a token survive this whatever its times are, so the
family that is spared is the one the token was built for.
-/

namespace PlatformService.Verif.PasswordFrame

open Lib Json Store Crypto JsonRoundTrip ClaimsRoundTrip Api SessionStore Connections Credentials

section Hexadecimal

/-- The digits of the sixteen nibbles are read back. -/
theorem hexNibble_hexDigitLower {value : Nat} (small : value < 16) :
    hexNibble (hexDigitLower value) = some value := by
  have table : ∀ nibble < 16, hexNibble (hexDigitLower nibble) = some nibble := by decide
  exact table value small

/-- A digit that is read is the lower-case digit of its nibble. -/
theorem hexDigitLower_of_hexNibble {digit : UInt8} {value : Nat}
    (read : hexNibble digit = some value) : value < 16 ∧ hexDigitLower value = digit := by
  have table : ∀ index : Fin 256, ∀ nibble, hexNibble (UInt8.ofNat index) = some nibble →
      nibble < 16 ∧ hexDigitLower nibble = UInt8.ofNat index := by
    intro index nibble found
    have every : ∀ index : Fin 256, (hexNibble (UInt8.ofNat index)).all fun nibble =>
        decide (nibble < 16) && decide (hexDigitLower nibble = UInt8.ofNat index) := by
      decide +kernel
    have here := every index
    rw [found] at here
    simpa using here
  have same : UInt8.ofNat digit.toNat = digit := UInt8.ofNat_toNat
  have found := table ⟨digit.toNat, digit.toNat_lt⟩ value
  rw [same] at found
  exact found read

/-- `hex_decode` inverts `hex_encode_lower`, and accepts nothing else. -/
theorem hexDecode_eq_some_iff {text data : Bytes} :
    hexDecode text = some data ↔ text = hexEncodeLower data := by
  have split (byte : UInt8) : (byte.toNat / 16 * 16 + byte.toNat % 16).toUInt8 = byte := by
    have whole : byte.toNat / 16 * 16 + byte.toNat % 16 = byte.toNat := by omega
    rw [whole]
    exact UInt8.ofNat_toNat
  constructor
  · intro decoded
    induction text using hexDecode.induct generalizing data with
    | case1 =>
      cases decoded
      rfl
    | case2 _ => cases decoded
    | case3 hi lo rest ih =>
      simp only [hexDecode, Option.bind_eq_bind, Option.bind_eq_some_iff, Option.some.injEq]
        at decoded
      obtain ⟨high, readHigh, low, readLow, bytes, later, rfl⟩ := decoded
      obtain ⟨highSmall, highDigit⟩ := hexDigitLower_of_hexNibble readHigh
      obtain ⟨lowSmall, lowDigit⟩ := hexDigitLower_of_hexNibble readLow
      have size : (high * 16 + low).toUInt8.toNat = high * 16 + low :=
        Nat.mod_eq_of_lt (by omega)
      have upper : (high * 16 + low) / 16 = high := by omega
      have lower : (high * 16 + low) % 16 = low := by omega
      have tail := ih later
      simp only [hexEncodeLower, List.flatMap_cons, size, upper, lower, highDigit, lowDigit]
      rw [tail]
      rfl
  · rintro rfl
    induction data with
    | nil => rfl
    | cons byte data ih =>
      have size := byte.toNat_lt
      have high : hexNibble (hexDigitLower (byte.toNat / 16)) = some (byte.toNat / 16) :=
        hexNibble_hexDigitLower (by omega)
      have low : hexNibble (hexDigitLower (byte.toNat % 16)) = some (byte.toNat % 16) :=
        hexNibble_hexDigitLower (by omega)
      have unfolded : hexEncodeLower (byte :: data) = hexDigitLower (byte.toNat / 16) ::
          hexDigitLower (byte.toNat % 16) :: hexEncodeLower data := rfl
      rw [unfolded, hexDecode, high, low, ih]
      exact congrArg (fun first => some (first :: data)) (split byte)

end Hexadecimal

section Tokens

/-- What a value is read back as when its numeral need not be exact. -/
def reread : Value → Value
  | .number (.finite number) => .number (strtod (formatG17 number))
  | .number (.infinite _) => .null
  | value => value

/-- A number is read back as a number or, an infinity, as null. -/
theorem parsedBack_number (levels : Nat) (number : Binary64) :
    ParsedBack (parseValue (levels + 1)) (reread (.number number)) (writeNumber number) := by
  cases number with
  | finite number =>
    have literal := JsonInverse.number_formatG17 number
    obtain ⟨first, digits, written, numeral⟩ := JsonGrammar.number_opens literal
    have opening : Opening first := by
      rcases numeral with minus | digit
      · simp [Opening, minus]
      · simp [Opening, digit]
    obtain ⟨a, b, c, d, e, f⟩ := numeral_ne numeral
    refine ⟨⟨first, digits, written, opening⟩, fun rest ends => ?_⟩
    have closed : JsonGrammar.Ends rest := fun byte head => Or.inr (ends byte head)
    have read := JsonGrammar.parseNumber_complete literal (JsonInverse.length_formatG17 number) closed
    rw [writeNumber]
    rw [written, List.cons_append] at read ⊢
    rw [parseValue_cons opening, if_neg a, if_neg b, if_neg c, if_neg d, if_neg e, if_neg f, read,
      reread, written]
  | infinite negative =>
    have plain : Plain (levels + 1) .null := trivial
    obtain ⟨text, written, back⟩ := parseValue_written plain
    cases written
    exact back

/-- An object of numbers and of values that are parsed back, under distinct names. -/
theorem parse_write_reread {members : List (Bytes × Value)}
    (distinct : (members.map Prod.fst).Nodup)
    (each : ∀ member ∈ members, (0 : UInt8) ∉ member.1 ∧
      ((∃ number, member.2 = .number number) ∨
        reread member.2 = member.2 ∧ Plain 31 member.2)) :
    ∃ text, write (.object members) = some text ∧
      parse text = some (.object (members.map fun member => (member.1, reread member.2))) := by
  have member : ∀ member ∈ members, ∃ part,
      (do some (writeString (cString member.1) ++ [58] ++ (← writeValue 31 member.2))) =
        some part ∧ MemberBack (parseValue 31) (member.1, reread member.2) part := by
    intro member stored
    obtain ⟨free, kind⟩ := each member stored
    have inner : ∃ text, writeValue 31 member.2 = some text ∧
        ParsedBack (parseValue 31) (reread member.2) text := by
      cases kind with
      | inl number =>
        obtain ⟨number, same⟩ := number
        rw [same]
        exact ⟨writeNumber number, rfl, parsedBack_number 30 number⟩
      | inr plain =>
        rw [plain.1]
        exact parseValue_written plain.2
    obtain ⟨text, written, back⟩ := inner
    refine ⟨_, by rw [written]; rfl, free, text, ?_, back⟩
    rw [cString_eq_self free]
    simp [writeString]
  obtain ⟨parts, written, back⟩ := mapM_forall₂ member
  have reads : List.Forall₂ (MemberBack (parseValue 31))
      (members.map fun member => (member.1, reread member.2)) parts :=
    List.forall₂_map_left_iff.mpr back
  have whole : write (.object members) =
      (some parts).bind fun parts => some ([123] ++ joinParts parts ++ [125]) := by
    rw [← written]
    rfl
  have names : (members.map fun member => (member.1, reread member.2)).map Prod.fst =
      members.map Prod.fst := by
    rw [List.map_map]
    rfl
  refine ⟨123 :: (joinParts parts ++ [125]), whole.trans rfl, ?_⟩
  have object := parseObject_written reads (by rw [names]; exact distinct) []
  have read : parseValue maxDepth (123 :: (joinParts parts ++ [125])) =
      some (.object (members.map fun member => (member.1, reread member.2)), []) := by
    rw [maxDepth, parseValue_cons (by simp [Opening]), if_neg (by decide), if_pos rfl, object]
  simp [parse, read, skipWs]

/-- The payload that is written is read back, but for its times. -/
theorem parse_write_identifiers (claims : Claims) (issuer audience : Bytes) :
    ∃ payload, Claims.write claims issuer audience = some payload ∧
      Json.parse payload = some (.object ((Claims.claimsObject claims issuer audience).map
        fun member => (member.1, reread member.2))) := by
  have names : (Claims.claimsObject claims issuer audience).map Prod.fst = memberNames := rfl
  apply parse_write_reread
  · rw [names]
    exact memberNames_sound.1
  · intro member stored
    refine ⟨memberNames_sound.2 _ (names ▸ List.mem_map_of_mem stored), ?_⟩
    rw [claimsObject_eq] at stored
    simp only [List.mem_cons, List.not_mem_nil, or_false] at stored
    rcases stored with rfl | rfl | rfl | rfl | rfl | rfl | rfl | rfl | rfl
    · exact Or.inr ⟨rfl, trivial⟩
    · exact Or.inr ⟨rfl, trivial⟩
    · exact Or.inr ⟨rfl, trivial⟩
    · exact Or.inl ⟨_, rfl⟩
    · exact Or.inl ⟨_, rfl⟩
    · exact Or.inl ⟨_, rfl⟩
    · exact Or.inr ⟨rfl, trivial⟩
    · exact Or.inr ⟨rfl, trivial⟩
    · refine Or.inr ⟨rfl, fun item listed => ?_⟩
      obtain ⟨row, -, rfl⟩ := List.mem_map.mp listed
      trivial

/-- A token that verifies carries the user and the family it was built for, whatever its times. -/
theorem identifiers_of_verified {crypto : Primitives} {claims accepted : Claims}
    {issuer audience secret token : Bytes} {now clockSkewS : Int}
    (free : (0 : UInt8) ∉ claims.familyId)
    (issued : Jwt.encode crypto claims issuer audience secret = some token)
    (verified : Jwt.verify crypto token issuer audience secret now clockSkewS = .ok accepted) :
    accepted.userId = claims.userId ∧ accepted.familyId = claims.familyId := by
  obtain ⟨payload, written, outcome⟩ := payload_of_issued issued verified
  obtain ⟨again, rewritten, parsed⟩ := parse_write_identifiers claims issuer audience
  have unique : again = payload := Option.some.inj (rewritten.symm.trans written)
  rw [unique] at parsed
  unfold Claims.parse at outcome
  rw [parsed] at outcome
  dsimp only at outcome
  split at outcome
  · contradiction
  · rename_i iss aud read fields
    split_ifs at outcome
    cases outcome
    obtain ⟨-, -, ⟨family, -⟩, subject, -⟩ := Tokens.readFields_eq_some_iff.mp fields
    have named : objectGet (.object ((Claims.claimsObject claims issuer audience).map
        fun member => (member.1, reread member.2))) (ascii "family_id") =
          some (.string (cString claims.familyId)) := rfl
    have numbered : Claims.parseSub (.object ((Claims.claimsObject claims issuer audience).map
        fun member => (member.1, reread member.2))) =
          Claims.parseSub (.object (Claims.claimsObject claims issuer audience)) := rfl
    rw [named, cString_eq_self free, Option.some.injEq, Value.string.injEq] at family
    rw [numbered, parseSub_claimsObject] at subject
    exact ⟨subject.1, family.symm⟩

end Tokens

section Walk

variable {ctx : AppCtx} {env : Env} {claims : Claims} {input : PasswordChange.Input} {db now : Db}

/-- A body that is refused is refused with another status than 204. -/
theorem status_of_parseBody {body : Bytes} {result : HandlerResult}
    (refused : parseBody body = .error result) : result.status ≠ 204 := by
  unfold parseBody at refused
  split at refused
  · contradiction
  · cases refused
    decide

/-- A password change that is not admitted answers another status than 204. -/
theorem status_of_admission {body : Bytes} {result : HandlerResult}
    (refused : PasswordChange.admission ctx body = .error result) : result.status ≠ 204 := by
  unfold PasswordChange.admission at refused
  cases parsed : parseBody body with
  | error reason =>
    rw [parsed] at refused
    cases refused
    exact status_of_parseBody parsed
  | ok object =>
    rw [parsed] at refused
    dsimp only [bind, Except.bind, pure, Except.pure] at refused
    split at refused
    · split_ifs at refused
      cases refused
      decide
    · cases refused
      decide

/-- A decision that answers at once answers another status than 204. -/
theorem status_of_decision {found : Option UserRow} {result : HandlerResult}
    (decided : PasswordChange.decision ctx env claims input found = .answer result) :
    result.status ≠ 204 := by
  unfold PasswordChange.decision at decided
  split_ifs at decided
  · cases decided
    decide
  · cases decided
    decide
  · cases found with
    | none => contradiction
    | some user =>
      dsimp only at decided
      split at decided
      · contradiction
      split at decided
      · cases decided
        decide
      split at decided
      · cases decided
        decide
      · contradiction

/-- The tables a password change could touch are as they were. -/
def Untouched (db after : Db) : Prop :=
  after.users = db.users ∧ after.sessionFamilies = db.sessionFamilies ∧
    after.refreshTokens = db.refreshTokens

/-- What a password change that answers has done to the content it began with. -/
def Outcome (ctx : AppCtx) (env : Env) (claims : Claims) (input : PasswordChange.Input) (db : Db)
    (result : HandlerResult) (after : Db) : Prop :=
  (result.status = 204 → ∃ user newHash survivingFamilyId,
    PasswordChange.decision ctx env claims input (db.users.find? claims.userId) =
      .write user newHash survivingFamilyId ∧
    after = passwordChangedDb env claims.userId newHash survivingFamilyId db) ∧
  (result.status ≠ 204 → Untouched db after)

/-- Where a password change that began with a content may stand, and on what. -/
def Reached (ctx : AppCtx) (env : Env) (claims : Claims) (input : PasswordChange.Input) (db : Db) :
    PasswordChange.Phase → Db → Prop
  | .write user newHash survivingFamilyId, now => now = db ∧
      PasswordChange.decision ctx env claims input (db.users.find? claims.userId) =
        .write user newHash survivingFamilyId
  | .done result, now => Outcome ctx env claims input db result now
  | _, now => now = db

/-- A step of a password change. -/
theorem reached_step {phase : PasswordChange.Phase}
    (reached : Reached ctx env claims input db phase now) :
    Sql.Leaves False (PasswordChange.step ctx env claims input phase) now
      (Reached ctx env claims input db) := by
  have refused {result : HandlerResult} {after : Db} (status : result.status ≠ 204)
      (same : Untouched db after) : Outcome ctx env claims input db result after :=
    ⟨fun success => absurd success status, fun _ => same⟩
  cases phase with
  | lookup =>
    cases reached
    have decides {found : Option UserRow}
        (read : ∀ user newHash survivingFamilyId,
          PasswordChange.decision ctx env claims input found = .write user newHash survivingFamilyId →
          found = db.users.find? claims.userId) :
        Reached ctx env claims input db
          (PasswordChange.decision ctx env claims input found).phase db := by
      cases decided : PasswordChange.decision ctx env claims input found with
      | answer result => exact refused (status_of_decision decided) ⟨rfl, rfl, rfl⟩
      | auditFailure => exact rfl
      | write user newHash survivingFamilyId =>
        rw [read _ _ _ decided] at decided
        exact ⟨rfl, decided⟩
    apply Sql.Guarantees.leaves
    apply Sql.guarantees_lookup
    · intro _
      apply Sql.guarantees_pure
      apply decides
      intro user newHash survivingFamilyId decided
      have present := (passwordChange_decides_write decided).1
      contradiction
    · exact Sql.guarantees_pure (decides fun _ _ _ _ => rfl)
  | auditFailure =>
    cases reached
    apply Sql.Guarantees.leaves
    apply Sql.guarantees_execute
    · intro _
      exact Sql.guarantees_pure (refused (by decide) ⟨rfl, rfl, rfl⟩)
    · intro after audited
      cases audited
      exact Sql.guarantees_pure (refused (by decide) ⟨rfl, rfl, rfl⟩)
  | write user newHash survivingFamilyId =>
    obtain ⟨rfl, decided⟩ := reached
    apply (passwordChange_write_spec env claims newHash survivingFamilyId now).andReturn
    intro result after left
    cases result with
    | ok _ =>
      refine ⟨_, rfl, fun _ => ⟨user, newHash, survivingFamilyId, decided, left⟩, fun failed => ?_⟩
      exact absurd rfl failed
    | error reason =>
      have same : after = now := left
      rw [same]
      exact ⟨_, rfl, refused (by decide) ⟨rfl, rfl, rfl⟩⟩
  | done result => exact (Sql.guarantees_pure reached).leaves

/-- The steps of a password change. -/
theorem reached_acts (turns : Nat) (faults : List Bool) {phase : PasswordChange.Phase}
    (reached : Reached ctx env claims input db phase now) :
    let out := Running.acts ctx turns now ⟨.passwordChange env claims input phase, faults⟩
    ∃ next, out.2.activity = .passwordChange env claims input next ∧
      Reached ctx env claims input db next out.1 := by
  induction turns generalizing faults phase now with
  | zero => exact ⟨phase, rfl, reached⟩
  | succ turns ih => exact ih _ (reached_step reached faults False.elim).1

/-- A password change run to its answer. -/
theorem outcome_of_run {faults : List Bool} {result : HandlerResult}
    (answered : (Activity.run ctx Activity.turns (.passwordChange env claims input .lookup)
      (Conn.of db, faults)).1.answer = some result) :
    Outcome ctx env claims input db result (Activity.run ctx Activity.turns
      (.passwordChange env claims input .lookup) (Conn.of db, faults)).2.1.committed := by
  have begins : Reached ctx env claims input db .lookup db := rfl
  obtain ⟨next, stands, reached⟩ := reached_acts Activity.turns faults begins
  rw [run_eq_acts] at stands reached
  dsimp only at stands reached
  rw [stands] at answered
  cases next with
  | done given =>
    cases answered
    exact reached
  | _ => contradiction

end Walk

/-- What a password change of a user does, sparing one family. -/
structure Changed (env : Env) (userId : Int) (familyId : Bytes) (newHash : Password.Hash)
    (db after : Db) : Prop where
  /-- The user has the new hash, salt and iteration count, and is otherwise only newer. -/
  user : ∃ user, db.users.find? userId = some user ∧
    after.users.find? userId = some
      { user with
        passwordHash := newHash.hash
        passwordSalt := newHash.salt
        kdfIters := newHash.iterations
        updatedAt := env.now }
  /-- Every other user is as before. -/
  others : ∀ other, other ≠ userId → after.users.find? other = db.users.find? other
  /-- The other live families of the user are revoked for the password change. -/
  revoked : ∀ family ∈ db.sessionFamilies, family.userId = userId → family.revokedAt = none →
    family.familyId ≠ familyId → after.sessionFamilies.find? family.familyId =
      some { family with revokedAt := some env.now, revokeCause := some .passwordChange }
  /-- A family of another user, one that was revoked, and the spared one are as before. -/
  spared : ∀ family ∈ db.sessionFamilies,
    family.userId ≠ userId ∨ family.revokedAt ≠ none ∨ family.familyId = familyId →
      after.sessionFamilies.find? family.familyId = some family
  /-- There are no new families. -/
  families : ∀ other, db.sessionFamilies.find? other = none → after.sessionFamilies.find? other = none
  /-- The refresh tokens are as before. -/
  tokens : after.refreshTokens = db.refreshTokens

/-- What the transaction of a password change writes. -/
theorem changed_passwordChangedDb (env : Env) {userId : Int} {db : Db} {user : UserRow}
    (familyId : Bytes) (newHash : Password.Hash) (stored : db.users.find? userId = some user) :
    Changed env userId familyId newHash db (passwordChangedDb env userId newHash familyId db) := by
  have users (other : Int) : (passwordChangedDb env userId newHash familyId db).users.find? other =
      (changedUsers db userId newHash env.now).users.find? other := rfl
  have families (other : Bytes) :
      (passwordChangedDb env userId newHash familyId db).sessionFamilies.find? other =
        (db.sessionFamilies.find? other).map fun family =>
          if liveFamilyOf userId (some familyId) family then
            { family with revokedAt := some env.now, revokeCause := some .passwordChange }
          else family := by
    have updated (families : Table Bytes SessionFamilyRow SessionFamilyRow.familyId)
        (keeps : ∀ row : SessionFamilyRow, SessionFamilyRow.familyId
          { row with revokedAt := some env.now, revokeCause := some .passwordChange } = row.familyId) :
        (families.update (liveFamilyOf userId (some familyId)) (fun row =>
          { row with revokedAt := some env.now, revokeCause := some .passwordChange }) keeps).find?
            other = (families.find? other).map fun family =>
              if liveFamilyOf userId (some familyId) family then
                { family with revokedAt := some env.now, revokeCause := some .passwordChange }
              else family := Table.find?_update
    exact updated db.sessionFamilies fun _ => rfl
  have selected (family : SessionFamilyRow) : liveFamilyOf userId (some familyId) family = true ↔
      family.userId = userId ∧ family.revokedAt = none ∧ family.familyId ≠ familyId := by
    simp [liveFamilyOf, and_assoc]
  constructor
  · refine ⟨user, stored, ?_⟩
    have own := (Table.find?_eq_some_iff.mp stored).2
    rw [users, changedUsers, Db.find?_updateUsers, stored]
    simp [own, UserStore.passwordColumns]
  · intro other different
    rw [users, changedUsers, Db.find?_updateUsers]
    cases found : db.users.find? other with
    | none => rfl
    | some row =>
      have key := (Table.find?_eq_some_iff.mp found).2
      simp [key, different]
  · intro family present owned live other
    rw [families, Table.find?_of_mem present, Option.map_some,
      if_pos ((selected family).mpr ⟨owned, live, other⟩)]
  · intro family present kept
    have unselected : ¬liveFamilyOf userId (some familyId) family = true := by
      rw [selected]
      rintro ⟨owned, live, other⟩
      rcases kept with foreign | revoked | same
      · exact foreign owned
      · exact revoked live
      · exact other same
    rw [families, Table.find?_of_mem present, Option.map_some, if_neg unselected]
  · intro other absent
    rw [families, absent]
    rfl
  · rfl

/-- A password change under claims that were issued for a user and a family, verified whenever, stores
the hash of the new password and revokes the other live families of the user when it answers 204, and
changes nothing of users, families and refresh tokens when it answers anything else. -/
theorem passwordChange_exact (ctx : AppCtx) (env : Env) (draining : Bool) (request : Http.Request)
    {userId issuedAt verifiedAt : Int} {familyId token : Bytes} {roles : Nat}
    {jti : Option (Drawn 16)} {claims : Claims}
    (issued : buildAccessToken ctx userId familyId roles issuedAt jti = some token)
    (verified : Jwt.verify ctx.crypto token ctx.config.jwtIssuer ctx.config.jwtAudience
      (cString ctx.config.jwtSecret) verifiedAt jwtClockSkewS = .ok claims)
    (db : Db) (faults : List Bool) :
    let call := (Handler.passwordChange claims).start ctx env draining request
    let out := call.run ctx (Conn.of db, faults)
    let after := out.2.1.committed
    claims.userId = userId ∧ claims.familyId = hexEncodeLower familyId ∧
      ∃ result, out.1 = some result ∧
        (result.status = 204 → ∃ input newHash,
          PasswordChange.admission ctx (request.body.getD []) = .ok input ∧
          Password.hash ctx.crypto input.newPassword ctx.config.kdfIterations env.salt =
            some newHash ∧
          Changed env userId familyId newHash db after) ∧
        (result.status ≠ 204 → Untouched db after) := by
  intro call out after
  have carried : claims.userId = userId ∧ claims.familyId = hexEncodeLower familyId := by
    unfold buildAccessToken at issued
    cases jti with
    | none => contradiction
    | some drawn =>
      exact identifiers_of_verified (Authorization.zero_not_mem_hexEncodeLower familyId) issued verified
  refine ⟨carried.1, carried.2, ?_⟩
  obtain ⟨result, given⟩ := Option.isSome_iff_exists.mp
    (run_start_answers ctx env draining request (.passwordChange claims) (Conn.of db, faults))
  refine ⟨result, given, ?_⟩
  cases admitted : PasswordChange.admission ctx (request.body.getD []) with
  | error refusal =>
    have started : call = .answered refusal := by
      change Call.admitted _ _ = _
      rw [admitted]
      rfl
    have same : out = (some refusal, Conn.of db, faults) := by
      change call.run ctx _ = _
      rw [started]
      rfl
    have answered : refusal = result := by
      change out.1 = some result at given
      rw [same] at given
      exact Option.some.inj given
    have status := status_of_admission admitted
    rw [answered] at status
    refine ⟨fun success => absurd success status, fun _ => ?_⟩
    change Untouched db out.2.1.committed
    rw [same]
    exact ⟨rfl, rfl, rfl⟩
  | ok input =>
    have started : call = .activity (.passwordChange env claims input .lookup) := by
      change Call.admitted _ _ = _
      rw [admitted]
      rfl
    have same : out = ((Activity.run ctx Activity.turns (.passwordChange env claims input .lookup)
        (Conn.of db, faults)).1.answer, (Activity.run ctx Activity.turns
          (.passwordChange env claims input .lookup) (Conn.of db, faults)).2) := by
      change call.run ctx _ = _
      rw [started]
      rfl
    change out.1 = some result at given
    rw [same] at given
    obtain ⟨succeeds, refuses⟩ := outcome_of_run given
    change _ ∧ (_ → Untouched db out.2.1.committed)
    rw [same]
    refine ⟨fun success => ?_, refuses⟩
    obtain ⟨user, newHash, survivingFamilyId, decided, left⟩ := succeeds success
    obtain ⟨stored, -, hashed, named⟩ := passwordChange_decides_write decided
    have spared : survivingFamilyId = familyId := by
      have encoded := hexDecode_eq_some_iff.mpr carried.2
      exact Option.some.inj (named.symm.trans encoded)
    refine ⟨input, newHash, rfl, hashed, ?_⟩
    change Changed env userId familyId newHash db out.2.1.committed
    rw [same, ← carried.1, ← spared, left]
    exact changed_passwordChangedDb env survivingFamilyId newHash stored

/-- The database of the deployment with two sessions of the account. -/
def twoSessions : Db :=
  ((Deployment.database .active).insertFamily (newFamily (Deployment.sixteen 9).bytes 1 7776000 1500))
    |>.bind (·.insertFamily (newFamily (Deployment.sixteen 2).bytes 1 7776000 1600))
    |>.getD (Deployment.database .active)

/-- A change of the password. -/
def change : Http.Request := Deployment.post "/v1/auth/password"
  "\x7b\"current_password\":\"correct horse\",\"new_password\":\"new horse staple\"\x7d"

/-- The password is changed under a token for the session of nines: that session is kept, and the
session of twos is revoked. -/
theorem passwordChange_exact_of_two_sessions :
    let out := ((Handler.passwordChange changerClaims).start Deployment.ctx (Deployment.env 2000 1 1) false
      change).run Deployment.ctx (Conn.of twoSessions, [])
    out.1.map HandlerResult.status = some 204 ∧
      ∃ newHash, Changed (Deployment.env 2000 1 1) 1 (Deployment.sixteen 9).bytes newHash twoSessions
        out.2.1.committed := by
  have issuable : Issuable changerClaims := by
    constructor <;> decide
  obtain ⟨payload, written, parsed, verdict⟩ := parse_write_claims issuable
    Deployment.config.jwtIssuer Deployment.config.jwtAudience
  have issued : buildAccessToken Deployment.ctx 1 (Deployment.sixteen 9).bytes 1 1500
      (some (Deployment.sixteen 1)) = some (Tokens.tokenFor Deployment.crypto
        (cString Deployment.config.jwtSecret) payload) := by
    change Jwt.encode Deployment.crypto changerClaims _ _ _ = _
    unfold Jwt.encode
    change (Claims.write changerClaims Deployment.config.jwtIssuer Deployment.config.jwtAudience).bind
      _ = _
    rw [written]
    rfl
  have accepted : Claims.parse payload Deployment.config.jwtIssuer Deployment.config.jwtAudience 2000
      jwtClockSkewS = .ok changerClaims := by
    rw [verdict, if_neg (by decide), if_neg (by decide)]
  have verified : Jwt.verify Deployment.crypto (Tokens.tokenFor Deployment.crypto
      (cString Deployment.config.jwtSecret) payload) Deployment.config.jwtIssuer
      Deployment.config.jwtAudience (cString Deployment.config.jwtSecret) 2000 jwtClockSkewS =
        .ok changerClaims :=
    Tokens.verify_eq_ok_iff.mpr ⟨payload, rfl, encode_payload_ne_nil parsed, accepted⟩
  obtain ⟨-, -, result, given, succeeds, -⟩ := passwordChange_exact Deployment.ctx
    (Deployment.env 2000 1 1) false change issued verified twoSessions []
  have status : ((((Handler.passwordChange changerClaims).start Deployment.ctx (Deployment.env 2000 1 1)
      false change).run Deployment.ctx (Conn.of twoSessions, [])).1).map HandlerResult.status =
        some 204 := by
    simp only [twoSessions, Deployment.ctx, Deployment.crypto_eq, Deployment.database_eq]
    decide +kernel
  refine ⟨status, ?_⟩
  rw [given, Option.map_some, Option.some.injEq] at status
  obtain ⟨input, newHash, -, -, changed⟩ := succeeds status
  exact ⟨newHash, changed⟩

end PlatformService.Verif.PasswordFrame
