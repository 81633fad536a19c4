import PlatformService.Api.Routes
import PlatformService.Verif.Deployment
import PlatformService.Verif.LimiterKeys
import PlatformService.Verif.ObjectMembers

/-!
# Fields with embedded NUL

A JSON escape can put NUL into a key or a value. Keys are compared as C strings,
so a lookup finds the last member whose key is the name up to a NUL; and
usernames, addresses and tokens are read as C strings, so what stands behind a
NUL is not looked at. The handlers use whole fields of exactly the names they ask
for precisely when no NUL is in the way.
-/

namespace PlatformService.Verif.WholeFields

open Lib Json Grammar Api ObjectMembers

section Lookups

/-- An object's text, with its members in order. -/
def Spells (members : List (Bytes × Tree)) (body : Bytes) : Prop :=
  Text (.object members) body ∧ (Tree.object members).depth ≤ 32 ∧
    ∀ literal ∈ (Tree.object members).literals, literal.length < 64

/-- The member that a lookup of a name finds: the last whose key is the name up to its first NUL. -/
def found (members : List (Bytes × Tree)) (name : String) : Option (Bytes × Tree) :=
  (members.filter fun member => cString member.1 = ascii name).getLast?

/-- `ps_json_object_get` returns the value of the member found. -/
theorem objectGet_eq_found (members : List (Bytes × Tree)) {name : String}
    (free : (0 : UInt8) ∉ ascii name) :
    objectGet (Tree.object members).value (ascii name) =
      (found members name).map fun member => member.2.value := by
  have stored : (Tree.object members).value = .object (Assoc.setAll []
      (members.map fun member => (cString member.1, member.2.value))) := by
    rw [Tree.value, setAll_eq_setAll, memberValues_eq_map, List.map_map]
    rfl
  rw [stored, objectGet_eq_get free, Assoc.get_setAll]
  unfold Assoc.last found
  rw [List.filter_map, List.getLast?_map, Option.map_map]
  rfl

/-- The string that is read under a name is that of the member found. -/
theorem stringField_eq_some_iff {members : List (Bytes × Tree)} {name : String} {text : Bytes}
    (free : (0 : UInt8) ∉ ascii name) :
    stringField (Tree.object members).value (ascii name) = some text ↔
      ∃ key, found members name = some (key, .string text) := by
  unfold stringField
  rw [objectGet_eq_found members free]
  cases found members name with
  | none => simp
  | some member =>
    obtain ⟨key, tree⟩ := member
    cases tree with
    | string read => simp [Tree.value]
    | _ => simp [Tree.value]

/-- The string that is read into a buffer is that of the member found, if it fits. -/
theorem readStringField_eq_some_iff {members : List (Bytes × Tree)} {name : String} {text : Bytes}
    {outSize : Nat} (free : (0 : UInt8) ∉ ascii name) :
    readStringField (Tree.object members).value name outSize = some text ↔
      (∃ key, found members name = some (key, .string text)) ∧ text.length < outSize := by
  rw [readStringField, Option.filter_eq_some_iff, stringField_eq_some_iff free, decide_eq_true_eq]

/-- A string is found under a key that is the name itself exactly when its key is without NUL. -/
theorem found_exact_iff {members : List (Bytes × Tree)} {name : String} {key text : Bytes}
    (free : (0 : UInt8) ∉ ascii name) (located : found members name = some (key, .string text))
    (holds : Bytes → Prop) :
    (∃ exact, found members name = some (ascii name, .string exact) ∧ holds exact) ↔
      (0 : UInt8) ∉ key ∧ holds text := by
  have listed := List.mem_of_getLast? located
  have cut : cString key = ascii name := by simpa using (List.mem_filter.mp listed).2
  constructor
  · rintro ⟨exact, same, held⟩
    rw [located] at same
    obtain ⟨rfl, texts⟩ := Prod.mk.inj (Option.some.inj same)
    obtain rfl := Tree.string.inj texts
    exact ⟨free, held⟩
  · rintro ⟨whole, held⟩
    rw [cString_eq_self whole] at cut
    exact ⟨text, cut ▸ located, held⟩

/-- A body is read as an object when it spells one. -/
theorem parseBody_eq_ok_iff {body : Bytes} {object : Value} :
    parseBody body = .ok object ↔
      ∃ members, Spells members body ∧ object = (Tree.object members).value := by
  unfold parseBody
  constructor
  · intro read
    split at read
    · rename_i values parsed
      cases read
      obtain ⟨tree, text, deep, short, denotes⟩ := JsonGrammar.parse_eq_some_iff.mp parsed
      cases tree with
      | object members => exact ⟨members, ⟨text, deep, short⟩, denotes.symm⟩
      | _ => simp [Tree.value] at denotes
    · contradiction
  · rintro ⟨members, ⟨text, deep, short⟩, rfl⟩
    have parsed := JsonGrammar.parse_eq_some_iff.mpr ⟨.object members, text, deep, short, rfl⟩
    rw [parsed, Tree.value]

end Lookups

section Texts

/-- A text in lower case has NUL where the text has it. -/
theorem zero_mem_map_toLower {text : Bytes} : (0 : UInt8) ∈ text.map toLower ↔ (0 : UInt8) ∈ text := by
  constructor
  · intro stored
    obtain ⟨byte, member, lowered⟩ := List.mem_map.mp stored
    by_cases zero : byte = 0
    · exact zero ▸ member
    · exact absurd lowered (LimiterKeys.toLower_ne_zero zero)
  · intro stored
    exact List.mem_map.mpr ⟨0, stored, rfl⟩

/-- A text without the blanks around it. -/
def trimmed (text : Bytes) : Bytes := (text.dropWhile Validate.isBlank).rdropWhile Validate.isBlank

/-- Trimming takes no NUL away. -/
theorem zero_mem_trimmed {text : Bytes} : (0 : UInt8) ∈ trimmed text ↔ (0 : UInt8) ∈ text := by
  have kept {bytes : Bytes} (stored : (0 : UInt8) ∈ bytes) :
      (0 : UInt8) ∈ bytes.dropWhile Validate.isBlank := by
    rw [← List.takeWhile_append_dropWhile (p := Validate.isBlank) (l := bytes)] at stored
    rcases List.mem_append.mp stored with blank | rest
    · exact absurd (List.mem_takeWhile_imp blank) (by decide)
    · exact rest
  constructor
  · intro stored
    have inner := (List.rdropWhile_prefix Validate.isBlank _).subset stored
    exact (List.dropWhile_suffix Validate.isBlank).subset inner
  · intro stored
    have reversed : (0 : UInt8) ∈ (text.dropWhile Validate.isBlank).reverse :=
      List.mem_reverse.mpr (kept stored)
    rw [trimmed, List.rdropWhile, List.mem_reverse]
    exact kept reversed

/-- A username that registration accepts is the whole text in lower case exactly without NUL. -/
theorem username_eq_iff {text name : Bytes}
    (accepted : Validate.username text Validate.usernameMax true = .valid name) :
    name = text.map toLower ↔ (0 : UInt8) ∉ text := by
  unfold Validate.username at accepted
  dsimp only at accepted
  split_ifs at accepted with short long charset start reserved
  obtain rfl := Validate.UsernameResult.valid.inj accepted
  have whole : (cString text).take (Validate.usernameMax - 1) = cString text :=
    List.take_of_length_le (by rw [Validate.usernameMax]; omega)
  rw [whole]
  constructor
  · intro same stored
    rw [← zero_mem_map_toLower, ← same, zero_mem_map_toLower] at stored
    exact zero_not_mem_cString text stored
  · intro free
    rw [cString_eq_self free]

/-- An address that is accepted is the whole text, trimmed and in lower case, exactly without NUL. -/
theorem email_eq_iff {text address : Bytes}
    (accepted : Validate.email text Validate.emailMax = .valid address) :
    address = (trimmed text).map toLower ↔ (0 : UInt8) ∉ text := by
  unfold Validate.email at accepted
  dsimp only at accepted
  split_ifs at accepted with long at_ sides
  obtain rfl := Validate.EmailResult.valid.inj accepted
  have whole : (Validate.trim text).take (Validate.emailMax - 1) = Validate.trim text :=
    List.take_of_length_le (by rw [Validate.emailMax]; omega)
  have cut : Validate.trim text = trimmed (cString text) := rfl
  rw [whole, cut]
  constructor
  · intro same stored
    rw [← zero_mem_trimmed, ← zero_mem_map_toLower, ← same, zero_mem_map_toLower, zero_mem_trimmed]
      at stored
    exact zero_not_mem_cString text stored
  · intro free
    rw [cString_eq_self free]

/-- The name that a login looks up is the whole text in lower case exactly without NUL. -/
theorem nocase_eq_iff {text : Bytes} : nocase text = text.map toLower ↔ (0 : UInt8) ∉ text := by
  constructor
  · intro same stored
    rw [← zero_mem_map_toLower, ← same, nocase, zero_mem_map_toLower] at stored
    exact zero_not_mem_cString text stored
  · intro free
    rw [nocase, cString_eq_self free]

/-- No character of an encoding is NUL. -/
theorem zero_not_mem_encode (bytes : Bytes) : (0 : UInt8) ∉ Base64url.encode bytes := by
  intro stored
  obtain ⟨index, same⟩ := Base64url.mem_encode stored
  have read := Base64url.decodeChar_encodeChar index
  rw [← same] at read
  contradiction

/-- A text that decodes as it stands, is without NUL. -/
theorem zero_not_mem_of_decode {text raw : Bytes} (decoded : Base64url.decode text = some raw) :
    (0 : UInt8) ∉ text := by
  rw [Base64url.decode_eq_some_iff.mp decoded]
  exact zero_not_mem_encode raw

end Texts

section Handlers

/-- The account that a request names is that of the whole username. -/
def NamesAccount (members : List (Bytes × Tree)) (name : Bytes) : Prop :=
  ∃ text, found members "username" = some (ascii "username", .string text) ∧ name = text.map toLower

/-- The address that a request names is that of the whole email field. -/
def NamesAddress (members : List (Bytes × Tree)) (address : Bytes) : Prop :=
  ∃ text, found members "email" = some (ascii "email", .string text) ∧
    address = (trimmed text).map toLower

/-- The token that a request names by its hash is that of the whole field. -/
def NamesToken (crypto : Crypto.Primitives) (members : List (Bytes × Tree)) (field : String)
    (hash : Bytes) : Prop :=
  ∃ text raw, found members field = some (ascii field, .string text) ∧
    Base64url.decode text = some raw ∧ hash = crypto.sha256 raw

/-- The password of a request. -/
def NamesPassword (members : List (Bytes × Tree)) (password : Bytes) : Prop :=
  found members "password" = some (ascii "password", .string password)

/-- A field whose key and text are without NUL. -/
def Clean (key text : Bytes) : Prop := (0 : UInt8) ∉ key ∧ (0 : UInt8) ∉ text

/-- What registration finds in a body and its checks accept. -/
structure RegisterReads (members : List (Bytes × Tree)) (username email password : Bytes × Bytes)
    (name address : Bytes) : Prop where
  usernameFound : found members "username" = some (username.1, .string username.2)
  usernameFits : username.2.length < 512
  emailFound : found members "email" = some (email.1, .string email.2)
  emailFits : email.2.length < 512
  passwordFound : found members "password" = some (password.1, .string password.2)
  named : Validate.username username.2 Validate.usernameMax true = .valid name
  addressed : Validate.email email.2 Validate.emailMax = .valid address

/-- Registration names the whole fields it asks for, or answers an error. -/
def RegisterWhole (members : List (Bytes × Tree)) (body : Bytes) : Prop :=
  ∀ ctx env input, Register.admission ctx env body = .ok input →
    NamesAccount members input.username ∧ NamesAddress members input.emailNormalized ∧
      ∃ password, NamesPassword members password ∧
        Password.hash ctx.crypto password ctx.config.kdfIterations env.salt = some input.hash

/-- Login names the whole fields it asks for, or answers an error. -/
def LoginWhole (members : List (Bytes × Tree)) (body : Bytes) : Prop :=
  ∀ ctx env input, Login.admission ctx env body = .ok input →
    NamesAccount members (nocase input.username) ∧ NamesPassword members input.password

/-- A resend names the whole field it asks for, or answers an error. -/
def ResendWhole (members : List (Bytes × Tree)) (body : Bytes) : Prop :=
  ∀ address, Resend.admission body = .ok address → NamesAddress members address

/-- A handler that reads a token names the whole field it asks for, or answers an error. -/
def TokenWhole (admission : AppCtx → Bytes → Except HandlerResult Bytes)
    (members : List (Bytes × Tree)) (field : String) (body : Bytes) : Prop :=
  ∀ ctx hash, admission ctx body = .ok hash → NamesToken ctx.crypto members field hash

/-- What an admitted registration rests on. -/
theorem register_admitted {ctx : AppCtx} {env : Env} {body : Bytes} {input : Register.Input}
    (admitted : Register.admission ctx env body = .ok input) :
    ∃ object username password, parseBody body = .ok object ∧
      readStringField object "username" 512 = some username ∧
      readStringField object "email" 512 = some input.rawEmail ∧
      stringField object (ascii "password") = some password ∧
      Validate.username username Validate.usernameMax true = .valid input.username ∧
      Validate.email input.rawEmail Validate.emailMax = .valid input.emailNormalized ∧
      Password.hash ctx.crypto password ctx.config.kdfIterations env.salt = some input.hash := by
  unfold Register.admission at admitted
  dsimp only [bind, Except.bind, pure, Except.pure, throw, throwThe, MonadExceptOf.throw] at admitted
  split at admitted
  · contradiction
  cases parsed : parseBody body with
  | error refusal =>
    rw [parsed] at admitted
    contradiction
  | ok object =>
    rw [parsed] at admitted
    dsimp only at admitted
    split at admitted <;> try contradiction
    rename_i rawUsername readUsername
    split at admitted <;> try contradiction
    rename_i rawEmail readEmail
    split at admitted <;> try contradiction
    rename_i password readPassword
    split at admitted <;> try contradiction
    rename_i username named
    split at admitted <;> try contradiction
    rename_i address addressed
    split at admitted
    · contradiction
    split at admitted
    · contradiction
    split at admitted <;> try contradiction
    rename_i hash hashed
    cases admitted
    exact ⟨object, rawUsername, password, rfl, readUsername, readEmail, readPassword, named, addressed,
      hashed⟩

/-- Registration admits what it reads when its surroundings allow it. -/
theorem register_admits {ctx : AppCtx} {env : Env} {body : Bytes} {object : Value}
    {username email password name address : Bytes} {hash : Password.Hash}
    (allowed : ∀ site key budget, env.allow site key budget = true) (slot : env.kdfSlot = true)
    (parsed : parseBody body = .ok object)
    (readUsername : readStringField object "username" 512 = some username)
    (readEmail : readStringField object "email" 512 = some email)
    (readPassword : stringField object (ascii "password") = some password)
    (named : Validate.username username Validate.usernameMax true = .valid name)
    (addressed : Validate.email email Validate.emailMax = .valid address)
    (policy : Password.policyCheck password ctx.config.passwordMinLength ctx.config.passwordMaxLength
      ctx.passwordDenylist = .ok)
    (hashed : Password.hash ctx.crypto password ctx.config.kdfIterations env.salt = some hash) :
    Register.admission ctx env body = .ok ⟨name, email, address, hash⟩ := by
  unfold Register.admission
  dsimp only [bind, Except.bind, pure, Except.pure, throw, throwThe, MonadExceptOf.throw]
  rw [allowed, allowed, parsed]
  dsimp only
  rw [readUsername, readEmail, readPassword]
  dsimp only
  rw [named]
  dsimp only
  rw [addressed]
  dsimp only
  rw [policy, slot, hashed]
  rfl

/-- What an admitted login rests on. -/
theorem login_admitted {ctx : AppCtx} {env : Env} {body : Bytes} {input : Login.Input}
    (admitted : Login.admission ctx env body = .ok input) :
    ∃ object, parseBody body = .ok object ∧
      readStringField object "username" 512 = some input.username ∧
      stringField object (ascii "password") = some input.password := by
  unfold Login.admission at admitted
  dsimp only [bind, Except.bind, pure, Except.pure, throw, throwThe, MonadExceptOf.throw] at admitted
  split at admitted
  · contradiction
  cases parsed : parseBody body with
  | error refusal =>
    rw [parsed] at admitted
    contradiction
  | ok object =>
    rw [parsed] at admitted
    dsimp only at admitted
    split at admitted <;> try contradiction
    rename_i username readUsername
    split at admitted <;> try contradiction
    rename_i password readPassword
    split at admitted
    · contradiction
    split at admitted
    · contradiction
    cases admitted
    exact ⟨object, rfl, readUsername, readPassword⟩

/-- Login admits what it reads when its surroundings allow it. -/
theorem login_admits {ctx : AppCtx} {env : Env} {body : Bytes} {object : Value}
    {username password : Bytes} (allowed : ∀ site key budget, env.allow site key budget = true)
    (slot : env.kdfSlot = true) (parsed : parseBody body = .ok object)
    (readUsername : readStringField object "username" 512 = some username)
    (readPassword : stringField object (ascii "password") = some password) :
    Login.admission ctx env body = .ok ⟨username, password⟩ := by
  unfold Login.admission
  dsimp only [bind, Except.bind, pure, Except.pure, throw, throwThe, MonadExceptOf.throw]
  rw [allowed, parsed]
  dsimp only
  rw [readUsername, readPassword]
  dsimp only
  rw [allowed, slot]
  rfl

/-- What an admitted resend rests on. -/
theorem resend_admission_eq_ok_iff {body address : Bytes} :
    Resend.admission body = .ok address ↔ ∃ object email, parseBody body = .ok object ∧
      readStringField object "email" 512 = some email ∧
      Validate.email email Validate.emailMax = .valid address := by
  unfold Resend.admission
  dsimp only [bind, Except.bind, pure, Except.pure, throw, throwThe, MonadExceptOf.throw]
  cases parseBody body with
  | error refusal => simp
  | ok object =>
    cases read : readStringField object "email" 512 with
    | none => simp [read]
    | some email =>
      cases addressed : Validate.email email Validate.emailMax with
      | valid found => simp [read, addressed]
      | tooLong => simp [read, addressed]
      | malformed => simp [read, addressed]

/-- What an admitted token rests on. -/
theorem presentedHash_eq_ok_iff {crypto : Crypto.Primitives} {body hash : Bytes} {field : String}
    {malformed : HandlerResult} :
    presentedHash crypto body field malformed = .ok hash ↔ ∃ object text raw,
      parseBody body = .ok object ∧ readStringField object field 128 = some text ∧
      Base64url.decode (cString text) = some raw ∧ raw.length = 32 ∧ hash = crypto.sha256 raw := by
  unfold presentedHash
  dsimp only [bind, Except.bind]
  cases parseBody body with
  | error refusal => simp
  | ok object =>
    cases read : readStringField object field 128 with
    | none => simp [read]
    | some text =>
      cases decoded : Base64url.decode (cString text) with
      | none => simp [read, decoded]
      | some raw =>
        by_cases long : raw.length = 32
        · simp [read, decoded, long, eq_comm]
        · simp [read, decoded, long]

end Handlers

section Conditions

variable {members : List (Bytes × Tree)} {body : Bytes}

/-- A body that spells an object is read as that object. -/
theorem object_eq {object : Value} (spelled : Spells members body)
    (parsed : parseBody body = .ok object) : object = (Tree.object members).value := by
  have same := parseBody_eq_ok_iff.mpr ⟨members, spelled, rfl⟩
  rw [same] at parsed
  exact (Except.ok.inj parsed).symm

/-- The fields that registration finds are without NUL in key and text, the password in its key, when
its checks accept them. -/
def RegisterClean (members : List (Bytes × Tree)) : Prop :=
  ∀ username email password name address,
    RegisterReads members username email password name address →
      Clean username.1 username.2 ∧ Clean email.1 email.2 ∧ (0 : UInt8) ∉ password.1

/-- The fields that login finds are without NUL in key and text, the password in its key, when they are
strings that fit. -/
def LoginClean (members : List (Bytes × Tree)) : Prop :=
  ∀ key text passwordKey password, found members "username" = some (key, .string text) →
    text.length < 512 → found members "password" = some (passwordKey, .string password) →
      Clean key text ∧ (0 : UInt8) ∉ passwordKey

/-- The field that a resend finds is without NUL in key and text when its checks accept it. -/
def ResendClean (members : List (Bytes × Tree)) : Prop :=
  ∀ key text address, found members "email" = some (key, .string text) → text.length < 512 →
    Validate.email text Validate.emailMax = .valid address → Clean key text

/-- The token field that is found is without NUL in key and text when what stands before the first NUL
decodes to a token. -/
def TokenClean (members : List (Bytes × Tree)) (field : String) : Prop :=
  ∀ key text raw, found members field = some (key, .string text) → text.length < 128 →
    Base64url.decode (cString text) = some raw → raw.length = 32 → Clean key text

/-- A context that accepts every password of a length and keeps it as its hash. -/
def permissive (length : Nat) : AppCtx where
  crypto := { Deployment.crypto with kdfDerive := fun password _ _ => some password }
  config := { Deployment.config with passwordMinLength := 0, passwordMaxLength := length }
  passwordDenylist := none

/-- The permissive context accepts a password of its length. -/
theorem policy_permissive (password : Bytes) :
    Password.policyCheck password (permissive password.length).config.passwordMinLength
      (permissive password.length).config.passwordMaxLength
      (permissive password.length).passwordDenylist = .ok := by
  unfold Password.policyCheck permissive
  dsimp only
  rw [if_neg (by omega), if_neg (by omega)]

/-- An account is named by a whole field when its key and text are without NUL. -/
theorem namesAccount_iff {key text name : Bytes}
    (located : found members "username" = some (key, .string text))
    (folded : name = text.map toLower ↔ (0 : UInt8) ∉ text) :
    NamesAccount members name ↔ Clean key text := by
  rw [NamesAccount, found_exact_iff (by decide) located, folded, Clean]

/-- An address is named by a whole field when its key and text are without NUL. -/
theorem namesAddress_iff {key text address : Bytes}
    (located : found members "email" = some (key, .string text))
    (accepted : Validate.email text Validate.emailMax = .valid address) :
    NamesAddress members address ↔ Clean key text := by
  rw [NamesAddress, found_exact_iff (by decide) located, email_eq_iff accepted, Clean]

/-- A password is that of a whole field when its key is without NUL. -/
theorem namesPassword_iff {key password : Bytes}
    (located : found members "password" = some (key, .string password)) (holds : Bytes → Prop) :
    (∃ exact, NamesPassword members exact ∧ holds exact) ↔ (0 : UInt8) ∉ key ∧ holds password :=
  found_exact_iff (by decide) located holds

/-- A token is named by a whole field when its key and text are without NUL. -/
theorem namesToken_iff {crypto : Crypto.Primitives} {field : String} {key text raw : Bytes}
    (free : (0 : UInt8) ∉ ascii field) (located : found members field = some (key, .string text))
    (decoded : Base64url.decode (cString text) = some raw) :
    NamesToken crypto members field (crypto.sha256 raw) ↔ Clean key text := by
  have shape : NamesToken crypto members field (crypto.sha256 raw) ↔
      ∃ exact, found members field = some (ascii field, .string exact) ∧
        ∃ whole, Base64url.decode exact = some whole ∧ crypto.sha256 raw = crypto.sha256 whole := by
    simp only [NamesToken, exists_and_left]
  rw [shape, found_exact_iff free located, Clean]
  apply and_congr_right
  intro _
  constructor
  · rintro ⟨whole, read, -⟩
    exact zero_not_mem_of_decode read
  · intro whole
    rw [cString_eq_self whole] at decoded
    exact ⟨raw, decoded, rfl⟩

/-- Registration names whole fields exactly when those it accepts are without NUL. -/
theorem registerWhole_iff (spelled : Spells members body) :
    RegisterWhole members body ↔ RegisterClean members := by
  have parsed := parseBody_eq_ok_iff.mpr ⟨members, spelled, rfl⟩
  constructor
  · intro whole username email password name address reads
    have slot : (Deployment.env 0 0 0).kdfSlot = true := rfl
    have hashed : Password.hash (permissive password.2.length).crypto password.2
        (permissive password.2.length).config.kdfIterations (Deployment.env 0 0 0).salt =
          some ⟨(Deployment.sixteen 34).bytes, password.2, 600000⟩ := rfl
    have admitted := register_admits (fun _ _ _ => rfl) slot parsed
      ((readStringField_eq_some_iff (by decide)).mpr ⟨⟨_, reads.usernameFound⟩, reads.usernameFits⟩)
      ((readStringField_eq_some_iff (by decide)).mpr ⟨⟨_, reads.emailFound⟩, reads.emailFits⟩)
      ((stringField_eq_some_iff (by decide)).mpr ⟨_, reads.passwordFound⟩) reads.named
      reads.addressed (policy_permissive password.2) hashed
    obtain ⟨account, addressed, secret⟩ := whole _ _ _ admitted
    exact ⟨(namesAccount_iff reads.usernameFound (username_eq_iff reads.named)).mp account,
      (namesAddress_iff reads.emailFound reads.addressed).mp addressed,
      ((namesPassword_iff reads.passwordFound _).mp secret).1⟩
  · intro clean ctx env input admitted
    obtain ⟨object, username, password, read, readUsername, readEmail, readPassword, named, addressed,
      hashed⟩ := register_admitted admitted
    rw [object_eq spelled read] at readUsername readEmail readPassword
    obtain ⟨⟨usernameKey, usernameFound⟩, usernameFits⟩ :=
      (readStringField_eq_some_iff (by decide)).mp readUsername
    obtain ⟨⟨emailKey, emailFound⟩, emailFits⟩ :=
      (readStringField_eq_some_iff (by decide)).mp readEmail
    obtain ⟨passwordKey, passwordFound⟩ := (stringField_eq_some_iff (by decide)).mp readPassword
    obtain ⟨usernameClean, emailClean, passwordClean⟩ := clean (usernameKey, username)
      (emailKey, input.rawEmail) (passwordKey, password) _ _
      ⟨usernameFound, usernameFits, emailFound, emailFits, passwordFound, named, addressed⟩
    exact ⟨(namesAccount_iff usernameFound (username_eq_iff named)).mpr usernameClean,
      (namesAddress_iff emailFound addressed).mpr emailClean,
      (namesPassword_iff passwordFound _).mpr ⟨passwordClean, hashed⟩⟩

/-- Login names whole fields exactly when those it finds are without NUL. -/
theorem loginWhole_iff (spelled : Spells members body) :
    LoginWhole members body ↔ LoginClean members := by
  have parsed := parseBody_eq_ok_iff.mpr ⟨members, spelled, rfl⟩
  have secret {key password : Bytes}
      (located : found members "password" = some (key, .string password)) :
      NamesPassword members password ↔ (0 : UInt8) ∉ key := by
    have exact := namesPassword_iff located (· = password)
    simpa using exact
  constructor
  · intro whole key text passwordKey password usernameFound fits passwordFound
    have admitted : Login.admission Deployment.ctx (Deployment.env 0 0 0) body =
        .ok ⟨text, password⟩ :=
      login_admits (fun _ _ _ => rfl) rfl parsed
        ((readStringField_eq_some_iff (by decide)).mpr ⟨⟨_, usernameFound⟩, fits⟩)
        ((stringField_eq_some_iff (by decide)).mpr ⟨_, passwordFound⟩)
    obtain ⟨account, named⟩ := whole _ _ _ admitted
    exact ⟨(namesAccount_iff usernameFound nocase_eq_iff).mp account, (secret passwordFound).mp named⟩
  · intro clean ctx env input admitted
    obtain ⟨object, read, readUsername, readPassword⟩ := login_admitted admitted
    rw [object_eq spelled read] at readUsername readPassword
    obtain ⟨⟨key, usernameFound⟩, fits⟩ := (readStringField_eq_some_iff (by decide)).mp readUsername
    obtain ⟨passwordKey, passwordFound⟩ := (stringField_eq_some_iff (by decide)).mp readPassword
    obtain ⟨usernameClean, passwordClean⟩ := clean _ _ _ _ usernameFound fits passwordFound
    exact ⟨(namesAccount_iff usernameFound nocase_eq_iff).mpr usernameClean,
      (secret passwordFound).mpr passwordClean⟩

/-- A resend names the whole field exactly when the one it accepts is without NUL. -/
theorem resendWhole_iff (spelled : Spells members body) :
    ResendWhole members body ↔ ResendClean members := by
  have parsed := parseBody_eq_ok_iff.mpr ⟨members, spelled, rfl⟩
  constructor
  · intro whole key text address located fits accepted
    have read := (readStringField_eq_some_iff (by decide)).mpr ⟨⟨key, located⟩, fits⟩
    have named := whole address (resend_admission_eq_ok_iff.mpr ⟨_, text, parsed, read, accepted⟩)
    exact (namesAddress_iff located accepted).mp named
  · intro clean address admitted
    obtain ⟨object, text, read, field, accepted⟩ := resend_admission_eq_ok_iff.mp admitted
    rw [object_eq spelled read] at field
    obtain ⟨⟨key, located⟩, fits⟩ := (readStringField_eq_some_iff (by decide)).mp field
    exact (namesAddress_iff located accepted).mpr (clean key text address located fits accepted)

/-- A token is that of the whole field exactly when the one that decodes is without NUL. -/
theorem tokenWhole_iff (spelled : Spells members body) {field : String}
    (free : (0 : UInt8) ∉ ascii field) (malformed : HandlerResult) :
    TokenWhole (fun ctx body => presentedHash ctx.crypto body field malformed) members field body ↔
      TokenClean members field := by
  have parsed := parseBody_eq_ok_iff.mpr ⟨members, spelled, rfl⟩
  constructor
  · intro whole key text raw located fits decoded long
    have read := (readStringField_eq_some_iff free).mpr ⟨⟨key, located⟩, fits⟩
    have named := whole Deployment.ctx _
      (presentedHash_eq_ok_iff.mpr ⟨_, text, raw, parsed, read, decoded, long, rfl⟩)
    exact (namesToken_iff free located decoded).mp named
  · intro clean ctx hash admitted
    obtain ⟨object, text, raw, read, presented, decoded, long, rfl⟩ :=
      presentedHash_eq_ok_iff.mp admitted
    rw [object_eq spelled read] at presented
    obtain ⟨⟨key, located⟩, fits⟩ := (readStringField_eq_some_iff free).mp presented
    exact (namesToken_iff free located decoded).mpr (clean key text raw located fits decoded long)

/-- Two bodies whose fields of a name hold the same text, up to folding. -/
def SameText (fold : Bytes → Bytes) (name : String) (first second : List (Bytes × Tree)) : Prop :=
  ∃ left right, found first name = some (ascii name, .string left) ∧
    found second name = some (ascii name, .string right) ∧ fold left = fold right

/-- Bodies that name one account by whole fields have the same username, up to case. -/
theorem sameText_of_account {first second : List (Bytes × Tree)} {name : Bytes}
    (one : NamesAccount first name) (other : NamesAccount second name) :
    SameText (List.map toLower) "username" first second := by
  obtain ⟨left, locatedLeft, foldedLeft⟩ := one
  obtain ⟨right, locatedRight, foldedRight⟩ := other
  exact ⟨left, right, locatedLeft, locatedRight, foldedLeft.symm.trans foldedRight⟩

/-- Bodies that name one address by whole fields have the same email, up to blanks around and case. -/
theorem sameText_of_address {first second : List (Bytes × Tree)} {address : Bytes}
    (one : NamesAddress first address) (other : NamesAddress second address) :
    SameText (fun text => (trimmed text).map toLower) "email" first second := by
  obtain ⟨left, locatedLeft, foldedLeft⟩ := one
  obtain ⟨right, locatedRight, foldedRight⟩ := other
  exact ⟨left, right, locatedLeft, locatedRight, foldedLeft.symm.trans foldedRight⟩

/-- Bodies that name one token by whole fields have the same token, unless SHA-256 collides. -/
theorem sameText_of_token {crypto : Crypto.Primitives} {field : String}
    {first second : List (Bytes × Tree)} {hash : Bytes} (one : NamesToken crypto first field hash)
    (other : NamesToken crypto second field hash) :
    SameText id field first second ∨
      ∃ raw collides, raw ≠ collides ∧ crypto.sha256 raw = crypto.sha256 collides := by
  obtain ⟨left, rawLeft, locatedLeft, decodedLeft, hashedLeft⟩ := one
  obtain ⟨right, rawRight, locatedRight, decodedRight, hashedRight⟩ := other
  by_cases same : rawLeft = rawRight
  · rw [Base64url.decode_eq_some_iff] at decodedLeft decodedRight
    refine Or.inl ⟨left, right, locatedLeft, locatedRight, ?_⟩
    rw [id, id, decodedLeft, decodedRight, same]
  · exact Or.inr ⟨rawLeft, rawRight, same, hashedLeft.symm.trans hashedRight⟩

/-- Nothing is admitted of a body that is no object. -/
theorem refused_of_no_object (refused : ∀ members, ¬Spells members body) (ctx : AppCtx) (env : Env) :
    (∀ input, Register.admission ctx env body ≠ .ok input) ∧
      (∀ input, Login.admission ctx env body ≠ .ok input) ∧
      (∀ address, Resend.admission body ≠ .ok address) ∧
      ∀ field malformed hash, presentedHash ctx.crypto body field malformed ≠ .ok hash := by
  have unread {object : Value} (read : parseBody body = .ok object) : False := by
    obtain ⟨members, spelled, -⟩ := parseBody_eq_ok_iff.mp read
    exact refused members spelled
  refine ⟨fun input admitted => ?_, fun input admitted => ?_, fun address admitted => ?_,
    fun field malformed hash admitted => ?_⟩
  · obtain ⟨object, _, _, read, -⟩ := register_admitted admitted
    exact unread read
  · obtain ⟨object, read, -⟩ := login_admitted admitted
    exact unread read
  · obtain ⟨object, _, read, -⟩ := resend_admission_eq_ok_iff.mp admitted
    exact unread read
  · obtain ⟨object, _, _, read, -⟩ := presentedHash_eq_ok_iff.mp admitted
    exact unread read

end Conditions

/-- On a body that is an object, each handler looks its fields up under exactly their names and uses
their whole text, or answers an error, if and only if the fields it accepts are without NUL; a body
that is no object is refused; and bodies that name the same by whole fields agree in these. -/
theorem whole_fields_iff (ctx : AppCtx) (env : Env) (body : Bytes) :
    (∀ members, Spells members body →
      (RegisterWhole members body ↔ RegisterClean members) ∧
      (LoginWhole members body ↔ LoginClean members) ∧
      (TokenWhole Verify.admission members "token" body ↔ TokenClean members "token") ∧
      (ResendWhole members body ↔ ResendClean members) ∧
      (TokenWhole Refresh.admission members "refresh_token" body ↔
        TokenClean members "refresh_token") ∧
      (TokenWhole Logout.admission members "refresh_token" body ↔
        TokenClean members "refresh_token")) ∧
    ((∀ members, ¬Spells members body) →
      (∀ input, Register.admission ctx env body ≠ .ok input) ∧
      (∀ input, Login.admission ctx env body ≠ .ok input) ∧
      (∀ hash, Verify.admission ctx body ≠ .ok hash) ∧
      (∀ address, Resend.admission body ≠ .ok address) ∧
      (∀ hash, Refresh.admission ctx body ≠ .ok hash) ∧
      ∀ hash, Logout.admission ctx body ≠ .ok hash) ∧
    ∀ first second,
      (∀ name, NamesAccount first name → NamesAccount second name →
        SameText (List.map toLower) "username" first second) ∧
      (∀ address, NamesAddress first address → NamesAddress second address →
        SameText (fun text => (trimmed text).map toLower) "email" first second) ∧
      ∀ crypto field hash, NamesToken crypto first field hash → NamesToken crypto second field hash →
        SameText id field first second ∨
          ∃ raw collides, raw ≠ collides ∧ crypto.sha256 raw = crypto.sha256 collides := by
  refine ⟨fun members spelled => ?_, fun refused => ?_, fun first second => ?_⟩
  · exact ⟨registerWhole_iff spelled, loginWhole_iff spelled, tokenWhole_iff spelled (by decide) _,
      resendWhole_iff spelled, tokenWhole_iff spelled (by decide) _,
      tokenWhole_iff spelled (by decide) _⟩
  · obtain ⟨register, login, resend, token⟩ := refused_of_no_object refused ctx env
    exact ⟨register, login, token _ _, resend, token _ _, token _ _⟩
  · exact ⟨fun _ => sameText_of_account, fun _ => sameText_of_address, fun _ _ _ => sameText_of_token⟩

/-- A login under a username with an embedded NUL. -/
def truncated : Bytes :=
  ascii "\x7b\"username\":\"alice\\u0000mallory\",\"password\":\"correct horse\"\x7d"

/-- A login under a username with an embedded NUL opens a session of the account whose name stands
before the NUL, so it does not use the whole field. -/
theorem login_truncates_username :
    (∃ members, Spells members truncated ∧ ¬LoginWhole members truncated) ∧
      ((Handler.login.start Deployment.ctx (Deployment.env 1000 1 1) false
        { Deployment.post "/v1/auth/login" "" with body := some truncated }).run Deployment.ctx
          (Store.Conn.of (Deployment.database .active), [])).1.map HandlerResult.status = some 200 := by
  have opened : ((Handler.login.start Deployment.ctx (Deployment.env 1000 1 1) false
      { Deployment.post "/v1/auth/login" "" with body := some truncated }).run Deployment.ctx
        (Store.Conn.of (Deployment.database .active), [])).1.map HandlerResult.status = some 200 := by
    simp only [Deployment.ctx, Deployment.crypto_eq, Deployment.database_eq]
    decide +kernel
  refine ⟨?_, opened⟩
  have parsed : parseBody truncated = .ok (.object
      [(ascii "username", .string (ascii "alice" ++ 0 :: ascii "mallory")),
        (ascii "password", .string (ascii "correct horse"))]) := by rfl
  obtain ⟨members, spelled, same⟩ := parseBody_eq_ok_iff.mp parsed
  refine ⟨members, spelled, fun whole => ?_⟩
  have admitted : Login.admission Deployment.ctx (Deployment.env 1000 1 1) truncated =
      .ok ⟨ascii "alice" ++ 0 :: ascii "mallory", ascii "correct horse"⟩ :=
    login_admits (fun _ _ _ => rfl) rfl parsed (by decide) (by decide)
  obtain ⟨⟨read, located, folded⟩, -⟩ := whole _ _ _ admitted
  have field : stringField (Tree.object members).value (ascii "username") =
      some (ascii "alice" ++ 0 :: ascii "mallory") := by
    rw [← same]
    decide
  obtain ⟨key, locatedField⟩ := (stringField_eq_some_iff (by decide)).mp field
  rw [located] at locatedField
  obtain ⟨-, texts⟩ := Prod.mk.inj (Option.some.inj locatedField)
  rw [Tree.string.inj texts] at folded
  revert folded
  decide

end PlatformService.Verif.WholeFields
