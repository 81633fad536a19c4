import PlatformService.Api.Common
import PlatformService.Http.Request

/-!
# A small deployment

A concrete context on which statements about runs are evaluated: the default
settings, one account, and the values of SHA-256 and PBKDF2 on the few inputs
that the runs use.
-/

namespace PlatformService.Verif.Deployment

open Lib Store Crypto Api

/-- Bytes written in hexadecimal. -/
def hex (text : String) : Bytes := (hexDecode (ascii text)).getD []

/-- A function given by its values on a few inputs. -/
def tabulated {K : Type} [DecidableEq K] (table : List (K × String)) (input : K) : Bytes :=
  (table.find? fun row => row.1 = input).elim (List.replicate 32 0) fun row => hex row.2

/-- Thirty-two equal octets, as drawn for a token. -/
def rawToken (octet : UInt8) : Drawn 32 := ⟨List.replicate 32 octet, List.length_replicate⟩

/-- Sixteen equal octets, as drawn for a salt, a family or a token id. -/
def sixteen (octet : UInt8) : Drawn 16 := ⟨List.replicate 16 octet, List.length_replicate⟩

/-- SHA-256 and PBKDF2 (600000 iterations) on the inputs used. -/
def crypto : Primitives where
  sha256 := tabulated
    [((rawToken 1).bytes, "72cd6e8422c407fb6d098690f1130b7ded7ec2f7f5e1d30bd9d521f015363793"),
      ((rawToken 2).bytes, "75877bb41d393b5fb8455ce60ecd8dda001d06316496b14dfa7f895656eeca4a"),
      ((rawToken 3).bytes, "648aa5c579fb30f38af744d97d6ec840c7a91277a499a0d780f3e7314eca090b"),
      ((rawToken 4).bytes, "9f4fb68f3e1dac82202f9aa581ce0bbf1f765df0e9ac3c8c57e20f685abab8ed")]
  hmacSha256 _ _ := List.replicate 32 0
  kdfDerive password salt _ := some (tabulated
    [((ascii "correct horse", (sixteen 17).bytes),
        "db359f7baa454c68d692abb9cf361d512abea3c07647326ddd26e74408df2806"),
      ((ascii "wrong horse", (sixteen 17).bytes),
        "fec1ca3f7e029178caa9ae71d7a14c868a421e04da070dd4c9d449f7673ddf28"),
      ((ascii "correct horse", (sixteen 34).bytes),
        "12adb16c1b6b98159d33d0f2d2689c750af06af7eba20e1400e468d3c8f88426"),
      ((ascii "new horse staple", (sixteen 34).bytes),
        "87b54c348e114e87dafb3796fb33a32846fb2d5556c63d4d4cd37e5ad3960718")] (password, salt))
  length_hmacSha256 _ _ := List.length_replicate

/-- The default settings. -/
def config : Config where
  devMode := false
  accessTokenTtlS := 900
  refreshIdleTtlS := 2592000
  refreshAbsoluteTtlS := 7776000
  verificationTtlS := 86400
  kdfIterations := 600000
  lockoutThreshold := 10
  lockoutDurationS := 900
  passwordMinLength := 12
  passwordMaxLength := 128
  jwtIssuer := ascii "platformservice"
  jwtAudience := ascii "platformservice-api"
  jwtSecret := ascii "0123456789abcdef0123456789abcdef"
  maintenanceBatchSize := 1000
  auditRetentionDays := 365
  ratelimitLoginPerMinute := 10
  ratelimitLoginUsernamePerMinute := 10
  ratelimitRegisterPerMinute := 5
  ratelimitRegisterGlobalPerMinute := 50
  resendMinIntervalS := 60
  resendMaxPerDay := 5

/-- The context of the deployment. -/
def ctx : AppCtx := ⟨crypto, config, none⟩

/-- Surroundings in which every check passes. -/
def env (now : Int) (token family : UInt8) : Env where
  now := now
  peerAddr := some (ascii "192.0.2.7:40000")
  allow _ _ _ := true
  kdfSlot := true
  salt := some (sixteen 34)
  rawToken := some (rawToken token)
  familyId := some (sixteen family)
  jti := some (sixteen 1)

/-- A request with a body. -/
def post (path body : String) : Http.Request where
  method := ascii "POST"
  path := ascii path
  query := none
  minorVersion := 1
  headers := []
  body := some (ascii body)

/-- An account with the password "correct horse". -/
def alice (status : UserStatus) : UserRow where
  userId := 1
  username := ascii "alice"
  email := ascii "alice@example.org"
  emailNormalized := ascii "alice@example.org"
  passwordHash := hex "db359f7baa454c68d692abb9cf361d512abea3c07647326ddd26e74408df2806"
  passwordSalt := (sixteen 17).bytes
  kdfIters := 600000
  status := status
  failedLogins := 0
  lockedUntil := none
  createdAt := 1000
  updatedAt := 1000

/-- A database with one account. -/
def database (status : UserStatus) : Db where
  users := ⟨[alice status], List.nodup_singleton _⟩
  userRoles := ⟨[(1, .user)], List.nodup_singleton _⟩
  emailVerificationTokens := Table.empty
  sessionFamilies := Table.empty
  refreshTokens := Table.empty
  devOutbox := []
  auditLog := []
  usernames := List.nodup_singleton _
  emails := List.nodup_singleton _
  roleOwners := by
    intro grant stored
    rw [List.mem_singleton.mp stored]
    exact ⟨alice status, List.mem_singleton_self _, rfl⟩
  verificationOwners := by simp
  familyOwners := by simp
  tokenFamilies := Db.initial.tokenFamilies

/-- An outstanding verification token of the account. -/
def outstanding : VerificationTokenRow where
  tokenHash := crypto.sha256 (rawToken 3).bytes
  userId := 1
  expiresAt := 87400
  consumedAt := none
  createdAt := 1000

/-- The database with an outstanding verification token. -/
def unverified (status : UserStatus) : Db :=
  { database status with
    emailVerificationTokens := ⟨[outstanding], List.nodup_singleton _⟩
    verificationOwners := by
      intro token stored
      rw [List.mem_singleton.mp stored]
      exact ⟨alice status, List.mem_singleton_self _, rfl⟩ }

/-! ## The values as numbers

The kernel reads the digits of a string slowly, so a run is evaluated over the numbers
that the digits denote. -/

/-- The lowest octets of a number, the highest first. -/
def octets (count value : Nat) : Bytes :=
  (List.range count).reverse.map fun i => (value / 256 ^ i % 256).toUInt8

/-- A function given by its values on a few inputs, as numbers. -/
def evaluated {K : Type} [DecidableEq K] (table : List (K × Nat)) (input : K) : Bytes :=
  (table.find? fun row => row.1 = input).elim (List.replicate 32 0) fun row => octets 32 row.2

/-- Tables of the same values give the same function. -/
theorem tabulated_eq {K : Type} [DecidableEq K] {table : List (K × String)}
    (numbers : List (K × Nat))
    (same : List.Forall₂ (fun row number => row.1 = number.1 ∧ hex row.2 = octets 32 number.2)
      table numbers) : tabulated table = evaluated numbers := by
  funext input
  unfold tabulated evaluated
  induction same with
  | nil => rfl
  | @cons row number table numbers pair same ih =>
    rw [List.find?_cons, List.find?_cons, pair.1]
    cases decide (number.1 = input) with
    | false => exact ih
    | true => exact pair.2

/-- The values of SHA-256. -/
def digests : List (Bytes × Nat) :=
  [((rawToken 1).bytes, 0x72cd6e8422c407fb6d098690f1130b7ded7ec2f7f5e1d30bd9d521f015363793),
    ((rawToken 2).bytes, 0x75877bb41d393b5fb8455ce60ecd8dda001d06316496b14dfa7f895656eeca4a),
    ((rawToken 3).bytes, 0x648aa5c579fb30f38af744d97d6ec840c7a91277a499a0d780f3e7314eca090b),
    ((rawToken 4).bytes, 0x9f4fb68f3e1dac82202f9aa581ce0bbf1f765df0e9ac3c8c57e20f685abab8ed)]

/-- The values of PBKDF2. -/
def derivedKeys : List ((Bytes × Bytes) × Nat) :=
  [((ascii "correct horse", (sixteen 17).bytes),
      0xdb359f7baa454c68d692abb9cf361d512abea3c07647326ddd26e74408df2806),
    ((ascii "wrong horse", (sixteen 17).bytes),
      0xfec1ca3f7e029178caa9ae71d7a14c868a421e04da070dd4c9d449f7673ddf28),
    ((ascii "correct horse", (sixteen 34).bytes),
      0x12adb16c1b6b98159d33d0f2d2689c750af06af7eba20e1400e468d3c8f88426),
    ((ascii "new horse staple", (sixteen 34).bytes),
      0x87b54c348e114e87dafb3796fb33a32846fb2d5556c63d4d4cd37e5ad3960718)]

/-- The functions of the deployment, from numbers. -/
def primitives : Primitives where
  sha256 := evaluated digests
  hmacSha256 _ _ := List.replicate 32 0
  kdfDerive password salt _ := some (evaluated derivedKeys (password, salt))
  length_hmacSha256 _ _ := List.length_replicate

/-- The functions are those of the deployment. -/
theorem crypto_eq : crypto = primitives := by
  unfold crypto primitives
  congr 1
  · exact tabulated_eq digests (.cons ⟨rfl, by decide +kernel⟩ (.cons ⟨rfl, by decide +kernel⟩
      (.cons ⟨rfl, by decide +kernel⟩ (.cons ⟨rfl, by decide +kernel⟩ .nil))))
  · funext password salt iterations
    exact congrArg some (congrFun (tabulated_eq derivedKeys (.cons ⟨rfl, by decide +kernel⟩
      (.cons ⟨rfl, by decide +kernel⟩ (.cons ⟨rfl, by decide +kernel⟩
        (.cons ⟨rfl, by decide +kernel⟩ .nil))))) _)

/-- The account, its password hash from a number. -/
def enrolled (status : UserStatus) : UserRow :=
  { alice status with
    passwordHash := octets 32
      0xdb359f7baa454c68d692abb9cf361d512abea3c07647326ddd26e74408df2806 }

/-- The account is that of the deployment. -/
theorem alice_eq (status : UserStatus) : alice status = enrolled status := by
  have hash : (alice status).passwordHash = octets 32
      0xdb359f7baa454c68d692abb9cf361d512abea3c07647326ddd26e74408df2806 := by
    cases status <;> decide +kernel
  unfold enrolled
  rw [← hash]

/-- The database with the account from numbers. -/
def populated (status : UserStatus) : Db where
  users := ⟨[enrolled status], List.nodup_singleton _⟩
  userRoles := ⟨[(1, .user)], List.nodup_singleton _⟩
  emailVerificationTokens := Table.empty
  sessionFamilies := Table.empty
  refreshTokens := Table.empty
  devOutbox := []
  auditLog := []
  usernames := List.nodup_singleton _
  emails := List.nodup_singleton _
  roleOwners := by
    intro grant stored
    rw [List.mem_singleton.mp stored]
    exact ⟨enrolled status, List.mem_singleton_self _, rfl⟩
  verificationOwners := by simp
  familyOwners := by simp
  tokenFamilies := Db.initial.tokenFamilies

/-- The database is that of the deployment. -/
theorem database_eq (status : UserStatus) : database status = populated status := by
  unfold database populated
  simp only [alice_eq]

end PlatformService.Verif.Deployment
