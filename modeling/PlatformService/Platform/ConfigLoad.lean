import Mathlib.Logic.Function.Basic
import PlatformService.Http.Cors

/-!
# Configuration loading

`config.c`, with `ps_log_level_from_string` of `log.c`: the setting table, the assignment
of a text to a setting, the file read through a buffer of 1024 bytes, and `ps_config_load`
with its validation. A configuration holds in each setting a value of the setting's C
type; a text in a buffer is shorter than the buffer. Errors are the texts written to
`err`, before they are cut to its size. No row of the table has a NULL key or variable.
-/

namespace PlatformService.Settings

open Lib Http

/-- `PS_PATH_MAX` -/
def pathMax : Nat := 512

/-- `PS_SECRET_MAX` -/
def secretMax : Nat := 512

/-- `PS_JWT_SECRET_MIN` -/
def jwtSecretMin : Nat := 32

/-- `ps_type_t` -/
inductive PsType where
  | str
  | path
  | int
  | u16
  | bool
  | loglevel
  deriving DecidableEq, Repr

/-- `ps_log_level_t` -/
inductive LogLevel where
  | trace
  | debug
  | info
  | warn
  | error
  deriving DecidableEq, Repr

/-- The fields of `ps_config_t`, in the order of the table. -/
inductive Setting where
  | bindAddress
  | port
  | devMode
  | workerThreads
  | acceptQueueDepth
  | shutdownGraceS
  | maxRequestLineBytes
  | maxHeaderBytes
  | maxHeaderCount
  | maxBodyBytes
  | readTimeoutS
  | writeTimeoutS
  | keepaliveIdleTimeoutS
  | keepaliveMaxRequests
  | corsAllowedOrigins
  | corsAllowCredentials
  | tlsEnabled
  | tlsCertPath
  | tlsKeyPath
  | dbPath
  | dbBusyTimeoutMs
  | accessTokenTtlS
  | refreshIdleTtlS
  | refreshAbsoluteTtlS
  | verificationTtlS
  | kdfIterations
  | lockoutThreshold
  | lockoutDurationS
  | passwordMinLength
  | passwordMaxLength
  | jwtIssuer
  | jwtAudience
  | jwtSecret
  | bootstrapAdminUsername
  | bootstrapAdminEmail
  | bootstrapAdminPassword
  | maintenanceIntervalS
  | maintenanceBatchSize
  | auditRetentionDays
  | ratelimitMaxEntries
  | ratelimitLoginPerMinute
  | ratelimitLoginUsernamePerMinute
  | ratelimitRegisterPerMinute
  | ratelimitRegisterGlobalPerMinute
  | resendMinIntervalS
  | resendMaxPerDay
  | commonPasswordsPath
  | logLevel
  deriving DecidableEq, Repr

/-- `ps_setting_t`, without the offset, which the setting stands for, and `secret`, which loading
does not read. -/
structure SettingRow where
  key : String
  env : String
  type : PsType
  size : Nat
  dflt : String
  envOnly : Bool
  deriving DecidableEq, Repr

/-- The row of a setting in `SETTINGS`. -/
def Setting.row : Setting → SettingRow
  | .bindAddress =>
    ⟨"server.bind_address", "PS_BIND_ADDRESS", .str, strMax, "127.0.0.1", false⟩
  | .port =>
    ⟨"server.port", "PS_PORT", .u16, 2, "8443", false⟩
  | .devMode =>
    ⟨"server.dev_mode", "PS_DEV_MODE", .bool, 1, "false", false⟩
  | .workerThreads =>
    ⟨"server.worker_threads", "PS_WORKER_THREADS", .int, 4, "0", false⟩
  | .acceptQueueDepth =>
    ⟨"server.accept_queue_depth", "PS_ACCEPT_QUEUE_DEPTH", .int, 4, "256", false⟩
  | .shutdownGraceS =>
    ⟨"server.shutdown_grace_s", "PS_SHUTDOWN_GRACE_S", .int, 4, "30", false⟩
  | .maxRequestLineBytes =>
    ⟨"http.max_request_line", "PS_MAX_REQUEST_LINE", .int, 4, "8192", false⟩
  | .maxHeaderBytes =>
    ⟨"http.max_header_bytes", "PS_MAX_HEADER_BYTES", .int, 4, "16384", false⟩
  | .maxHeaderCount =>
    ⟨"http.max_header_count", "PS_MAX_HEADER_COUNT", .int, 4, "64", false⟩
  | .maxBodyBytes =>
    ⟨"http.max_body_bytes", "PS_MAX_BODY_BYTES", .int, 4, "1048576", false⟩
  | .readTimeoutS =>
    ⟨"http.read_timeout_s", "PS_READ_TIMEOUT_S", .int, 4, "30", false⟩
  | .writeTimeoutS =>
    ⟨"http.write_timeout_s", "PS_WRITE_TIMEOUT_S", .int, 4, "30", false⟩
  | .keepaliveIdleTimeoutS =>
    ⟨"http.keepalive_idle_s", "PS_KEEPALIVE_IDLE_S", .int, 4, "15", false⟩
  | .keepaliveMaxRequests =>
    ⟨"http.keepalive_max_requests", "PS_KEEPALIVE_MAX_REQUESTS", .int, 4, "100", false⟩
  | .corsAllowedOrigins =>
    ⟨"cors.allowed_origins", "PS_CORS_ALLOWED_ORIGINS", .str, strMax, "", false⟩
  | .corsAllowCredentials =>
    ⟨"cors.allow_credentials", "PS_CORS_ALLOW_CREDENTIALS", .bool, 1, "false", false⟩
  | .tlsEnabled =>
    ⟨"tls.enabled", "PS_TLS_ENABLED", .bool, 1, "true", false⟩
  | .tlsCertPath =>
    ⟨"tls.cert_path", "PS_TLS_CERT_PATH", .path, pathMax, "./certs/dev-cert.pem", false⟩
  | .tlsKeyPath =>
    ⟨"tls.key_path", "PS_TLS_KEY_PATH", .path, pathMax, "./certs/dev-key.pem", false⟩
  | .dbPath =>
    ⟨"db.path", "PS_DB_PATH", .path, pathMax, "./data/platform.db", false⟩
  | .dbBusyTimeoutMs =>
    ⟨"db.busy_timeout_ms", "PS_DB_BUSY_TIMEOUT_MS", .int, 4, "5000", false⟩
  | .accessTokenTtlS =>
    ⟨"auth.access_token_ttl_s", "PS_ACCESS_TOKEN_TTL_S", .int, 4, "900", false⟩
  | .refreshIdleTtlS =>
    ⟨"auth.refresh_idle_ttl_s", "PS_REFRESH_IDLE_TTL_S", .int, 4, "2592000", false⟩
  | .refreshAbsoluteTtlS =>
    ⟨"auth.refresh_absolute_ttl_s", "PS_REFRESH_ABSOLUTE_TTL_S", .int, 4, "7776000", false⟩
  | .verificationTtlS =>
    ⟨"auth.verification_ttl_s", "PS_VERIFICATION_TTL_S", .int, 4, "86400", false⟩
  | .kdfIterations =>
    ⟨"auth.kdf_iterations", "PS_KDF_ITERATIONS", .int, 4, "600000", false⟩
  | .lockoutThreshold =>
    ⟨"auth.lockout_threshold", "PS_LOCKOUT_THRESHOLD", .int, 4, "10", false⟩
  | .lockoutDurationS =>
    ⟨"auth.lockout_duration_s", "PS_LOCKOUT_DURATION_S", .int, 4, "900", false⟩
  | .passwordMinLength =>
    ⟨"auth.password_min_length", "PS_PASSWORD_MIN_LENGTH", .int, 4, "12", false⟩
  | .passwordMaxLength =>
    ⟨"auth.password_max_length", "PS_PASSWORD_MAX_LENGTH", .int, 4, "128", false⟩
  | .jwtIssuer =>
    ⟨"auth.jwt_issuer", "PS_JWT_ISSUER", .str, strMax, "platformservice", false⟩
  | .jwtAudience =>
    ⟨"auth.jwt_audience", "PS_JWT_AUDIENCE", .str, strMax, "platformservice-api", false⟩
  | .jwtSecret =>
    ⟨"auth.jwt_secret", "PS_JWT_SECRET", .str, secretMax, "", true⟩
  | .bootstrapAdminUsername =>
    ⟨"bootstrap.admin_username", "BOOTSTRAP_ADMIN_USERNAME", .str, strMax, "", true⟩
  | .bootstrapAdminEmail =>
    ⟨"bootstrap.admin_email", "BOOTSTRAP_ADMIN_EMAIL", .str, strMax, "", true⟩
  | .bootstrapAdminPassword =>
    ⟨"bootstrap.admin_password", "BOOTSTRAP_ADMIN_PASSWORD", .str, secretMax, "", true⟩
  | .maintenanceIntervalS =>
    ⟨"maintenance.interval_s", "PS_MAINTENANCE_INTERVAL_S", .int, 4, "3600", false⟩
  | .maintenanceBatchSize =>
    ⟨"maintenance.batch_size", "PS_MAINTENANCE_BATCH_SIZE", .int, 4, "1000", false⟩
  | .auditRetentionDays =>
    ⟨"audit.retention_days", "PS_AUDIT_RETENTION_DAYS", .int, 4, "365", false⟩
  | .ratelimitMaxEntries =>
    ⟨"ratelimit.max_entries", "PS_RATELIMIT_MAX_ENTRIES", .int, 4, "100000", false⟩
  | .ratelimitLoginPerMinute =>
    ⟨"ratelimit.login_per_minute", "PS_RATELIMIT_LOGIN", .int, 4, "10", false⟩
  | .ratelimitLoginUsernamePerMinute =>
    ⟨"ratelimit.login_username_per_minute", "PS_RATELIMIT_LOGIN_USERNAME", .int, 4, "10", false⟩
  | .ratelimitRegisterPerMinute =>
    ⟨"ratelimit.register_per_minute", "PS_RATELIMIT_REGISTER", .int, 4, "5", false⟩
  | .ratelimitRegisterGlobalPerMinute =>
    ⟨"ratelimit.register_global_per_minute", "PS_RATELIMIT_REGISTER_GLOBAL", .int, 4, "50", false⟩
  | .resendMinIntervalS =>
    ⟨"ratelimit.resend_min_interval_s", "PS_RESEND_MIN_INTERVAL_S", .int, 4, "60", false⟩
  | .resendMaxPerDay =>
    ⟨"ratelimit.resend_max_per_day", "PS_RESEND_MAX_PER_DAY", .int, 4, "5", false⟩
  | .commonPasswordsPath =>
    ⟨"auth.common_passwords_path", "PS_COMMON_PASSWORDS_PATH", .path, pathMax,
      "./data/common-passwords.txt", false⟩
  | .logLevel =>
    ⟨"log.level", "PS_LOG_LEVEL", .loglevel, 4, "INFO", false⟩

/-- The order of `SETTINGS`. -/
def settings : List Setting :=
  [.bindAddress, .port, .devMode, .workerThreads, .acceptQueueDepth, .shutdownGraceS,
    .maxRequestLineBytes, .maxHeaderBytes, .maxHeaderCount, .maxBodyBytes, .readTimeoutS,
    .writeTimeoutS, .keepaliveIdleTimeoutS, .keepaliveMaxRequests, .corsAllowedOrigins,
    .corsAllowCredentials, .tlsEnabled, .tlsCertPath, .tlsKeyPath, .dbPath, .dbBusyTimeoutMs,
    .accessTokenTtlS, .refreshIdleTtlS, .refreshAbsoluteTtlS, .verificationTtlS, .kdfIterations,
    .lockoutThreshold, .lockoutDurationS, .passwordMinLength, .passwordMaxLength, .jwtIssuer,
    .jwtAudience, .jwtSecret, .bootstrapAdminUsername, .bootstrapAdminEmail,
    .bootstrapAdminPassword, .maintenanceIntervalS, .maintenanceBatchSize, .auditRetentionDays,
    .ratelimitMaxEntries, .ratelimitLoginPerMinute, .ratelimitLoginUsernamePerMinute,
    .ratelimitRegisterPerMinute, .ratelimitRegisterGlobalPerMinute, .resendMinIntervalS,
    .resendMaxPerDay, .commonPasswordsPath, .logLevel]

/-- The values of a field of some type and size. -/
def PsType.Carrier (size : Nat) : PsType → Type
  | .str | .path => { text : Bytes // text.length < size }
  | .int => Int32
  | .u16 => UInt16
  | .bool => Bool
  | .loglevel => LogLevel

/-- The values of a setting. -/
abbrev Setting.Value (s : Setting) : Type := s.row.type.Carrier s.row.size

/-- `ps_config_t` -/
abbrev PsConfig : Type := (s : Setting) → s.Value

/-- `strcasecmp(…) == 0` -/
def strcaseEq (left right : Bytes) : Bool := left.map toLower = right.map toLower

/-- `parse_bool` -/
def parseBool (v : Bytes) : Option Bool :=
  if strcaseEq v (ascii "true") || strcaseEq v (ascii "yes") || v = ascii "1" ||
      strcaseEq v (ascii "on") then some true
  else if strcaseEq v (ascii "false") || strcaseEq v (ascii "no") || v = ascii "0" ||
      strcaseEq v (ascii "off") then some false
  else none

/-- `parse_long`; a `long` has 64 bits. -/
def parseLong (v : Bytes) : Option Int :=
  if v = [] then none
  else
    let read := strtoll v
    if read.erange || !read.converted || read.rest ≠ [] then none else some read.value

/-- `LEVEL_NAMES`, with the level each name stands for. -/
def levelNames : List (LogLevel × String) :=
  [(.trace, "TRACE"), (.debug, "DEBUG"), (.info, "INFO"), (.warn, "WARN"), (.error, "ERROR")]

/-- `ps_log_level_from_string` -/
def psLogLevelFromString (name : Bytes) : Option LogLevel :=
  (levelNames.find? fun level => strcaseEq name (ascii level.2)).map Prod.fst

/-- The switch of `apply_value`: the value that a field of some type and size gets from a text. -/
def readValue (name : Bytes) (size : Nat) : (type : PsType) → Bytes →
    Except Bytes (type.Carrier size)
  | .str, value | .path, value =>
    if fits : value.length < size then .ok ⟨value, fits⟩
    else .error (name ++ ascii ": value too long (max " ++ natDigits (size - 1) ++ ascii " bytes)")
  | .int, value =>
    match parseLong value with
    | some n =>
      if n < -2 ^ 31 ∨ 2 ^ 31 - 1 < n then
        .error (name ++ ascii ": not a valid integer: '" ++ value ++ ascii "'")
      else .ok (Int32.ofInt n)
    | none => .error (name ++ ascii ": not a valid integer: '" ++ value ++ ascii "'")
  | .u16, value =>
    match parseLong value with
    | some n =>
      if n < 1 ∨ 65535 < n then
        .error (name ++ ascii ": not a valid port (1-65535): '" ++ value ++ ascii "'")
      else .ok (UInt16.ofInt n)
    | none => .error (name ++ ascii ": not a valid port (1-65535): '" ++ value ++ ascii "'")
  | .bool, value =>
    match parseBool value with
    | some b => .ok b
    | none => .error (name ++ ascii ": not a boolean: '" ++ value ++ ascii "'")
  | .loglevel, value =>
    match psLogLevelFromString value with
    | some level => .ok level
    | none =>
      .error (name ++ ascii ": unknown level '" ++ value ++
        ascii "' (TRACE|DEBUG|INFO|WARN|ERROR)")

/-- What a text assigned to a setting is read as. -/
def Setting.read (s : Setting) (value : Bytes) : Except Bytes s.Value :=
  readValue (ascii s.row.key) s.row.size s.row.type value

/-- `apply_value` -/
def applyValue (cfg : PsConfig) (s : Setting) (value : Bytes) : Except Bytes PsConfig := do
  let read ← s.read value
  return Function.update cfg s read

/-- `trim` -/
def trim (s : Bytes) : Bytes := (s.dropWhile isSpace).rdropWhile isSpace

/-- `find_by_key` -/
def findByKey (key : Bytes) : Option Setting := settings.find? fun s => ascii s.row.key = key

/-- The place that an error of a file names. -/
def place (path : Bytes) (lineno : Nat) : Bytes :=
  path ++ ascii ":" ++ natDigits lineno ++ ascii ": "

/-- The body of the loop of `load_file` up to `apply_value`: the setting that a line assigns to and
the text it assigns, or nothing. -/
def readLine (path : Bytes) (lineno : Nat) (line : Bytes) :
    Except Bytes (Option (Setting × Bytes)) :=
  let p := trim (cString line)
  if p = [] ∨ p.head? = some 35 ∨ p.head? = some 59 then .ok none
  else if 61 ∈ p then
    let key := trim (p.takeWhile (· ≠ 61))
    let value := trim (p.dropWhile (· ≠ 61)).tail
    match findByKey key with
    | none => .error (place path lineno ++ ascii "unknown setting '" ++ key ++ ascii "'")
    | some s =>
      if s.row.envOnly then
        .error (place path lineno ++ ascii "'" ++ key ++
          ascii "' must come from the environment, never a config file (set " ++ ascii s.row.env ++
          ascii " instead)")
      else .ok (some (s, value))
  else .error (place path lineno ++ ascii "expected key=value")

/-- What the calls of `fgets` with a buffer of `room + 1` bytes return one after the other: a piece
ends with its newline, with the file, or when the buffer is full. -/
def fgetsAll (room : Nat) : (line content : Bytes) → List Bytes
  | line, [] => if line = [] then [] else [line]
  | line, c :: content =>
    if c = 10 ∨ line.length + 1 = room then (line ++ [c]) :: fgetsAll room [] content
    else fgetsAll room (line ++ [c]) content

/-- A configuration file: its content, and what `strerror` says when it cannot be opened, or when
reading it ends with an error. -/
structure ConfigFile where
  path : Bytes
  openFailure : Option Bytes := none
  content : Bytes
  readFailure : Option Bytes := none

/-- One turn of the loop of `load_file`. -/
def loadLine (path : Bytes) (cfg : PsConfig) (line : Bytes × Nat) : Except Bytes PsConfig := do
  match ← readLine path line.2 line.1 with
  | none => return cfg
  | some (s, value) => applyValue cfg s value

/-- The pieces of a file, with the line numbers that `load_file` gives them. -/
def ConfigFile.lines (file : ConfigFile) : List (Bytes × Nat) :=
  (fgetsAll 1023 [] file.content).zipIdx 1

/-- `load_file` -/
def loadFile (cfg : PsConfig) (file : ConfigFile) : Except Bytes PsConfig :=
  match file.openFailure with
  | some reason =>
    .error (ascii "cannot open config file '" ++ file.path ++ ascii "': " ++ reason)
  | none => do
    let cfg ← file.lines.foldlM (loadLine file.path) cfg
    match file.readFailure with
    | some reason => .error (ascii "error reading '" ++ file.path ++ ascii "': " ++ reason)
    | none => return cfg

/-- `memset(cfg, 0, sizeof *cfg)`; no field of a row is of size zero. -/
def zeroed : PsConfig := fun s => zero s.row.type s.row.size (by cases s <;> decide)
where
  /-- The value whose bytes are zero. -/
  zero : (type : PsType) → (size : Nat) → 0 < size → type.Carrier size
    | .str, _, room | .path, _, room => ⟨[], room⟩
    | .int, _, _ => (0 : Int32)
    | .u16, _, _ => (0 : UInt16)
    | .bool, _, _ => false
    | .loglevel, _, _ => LogLevel.trace

/-- One turn of the loop over the environment in `ps_config_load`. -/
def loadVariable (getenv : Bytes → Option Bytes) (cfg : PsConfig) (s : Setting) :
    Except Bytes PsConfig :=
  match getenv (ascii s.row.env) with
  | some v => if v ≠ [] then applyValue cfg s v else .ok cfg
  | none => .ok cfg

/-- The checks of `ps_config_validate`, each with its error. -/
def checks (cfg : PsConfig) : List (Bool × Bytes) :=
  let secret : { text : Bytes // text.length < secretMax } := cfg .jwtSecret
  let origins : { text : Bytes // text.length < strMax } := cfg .corsAllowedOrigins
  let int (n : Int32) : Int := n.toInt
  let absolute := int (cfg .refreshAbsoluteTtlS)
  let idle := int (cfg .refreshIdleTtlS)
  let iterations := int (cfg .kdfIterations)
  let shortest := int (cfg .passwordMinLength)
  let longest := int (cfg .passwordMaxLength)
  let credentials : Bool := cfg .corsAllowCredentials
  [(secret.1 = [],
      ascii ("PS_JWT_SECRET is not set. Generate one with: " ++
        "export PS_JWT_SECRET=\"$(openssl rand -base64 48)\"")),
    (secret.1.length < jwtSecretMin,
      ascii "PS_JWT_SECRET is " ++ natDigits secret.1.length ++ ascii " bytes; minimum is " ++
        natDigits jwtSecretMin),
    (int (cfg .accessTokenTtlS) ≤ 0, ascii "auth.access_token_ttl_s must be positive"),
    (absolute < idle,
      ascii "auth.refresh_absolute_ttl_s (" ++ intDigits absolute ++
        ascii ") must be >= auth.refresh_idle_ttl_s (" ++ intDigits idle ++
        ascii "), otherwise the absolute cap could never be reached"),
    (iterations < 1000,
      ascii "auth.kdf_iterations is " ++ intDigits iterations ++
        ascii "; refusing anything below 1000"),
    (shortest < 8 || longest < shortest,
      ascii "password length bounds are invalid (min=" ++ intDigits shortest ++ ascii " max=" ++
        intDigits longest ++ ascii ")"),
    (int (cfg .lockoutThreshold) < 1, ascii "auth.lockout_threshold must be at least 1"),
    (int (cfg .maintenanceBatchSize) < 1, ascii "maintenance.batch_size must be at least 1"),
    (int (cfg .ratelimitMaxEntries) < 1,
      ascii ("ratelimit.max_entries must be at least 1; an unbounded limiter is a " ++
        "memory-exhaustion vector (plan R18)")),
    (int (cfg .maxBodyBytes) < 1 || int (cfg .maxHeaderBytes) < 1 ||
        int (cfg .maxRequestLineBytes) < 1 || int (cfg .maxHeaderCount) < 1,
      ascii "http limits must all be positive"),
    (credentials && corsOriginsContainsWildcard origins.1,
      ascii ("cors.allowed_origins contains '*' with cors.allow_credentials=true; refusing to " ++
        "start (plan 7.2a) -- a wildcard origin combined with credentials is a cross-origin " ++
        "credential leak, not merely discouraged"))]

/-- `ps_config_validate` -/
def psConfigValidate (cfg : PsConfig) : Except Bytes Unit :=
  match (checks cfg).find? Prod.fst with
  | some (_, err) => .error err
  | none => .ok ()

/-- `ps_config_load` -/
def psConfigLoad (file : Option ConfigFile) (getenv : Bytes → Option Bytes) :
    Except Bytes PsConfig := do
  let cfg ← settings.foldlM (fun cfg s => applyValue cfg s (ascii s.row.dflt)) zeroed
  let cfg ← match file with
    | none => pure cfg
    | some file => loadFile cfg file
  let cfg ← settings.foldlM (loadVariable getenv) cfg
  psConfigValidate cfg
  return cfg

end PlatformService.Settings
