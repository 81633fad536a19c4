import PlatformService.Lib.Bytes

/-!
# Configuration

`ps_config_t`, restricted to the settings that the modelled code reads. Integer
settings are C `int`s.
-/

namespace PlatformService

/-- `ps_config_t` -/
structure Config where
  devMode : Bool
  accessTokenTtlS : Int
  refreshIdleTtlS : Int
  refreshAbsoluteTtlS : Int
  verificationTtlS : Int
  kdfIterations : Int
  lockoutThreshold : Int
  lockoutDurationS : Int
  passwordMinLength : Int
  passwordMaxLength : Int
  jwtIssuer : Bytes
  jwtAudience : Bytes
  jwtSecret : Bytes
  maintenanceBatchSize : Nat
  auditRetentionDays : Int
  ratelimitLoginPerMinute : Int
  ratelimitLoginUsernamePerMinute : Int
  ratelimitRegisterPerMinute : Int
  ratelimitRegisterGlobalPerMinute : Int
  resendMinIntervalS : Int
  resendMaxPerDay : Int
  deriving DecidableEq, Repr

end PlatformService
