import PlatformService.Api.Common
import PlatformService.Platform.ConfigLoad

/-!
# The integers that requests derive from the configuration

`dev_relaxed_count` of `auth_api.c` and the timeout that `read_more` of `conn.c` gives to
`poll`, in C `int`s: a product that an `int` does not hold is undefined. The settings are
those of a loaded configuration, which the handlers read as a `Config`.
-/

namespace PlatformService.Api

open Settings

/-- The settings of a loaded configuration that the handlers read. -/
def configOf (cfg : PsConfig) : Config where
  devMode := cfg .devMode
  accessTokenTtlS := Int32.toInt (cfg .accessTokenTtlS)
  refreshIdleTtlS := Int32.toInt (cfg .refreshIdleTtlS)
  refreshAbsoluteTtlS := Int32.toInt (cfg .refreshAbsoluteTtlS)
  verificationTtlS := Int32.toInt (cfg .verificationTtlS)
  kdfIterations := Int32.toInt (cfg .kdfIterations)
  lockoutThreshold := Int32.toInt (cfg .lockoutThreshold)
  lockoutDurationS := Int32.toInt (cfg .lockoutDurationS)
  passwordMinLength := Int32.toInt (cfg .passwordMinLength)
  passwordMaxLength := Int32.toInt (cfg .passwordMaxLength)
  jwtIssuer := (show { text : Bytes // text.length < Http.strMax } from cfg .jwtIssuer).1
  jwtAudience := (show { text : Bytes // text.length < Http.strMax } from cfg .jwtAudience).1
  jwtSecret := (show { text : Bytes // text.length < secretMax } from cfg .jwtSecret).1
  maintenanceBatchSize := (Int32.toInt (cfg .maintenanceBatchSize)).toNat
  auditRetentionDays := Int32.toInt (cfg .auditRetentionDays)
  ratelimitLoginPerMinute := Int32.toInt (cfg .ratelimitLoginPerMinute)
  ratelimitLoginUsernamePerMinute := Int32.toInt (cfg .ratelimitLoginUsernamePerMinute)
  ratelimitRegisterPerMinute := Int32.toInt (cfg .ratelimitRegisterPerMinute)
  ratelimitRegisterGlobalPerMinute := Int32.toInt (cfg .ratelimitRegisterGlobalPerMinute)
  resendMinIntervalS := Int32.toInt (cfg .resendMinIntervalS)
  resendMaxPerDay := Int32.toInt (cfg .resendMaxPerDay)

/-- A product of type `int`; overflow is undefined. -/
def mulInt (left right : Int) : Option Int :=
  if -2 ^ 31 ≤ left * right ∧ left * right < 2 ^ 31 then some (left * right) else none

/-- `PS_DEV_MODE_RATE_MULTIPLIER` -/
def devModeRateMultiplier : Int := 20

/-- `dev_relaxed_count`, as an `int`. -/
def devRelaxedCountInt (cfg : PsConfig) (configured : Int32) : Option Int :=
  let devMode : Bool := cfg .devMode
  if devMode then mulInt configured.toInt devModeRateMultiplier else some configured.toInt

/-- The budgets that a request is checked against. -/
inductive Budget where
  | login
  | loginUsername
  | register
  | registerGlobal
  | resend
  deriving DecidableEq, Repr

/-- The setting of a budget. -/
def Budget.configured (cfg : PsConfig) : Budget → Int32
  | .login => cfg .ratelimitLoginPerMinute
  | .loginUsername => cfg .ratelimitLoginUsernamePerMinute
  | .register => cfg .ratelimitRegisterPerMinute
  | .registerGlobal => cfg .ratelimitRegisterGlobalPerMinute
  | .resend => cfg .resendMaxPerDay

/-- The timeout in milliseconds that `read_more` gives to `poll`. -/
def pollTimeoutMs (timeoutS : Int32) : Option Int := mulInt timeoutS.toInt 1000

end PlatformService.Api
