import PlatformService.Api.DerivedInts

/-!
# When the derived integers are exact

Loading a configuration bounds no budget and no timeout from above, so the products that
requests derive from them can leave the range of an `int`. They do not exactly when the
settings that are multiplied are small enough.
-/

namespace PlatformService.Verif.DerivedInts

open Settings Api

/-- The integers derived from a configuration are the mathematical ones, a budget of the dev mode is
not smaller than the configured one, and a positive timeout stays positive. -/
structure Exact (cfg : PsConfig) : Prop where
  budgets : ∀ budget : Budget, devRelaxedCountInt cfg (budget.configured cfg) =
    some (devRelaxedCount (configOf cfg) (budget.configured cfg).toInt)
  relaxed : ∀ (budget : Budget) (count : Int),
    devRelaxedCountInt cfg (budget.configured cfg) = some count →
      (budget.configured cfg).toInt ≤ count
  timeout : pollTimeoutMs (cfg .readTimeoutS) = some (Int32.toInt (cfg .readTimeoutS) * 1000)
  positive : ∀ ms, 0 < Int32.toInt (cfg .readTimeoutS) →
    pollTimeoutMs (cfg .readTimeoutS) = some ms → 0 < ms

/-- The multiplied settings are small enough, and in dev mode no budget is negative. -/
structure Small (cfg : PsConfig) : Prop where
  budgets : (configOf cfg).devMode = true → ∀ budget : Budget,
    0 ≤ (budget.configured cfg).toInt ∧ (budget.configured cfg).toInt ≤ 107374182
  timeout : -2147483 ≤ Int32.toInt (cfg .readTimeoutS) ∧
    Int32.toInt (cfg .readTimeoutS) ≤ 2147483

/-- A product is an `int` when it is in range. -/
theorem mulInt_eq_some_iff {left right product : Int} :
    mulInt left right = some product ↔
      product = left * right ∧ -2147483648 ≤ left * right ∧ left * right ≤ 2147483647 := by
  unfold mulInt
  by_cases fits : -2 ^ 31 ≤ left * right ∧ left * right < 2 ^ 31
  · rw [if_pos fits, Option.some.injEq]
    omega
  · rw [if_neg fits]
    constructor
    · intro none
      contradiction
    · rintro ⟨-, bounds⟩
      omega

/-- Outside the dev mode a budget is the configured one. -/
theorem devRelaxedCountInt_of_production {cfg : PsConfig}
    (production : (configOf cfg).devMode = false) (configured : Int32) :
    devRelaxedCountInt cfg configured = some configured.toInt ∧
      devRelaxedCount (configOf cfg) configured.toInt = configured.toInt := by
  have mode : (cfg .devMode : Bool) = false := production
  unfold devRelaxedCountInt devRelaxedCount
  rw [production, mode]
  exact ⟨rfl, rfl⟩

/-- In dev mode a budget is a product. -/
theorem devRelaxedCountInt_of_dev {cfg : PsConfig} (dev : (configOf cfg).devMode = true)
    (configured : Int32) :
    devRelaxedCountInt cfg configured = mulInt configured.toInt 20 ∧
      devRelaxedCount (configOf cfg) configured.toInt = configured.toInt * 20 := by
  have mode : (cfg .devMode : Bool) = true := dev
  unfold devRelaxedCountInt devRelaxedCount
  rw [dev, mode]
  exact ⟨rfl, rfl⟩

/-- The derived integers are exact exactly when the multiplied settings are small enough. -/
theorem derived_integers_exact_iff (cfg : PsConfig) : Exact cfg ↔ Small cfg := by
  constructor
  · intro derived
    constructor
    · intro dev budget
      obtain ⟨product, whole⟩ := devRelaxedCountInt_of_dev dev (budget.configured cfg)
      have count := derived.budgets budget
      have relaxed := derived.relaxed budget _ count
      rw [product, mulInt_eq_some_iff] at count
      rw [whole] at relaxed
      omega
    · have timeout := derived.timeout
      unfold pollTimeoutMs at timeout
      rw [mulInt_eq_some_iff] at timeout
      omega
  · intro small
    have range := small.timeout
    have timeout : pollTimeoutMs (cfg .readTimeoutS) =
        some (Int32.toInt (cfg .readTimeoutS) * 1000) :=
      mulInt_eq_some_iff.mpr ⟨rfl, by omega, by omega⟩
    have count : ∀ budget : Budget, devRelaxedCountInt cfg (budget.configured cfg) =
        some (devRelaxedCount (configOf cfg) (budget.configured cfg).toInt) ∧
          (budget.configured cfg).toInt ≤
            devRelaxedCount (configOf cfg) (budget.configured cfg).toInt := by
      intro budget
      cases mode : (configOf cfg).devMode with
      | false =>
        obtain ⟨product, whole⟩ :=
          devRelaxedCountInt_of_production mode (budget.configured cfg)
        rw [product, whole]
        exact ⟨rfl, Int.le_refl _⟩
      | true =>
        have bounds := small.budgets mode budget
        obtain ⟨product, whole⟩ := devRelaxedCountInt_of_dev mode (budget.configured cfg)
        rw [product, whole, mulInt_eq_some_iff]
        omega
    constructor
    · exact fun budget => (count budget).1
    · intro budget product found
      have value := (count budget).1
      rw [found, Option.some.injEq] at value
      rw [value]
      exact (count budget).2
    · exact timeout
    · intro ms positive found
      rw [timeout, Option.some.injEq] at found
      omega

/-- An environment of the dev mode with a generous budget for logins. -/
def generousDev : Bytes → Option Bytes := fun name =>
  if name = ascii "PS_JWT_SECRET" then some (ascii "0123456789abcdef0123456789abcdef")
  else if name = ascii "PS_DEV_MODE" then some (ascii "true")
  else if name = ascii "PS_RATELIMIT_LOGIN" then some (ascii "200000000")
  else none

/-- The budget for logins of what was loaded. -/
def loginBudgetOf : Except Bytes PsConfig → Option (Option Int)
  | .ok cfg => some (devRelaxedCountInt cfg (Budget.configured cfg .login))
  | .error _ => none

/-- An accepted configuration has a budget whose product overflows. -/
theorem login_budget_overflows : ¬∀ (file : Option ConfigFile) (getenv : Bytes → Option Bytes)
    (cfg : PsConfig), psConfigLoad file getenv = .ok cfg → Exact cfg := by
  intro all
  have overflow : loginBudgetOf (psConfigLoad none generousDev) = some none := by decide +kernel
  have accepted := all none generousDev
  generalize psConfigLoad none generousDev = outcome at overflow accepted
  cases outcome with
  | error reason =>
    have refused : (none : Option (Option Int)) = some none := overflow
    contradiction
  | ok cfg =>
    have count := (accepted cfg rfl).budgets .login
    have lost : devRelaxedCountInt cfg (Budget.configured cfg .login) = none :=
      Option.some.inj overflow
    rw [count] at lost
    contradiction

end PlatformService.Verif.DerivedInts
