import Mathlib.Algebra.Order.Floor.Ring
import Mathlib.Data.Int.Log
import Mathlib.Data.Rat.Floor
import Mathlib.Tactic.FieldSimp
import Mathlib.Tactic.Linarith
import Mathlib.Tactic.Positivity
import Mathlib.Tactic.Ring

/-!
# IEEE 754 double precision

A finite double is a canonical pair of a 53-bit mantissa and a binary exponent,
with its sign; the range of the format is part of the type. Rounding takes an
exact nonnegative rational to the nearest double, ties to even, so a function
that is specified as correctly rounded is `Binary64.round` of its exact result.
`value_round_of_exact` says when nothing is lost, and integers up to `2 ^ 53` are
the instance that counters and time stamps use.
-/

namespace PlatformService.Lib

/-- The nearest integer, ties to the even one. -/
def roundHalfEven (q : ℚ) : Int :=
  if q - ⌊q⌋ < 1 / 2 then ⌊q⌋
  else if 1 / 2 < q - ⌊q⌋ then ⌊q⌋ + 1
  else if ⌊q⌋ % 2 = 0 then ⌊q⌋ else ⌊q⌋ + 1

/-- Rounding stays above every integer bound below. -/
theorem le_roundHalfEven {q : ℚ} {k : Int} (bound : (k : ℚ) ≤ q) : k ≤ roundHalfEven q := by
  have low : k ≤ ⌊q⌋ := Int.le_floor.mpr bound
  unfold roundHalfEven
  split_ifs <;> omega

/-- Rounding stays below every integer bound above. -/
theorem roundHalfEven_le {q : ℚ} {k : Int} (bound : q ≤ k) : roundHalfEven q ≤ k := by
  have below := Int.floor_le q
  have high : ⌊q⌋ ≤ k := by exact_mod_cast below.trans bound
  rcases high.lt_or_eq with strict | exact
  · unfold roundHalfEven
    split_ifs <;> omega
  · have whole : q - ⌊q⌋ < 1 / 2 := by
      rw [exact]
      linarith
    unfold roundHalfEven
    rw [if_pos whole, exact]

/-- An integer rounds to itself. -/
theorem roundHalfEven_intCast (k : Int) : roundHalfEven (k : ℚ) = k :=
  le_antisymm (roundHalfEven_le le_rfl) (le_roundHalfEven le_rfl)

/-- A finite double in canonical form: the mantissa has its top bit set unless the exponent is
already the least one. -/
structure Binary64.Finite where
  negative : Bool
  mantissa : Nat
  exponent : Int
  mantissa_lt : mantissa < 2 ^ 53
  exponent_ge : -1074 ≤ exponent
  exponent_le : exponent ≤ 971
  canonical : exponent = -1074 ∨ 2 ^ 52 ≤ mantissa
  deriving DecidableEq

/-- A double that is not a NaN. -/
inductive Binary64 where
  | finite (number : Binary64.Finite)
  | infinite (negative : Bool)
  deriving DecidableEq

namespace Binary64

/-- The number a finite double denotes, without its sign. -/
def Finite.magnitude (number : Finite) : ℚ := number.mantissa * 2 ^ number.exponent

/-- The number a finite double denotes. -/
def Finite.value (number : Finite) : ℚ :=
  if number.negative then -number.magnitude else number.magnitude

/-- The exponent of the last mantissa bit of the double nearest to a number. -/
def lastBit (q : ℚ) : Int := if q = 0 then -1074 else max (-1074) (Int.log 2 q - 52)

/-- A number in units of its last bit, rounded. -/
def units (q : ℚ) : Nat := (roundHalfEven (q / 2 ^ lastBit q)).toNat

/-- The last bit is never below the least exponent. -/
theorem lastBit_ge (q : ℚ) : -1074 ≤ lastBit q := by
  unfold lastBit
  split
  · exact le_rfl
  · exact le_max_left _ _

/-- The last bit has a positive weight. -/
theorem weight_pos (q : ℚ) : (0 : ℚ) < 2 ^ lastBit q := zpow_pos two_pos _

/-- A number has at most 53 bits in units of its last bit. -/
theorem div_lastBit_lt {q : ℚ} (nonneg : 0 ≤ q) : q / 2 ^ lastBit q < 2 ^ 53 := by
  rw [div_lt_iff₀ (weight_pos q)]
  rcases nonneg.eq_or_lt with rfl | positive
  · exact mul_pos (by norm_num) (weight_pos 0)
  · have upper := Int.lt_zpow_succ_log_self (b := 2) (by decide) q
    refine lt_of_lt_of_le upper ?_
    have split : (2 : ℚ) ^ 53 * 2 ^ lastBit q = 2 ^ (53 + lastBit q) := by
      rw [zpow_add₀ (by norm_num)]
      norm_num
    rw [split]
    refine zpow_le_zpow_right₀ (by norm_num) ?_
    have bound : Int.log 2 q - 52 ≤ lastBit q := by
      unfold lastBit
      rw [if_neg positive.ne']
      exact le_max_right _ _
    omega

/-- Above the least exponent a number has 53 bits in units of its last bit. -/
theorem le_div_lastBit {q : ℚ} (nonneg : 0 ≤ q) (above : lastBit q ≠ -1074) :
    (2 : ℚ) ^ 52 ≤ q / 2 ^ lastBit q := by
  rw [le_div_iff₀ (weight_pos q)]
  have nonzero : q ≠ 0 := by
    rintro rfl
    exact above (by simp [lastBit])
  have positive : 0 < q := lt_of_le_of_ne nonneg nonzero.symm
  have exponent : lastBit q = Int.log 2 q - 52 := by
    unfold lastBit at above ⊢
    rw [if_neg nonzero] at above ⊢
    omega
  have lower := Int.zpow_log_le_self (b := 2) (by decide) positive
  have split : (2 : ℚ) ^ 52 * 2 ^ lastBit q = 2 ^ Int.log 2 q := by
    rw [exponent, zpow_sub₀ (by norm_num)]
    field_simp
  rw [split]
  exact_mod_cast lower

/-- Rounding to the last bit may carry, but no further than `2 ^ 53`. -/
theorem units_le {q : ℚ} (nonneg : 0 ≤ q) : units q ≤ 2 ^ 53 := by
  have bound : roundHalfEven (q / 2 ^ lastBit q) ≤ (2 ^ 53 : Int) :=
    roundHalfEven_le (by exact_mod_cast (div_lastBit_lt nonneg).le)
  unfold units
  omega

/-- Above the least exponent the rounded mantissa has its top bit set. -/
theorem le_units {q : ℚ} (nonneg : 0 ≤ q) (above : lastBit q ≠ -1074) : 2 ^ 52 ≤ units q := by
  have bound : (2 ^ 52 : Int) ≤ roundHalfEven (q / 2 ^ lastBit q) :=
    le_roundHalfEven (by exact_mod_cast le_div_lastBit nonneg above)
  unfold units
  omega

/-- The double nearest to a nonnegative number, with the given sign. -/
def round (negative : Bool) (q : ℚ) (nonneg : 0 ≤ q) : Binary64 :=
  if carried : units q = 2 ^ 53 then
    if fits : lastBit q + 1 ≤ 971 then
      .finite ⟨negative, 2 ^ 52, lastBit q + 1, by norm_num, by have := lastBit_ge q; omega, fits,
        Or.inr le_rfl⟩
    else .infinite negative
  else if fits : lastBit q ≤ 971 then
    .finite ⟨negative, units q, lastBit q, lt_of_le_of_ne (units_le nonneg) carried, lastBit_ge q,
      fits, or_iff_not_imp_left.mpr (le_units nonneg)⟩
  else .infinite negative

/-- A number that is whole in units of its last bit, and in range, is its own double. -/
theorem value_round_of_exact {q : ℚ} (nonneg : 0 ≤ q) (negative : Bool) {k : Nat}
    (whole : q / 2 ^ lastBit q = k) (fits : lastBit q ≤ 971) :
    ∃ number : Finite, round negative q nonneg = .finite number ∧
      number.negative = negative ∧ number.magnitude = q := by
  have rounded : units q = k := by
    have cast : ((k : Int) : ℚ) = q / 2 ^ lastBit q := by
      rw [whole]
      norm_cast
    unfold units
    rw [← cast, roundHalfEven_intCast]
    exact Int.toNat_natCast k
  have below : k < 2 ^ 53 := by
    have bound := div_lastBit_lt nonneg
    rw [whole] at bound
    exact_mod_cast bound
  have uncarried : units q ≠ 2 ^ 53 := by omega
  refine ⟨⟨negative, units q, lastBit q, lt_of_le_of_ne (units_le nonneg) uncarried, lastBit_ge q,
    fits, or_iff_not_imp_left.mpr (le_units nonneg)⟩, ?_, rfl, ?_⟩
  · unfold round
    rw [dif_neg uncarried, dif_pos fits]
  · have units_eq : ((units q : Nat) : ℚ) = q / 2 ^ lastBit q := by rw [rounded, whole]
    change ((units q : Nat) : ℚ) * 2 ^ lastBit q = q
    rw [units_eq]
    exact div_mul_cancel₀ q (weight_pos q).ne'

/-- Natural numbers of at most 53 bits are whole in units of their last bit. -/
theorem natCast_div_lastBit {n : Nat} (small : n ≤ 2 ^ 53) :
    lastBit (n : ℚ) ≤ 971 ∧ ∃ k : Nat, (n : ℚ) / 2 ^ lastBit (n : ℚ) = k := by
  rcases Nat.eq_zero_or_pos n with rfl | positive
  · exact ⟨by simp [lastBit], 0, by simp⟩
  · have nonzero : (n : ℚ) ≠ 0 := by positivity
    have logBound : Nat.log 2 n ≤ 53 := by
      have mono := Nat.log_mono_right (b := 2) small
      rwa [Nat.log_pow (by decide)] at mono
    have exponent : lastBit (n : ℚ) = (Nat.log 2 n : Int) - 52 := by
      unfold lastBit
      rw [if_neg nonzero, Int.log_natCast]
      omega
    refine ⟨by omega, ?_⟩
    rw [exponent]
    rcases Nat.lt_or_ge n (2 ^ 53) with strict | full
    · have logLt : Nat.log 2 n < 53 := Nat.log_lt_of_lt_pow positive.ne' strict
      refine ⟨n * 2 ^ (52 - Nat.log 2 n), ?_⟩
      have flip : ((Nat.log 2 n : Int) - 52) = -((52 - Nat.log 2 n : Nat) : Int) := by omega
      rw [flip, zpow_neg, zpow_natCast]
      push_cast
      field_simp
    · obtain rfl : n = 2 ^ 53 := le_antisymm small full
      refine ⟨2 ^ 52, ?_⟩
      rw [Nat.log_pow (by decide)]
      norm_num

/-- Natural numbers up to `2 ^ 53` are exact doubles. -/
theorem value_round_natCast {n : Nat} (small : n ≤ 2 ^ 53) (negative : Bool)
    (nonneg : (0 : ℚ) ≤ n) :
    ∃ number : Finite, round negative (n : ℚ) nonneg = .finite number ∧
      number.negative = negative ∧ number.magnitude = n :=
  let ⟨fits, _, whole⟩ := natCast_div_lastBit small
  value_round_of_exact nonneg negative whole fits

/-- The double nearest to an integer. -/
def ofInt (n : Int) : Binary64 := round (decide (n < 0)) (n.natAbs : ℚ) (by positivity)

/-- Integers of magnitude at most `2 ^ 53` are exact doubles. -/
theorem value_ofInt {n : Int} (small : n.natAbs ≤ 2 ^ 53) :
    ∃ number : Finite, ofInt n = .finite number ∧ number.value = n := by
  obtain ⟨number, rounded, sign, magnitude⟩ :=
    value_round_natCast small (decide (n < 0)) (by positivity)
  refine ⟨number, rounded, ?_⟩
  unfold Finite.value
  rw [sign, magnitude]
  by_cases negative : n < 0
  · rw [if_pos (by simpa using negative)]
    obtain ⟨m, rfl⟩ : ∃ m : Nat, n = -m := ⟨n.natAbs, by omega⟩
    simp
  · rw [if_neg (by simpa using negative)]
    obtain ⟨m, rfl⟩ : ∃ m : Nat, n = m := ⟨n.natAbs, by omega⟩
    simp

/-- Conversion to a 64-bit integer: truncation toward zero. Out of range the C conversion is
undefined; the value is then the one x86-64 produces. -/
def toInt64 : Binary64 → Int
  | .finite number =>
    let whole := if number.negative then -⌊number.magnitude⌋ else ⌊number.magnitude⌋
    if -2 ^ 63 ≤ whole ∧ whole < 2 ^ 63 then whole else -2 ^ 63
  | .infinite _ => -2 ^ 63

/-- A double that denotes an integer in range converts to it. -/
theorem toInt64_of_value {number : Finite} {n : Int} (denotes : number.value = n)
    (range : -2 ^ 63 ≤ n ∧ n < 2 ^ 63) : toInt64 (.finite number) = n := by
  have whole : (if number.negative then -⌊number.magnitude⌋ else ⌊number.magnitude⌋) = n := by
    unfold Finite.value at denotes
    split at denotes
    · rename_i negative
      have cast : number.magnitude = ((-n : Int) : ℚ) := by
        push_cast
        linarith
      rw [if_pos negative, cast, Int.floor_intCast]
      omega
    · rename_i positive
      rw [if_neg positive, denotes, Int.floor_intCast]
  simp only [toInt64]
  rw [whole, if_pos range]

end Binary64

end PlatformService.Lib
