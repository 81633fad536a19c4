import Mathlib.Data.Nat.Digits.Defs
import Mathlib.Data.Nat.Digits.Lemmas
import PlatformService.Lib.Binary64
import PlatformService.Lib.Bytes

/-!
# Decimal numerals

The C library's conversions between numbers and decimal text: `%d`, `strtoll`,
`strtod` and `%.17g`, in the C locale. `strtod` rounds the exact decimal value
once; `%.17g` rounds the exact binary value to seventeen significant digits and
drops trailing zeros.
-/

namespace PlatformService.Lib

/-- `isdigit` -/
def isDigit (byte : UInt8) : Bool := 48 ≤ byte && byte ≤ 57

/-- `isspace` -/
def isSpace (byte : UInt8) : Bool := byte = 32 || (9 ≤ byte && byte ≤ 13)

/-- The digit of a value below ten. -/
def digitByte (value : Nat) : UInt8 := (48 + value).toUInt8

/-- The number a digit string denotes. -/
def natOfDigits (digits : Bytes) : Nat :=
  digits.foldl (fun value byte => 10 * value + (byte.toNat - 48)) 0

/-- `%llu`: the decimal digits of a number. -/
def natDigits (n : Nat) : Bytes :=
  if n = 0 then [48] else (Nat.digits 10 n).reverse.map digitByte

/-- `%lld`: the decimal digits of an integer. -/
def intDigits (n : Int) : Bytes :=
  if n < 0 then 45 :: natDigits n.natAbs else natDigits n.natAbs

/-- A value below ten is read back from its digit. -/
theorem digitByte_toNat {value : Nat} (small : value < 10) :
    (digitByte value).toNat = 48 + value := by
  unfold digitByte
  rw [UInt8.toNat_ofNat']
  omega

/-- The digit of a value below ten is a digit. -/
theorem isDigit_digitByte {value : Nat} (small : value < 10) : isDigit (digitByte value) = true := by
  have read := digitByte_toNat small
  simp only [isDigit, Bool.and_eq_true, decide_eq_true_eq, UInt8.le_iff_toNat_le, read]
  constructor
  · simp
  · simp only [UInt8.reduceToNat]
    omega

/-- Only zero's digit is `0`. -/
theorem digitByte_eq_zero {value : Nat} (small : value < 10) (zero : digitByte value = 48) :
    value = 0 := by
  have read := digitByte_toNat small
  rw [zero] at read
  simp at read
  omega

/-- Digit strings are read from the left. -/
theorem natOfDigits_append_singleton (digits : Bytes) (byte : UInt8) :
    natOfDigits (digits ++ [byte]) = 10 * natOfDigits digits + (byte.toNat - 48) := by
  simp [natOfDigits]

/-- Reading the digits of a list of values is evaluating it in base ten. -/
theorem natOfDigits_reverse_map {values : List Nat} (small : ∀ value ∈ values, value < 10) :
    natOfDigits (values.reverse.map digitByte) = Nat.ofDigits 10 values := by
  induction values with
  | nil => rfl
  | cons value values ih =>
    have head : value < 10 := small value List.mem_cons_self
    have tail := ih fun other stored => small other (List.mem_cons_of_mem _ stored)
    rw [List.reverse_cons, List.map_append, List.map_singleton, natOfDigits_append_singleton, tail,
      digitByte_toNat head, Nat.ofDigits_cons]
    omega

/-- A number is read back from its digits. -/
@[simp]
theorem natOfDigits_natDigits (n : Nat) : natOfDigits (natDigits n) = n := by
  unfold natDigits
  split
  · rename_i zero
    rw [zero]
    rfl
  · rw [natOfDigits_reverse_map fun value stored => Nat.digits_lt_base (by decide) stored,
      Nat.ofDigits_digits]

/-- The digits of a number are digits. -/
theorem isDigit_of_mem_natDigits {n : Nat} {byte : UInt8} (stored : byte ∈ natDigits n) :
    isDigit byte = true := by
  unfold natDigits at stored
  split at stored
  · rw [List.mem_singleton] at stored
    rw [stored]
    rfl
  · obtain ⟨value, member, rfl⟩ := List.mem_map.mp stored
    exact isDigit_digitByte (Nat.digits_lt_base (by decide) (List.mem_reverse.mp member))

/-- A byte that is neither the sign nor a digit is not in the text of an integer. -/
theorem byte_not_mem_intDigits {byte : UInt8} (unsigned : byte ≠ 45) (other : isDigit byte = false)
    (n : Int) : byte ∉ intDigits n := by
  have free : byte ∉ natDigits n.natAbs := by
    intro stored
    rw [isDigit_of_mem_natDigits stored] at other
    contradiction
  unfold intDigits
  by_cases negative : n < 0
  · rw [if_pos negative, List.mem_cons, not_or]
    exact ⟨unsigned, free⟩
  · rw [if_neg negative]
    exact free

/-- The digits of a number start with `0` only for zero. -/
theorem natDigits_cases (n : Nat) :
    natDigits n = [48] ∨ ∃ first rest, natDigits n = first :: rest ∧ first ≠ 48 := by
  by_cases zero : n = 0
  · left
    simp [natDigits, zero]
  · right
    have nonempty : Nat.digits 10 n ≠ [] := Nat.digits_ne_nil_iff_ne_zero.mpr zero
    obtain ⟨init, last, split⟩ := List.eq_nil_or_concat (Nat.digits 10 n) |>.resolve_left nonempty
    rw [List.concat_eq_append] at split
    refine ⟨digitByte last, init.reverse.map digitByte, by simp [natDigits, zero, split], ?_⟩
    intro leading
    have small : last < 10 := Nat.digits_lt_base (b := 10) (m := n) (by decide) (by simp [split])
    have top := Nat.getLast_digit_ne_zero 10 zero
    simp only [split, List.getLast_append_singleton] at top
    exact top (digitByte_eq_zero small leading)

/-- What `strtoll(text, &end, 10)` reports: the value, the text from `end` on, whether any digit was
converted and whether `errno` is `ERANGE`. -/
structure Strtoll where
  value : Int
  rest : Bytes
  converted : Bool
  erange : Bool
  deriving DecidableEq, Repr

/-- `strtoll` in base ten: leading space, an optional sign, digits, saturating at the range. -/
def strtoll (text : Bytes) : Strtoll :=
  let body := text.dropWhile isSpace
  let negative := body.head? = some 45
  let digits := if negative || body.head? = some 43 then body.tail else body
  let magnitude : Int := natOfDigits (digits.takeWhile isDigit)
  let exact := if negative then -magnitude else magnitude
  if digits.takeWhile isDigit = [] then ⟨0, text, false, false⟩
  else if exact < -2 ^ 63 then ⟨-2 ^ 63, digits.dropWhile isDigit, true, true⟩
  else if 2 ^ 63 ≤ exact then ⟨2 ^ 63 - 1, digits.dropWhile isDigit, true, true⟩
  else ⟨exact, digits.dropWhile isDigit, true, false⟩

/-- The exact value of a decimal with the given digits before and after the point. -/
def decimalValue (integer fraction : Bytes) (exponent : Int) : ℚ :=
  natOfDigits (integer ++ fraction) * 10 ^ (exponent - fraction.length)

/-- A decimal is never negative. -/
theorem decimalValue_nonneg (integer fraction : Bytes) (exponent : Int) :
    0 ≤ decimalValue integer fraction exponent :=
  mul_nonneg (Nat.cast_nonneg _) (zpow_nonneg (by norm_num) _)

/-- The exponent part of a numeral: its value, or zero when there is none. -/
def exponentPart (text : Bytes) : Int :=
  if text.head? = some 101 ∨ text.head? = some 69 then
    let signed := text.tail
    let digits := if signed.head? = some 45 ∨ signed.head? = some 43 then signed.tail else signed
    let magnitude : Int := natOfDigits (digits.takeWhile isDigit)
    if signed.head? = some 45 then -magnitude else magnitude
  else 0

/-- `strtod` on a text that is a decimal numeral. -/
def strtod (text : Bytes) : Binary64 :=
  let negative := text.head? = some 45
  let unsigned := if negative then text.tail else text
  let integer := unsigned.takeWhile isDigit
  let after := unsigned.dropWhile isDigit
  let fraction := if after.head? = some 46 then after.tail.takeWhile isDigit else []
  let last := if after.head? = some 46 then after.tail.dropWhile isDigit else after
  Binary64.round negative (decimalValue integer fraction (exponentPart last))
    (decimalValue_nonneg _ _ _)

/-- A digit string without its trailing zeros. -/
def stripZeros (digits : Bytes) : Bytes := (digits.reverse.dropWhile (· = 48)).reverse

/-- A decimal point followed by digits, unless there are none. -/
def fractionPart (digits : Bytes) : Bytes := if digits = [] then [] else 46 :: digits

/-- The exponent part `%g` prints: a sign and at least two digits. -/
def formatExponent (exponent : Int) : Bytes :=
  let digits := natDigits exponent.natAbs
  [101, if exponent < 0 then 45 else 43] ++ (if digits.length < 2 then 48 :: digits else digits)

/-- Seventeen significant digits of a positive number and the exponent of the first. -/
def significant (q : ℚ) : Nat × Int :=
  let exponent := Int.log 10 q
  let digits := (roundHalfEven (q / 10 ^ (exponent - 16))).toNat
  if digits = 10 ^ 17 then (10 ^ 16, exponent + 1) else (digits, exponent)

/-- `%.17g` of a nonnegative number. -/
def formatMagnitude (q : ℚ) : Bytes :=
  if q = 0 then [48]
  else
    let digits := natDigits (significant q).1
    let exponent := (significant q).2
    if exponent < -4 ∨ 17 ≤ exponent then
      digits.take 1 ++ fractionPart (stripZeros (digits.drop 1)) ++ formatExponent exponent
    else if exponent < 0 then
      [48] ++ fractionPart (stripZeros (List.replicate (-exponent - 1).toNat 48 ++ digits))
    else
      digits.take (exponent.toNat + 1) ++ fractionPart (stripZeros (digits.drop (exponent.toNat + 1)))

/-- `%.17g` of a finite double. -/
def formatG17 (number : Binary64.Finite) : Bytes :=
  (if number.negative then [45] else []) ++ formatMagnitude number.magnitude

/-- Multiplying by a power of ten appends that many zeros to the digits. -/
theorem natDigits_mul_pow {n : Nat} (positive : 0 < n) (k : Nat) :
    natDigits (n * 10 ^ k) = natDigits n ++ List.replicate k 48 := by
  have scaled : n * 10 ^ k ≠ 0 := by positivity
  unfold natDigits
  rw [if_neg scaled, if_neg positive.ne', Nat.mul_comm, Nat.digits_base_pow_mul (by decide) positive]
  simp [digitByte]

/-- A number with `k + 1` digits has a decimal logarithm of `k`. -/
theorem length_natDigits {n : Nat} (positive : 0 < n) :
    (natDigits n).length = Nat.log 10 n + 1 := by
  unfold natDigits
  rw [if_neg positive.ne', List.length_map, List.length_reverse,
    Nat.length_digits 10 n (by decide) positive.ne']

/-- The significant digits of a number of at most seventeen digits are its own, padded. -/
theorem significant_natCast {n : Nat} (positive : 0 < n) (small : n < 10 ^ 17) :
    significant n = (n * 10 ^ (16 - Nat.log 10 n), (Nat.log 10 n : Int)) := by
  have short : Nat.log 10 n < 17 := Nat.log_lt_of_lt_pow positive.ne' small
  have flip : ((Nat.log 10 n : Int) - 16) = -((16 - Nat.log 10 n : Nat) : Int) := by omega
  have whole : (n : ℚ) / 10 ^ ((Nat.log 10 n : Int) - 16) =
      ((n * 10 ^ (16 - Nat.log 10 n) : Nat) : Int) := by
    rw [flip, zpow_neg, zpow_natCast]
    push_cast
    field_simp
  have below : n * 10 ^ (16 - Nat.log 10 n) < 10 ^ 17 := by
    calc n * 10 ^ (16 - Nat.log 10 n)
        < 10 ^ (Nat.log 10 n + 1) * 10 ^ (16 - Nat.log 10 n) :=
          Nat.mul_lt_mul_of_pos_right (Nat.lt_pow_succ_log_self (by decide) n) (by positivity)
      _ = 10 ^ 17 := by
          rw [← pow_add]
          congr 1
          omega
  unfold significant
  simp only [Int.log_natCast, whole, roundHalfEven_intCast, Int.toNat_natCast]
  rw [if_neg below.ne]

/-- `%.17g` prints a whole number of at most seventeen digits as its digits. -/
theorem formatMagnitude_natCast {n : Nat} (small : n < 10 ^ 17) :
    formatMagnitude (n : ℚ) = natDigits n := by
  rcases Nat.eq_zero_or_pos n with rfl | positive
  · simp [formatMagnitude, natDigits]
  · have nonzero : (n : ℚ) ≠ 0 := by positivity
    have short : Nat.log 10 n < 17 := Nat.log_lt_of_lt_pow positive.ne' small
    have fixed : ¬((Nat.log 10 n : Int) < -4 ∨ 17 ≤ (Nat.log 10 n : Int)) := by omega
    have natural : ¬(Nat.log 10 n : Int) < 0 := by omega
    have size := length_natDigits positive
    unfold formatMagnitude
    rw [if_neg nonzero, significant_natCast positive small]
    simp only [fixed, natural, if_false, Int.toNat_natCast, natDigits_mul_pow positive]
    rw [← size, List.take_left, List.drop_left]
    simp [stripZeros, fractionPart]

end PlatformService.Lib
