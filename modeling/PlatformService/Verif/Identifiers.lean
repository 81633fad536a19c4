import PlatformService.Api.Users
import PlatformService.Http.Request
import PlatformService.Http.Router
import PlatformService.Verif.ClaimsRoundTrip

/-!
# Identifiers in paths and queries

`ps_parse_int64` copies a slice into a buffer, terminates it and asks `strtoll`, which
reads up to the first NUL. What it accepts is therefore decided by the octets before a NUL
in the slice, and the slice is named by its complete text exactly when it has none or
these octets are no numeral.
-/

namespace PlatformService.Verif.Identifiers

open Lib Api.Admin

/-- A text of digits, with at most one sign in front, and the integer it denotes. -/
inductive Denotes : Bytes → Int → Prop where
  | plain {digits : Bytes} (filled : digits ≠ []) (all : ∀ byte ∈ digits, isDigit byte = true) :
      Denotes digits (natOfDigits digits)
  | plus {digits : Bytes} (filled : digits ≠ []) (all : ∀ byte ∈ digits, isDigit byte = true) :
      Denotes (43 :: digits) (natOfDigits digits)
  | minus {digits : Bytes} (filled : digits ≠ []) (all : ∀ byte ∈ digits, isDigit byte = true) :
      Denotes (45 :: digits) (-natOfDigits digits)

/-- A text of at most 31 octets that denotes a 64-bit integer. -/
structure Identifier (text : Bytes) (n : Int) : Prop where
  denotes : Denotes text n
  short : text.length ≤ 31
  low : -2 ^ 63 ≤ n
  high : n < 2 ^ 63

/-- The text behind a sign. -/
def unsigned (text : Bytes) : Bytes :=
  if text.head? = some 45 || text.head? = some 43 then text.tail else text

/-- The integer that a sign and the digits behind it make. -/
def signedValue (text : Bytes) : Int :=
  if text.head? = some 45 then -natOfDigits (unsigned text) else natOfDigits (unsigned text)

/-- A digit is no sign. -/
theorem not_sign_of_isDigit {byte : UInt8} (digit : isDigit byte = true) : byte ≠ 45 ∧ byte ≠ 43 := by
  constructor
  · intro minus
    rw [minus] at digit
    exact absurd digit (by decide)
  · intro plus
    rw [plus] at digit
    exact absurd digit (by decide)

/-- A text without a sign in front is its own digits. -/
theorem unsigned_of_digit {first : UInt8} (digit : isDigit first = true) (rest : Bytes) :
    unsigned (first :: rest) = first :: rest ∧
      signedValue (first :: rest) = natOfDigits (first :: rest) := by
  have signs := not_sign_of_isDigit digit
  unfold signedValue unsigned
  simp [signs.1, signs.2]

/-- A text denotes an integer exactly when digits, one at least, stand behind its sign. -/
theorem denotes_iff {text : Bytes} {n : Int} :
    Denotes text n ↔
      unsigned text ≠ [] ∧ (∀ byte ∈ unsigned text, isDigit byte = true) ∧ signedValue text = n := by
  constructor
  · intro denotes
    cases denotes with
    | plain filled all =>
      cases text with
      | nil => contradiction
      | cons first rest =>
        have same := unsigned_of_digit (all first List.mem_cons_self) rest
        rw [same.1, same.2]
        exact ⟨filled, all, rfl⟩
    | plus filled all => exact ⟨filled, all, rfl⟩
    | minus filled all => exact ⟨filled, all, rfl⟩
  · intro ⟨filled, all, value⟩
    rw [← value]
    cases text with
    | nil => contradiction
    | cons first rest =>
      by_cases minus : first = 45
      · rw [minus] at filled all ⊢
        exact .minus filled all
      by_cases plus : first = 43
      · rw [plus] at filled all ⊢
        exact .plus filled all
      have bare : unsigned (first :: rest) = first :: rest := by
        unfold unsigned
        simp [minus, plus]
      have same : signedValue (first :: rest) = natOfDigits (first :: rest) := by
        unfold signedValue
        rw [bare]
        simp [minus]
      rw [bare] at filled all
      rw [same]
      exact .plain filled all

/-- `strtoll` on a text without space in front, where only digits stand behind the sign. -/
theorem strtoll_of_digits {text : Bytes} (solid : text.head?.any isSpace = false)
    (all : ∀ byte ∈ unsigned text, isDigit byte = true) :
    strtoll text =
      if unsigned text = [] then ⟨0, text, false, false⟩
      else if signedValue text < -2 ^ 63 then ⟨-2 ^ 63, [], true, true⟩
      else if 2 ^ 63 ≤ signedValue text then ⟨2 ^ 63 - 1, [], true, true⟩
      else ⟨signedValue text, [], true, false⟩ := by
  have body : text.dropWhile isSpace = text := by
    cases text with
    | nil => rfl
    | cons first rest => exact List.dropWhile_cons_of_neg (by simpa using solid)
  have taken : (unsigned text).takeWhile isDigit = unsigned text := List.takeWhile_eq_self_iff.mpr all
  have dropped : (unsigned text).dropWhile isDigit = [] := List.dropWhile_eq_nil_iff.mpr all
  have value : (if text.head? = some 45 then -(natOfDigits (unsigned text) : Int)
      else natOfDigits (unsigned text)) = signedValue text := rfl
  unfold strtoll
  rw [body]
  dsimp only
  have digits : (if (decide (text.head? = some 45) || decide (text.head? = some 43)) = true
      then text.tail else text) = unsigned text := rfl
  simp only [digits, taken, dropped, value]

/-- `strtoll` on a text without space in front leaves something, or takes nothing, where something
else than digits stands behind the sign. -/
theorem strtoll_of_other {text : Bytes} (solid : text.head?.any isSpace = false)
    (other : ¬∀ byte ∈ unsigned text, isDigit byte = true) :
    (strtoll text).converted = false ∨ (strtoll text).rest ≠ [] := by
  have body : text.dropWhile isSpace = text := by
    cases text with
    | nil => rfl
    | cons first rest => exact List.dropWhile_cons_of_neg (by simpa using solid)
  have left : (unsigned text).dropWhile isDigit ≠ [] := mt List.dropWhile_eq_nil_iff.mp other
  have digits : (if (decide (text.head? = some 45) || decide (text.head? = some 43)) = true
      then text.tail else text) = unsigned text := rfl
  unfold strtoll
  rw [body]
  dsimp only
  rw [digits]
  by_cases nothing : (unsigned text).takeWhile isDigit = []
  · rw [if_pos nothing]
    exact Or.inl rfl
  rw [if_neg nothing]
  generalize (if text.head? = some 45 then -(natOfDigits ((unsigned text).takeWhile isDigit) : Int)
    else natOfDigits ((unsigned text).takeWhile isDigit)) = exact
  split
  · exact Or.inr left
  split
  · exact Or.inr left
  · exact Or.inr left

/-- The parser accepts exactly the slices in which an identifier stands before the first NUL. -/
theorem parseInt64_eq_some_iff {text : Bytes} {n : Int} :
    parseInt64 text = some n ↔
      text.length ≤ 31 ∧ Denotes (cString text) n ∧ -2 ^ 63 ≤ n ∧ n < 2 ^ 63 := by
  unfold parseInt64
  by_cases bounds : text.length = 0 ∨ 32 ≤ text.length
  · rw [if_pos bounds]
    constructor
    · intro refused
      contradiction
    · intro ⟨short, denotes, _⟩
      have empty : text = [] := List.length_eq_zero_iff.mp (by omega)
      rw [empty, denotes_iff] at denotes
      exact absurd rfl denotes.1
  rw [if_neg bounds]
  dsimp only
  by_cases spaced : (cString text).head?.any isSpace = true
  · rw [if_pos spaced]
    constructor
    · intro refused
      contradiction
    · intro ⟨_, denotes, _⟩
      rw [denotes_iff] at denotes
      cases buf : cString text with
      | nil =>
        rw [buf] at spaced
        contradiction
      | cons first rest =>
        rw [buf] at spaced denotes
        have space : isSpace first = true := by simpa using spaced
        have signs : first ≠ 45 ∧ first ≠ 43 := by
          constructor
          · intro minus
            rw [minus] at space
            exact absurd space (by decide)
          · intro plus
            rw [plus] at space
            exact absurd space (by decide)
        have bare : unsigned (first :: rest) = first :: rest := by
          unfold unsigned
          simp [signs.1, signs.2]
        have digit := denotes.2.1 first (by rw [bare]; exact List.mem_cons_self)
        rw [ClaimsRoundTrip.isSpace_of_isDigit digit] at space
        contradiction
  rw [if_neg spaced]
  have solid : (cString text).head?.any isSpace = false := Bool.eq_false_iff.mpr spaced
  by_cases all : ∀ byte ∈ unsigned (cString text), isDigit byte = true
  · rw [strtoll_of_digits solid all, denotes_iff]
    by_cases empty : unsigned (cString text) = []
    · rw [if_pos empty]
      simp [empty]
    rw [if_neg empty]
    by_cases low : signedValue (cString text) < -2 ^ 63
    · rw [if_pos low]
      simp only [not_true, or_true, if_true, reduceCtorEq, false_iff, not_and]
      intro _ denotes
      omega
    rw [if_neg low]
    by_cases high : 2 ^ 63 ≤ signedValue (cString text)
    · rw [if_pos high]
      simp only [not_true, or_true, if_true, reduceCtorEq, false_iff, not_and]
      intro _ denotes
      omega
    rw [if_neg high]
    simp only [not_true, ne_eq, or_self, Bool.false_eq_true, if_false, Option.some.injEq]
    constructor
    · intro same
      exact ⟨by omega, ⟨empty, all, same⟩, by omega, by omega⟩
    · intro ⟨_, denotes, _⟩
      exact denotes.2.2
  · have stuck := strtoll_of_other solid all
    have refused : ¬(strtoll (cString text)).converted ∨ (strtoll (cString text)).rest ≠ [] ∨
        (strtoll (cString text)).erange := by
      cases stuck with
      | inl nothing => exact Or.inl (by simp [nothing])
      | inr left => exact Or.inr (Or.inl left)
    rw [if_pos refused, denotes_iff]
    simp [all]

/-- A text that denotes an integer has no NUL. -/
theorem free_of_denotes {text : Bytes} {n : Int} (denotes : Denotes text n) : (0 : UInt8) ∉ text := by
  have free : ∀ digits : Bytes, (∀ byte ∈ digits, isDigit byte = true) → (0 : UInt8) ∉ digits :=
    fun digits all stored => absurd (all 0 stored) (by decide)
  cases denotes with
  | plain filled all => exact free _ all
  | plus filled all => exact List.not_mem_cons_of_ne_of_not_mem (by decide) (free _ all)
  | minus filled all => exact List.not_mem_cons_of_ne_of_not_mem (by decide) (free _ all)

/-- A slice names an identifier by its complete text exactly when no NUL ends a shorter one. -/
theorem parseInt64_exact_iff (text : Bytes) :
    (∀ n, parseInt64 text = some n ↔ Identifier text n) ↔
      ¬((0 : UInt8) ∈ text ∧ text.length ≤ 31 ∧ ∃ n, Identifier (cString text) n) := by
  constructor
  · intro exact ⟨cut, short, n, identifier⟩
    have accepted := parseInt64_eq_some_iff.mpr
      ⟨short, identifier.denotes, identifier.low, identifier.high⟩
    exact free_of_denotes ((exact n).mp accepted).denotes cut
  · intro uncut n
    rw [parseInt64_eq_some_iff]
    by_cases free : (0 : UInt8) ∉ text
    · rw [cString_eq_self free]
      constructor
      · intro ⟨short, denotes, low, high⟩
        exact ⟨denotes, short, low, high⟩
      · intro identifier
        exact ⟨identifier.short, identifier.denotes, identifier.low, identifier.high⟩
    · have cut : (0 : UInt8) ∈ text := not_not.mp free
      have shorter : (cString text).length ≤ text.length := (List.takeWhile_prefix _).length_le
      constructor
      · intro ⟨short, denotes, low, high⟩
        exact absurd ⟨cut, short, n, ⟨denotes, by omega, low, high⟩⟩ uncut
      · intro identifier
        exact absurd cut (free_of_denotes identifier.denotes)

/-- A path with a NUL behind a number passes the parser and the router, and the number is read. -/
theorem parseInt64_reads_up_to_nul :
    Http.parse ⟨8192, 16384, 64, 1048576⟩
        (ascii "GET /v1/users/5" ++ 0 :: ascii "x HTTP/1.1\r\n\r\n") =
      .ok { method := ascii "GET"
            path := ascii "/v1/users/5" ++ 0 :: ascii "x"
            query := none
            minorVersion := 1
            headers := []
            body := none } 30 ∧
    Http.routerMatch [⟨ascii "GET", ascii "/v1/users/\x7buserId\x7d", 4⟩] (ascii "GET")
        (ascii "/v1/users/5" ++ 0 :: ascii "x") =
      .matched 4 [⟨ascii "userId", ascii "5" ++ 0 :: ascii "x"⟩] ∧
    parseInt64 (ascii "5" ++ 0 :: ascii "x") = some 5 ∧
    ¬Identifier (ascii "5" ++ 0 :: ascii "x") 5 :=
  ⟨by decide +kernel, by decide +kernel, by decide +kernel, fun identifier =>
    free_of_denotes identifier.denotes (by decide)⟩

/-- A number has digits. -/
theorem natDigits_ne_nil (n : Nat) : natDigits n ≠ [] := by
  cases natDigits_cases n with
  | inl zero => rw [zero]; exact List.cons_ne_nil _ _
  | inr nonzero =>
    obtain ⟨first, rest, opens, _⟩ := nonzero
    rw [opens]
    exact List.cons_ne_nil _ _

/-- A number below a power of ten has few digits. -/
theorem length_natDigits_le {n k : Nat} (small : n < 10 ^ k) (positive : 0 < k) :
    (natDigits n).length ≤ k := by
  unfold natDigits
  by_cases zero : n = 0
  · rw [if_pos zero, List.length_singleton]
    exact positive
  · rw [if_neg zero, List.length_map, List.length_reverse]
    exact (Nat.digits_length_le_iff (by decide) n).mpr small

/-- The digits of a 64-bit integer are an identifier, and are read back. -/
theorem parseInt64_intDigits {n : Int} (low : -2 ^ 63 ≤ n) (high : n < 2 ^ 63) :
    parseInt64 (intDigits n) = some n := by
  have free := ClaimsRoundTrip.zero_not_mem_intDigits n
  have digits : ∀ byte ∈ natDigits n.natAbs, isDigit byte = true := fun byte => isDigit_of_mem_natDigits
  have size : (natDigits n.natAbs).length ≤ 19 := length_natDigits_le (by omega) (by decide)
  have filled : natDigits n.natAbs ≠ [] := natDigits_ne_nil _
  rw [parseInt64_eq_some_iff, cString_eq_self free]
  unfold intDigits
  by_cases negative : n < 0
  · have value : -(natOfDigits (natDigits n.natAbs) : Int) = n := by
      rw [natOfDigits_natDigits]
      omega
    have denotes := Denotes.minus filled digits
    rw [value] at denotes
    rw [if_pos negative]
    exact ⟨by rw [List.length_cons]; omega, denotes, low, high⟩
  · have value : (natOfDigits (natDigits n.natAbs) : Int) = n := by
      rw [natOfDigits_natDigits]
      omega
    have denotes := Denotes.plain filled digits
    rw [value] at denotes
    rw [if_neg negative]
    exact ⟨by omega, denotes, low, high⟩

end PlatformService.Verif.Identifiers
