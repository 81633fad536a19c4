import PlatformService.Json.Grammar
import PlatformService.Verif.JsonRoundTrip

/-!
# The parser accepts exactly the grammar

Every stage of the parser is compared with the part of the grammar it reads. What
a stage accepts, the grammar derives, up to the position where the stage stops; and
what the grammar derives, the stage accepts, where a number needs a byte behind it
that continues no number. Both directions meet in `parse_accepts_grammar`.
-/

namespace PlatformService.Verif.JsonGrammar

open Lib Json Json.Grammar JsonRoundTrip

section WhiteSpace

/-- The text does not start with white space. -/
def Solid (rest : Bytes) : Prop := ∀ byte ∈ rest.head?, isWs byte = false

/-- What `skip_ws` passes is white space. -/
theorem ws_skipWs (input : Bytes) : Ws input (skipWs input) := by
  refine ⟨input.takeWhile isWs, ?_, ?_⟩
  · exact (List.takeWhile_append_dropWhile).symm
  · intro byte stored
    exact List.mem_takeWhile_imp stored

/-- `skip_ws` passes all the white space there is. -/
theorem skipWs_of_ws {input rest : Bytes} (blank : Ws input rest) (solid : Solid rest) :
    skipWs input = rest := by
  obtain ⟨space, rfl, all⟩ := blank
  have passed : skipWs (space ++ rest) = rest.dropWhile isWs :=
    List.dropWhile_append_of_pos all
  rw [passed]
  cases rest with
  | nil => rfl
  | cons byte rest =>
    have stop : isWs byte = false := solid byte rfl
    exact List.dropWhile_cons_of_neg (by simp [stop])

/-- What is passed before a position is passed before the same solid position. -/
theorem skipWs_congr {input start : Bytes} (blank : Ws input start) :
    skipWs input = skipWs start := by
  obtain ⟨space, rfl, all⟩ := blank
  exact List.dropWhile_append_of_pos all

/-- White space joins. -/
theorem ws_trans {input middle rest : Bytes} (first : Ws input middle) (second : Ws middle rest) :
    Ws input rest := by
  obtain ⟨before, rfl, allBefore⟩ := first
  obtain ⟨after, rfl, allAfter⟩ := second
  exact ⟨before ++ after, (List.append_assoc _ _ _).symm,
    List.forall_mem_append.mpr ⟨allBefore, allAfter⟩⟩

/-- White space ends at a suffix. -/
theorem suffix_of_ws {input rest : Bytes} (blank : Ws input rest) : rest <:+ input := by
  obtain ⟨space, rfl, -⟩ := blank
  exact List.suffix_append space rest

/-- A byte behind white space is followed by a suffix. -/
theorem suffix_of_ws_cons {input rest : Bytes} {byte : UInt8} (blank : Ws input (byte :: rest)) :
    rest <:+ input :=
  (List.suffix_cons byte rest).trans (suffix_of_ws blank)

/-- Skipping white space twice skips nothing more. -/
theorem skipWs_skipWs (input : Bytes) : skipWs (skipWs input) = skipWs input :=
  (skipWs_congr (ws_skipWs input)).symm

/-- A byte other than white space is solid. -/
theorem solid_cons {byte : UInt8} {rest : Bytes} (stop : isWs byte = false) :
    Solid (byte :: rest) := by
  intro first head
  rw [← Option.some.inj head]
  exact stop

end WhiteSpace

section Numbers

/-- The bytes that may follow a value. -/
def Ends (rest : Bytes) : Prop :=
  ∀ byte ∈ rest.head?, isWs byte = true ∨ byte = 44 ∨ byte = 93 ∨ byte = 125

/-- A run of digits is split off at its end. -/
theorem digits_split (input : Bytes) :
    ∃ digits, input = digits ++ input.dropWhile isDigit ∧ ∀ byte ∈ digits, isDigit byte = true :=
  ⟨input.takeWhile isDigit, List.takeWhile_append_dropWhile.symm,
    fun _ stored => List.mem_takeWhile_imp stored⟩

/-- The digit scanner takes at least one digit. -/
theorem scanDigits_sound {input rest : Bytes} (scanned : scanDigits input = some rest) :
    ∃ digits, input = digits ++ rest ∧ Digits digits := by
  cases input with
  | nil => contradiction
  | cons first input =>
    rw [scanDigits] at scanned
    split_ifs at scanned with digit
    obtain ⟨digits, split, all⟩ := digits_split input
    refine ⟨first :: digits, ?_, List.cons_ne_nil _ _, ?_⟩
    · rw [← Option.some.inj scanned, List.cons_append, ← split]
    · exact List.forall_mem_cons.mpr ⟨digit, all⟩

/-- The integer scanner takes an integer after the sign. -/
theorem unsigned_sound {text rest : Bytes}
    (scanned : (match text with
      | [] => none
      | first :: rest =>
        if first = 48 then some rest
        else if isDigit first then some (rest.dropWhile isDigit) else none) = some rest) :
    ∃ integer, text = integer ++ rest ∧ Integer integer := by
  cases text with
  | nil => contradiction
  | cons first text =>
    dsimp only at scanned
    split_ifs at scanned with zero digit
    · refine ⟨[48], ?_, Or.inl rfl⟩
      rw [zero, ← Option.some.inj scanned, List.singleton_append]
    · obtain ⟨digits, split, all⟩ := digits_split text
      refine ⟨first :: digits, ?_, Or.inr ⟨⟨List.cons_ne_nil _ _, ?_⟩, by simpa using zero⟩⟩
      · rw [← Option.some.inj scanned, List.cons_append, ← split]
      · exact List.forall_mem_cons.mpr ⟨digit, all⟩

/-- The integer scanner takes a sign and an integer. -/
theorem scanInteger_sound {input rest : Bytes} (scanned : scanInteger input = some rest) :
    ∃ sign integer, input = sign ++ (integer ++ rest) ∧ (sign = [] ∨ sign = [45]) ∧
      Integer integer := by
  unfold scanInteger at scanned
  by_cases minus : input.head? = some 45
  · rw [if_pos minus] at scanned
    obtain ⟨integer, split, whole⟩ := unsigned_sound scanned
    refine ⟨[45], integer, ?_, Or.inr rfl, whole⟩
    cases input with
    | nil => contradiction
    | cons first input =>
      rw [← Option.some.inj minus, List.singleton_append, ← split, List.tail_cons]
  · rw [if_neg minus] at scanned
    obtain ⟨integer, split, whole⟩ := unsigned_sound scanned
    exact ⟨[], integer, split, Or.inl rfl, whole⟩

/-- The fraction scanner takes a fraction. -/
theorem scanFraction_sound {input rest : Bytes} (scanned : scanFraction input = some rest) :
    ∃ fraction, input = fraction ++ rest ∧ Fraction fraction := by
  unfold scanFraction at scanned
  split_ifs at scanned with point
  · obtain ⟨digits, split, all⟩ := scanDigits_sound scanned
    refine ⟨46 :: digits, ?_, Or.inr ⟨digits, rfl, all⟩⟩
    cases input with
    | nil => contradiction
    | cons first input =>
      rw [← Option.some.inj point, List.cons_append, ← split, List.tail_cons]
  · exact ⟨[], Option.some.inj scanned, Or.inl rfl⟩

/-- The exponent scanner takes an exponent. -/
theorem scanExponent_sound {input rest : Bytes} (scanned : scanExponent input = some rest) :
    ∃ exponent, input = exponent ++ rest ∧ Exponent exponent := by
  unfold scanExponent at scanned
  by_cases mark : input.head? = some 101 ∨ input.head? = some 69
  · rw [if_pos mark] at scanned
    obtain ⟨digits, split, all⟩ := scanDigits_sound scanned
    match input, mark, split with
    | first :: input, mark, split =>
      rw [List.tail_cons] at split
      have marked : first = 101 ∨ first = 69 := by simpa using mark
      by_cases signed : input.head? = some 43 ∨ input.head? = some 45
      · rw [if_pos signed] at split
        match input, signed, split with
        | sign :: input, signed, split =>
          rw [List.tail_cons] at split
          have plusMinus : [sign] = [43] ∨ [sign] = [45] := by simpa using signed
          refine ⟨first :: ([sign] ++ digits), ?_,
            Or.inr ⟨first, [sign], digits, rfl, marked, Or.inr plusMinus, all⟩⟩
          rw [split, List.cons_append, List.append_assoc, List.singleton_append]
      · rw [if_neg signed] at split
        refine ⟨first :: ([] ++ digits), ?_,
          Or.inr ⟨first, [], digits, rfl, marked, Or.inl rfl, all⟩⟩
        rw [split, List.cons_append, List.nil_append]
  · rw [if_neg mark] at scanned
    exact ⟨[], Option.some.inj scanned, Or.inl rfl⟩

/-- `parse_number` reads a number literal of fewer than 64 bytes. -/
theorem parseNumber_sound {input rest : Bytes} {value : Value}
    (read : parseNumber input = some (value, rest)) :
    ∃ literal, input = literal ++ rest ∧ Number literal ∧ literal.length < 64 ∧
      value = .number (strtod literal) := by
  simp only [parseNumber, Option.bind_eq_bind, Option.bind_eq_some_iff] at read
  obtain ⟨afterInteger, integerRead, afterFraction, fractionRead, after, exponentRead, read⟩ := read
  split_ifs at read with long
  have same := Option.some.inj read
  obtain ⟨sign, integer, rfl, signed, whole⟩ := scanInteger_sound integerRead
  obtain ⟨fraction, rfl, fractional⟩ := scanFraction_sound fractionRead
  obtain ⟨exponent, rfl, exponential⟩ := scanExponent_sound exponentRead
  have stop : after = rest := congrArg Prod.snd same
  have literal : (sign ++ (integer ++ (fraction ++ (exponent ++ after)))).take
      ((sign ++ (integer ++ (fraction ++ (exponent ++ after)))).length - after.length) =
        sign ++ (integer ++ (fraction ++ exponent)) := by
    have regroup : sign ++ (integer ++ (fraction ++ (exponent ++ after))) =
        (sign ++ (integer ++ (fraction ++ exponent))) ++ after := by
      simp only [List.append_assoc]
    rw [regroup, List.length_append, Nat.add_sub_cancel, List.take_left]
  rw [literal] at same long
  refine ⟨sign ++ (integer ++ (fraction ++ exponent)), ?_,
    ⟨sign, integer, fraction, exponent, rfl, signed, whole, fractional, exponential⟩,
    not_le.mp long, (congrArg Prod.fst same).symm⟩
  simp only [List.append_assoc, stop]

/-- A text that continues no run of digits. -/
def DigitFree (rest : Bytes) : Prop := ∀ byte ∈ rest.head?, isDigit byte = false

/-- A byte that ends a value is no part of a number. -/
theorem ending_byte {byte : UInt8}
    (ending : isWs byte = true ∨ byte = 44 ∨ byte = 93 ∨ byte = 125) :
    isDigit byte = false ∧ byte ≠ 46 ∧ byte ≠ 101 ∧ byte ≠ 69 := by
  rcases ending with blank | rfl | rfl | rfl
  · simp only [isWs, Bool.or_eq_true, decide_eq_true_eq] at blank
    rcases blank with ((rfl | rfl) | rfl) | rfl
    all_goals decide
  all_goals decide

/-- Digits are passed up to a text that continues no run of them. -/
theorem dropWhile_digits {digits rest : Bytes} (all : ∀ byte ∈ digits, isDigit byte = true)
    (stop : DigitFree rest) : (digits ++ rest).dropWhile isDigit = rest := by
  rw [List.dropWhile_append_of_pos all]
  cases rest with
  | nil => rfl
  | cons byte rest =>
    have last : isDigit byte = false := stop byte rfl
    exact List.dropWhile_cons_of_neg (by simp [last])

/-- The digit scanner takes a run of digits. -/
theorem scanDigits_complete {digits rest : Bytes} (run : Digits digits) (stop : DigitFree rest) :
    scanDigits (digits ++ rest) = some rest := by
  obtain ⟨nonempty, all⟩ := run
  cases digits with
  | nil => contradiction
  | cons first digits =>
    rw [List.forall_mem_cons] at all
    rw [List.cons_append, scanDigits, if_pos all.1, dropWhile_digits all.2 stop]

/-- An integer starts with a digit. -/
theorem integer_opens {integer : Bytes} (whole : Integer integer) :
    ∃ first digits, integer = first :: digits ∧ isDigit first = true := by
  rcases whole with rfl | ⟨⟨nonempty, all⟩, -⟩
  · exact ⟨48, [], rfl, rfl⟩
  · cases integer with
    | nil => contradiction
    | cons first digits => exact ⟨first, digits, rfl, all first List.mem_cons_self⟩

/-- The integer scanner takes a sign and an integer. -/
theorem scanInteger_complete {sign integer rest : Bytes} (signed : sign = [] ∨ sign = [45])
    (whole : Integer integer) (stop : DigitFree rest) :
    scanInteger (sign ++ (integer ++ rest)) = some rest := by
  obtain ⟨first, digits, rfl, digit⟩ := integer_opens whole
  have unsigned : first ≠ 45 := by
    rintro rfl
    contradiction
  have body : (if (sign ++ (first :: digits ++ rest)).head? = some 45
      then (sign ++ (first :: digits ++ rest)).tail else sign ++ (first :: digits ++ rest)) =
        first :: (digits ++ rest) := by
    rcases signed with rfl | rfl
    · rw [List.nil_append, if_neg (by simpa using unsigned), List.cons_append]
    · rw [List.singleton_append, List.head?_cons, if_pos rfl, List.tail_cons, List.cons_append]
  rw [scanInteger, body]
  dsimp only
  rcases whole with zero | ⟨⟨-, all⟩, nonzero⟩
  · rw [List.cons.injEq] at zero
    rw [if_pos zero.1, zero.2, List.nil_append]
  · have leading : first ≠ 48 := by simpa using nonzero
    rw [List.forall_mem_cons] at all
    rw [if_neg leading, if_pos digit, dropWhile_digits all.2 stop]

/-- The fraction scanner takes a fraction. -/
theorem scanFraction_complete {fraction rest : Bytes} (fractional : Fraction fraction)
    (stop : DigitFree rest) (point : rest.head? ≠ some 46) :
    scanFraction (fraction ++ rest) = some rest := by
  rcases fractional with rfl | ⟨digits, rfl, run⟩
  · rw [List.nil_append, scanFraction, if_neg point]
  · rw [List.cons_append, scanFraction, List.head?_cons, if_pos rfl, List.tail_cons,
      scanDigits_complete run stop]

/-- The exponent scanner takes an exponent. -/
theorem scanExponent_complete {exponent rest : Bytes} (exponential : Exponent exponent)
    (stop : DigitFree rest) (mark : ¬(rest.head? = some 101 ∨ rest.head? = some 69)) :
    scanExponent (exponent ++ rest) = some rest := by
  rcases exponential with rfl | ⟨first, sign, digits, rfl, marked, signed, run⟩
  · rw [List.nil_append, scanExponent, if_neg mark]
  · have scanned := scanDigits_complete run stop
    have marks : (first :: (sign ++ digits) ++ rest).head? = some 101 ∨
        (first :: (sign ++ digits) ++ rest).head? = some 69 := by simpa using marked
    rw [scanExponent, if_pos marks, List.cons_append, List.tail_cons, List.append_assoc]
    dsimp only
    rcases signed with rfl | rfl | rfl
    · obtain ⟨nonempty, all⟩ := run
      cases digits with
      | nil => contradiction
      | cons digit digits =>
        have unsigned : ¬(digit = 43 ∨ digit = 45) := by
          have isNumeric := all digit List.mem_cons_self
          rintro (rfl | rfl) <;> contradiction
        rw [List.nil_append, if_neg (by simpa using unsigned), scanned]
    · rw [List.singleton_append, if_pos (by simp), List.tail_cons, scanned]
    · rw [List.singleton_append, if_pos (by simp), List.tail_cons, scanned]

/-- The first byte of an exponent and what follows it is no digit and no point. -/
theorem exponent_head {exponent rest : Bytes} (exponential : Exponent exponent) (ends : Ends rest) :
    DigitFree (exponent ++ rest) ∧ (exponent ++ rest).head? ≠ some 46 := by
  rcases exponential with rfl | ⟨mark, sign, digits, rfl, marked, -, -⟩
  · rw [List.nil_append]
    constructor
    · intro byte first
      exact (ending_byte (ends byte first)).1
    · intro point
      exact (ending_byte (ends 46 point)).2.1 rfl
  · rcases marked with rfl | rfl
    all_goals
      constructor
      · intro byte first
        rw [← Option.some.inj first]
        decide
      · simp

/-- The first byte of a fraction and what follows it is no digit. -/
theorem fraction_head {fraction rest : Bytes} (fractional : Fraction fraction)
    (free : DigitFree rest) : DigitFree (fraction ++ rest) := by
  rcases fractional with rfl | ⟨digits, rfl, -⟩
  · exact free
  · intro byte first
    rw [← Option.some.inj first]
    decide

/-- `parse_number` reads every number literal of fewer than 64 bytes. -/
theorem parseNumber_complete {literal rest : Bytes} (number : Number literal)
    (short : literal.length < 64) (ends : Ends rest) :
    parseNumber (literal ++ rest) = some (.number (strtod literal), rest) := by
  obtain ⟨sign, integer, fraction, exponent, shape, signed, whole, fractional, exponential⟩ := number
  have free : DigitFree rest := fun byte first => (ending_byte (ends byte first)).1
  have unmarked : ¬(rest.head? = some 101 ∨ rest.head? = some 69) := by
    rintro (first | first)
    · exact (ending_byte (ends _ first)).2.2.1 rfl
    · exact (ending_byte (ends _ first)).2.2.2 rfl
  obtain ⟨freeExponent, pointless⟩ := exponent_head exponential ends
  have integerRead : scanInteger (literal ++ rest) = some (fraction ++ (exponent ++ rest)) := by
    rw [shape, List.append_assoc, List.append_assoc, List.append_assoc]
    exact scanInteger_complete signed whole (fraction_head fractional freeExponent)
  have fractionRead := scanFraction_complete fractional freeExponent pointless
  have exponentRead := scanExponent_complete exponential free unmarked
  have taken : (literal ++ rest).take ((literal ++ rest).length - rest.length) = literal := by
    rw [List.length_append, Nat.add_sub_cancel, List.take_left]
  simp only [parseNumber, integerRead, fractionRead, exponentRead, Option.bind_eq_bind,
    Option.bind_some, taken, if_neg (not_le.mpr short)]

/-- A number literal starts with a minus sign or a digit. -/
theorem number_opens {literal : Bytes} (number : Number literal) :
    ∃ first tail, literal = first :: tail ∧ (first = 45 ∨ isDigit first = true) := by
  obtain ⟨sign, integer, fraction, exponent, rfl, signed, whole, -, -⟩ := number
  rcases signed with rfl | rfl
  · obtain ⟨first, digits, rfl, digit⟩ := integer_opens whole
    exact ⟨first, digits ++ (fraction ++ exponent), rfl, Or.inr digit⟩
  · exact ⟨45, integer ++ (fraction ++ exponent), rfl, Or.inl rfl⟩

end Numbers

section Strings

/-- Four hexadecimal digits are read as such. -/
theorem parseHex4_sound {input rest : Bytes} {point : Nat}
    (read : parseHex4 input = some (point, rest)) :
    ∃ digits, input = digits ++ rest ∧ Hex4 digits point := by
  match input, read with
  | a :: b :: c :: d :: input, read =>
    simp only [parseHex4, Option.bind_eq_bind, Option.bind_eq_some_iff] at read
    obtain ⟨i, first, j, second, k, third, l, fourth, same⟩ := read
    have equal := Option.some.inj same
    have stop : input = rest := congrArg Prod.snd equal
    have sum : ((i * 16 + j) * 16 + k) * 16 + l = point := congrArg Prod.fst equal
    refine ⟨[a, b, c, d], by rw [stop]; rfl, a, b, c, d, i, j, k, l, rfl, first, second, third,
      fourth, ?_⟩
    omega

/-- Four hexadecimal digits are read. -/
theorem parseHex4_complete {digits : Bytes} {point : Nat} (hex : Hex4 digits point) (rest : Bytes) :
    parseHex4 (digits ++ rest) = some (point, rest) := by
  obtain ⟨a, b, c, d, i, j, k, l, rfl, first, second, third, fourth, sum⟩ := hex
  have point' : ((i * 16 + j) * 16 + k) * 16 + l = point := by omega
  simp [parseHex4, first, second, third, fourth, point']

/-- A `\u` escape is read as one character, or as a pair of surrogates. -/
theorem parseUnicodeEscape_sound {input decoded after text rest : Bytes}
    (read : parseUnicodeEscape input = some (decoded, after)) (more : Chars text after rest) :
    Chars (decoded ++ text) (92 :: 117 :: input) rest := by
  simp only [parseUnicodeEscape, Option.bind_eq_bind, Option.bind_eq_some_iff, Prod.exists] at read
  obtain ⟨point, afterHex, hexRead, read⟩ := read
  obtain ⟨digits, rfl, hex⟩ := parseHex4_sound hexRead
  by_cases leads : 0xD800 ≤ point ∧ point ≤ 0xDBFF
  · rw [if_pos leads] at read
    split at read
    · rename_i paired
      simp only [Option.bind_eq_some_iff, Prod.exists] at read
      obtain ⟨low, afterLow, lowRead, read⟩ := read
      obtain ⟨second, rfl, hexLow⟩ := parseHex4_sound lowRead
      split_ifs at read with outside
      obtain ⟨code, stop⟩ := Prod.mk.inj (Option.some.inj read)
      rw [← code, stop]
      exact .surrogates hex leads hexLow (by omega) more
    · contradiction
  · rw [if_neg leads] at read
    split_ifs at read with trails
    obtain ⟨code, stop⟩ := Prod.mk.inj (Option.some.inj read)
    rw [← code, stop]
    exact .unicode hex (by omega) more

/-- An escape sequence is read as one of the grammar's. -/
theorem parseEscape_sound {input decoded after text rest : Bytes}
    (read : parseEscape input = some (decoded, after)) (more : Chars text after rest) :
    Chars (decoded ++ text) (92 :: input) rest := by
  match input, read with
  | code :: input, read =>
    rw [parseEscape] at read
    by_cases unicode : code = 117
    · rw [unicode] at read ⊢
      exact parseUnicodeEscape_sound read more
    · have simple : ∃ byte, (code, byte) ∈ escapes ∧ ([byte], input) = (decoded, after) := by
        split_ifs at read with a b c d e f g h
        all_goals exact ⟨_, by simp [escapes, *], Option.some.inj read⟩
      obtain ⟨byte, known, same⟩ := simple
      obtain ⟨rfl, rfl⟩ := Prod.mk.inj same
      exact .escape known more

/-- The loop of `parse_string` reads the characters of a string. -/
theorem parseStringLoop_sound {turns : Nat} {input text rest : Bytes}
    (read : parseStringLoop turns input = some (text, rest)) : Chars text input rest := by
  induction turns generalizing input text with
  | zero => contradiction
  | succ turns ih =>
    cases input with
    | nil => contradiction
    | cons byte input =>
      rw [parseStringLoop] at read
      by_cases quote : byte = 34
      · rw [if_pos quote] at read
        obtain ⟨rfl, rfl⟩ := Prod.mk.inj (Option.some.inj read)
        rw [quote]
        exact .close _
      · rw [if_neg quote] at read
        split_ifs at read with control backslash
        · simp only [Option.bind_eq_bind, Option.bind_eq_some_iff, Prod.exists] at read
          obtain ⟨decoded, after, escaped, more, last, loop, same⟩ := read
          obtain ⟨rfl, rfl⟩ := Prod.mk.inj (Option.some.inj same)
          rw [backslash]
          exact parseEscape_sound escaped (ih loop)
        · simp only [Option.bind_eq_bind, Option.bind_some, Option.bind_eq_some_iff,
            Prod.exists] at read
          obtain ⟨more, last, loop, same⟩ := read
          obtain ⟨rfl, rfl⟩ := Prod.mk.inj (Option.some.inj same)
          exact .plain (UInt8.not_lt.mp control) quote backslash (ih loop)

/-- An escape of one character is read. -/
theorem parseEscape_simple {code byte : UInt8} (known : (code, byte) ∈ escapes) (rest : Bytes) :
    parseEscape (code :: rest) = some ([byte], rest) := by
  simp only [escapes, List.mem_cons, Prod.mk.injEq, List.not_mem_nil, or_false] at known
  rcases known with ⟨rfl, rfl⟩ | ⟨rfl, rfl⟩ | ⟨rfl, rfl⟩ | ⟨rfl, rfl⟩ | ⟨rfl, rfl⟩ | ⟨rfl, rfl⟩ |
    ⟨rfl, rfl⟩ | ⟨rfl, rfl⟩
  all_goals rfl

/-- The escape of a code point is read behind its `u`. -/
theorem parseEscape_unicode (rest : Bytes) :
    parseEscape (117 :: rest) = parseUnicodeEscape rest := rfl

/-- A turn of the loop that reads an escape sequence. -/
theorem parseStringLoop_turn {turns : Nat} {escaped decoded after text rest : Bytes}
    (read : parseEscape escaped = some (decoded, after))
    (more : parseStringLoop turns after = some (text, rest)) :
    parseStringLoop (turns + 1) (92 :: escaped) = some (decoded ++ text, rest) := by
  rw [parseStringLoop, if_neg (by decide), if_neg (by decide), if_pos rfl, read]
  simp only [Option.bind_eq_bind, Option.bind_some, more]

/-- The loop of `parse_string` reads every string. -/
theorem parseStringLoop_complete {text input rest : Bytes} (chars : Chars text input rest) :
    ∀ turns, input.length < turns → parseStringLoop turns input = some (text, rest) := by
  induction chars with
  | close rest =>
    intro turns enough
    obtain ⟨turns, rfl⟩ := Nat.exists_eq_add_one.mpr (Nat.zero_lt_of_lt enough)
    rfl
  | @plain byte text input rest printable quote backslash more ih =>
    intro turns enough
    obtain ⟨turns, rfl⟩ := Nat.exists_eq_add_one.mpr (Nat.zero_lt_of_lt enough)
    have loop := ih turns (by simpa using enough)
    rw [parseStringLoop, if_neg quote, if_neg (UInt8.not_lt.mpr printable), if_neg backslash]
    simp only [Option.bind_eq_bind, Option.bind_some, loop, List.singleton_append]
  | @escape code byte text input rest known more ih =>
    intro turns enough
    obtain ⟨turns, rfl⟩ := Nat.exists_eq_add_one.mpr (Nat.zero_lt_of_lt enough)
    have loop := ih turns (by simp at enough; omega)
    exact parseStringLoop_turn (parseEscape_simple known input) loop
  | @unicode digits point text input rest hex scalar more ih =>
    intro turns enough
    obtain ⟨turns, rfl⟩ := Nat.exists_eq_add_one.mpr (Nat.zero_lt_of_lt enough)
    have loop := ih turns (by simp at enough; omega)
    have read := parseHex4_complete hex input
    have escaped : parseEscape (117 :: (digits ++ input)) = some (utf8 point, input) := by
      rw [parseEscape_unicode]
      simp only [parseUnicodeEscape, read, Option.bind_eq_bind, Option.bind_some]
      rw [if_neg (by omega), if_neg (by omega)]
    exact parseStringLoop_turn escaped loop
  | @surrogates first second high low text input rest hexHigh leads hexLow trails more ih =>
    intro turns enough
    obtain ⟨turns, rfl⟩ := Nat.exists_eq_add_one.mpr (Nat.zero_lt_of_lt enough)
    have loop := ih turns (by simp at enough; omega)
    have readHigh := parseHex4_complete hexHigh (92 :: 117 :: (second ++ input))
    have readLow := parseHex4_complete hexLow input
    have escaped : parseEscape (117 :: (first ++ 92 :: 117 :: (second ++ input))) =
        some (utf8 (0x10000 + (high - 0xD800) * 1024 + (low - 0xDC00)), input) := by
      rw [parseEscape_unicode]
      simp only [parseUnicodeEscape, readHigh, readLow, Option.bind_eq_bind, Option.bind_some]
      rw [if_pos leads, if_neg (by omega)]
    exact parseStringLoop_turn escaped loop

/-- `parse_string` reads exactly the strings. -/
theorem parseString_eq_some_iff {input text rest : Bytes} :
    parseString input = some (text, rest) ↔ Chars text input rest := by
  constructor
  · exact parseStringLoop_sound
  · intro chars
    exact parseStringLoop_complete chars _ (Nat.lt_succ_self _)

end Strings

section Containers

/-- A tree within a nesting limit whose number literals fit the parser's buffer. -/
structure Fits (levels : Nat) (tree : Tree) : Prop where
  depth : tree.depth ≤ levels
  short : ∀ literal ∈ tree.literals, literal.length < 64

/-- A parser reads only what the grammar derives. -/
def SoundParser (levels : Nat) (parser : Bytes → Option (Value × Bytes)) : Prop :=
  ∀ input value rest, parser input = some (value, rest) →
    ∃ tree start, Ws input start ∧ Derives (.value tree) start rest ∧ Fits levels tree ∧
      tree.value = value

variable {levels turns : Nat} {parser : Bytes → Option (Value × Bytes)}

/-- The loop of `parse_array` reads the items of an array. -/
theorem parseItems_sound (sound : SoundParser levels parser) {input rest : Bytes}
    {items : List Value} (read : parseItems parser turns input = some (items, rest)) :
    ∃ trees, Derives (.items trees) input rest ∧ Tree.depthItems trees ≤ levels ∧
      (∀ literal ∈ Tree.literalsItems trees, literal.length < 64) ∧ Tree.values trees = items := by
  induction turns generalizing input items with
  | zero => contradiction
  | succ turns ih =>
    simp only [parseItems, Option.bind_eq_bind, Option.bind_eq_some_iff, Prod.exists] at read
    obtain ⟨item, after, itemRead, read⟩ := read
    obtain ⟨tree, start, leading, derived, fits, denotes⟩ := sound _ _ _ itemRead
    have before : Ws input start := ws_trans (ws_skipWs input) leading
    split at read
    · rename_i next comma
      simp only [Option.bind_eq_some_iff, Prod.exists] at read
      obtain ⟨others, last, loop, same⟩ := read
      obtain ⟨rfl, rfl⟩ := Prod.mk.inj (Option.some.inj same)
      obtain ⟨trees, more, deep, short, values⟩ := ih loop
      have separated : Ws after (44 :: next) := comma ▸ ws_skipWs after
      refine ⟨tree :: trees, .item before derived separated more, ?_, ?_, ?_⟩
      · rw [Tree.depthItems]
        exact max_le fits.depth deep
      · rw [Tree.literalsItems]
        exact List.forall_mem_append.mpr ⟨fits.short, short⟩
      · rw [Tree.values, denotes, values]
    · rename_i last close
      obtain ⟨rfl, rfl⟩ := Prod.mk.inj (Option.some.inj read)
      have closed : Ws after (93 :: last) := close ▸ ws_skipWs after
      refine ⟨[tree], .lastItem before derived closed, ?_, ?_, ?_⟩
      · simpa [Tree.depthItems] using fits.depth
      · simpa [Tree.literalsItems] using fits.short
      · rw [Tree.values, denotes, Tree.values]
    · contradiction

/-- The loop of `parse_object` reads the members of an object. -/
theorem parseMembers_sound (sound : SoundParser levels parser) {input rest : Bytes}
    {members result : List (Bytes × Value)}
    (read : parseMembers parser turns members input = some (result, rest)) :
    ∃ trees, Derives (.members trees) input rest ∧ Tree.depthMembers trees ≤ levels ∧
      (∀ literal ∈ Tree.literalsMembers trees, literal.length < 64) ∧
      Tree.setAll members (Tree.memberValues trees) = result := by
  induction turns generalizing input members with
  | zero => contradiction
  | succ turns ih =>
    rw [parseMembers] at read
    split at read
    · rename_i quoted quote
      simp only [Option.bind_eq_bind, Option.bind_eq_some_iff, Prod.exists] at read
      obtain ⟨key, named, keyRead, read⟩ := read
      split at read
      · rename_i colon mark
        simp only [Option.bind_eq_some_iff, Prod.exists] at read
        obtain ⟨value, after, valueRead, read⟩ := read
        obtain ⟨tree, start, leading, derived, fits, denotes⟩ := sound _ _ _ valueRead
        have name : Key key input start :=
          ⟨quoted, named, colon, quote ▸ ws_skipWs input, parseString_eq_some_iff.mp keyRead,
            mark ▸ ws_skipWs named, ws_trans (ws_skipWs colon) leading⟩
        split at read
        · rename_i next comma
          obtain ⟨trees, more, deep, short, values⟩ := ih read
          have separated : Ws after (44 :: next) := comma ▸ ws_skipWs after
          refine ⟨(key, tree) :: trees, .member name derived separated more, ?_, ?_, ?_⟩
          · rw [Tree.depthMembers]
            exact max_le fits.depth deep
          · rw [Tree.literalsMembers]
            exact List.forall_mem_append.mpr ⟨fits.short, short⟩
          · rw [Tree.memberValues, denotes, ← values, Tree.setAll, List.foldl_cons, Tree.setAll]
        · rename_i last close
          obtain ⟨rfl, rfl⟩ := Prod.mk.inj (Option.some.inj read)
          have closed : Ws after (125 :: last) := close ▸ ws_skipWs after
          refine ⟨[(key, tree)], .lastMember name derived closed, ?_, ?_, ?_⟩
          · simpa [Tree.depthMembers] using fits.depth
          · simpa [Tree.literalsMembers] using fits.short
          · rw [Tree.memberValues, denotes, Tree.memberValues]
            rfl
        · contradiction
      · contradiction
    · contradiction

/-- White space may stand before the items of an array. -/
theorem items_of_ws {trees : List Tree} {input start rest : Bytes} (blank : Ws input start)
    (derived : Derives (.items trees) start rest) : Derives (.items trees) input rest := by
  cases derived with
  | lastItem leading item close => exact .lastItem (ws_trans blank leading) item close
  | item leading item comma more => exact .item (ws_trans blank leading) item comma more

/-- White space may stand before the members of an object. -/
theorem members_of_ws {members : List (Bytes × Tree)} {input start rest : Bytes}
    (blank : Ws input start) (derived : Derives (.members members) start rest) :
    Derives (.members members) input rest := by
  cases derived with
  | lastMember named member close =>
    obtain ⟨quoted, name, colon, quote, chars, mark, leading⟩ := named
    exact .lastMember ⟨quoted, name, colon, ws_trans blank quote, chars, mark, leading⟩ member close
  | member named member comma more =>
    obtain ⟨quoted, name, colon, quote, chars, mark, leading⟩ := named
    exact .member ⟨quoted, name, colon, ws_trans blank quote, chars, mark, leading⟩ member comma
      more

/-- `parse_array` reads an array. -/
theorem parseArray_sound (sound : SoundParser levels parser) {input rest : Bytes} {value : Value}
    (read : parseArray parser input = some (value, rest)) :
    ∃ tree, Derives (.value tree) (91 :: input) rest ∧ Fits (levels + 1) tree ∧
      tree.value = value := by
  rw [parseArray] at read
  split at read
  · rename_i last close
    obtain ⟨rfl, rfl⟩ := Prod.mk.inj (Option.some.inj read)
    have closed : Ws input (93 :: last) := close ▸ ws_skipWs input
    refine ⟨.array [], .emptyArray closed, ⟨?_, ?_⟩, ?_⟩
    · simp [Tree.depth, Tree.depthItems]
    · simp [Tree.literals, Tree.literalsItems]
    · rw [Tree.value, Tree.values]
  · simp only [Option.map_eq_some_iff, Prod.exists] at read
    obtain ⟨items, last, loop, same⟩ := read
    obtain ⟨rfl, rfl⟩ := Prod.mk.inj same
    obtain ⟨trees, derived, deep, short, values⟩ := parseItems_sound sound loop
    refine ⟨.array trees, .array (items_of_ws (ws_skipWs input) derived), ⟨?_, ?_⟩, ?_⟩
    · rw [Tree.depth]
      exact Nat.succ_le_succ deep
    · rw [Tree.literals]
      exact short
    · rw [Tree.value, values]

/-- `parse_object` reads an object. -/
theorem parseObject_sound (sound : SoundParser levels parser) {input rest : Bytes} {value : Value}
    (read : parseObject parser input = some (value, rest)) :
    ∃ tree, Derives (.value tree) (123 :: input) rest ∧ Fits (levels + 1) tree ∧
      tree.value = value := by
  rw [parseObject] at read
  split at read
  · rename_i last close
    obtain ⟨rfl, rfl⟩ := Prod.mk.inj (Option.some.inj read)
    have closed : Ws input (125 :: last) := close ▸ ws_skipWs input
    refine ⟨.object [], .emptyObject closed, ⟨?_, ?_⟩, ?_⟩
    · simp [Tree.depth, Tree.depthMembers]
    · simp [Tree.literals, Tree.literalsMembers]
    · rw [Tree.value, Tree.memberValues]
      rfl
  · simp only [Option.map_eq_some_iff, Prod.exists] at read
    obtain ⟨members, last, loop, same⟩ := read
    obtain ⟨rfl, rfl⟩ := Prod.mk.inj same
    obtain ⟨trees, derived, deep, short, values⟩ := parseMembers_sound sound loop
    refine ⟨.object trees, .object (members_of_ws (ws_skipWs input) derived), ⟨?_, ?_⟩, ?_⟩
    · rw [Tree.depth]
      exact Nat.succ_le_succ deep
    · rw [Tree.literals]
      exact short
    · rw [Tree.value, values]

/-- A literal is read as it stands. -/
theorem expectLiteral_sound {literal input rest : Bytes}
    (read : expectLiteral literal input = some rest) : input = literal ++ rest := by
  unfold expectLiteral at read
  split_ifs at read with found
  obtain ⟨tail, rfl⟩ := List.isPrefixOf_iff_prefix.mp found
  rw [← Option.some.inj read, List.drop_left]

/-- A tree without parts fits every level but the last. -/
theorem fits_scalar {tree : Tree} (flat : tree.depth = 1) (plain : tree.literals = []) :
    Fits (levels + 1) tree := by
  constructor
  · omega
  · simp [plain]

/-- `parse_value` reads only what the grammar derives. -/
theorem parseValue_sound (levels : Nat) : SoundParser levels (parseValue levels) := by
  induction levels with
  | zero =>
    intro input value rest read
    contradiction
  | succ levels ih =>
    intro input value rest read
    have blank := ws_skipWs input
    rw [parseValue] at read
    split at read
    · contradiction
    · rename_i first tail start
      rw [start] at blank
      split_ifs at read with quote brace bracket t f n numeral
      · simp only [Option.map_eq_some_iff, Prod.exists] at read
        obtain ⟨text, last, stringRead, same⟩ := read
        obtain ⟨rfl, rfl⟩ := Prod.mk.inj same
        have chars := parseString_eq_some_iff.mp stringRead
        rw [quote] at blank
        exact ⟨.string text, _, blank, .string chars,
          fits_scalar (by simp [Tree.depth]) (by simp [Tree.literals]), by rw [Tree.value]⟩
      · obtain ⟨tree, derived, fits, denotes⟩ := parseObject_sound ih read
        rw [brace] at blank
        exact ⟨tree, _, blank, derived, fits, denotes⟩
      · obtain ⟨tree, derived, fits, denotes⟩ := parseArray_sound ih read
        rw [bracket] at blank
        exact ⟨tree, _, blank, derived, fits, denotes⟩
      · obtain ⟨last, literal, same⟩ := Option.map_eq_some_iff.mp read
        obtain ⟨rfl, rfl⟩ := Prod.mk.inj same
        rw [expectLiteral_sound literal] at blank
        exact ⟨.bool true, _, blank, .true _,
          fits_scalar (by simp [Tree.depth]) (by simp [Tree.literals]), by rw [Tree.value]⟩
      · obtain ⟨last, literal, same⟩ := Option.map_eq_some_iff.mp read
        obtain ⟨rfl, rfl⟩ := Prod.mk.inj same
        rw [expectLiteral_sound literal] at blank
        exact ⟨.bool false, _, blank, .false _,
          fits_scalar (by simp [Tree.depth]) (by simp [Tree.literals]), by rw [Tree.value]⟩
      · obtain ⟨last, literal, same⟩ := Option.map_eq_some_iff.mp read
        obtain ⟨rfl, rfl⟩ := Prod.mk.inj same
        rw [expectLiteral_sound literal] at blank
        exact ⟨.null, _, blank, .null _,
          fits_scalar (by simp [Tree.depth]) (by simp [Tree.literals]), by rw [Tree.value]⟩
      · obtain ⟨literal, split, number, short, denotes⟩ := parseNumber_sound read
        rw [split] at blank
        refine ⟨.number literal, _, blank, .number rest number, ⟨?_, ?_⟩, ?_⟩
        · simp [Tree.depth]
        · simpa [Tree.literals] using short
        · rw [Tree.value, denotes]

end Containers

section Completeness

/-- A string ends at a suffix. -/
theorem suffix_of_chars {text input rest : Bytes} (chars : Chars text input rest) :
    rest <:+ input := by
  induction chars with
  | close rest => exact List.suffix_cons 34 rest
  | plain printable quote backslash more ih => exact ih.trans (List.suffix_cons _ _)
  | escape known more ih =>
    exact ih.trans ((List.suffix_cons _ _).trans (List.suffix_cons _ _))
  | @unicode digits point text input rest hex scalar more ih =>
    exact ih.trans ⟨92 :: 117 :: digits, by simp⟩
  | @surrogates first second high low text input rest hexHigh leads hexLow trails more ih =>
    exact ih.trans ⟨92 :: 117 :: (first ++ 92 :: 117 :: second), by simp⟩

/-- A key ends at a suffix. -/
theorem suffix_of_key {key input rest : Bytes} (named : Key key input rest) : rest <:+ input := by
  obtain ⟨quoted, name, colon, quote, chars, mark, leading⟩ := named
  have value : rest <:+ name := (suffix_of_ws leading).trans (suffix_of_ws_cons mark)
  exact (value.trans (suffix_of_chars chars)).trans (suffix_of_ws_cons quote)

/-- What the grammar derives ends at a suffix. -/
theorem suffix_of_derives {symbol : Symbol} {input rest : Bytes}
    (derived : Derives symbol input rest) : rest <:+ input := by
  induction derived with
  | null rest => exact List.suffix_append _ rest
  | true rest => exact List.suffix_append _ rest
  | false rest => exact List.suffix_append _ rest
  | number rest number => exact List.suffix_append _ rest
  | string chars => exact (suffix_of_chars chars).trans (List.suffix_cons _ _)
  | emptyArray close => exact (suffix_of_ws_cons close).trans (List.suffix_cons _ _)
  | array items ih => exact ih.trans (List.suffix_cons _ _)
  | emptyObject close => exact (suffix_of_ws_cons close).trans (List.suffix_cons _ _)
  | object listed ih => exact ih.trans (List.suffix_cons _ _)
  | lastItem leading item close ih =>
    exact (suffix_of_ws_cons close).trans (ih.trans (suffix_of_ws leading))
  | item leading item comma more ih later =>
    exact (later.trans (suffix_of_ws_cons comma)).trans (ih.trans (suffix_of_ws leading))
  | lastMember named member close ih =>
    exact (suffix_of_ws_cons close).trans (ih.trans (suffix_of_key named))
  | member named member comma more ih later =>
    exact (later.trans (suffix_of_ws_cons comma)).trans (ih.trans (suffix_of_key named))

/-- A value starts with an opening byte. -/
theorem value_opens {tree : Tree} {input rest : Bytes}
    (derived : Derives (.value tree) input rest) :
    ∃ first tail, input = first :: tail ∧ Opening first := by
  cases derived with
  | null rest => exact ⟨110, ascii "ull" ++ rest, rfl, by simp [Opening]⟩
  | true rest => exact ⟨116, ascii "rue" ++ rest, rfl, by simp [Opening]⟩
  | false rest => exact ⟨102, ascii "alse" ++ rest, rfl, by simp [Opening]⟩
  | number rest number =>
    obtain ⟨first, tail, rfl, numeral⟩ := number_opens number
    refine ⟨first, tail ++ rest, rfl, ?_⟩
    rcases numeral with minus | digit
    · simp [Opening, minus]
    · simp [Opening, digit]
  | string chars => exact ⟨34, _, rfl, by simp [Opening]⟩
  | emptyArray close => exact ⟨91, _, rfl, by simp [Opening]⟩
  | array items => exact ⟨91, _, rfl, by simp [Opening]⟩
  | emptyObject close => exact ⟨123, _, rfl, by simp [Opening]⟩
  | object listed => exact ⟨123, _, rfl, by simp [Opening]⟩

/-- An opening byte is no white space. -/
theorem opening_solid {first : UInt8} (opening : Opening first) : isWs first = false := by
  obtain ⟨a, b, c, d⟩ := opening.solid
  simp [isWs, a, b, c, d]

/-- A value is where the white space before it ends. -/
theorem skipWs_value {tree : Tree} {input start rest : Bytes} (leading : Ws input start)
    (derived : Derives (.value tree) start rest) : skipWs input = start := by
  obtain ⟨first, tail, rfl, opening⟩ := value_opens derived
  exact skipWs_of_ws leading (solid_cons (opening_solid opening))

/-- A separator or a closing bracket ends the value before it. -/
theorem ends_of_ws {input rest : Bytes} {byte : UInt8} (blank : Ws input (byte :: rest))
    (closing : byte = 44 ∨ byte = 93 ∨ byte = 125) : Ends input := by
  obtain ⟨space, rfl, all⟩ := blank
  intro first head
  cases space with
  | nil =>
    rw [← Option.some.inj head]
    exact Or.inr closing
  | cons other space =>
    rw [← Option.some.inj head]
    exact Or.inl (all other List.mem_cons_self)

/-- What the parser makes of a symbol that the grammar derives. -/
def Reads : Symbol → Bytes → Bytes → Prop
  | .value tree, input, rest =>
    ∀ levels, Fits levels tree → Ends rest → parseValue levels input = some (tree.value, rest)
  | .items trees, input, rest =>
    ∀ levels turns, Tree.depthItems trees ≤ levels →
      (∀ literal ∈ Tree.literalsItems trees, literal.length < 64) →
      (skipWs input).length < turns →
      parseItems (parseValue levels) turns input = some (Tree.values trees, rest)
  | .members members, input, rest =>
    ∀ levels turns set, Tree.depthMembers members ≤ levels →
      (∀ literal ∈ Tree.literalsMembers members, literal.length < 64) →
      (skipWs input).length < turns →
      parseMembers (parseValue levels) turns set input =
        some (Tree.setAll set (Tree.memberValues members), rest)

/-- The loop of `parse_array` skips white space itself. -/
theorem parseItems_skipWs (parser : Bytes → Option (Value × Bytes)) (turns : Nat) (input : Bytes) :
    parseItems parser turns (skipWs input) = parseItems parser turns input := by
  cases turns with
  | zero => rfl
  | succ turns => simp only [parseItems, skipWs_skipWs]

/-- The loop of `parse_object` skips white space itself. -/
theorem parseMembers_skipWs (parser : Bytes → Option (Value × Bytes)) (turns : Nat)
    (set : List (Bytes × Value)) (input : Bytes) :
    parseMembers parser turns set (skipWs input) = parseMembers parser turns set input := by
  cases turns with
  | zero => rfl
  | succ turns => simp only [parseMembers, skipWs_skipWs]

/-- The items of an array start with an opening byte. -/
theorem items_open {trees : List Tree} {input rest : Bytes}
    (derived : Derives (.items trees) input rest) :
    ∃ first tail, skipWs input = first :: tail ∧ Opening first := by
  cases derived with
  | lastItem leading item close =>
    rw [skipWs_value leading item]
    exact value_opens item
  | item leading item comma more =>
    rw [skipWs_value leading item]
    exact value_opens item

/-- A key starts with a quote. -/
theorem skipWs_key {key input rest : Bytes} (named : Key key input rest) :
    ∃ quoted, skipWs input = 34 :: quoted := by
  obtain ⟨quoted, name, colon, quote, -, -, -⟩ := named
  exact ⟨quoted, skipWs_of_ws quote (solid_cons rfl)⟩

/-- The members of an object start with a quote. -/
theorem members_open {members : List (Bytes × Tree)} {input rest : Bytes}
    (derived : Derives (.members members) input rest) :
    ∃ quoted, skipWs input = 34 :: quoted := by
  cases derived with
  | lastMember named member close => exact skipWs_key named
  | member named member comma more => exact skipWs_key named

/-- `parse_array` reads an array with items. -/
theorem parseArray_complete {trees : List Tree} {input rest : Bytes} {levels : Nat}
    (derived : Derives (.items trees) input rest) (reads : Reads (.items trees) input rest)
    (deep : Tree.depthItems trees ≤ levels)
    (short : ∀ literal ∈ Tree.literalsItems trees, literal.length < 64) :
    parseArray (parseValue levels) input = some (.array (Tree.values trees), rest) := by
  obtain ⟨first, tail, start, opening⟩ := items_open derived
  have loop := reads levels ((skipWs input).length + 1) deep short (Nat.lt_succ_self _)
  rw [← parseItems_skipWs, start] at loop
  rw [parseArray, start]
  split
  · rename_i last same
    exact absurd (List.cons.inj same).1 opening.ne_close.1
  · rw [loop]
    rfl

/-- `parse_object` reads an object with members. -/
theorem parseObject_complete {members : List (Bytes × Tree)} {input rest : Bytes} {levels : Nat}
    (derived : Derives (.members members) input rest)
    (reads : Reads (.members members) input rest) (deep : Tree.depthMembers members ≤ levels)
    (short : ∀ literal ∈ Tree.literalsMembers members, literal.length < 64) :
    parseObject (parseValue levels) input =
      some (.object (Tree.setAll [] (Tree.memberValues members)), rest) := by
  obtain ⟨quoted, start⟩ := members_open derived
  have loop := reads levels ((skipWs input).length + 1) [] deep short (Nat.lt_succ_self _)
  rw [← parseMembers_skipWs, start] at loop
  rw [parseObject, start]
  split
  · rename_i last same
    exact absurd (List.cons.inj same).1 (by decide)
  · rw [loop]
    rfl

/-- The turn of the loop of `parse_object` that reads a member: it goes on behind a comma, and ends
behind a closing brace. -/
theorem parseMembers_member {parser : Bytes → Option (Value × Bytes)} {turns : Nat}
    {set : List (Bytes × Value)} {key input start after next : Bytes} {tree : Tree}
    (named : Key key input start) (derived : Derives (.value tree) start after)
    (read : parser start = some (tree.value, after)) :
    (skipWs after = 44 :: next → parseMembers parser (turns + 1) set input =
      parseMembers parser turns (objectSet set key tree.value) next) ∧
    (skipWs after = 125 :: next → parseMembers parser (turns + 1) set input =
      some (objectSet set key tree.value, next)) := by
  obtain ⟨quoted, name, colon, quote, chars, mark, leading⟩ := named
  have opened := skipWs_of_ws quote (solid_cons rfl)
  have marked := skipWs_of_ws mark (solid_cons rfl)
  have keyRead := parseString_eq_some_iff.mpr chars
  have begun := skipWs_value leading derived
  constructor
  · intro comma
    rw [parseMembers, opened]
    simp [keyRead, marked, begun, read, comma]
  · intro close
    rw [parseMembers, opened]
    simp [keyRead, marked, begun, read, close]

/-- A loop has a turn left for what stands behind a comma. -/
theorem turns_left {input after next : Bytes} {turns : Nat} (value : after <:+ skipWs input)
    (comma : Ws after (44 :: next)) (enough : (skipWs input).length < turns + 1) :
    (skipWs next).length < turns := by
  have skipped := (suffix_of_ws (ws_skipWs next)).length_le
  have passed := (suffix_of_ws comma).length_le
  have within := value.length_le
  rw [List.length_cons] at passed
  omega

/-- A member's value stands behind the white space before its key. -/
theorem suffix_skipWs_key {key input rest : Bytes} (named : Key key input rest) :
    rest <:+ skipWs input := by
  obtain ⟨quoted, name, colon, quote, chars, mark, leading⟩ := named
  rw [skipWs_of_ws quote (solid_cons rfl)]
  have value : rest <:+ name := (suffix_of_ws leading).trans (suffix_of_ws_cons mark)
  exact (value.trans (suffix_of_chars chars)).trans (List.suffix_cons _ _)

/-- A tree that fits has a level to stand on. -/
theorem fits_level {levels : Nat} {tree : Tree} (fits : Fits levels tree) :
    ∃ below, levels = below + 1 := by
  have positive : 0 < tree.depth := by
    cases tree <;> simp [Tree.depth]
  have bound := fits.depth
  exact ⟨levels - 1, by omega⟩

/-- A literal that opens with its first letter is read. -/
theorem reads_literal {tree : Tree} {rest : Bytes} :
    (tree = .null → Reads (.value tree) (ascii "null" ++ rest) rest) ∧
      (tree = .bool true → Reads (.value tree) (ascii "true" ++ rest) rest) ∧
      (tree = .bool false → Reads (.value tree) (ascii "false" ++ rest) rest) := by
  refine ⟨?_, ?_, ?_⟩
  · rintro rfl levels fits ends
    obtain ⟨levels, rfl⟩ := fits_level fits
    have read := expectLiteral_append (ascii "null") rest
    have cons : ascii "null" ++ rest = 110 :: (ascii "ull" ++ rest) := rfl
    rw [cons] at read ⊢
    rw [parseValue_cons (by simp [Opening]), read, Tree.value]
    rfl
  · rintro rfl levels fits ends
    obtain ⟨levels, rfl⟩ := fits_level fits
    have read := expectLiteral_append (ascii "true") rest
    have cons : ascii "true" ++ rest = 116 :: (ascii "rue" ++ rest) := rfl
    rw [cons] at read ⊢
    rw [parseValue_cons (by simp [Opening]), read, Tree.value]
    rfl
  · rintro rfl levels fits ends
    obtain ⟨levels, rfl⟩ := fits_level fits
    have read := expectLiteral_append (ascii "false") rest
    have cons : ascii "false" ++ rest = 102 :: (ascii "alse" ++ rest) := rfl
    rw [cons] at read ⊢
    rw [parseValue_cons (by simp [Opening]), read, Tree.value]
    rfl

/-- A number is read up to where it ends. -/
theorem reads_number {literal : Bytes} (rest : Bytes) (number : Number literal) :
    Reads (.value (.number literal)) (literal ++ rest) rest := by
  intro levels fits ends
  obtain ⟨levels, rfl⟩ := fits_level fits
  have short : literal.length < 64 := fits.short literal (by simp [Tree.literals])
  have read := parseNumber_complete number short ends
  obtain ⟨first, tail, split, numeral⟩ := number_opens number
  have opening : Opening first := by
    rcases numeral with minus | digit
    · simp [Opening, minus]
    · simp [Opening, digit]
  obtain ⟨a, b, c, d, e, f⟩ := numeral_ne numeral
  rw [split, List.cons_append] at read ⊢
  rw [parseValue_cons opening, if_neg a, if_neg b, if_neg c, if_neg d, if_neg e, if_neg f, read,
    Tree.value]

/-- A string is read behind its quote. -/
theorem reads_string {text input rest : Bytes} (chars : Chars text input rest) :
    Reads (.value (.string text)) (34 :: input) rest := by
  intro levels fits ends
  obtain ⟨levels, rfl⟩ := fits_level fits
  rw [parseValue_cons (by simp [Opening]), if_pos rfl, parseString_eq_some_iff.mpr chars, Tree.value]
  rfl

/-- An array without items is read. -/
theorem reads_emptyArray {input rest : Bytes} (close : Ws input (93 :: rest)) :
    Reads (.value (.array [])) (91 :: input) rest := by
  intro levels fits ends
  obtain ⟨levels, rfl⟩ := fits_level fits
  rw [parseValue_cons (by simp [Opening]), if_neg (by decide), if_neg (by decide), if_pos rfl,
    parseArray, skipWs_of_ws close (solid_cons rfl), Tree.value, Tree.values]
  rfl

/-- An array whose items are read is read. -/
theorem reads_array {trees : List Tree} {input rest : Bytes}
    (items : Derives (.items trees) input rest) (read : Reads (.items trees) input rest) :
    Reads (.value (.array trees)) (91 :: input) rest := by
  intro levels fits ends
  obtain ⟨levels, rfl⟩ := fits_level fits
  obtain ⟨deep, short⟩ := fits
  rw [Tree.depth] at deep
  rw [Tree.literals] at short
  rw [parseValue_cons (by simp [Opening]), if_neg (by decide), if_neg (by decide), if_pos rfl,
    parseArray_complete items read (Nat.le_of_succ_le_succ deep) short, Tree.value]

/-- An object without members is read. -/
theorem reads_emptyObject {input rest : Bytes} (close : Ws input (125 :: rest)) :
    Reads (.value (.object [])) (123 :: input) rest := by
  intro levels fits ends
  obtain ⟨levels, rfl⟩ := fits_level fits
  rw [parseValue_cons (by simp [Opening]), if_neg (by decide), if_pos rfl, parseObject,
    skipWs_of_ws close (solid_cons rfl), Tree.value, Tree.memberValues]
  rfl

/-- An object whose members are read is read. -/
theorem reads_object {members : List (Bytes × Tree)} {input rest : Bytes}
    (listed : Derives (.members members) input rest) (read : Reads (.members members) input rest) :
    Reads (.value (.object members)) (123 :: input) rest := by
  intro levels fits ends
  obtain ⟨levels, rfl⟩ := fits_level fits
  obtain ⟨deep, short⟩ := fits
  rw [Tree.depth] at deep
  rw [Tree.literals] at short
  rw [parseValue_cons (by simp [Opening]), if_neg (by decide), if_pos rfl,
    parseObject_complete listed read (Nat.le_of_succ_le_succ deep) short, Tree.value]

/-- The last item is read up to the closing bracket. -/
theorem reads_lastItem {tree : Tree} {input start after rest : Bytes} (leading : Ws input start)
    (item : Derives (.value tree) start after) (close : Ws after (93 :: rest))
    (value : Reads (.value tree) start after) : Reads (.items [tree]) input rest := by
  intro levels turns deep short enough
  obtain ⟨turns, rfl⟩ := Nat.exists_eq_add_one.mpr (Nat.zero_lt_of_lt enough)
  rw [Tree.depthItems] at deep
  rw [Tree.literalsItems] at short
  have fits : Fits levels tree :=
    ⟨(le_max_left _ _).trans deep, (List.forall_mem_append.mp short).1⟩
  have read := value levels fits (ends_of_ws close (by decide))
  have closed := skipWs_of_ws close (solid_cons rfl)
  simp only [parseItems, skipWs_value leading item, read, closed, Option.bind_eq_bind,
    Option.bind_some, Tree.values]

/-- An item is read up to the comma, and the others behind it. -/
theorem reads_item {tree : Tree} {trees : List Tree} {input start after next rest : Bytes}
    (leading : Ws input start) (item : Derives (.value tree) start after)
    (comma : Ws after (44 :: next)) (value : Reads (.value tree) start after)
    (later : Reads (.items trees) next rest) : Reads (.items (tree :: trees)) input rest := by
  intro levels turns deep short enough
  obtain ⟨turns, rfl⟩ := Nat.exists_eq_add_one.mpr (Nat.zero_lt_of_lt enough)
  rw [Tree.depthItems] at deep
  rw [Tree.literalsItems] at short
  have begun := skipWs_value leading item
  have fits : Fits levels tree :=
    ⟨(le_max_left _ _).trans deep, (List.forall_mem_append.mp short).1⟩
  have read := value levels fits (ends_of_ws comma (by decide))
  have separated := skipWs_of_ws comma (solid_cons rfl)
  have loop := later levels turns ((le_max_right _ _).trans deep)
    (List.forall_mem_append.mp short).2
    (turns_left (begun ▸ suffix_of_derives item) comma enough)
  simp only [parseItems, begun, read, separated, loop, Option.bind_eq_bind, Option.bind_some,
    Tree.values]

/-- The last member is read up to the closing brace. -/
theorem reads_lastMember {key : Bytes} {tree : Tree} {input start after rest : Bytes}
    (named : Key key input start) (member : Derives (.value tree) start after)
    (close : Ws after (125 :: rest)) (value : Reads (.value tree) start after) :
    Reads (.members [(key, tree)]) input rest := by
  intro levels turns set deep short enough
  obtain ⟨turns, rfl⟩ := Nat.exists_eq_add_one.mpr (Nat.zero_lt_of_lt enough)
  rw [Tree.depthMembers] at deep
  rw [Tree.literalsMembers] at short
  have fits : Fits levels tree :=
    ⟨(le_max_left _ _).trans deep, (List.forall_mem_append.mp short).1⟩
  have read := value levels fits (ends_of_ws close (by decide))
  have closed := skipWs_of_ws close (solid_cons rfl)
  exact (parseMembers_member named member read).2 closed

/-- A member is read up to the comma, and the others behind it. -/
theorem reads_member {key : Bytes} {tree : Tree} {members : List (Bytes × Tree)}
    {input start after next rest : Bytes} (named : Key key input start)
    (member : Derives (.value tree) start after) (comma : Ws after (44 :: next))
    (value : Reads (.value tree) start after) (later : Reads (.members members) next rest) :
    Reads (.members ((key, tree) :: members)) input rest := by
  intro levels turns set deep short enough
  obtain ⟨turns, rfl⟩ := Nat.exists_eq_add_one.mpr (Nat.zero_lt_of_lt enough)
  rw [Tree.depthMembers] at deep
  rw [Tree.literalsMembers] at short
  have fits : Fits levels tree :=
    ⟨(le_max_left _ _).trans deep, (List.forall_mem_append.mp short).1⟩
  have read := value levels fits (ends_of_ws comma (by decide))
  have separated := skipWs_of_ws comma (solid_cons rfl)
  have behind := (suffix_of_derives member).trans (suffix_skipWs_key named)
  have loop := later levels turns (objectSet set key tree.value)
    ((le_max_right _ _).trans deep) (List.forall_mem_append.mp short).2
    (turns_left behind comma enough)
  exact ((parseMembers_member named member read).1 separated).trans loop

/-- The parser reads whatever the grammar derives. -/
theorem reads_of_derives {symbol : Symbol} {input rest : Bytes}
    (derived : Derives symbol input rest) : Reads symbol input rest := by
  induction derived with
  | null rest => exact reads_literal.1 rfl
  | true rest => exact reads_literal.2.1 rfl
  | false rest => exact reads_literal.2.2 rfl
  | number rest number => exact reads_number rest number
  | string chars => exact reads_string chars
  | emptyArray close => exact reads_emptyArray close
  | array items ih => exact reads_array items ih
  | emptyObject close => exact reads_emptyObject close
  | object listed ih => exact reads_object listed ih
  | lastItem leading item close ih => exact reads_lastItem leading item close ih
  | item leading item comma more ih later => exact reads_item leading item comma ih later
  | lastMember named member close ih => exact reads_lastMember named member close ih
  | member named member comma more ih later => exact reads_member named member comma ih later

end Completeness

/-- `ps_json_parse` returns the value of a JSON text within the limits. -/
theorem parse_eq_some_iff {input : Bytes} {value : Value} :
    parse input = some value ↔
      ∃ tree, Text tree input ∧ tree.depth ≤ 32 ∧
        (∀ literal ∈ tree.literals, literal.length < 64) ∧ tree.value = value := by
  constructor
  · intro accepted
    simp only [parse, Option.bind_eq_bind, Option.bind_eq_some_iff, Prod.exists] at accepted
    obtain ⟨read, rest, valueRead, accepted⟩ := accepted
    split_ifs at accepted with ended
    obtain ⟨tree, start, leading, derived, fits, denotes⟩ := parseValue_sound _ _ _ _ valueRead
    have trailing : Ws rest [] := ended ▸ ws_skipWs rest
    refine ⟨tree, ⟨start, rest, leading, derived, trailing⟩, fits.depth, fits.short, ?_⟩
    rw [denotes, Option.some.inj accepted]
  · rintro ⟨tree, ⟨start, rest, leading, derived, trailing⟩, deep, short, rfl⟩
    have blank : Ends rest := by
      obtain ⟨space, rfl, all⟩ := trailing
      intro byte first
      exact Or.inl (all byte (List.mem_of_mem_head? (by simpa using first)))
    have read := reads_of_derives derived maxDepth ⟨deep, short⟩ blank
    have opened : parseValue maxDepth input = parseValue maxDepth start := by
      simp only [maxDepth, parseValue, skipWs_congr leading]
    have ended : skipWs rest = [] := skipWs_of_ws trailing (by simp [Solid])
    simp only [parse, opened, read, ended, Option.bind_eq_bind, Option.bind_some, if_true]

section Cursor

variable {parser other : Bytes → Option (Value × Bytes)} {input : Bytes}

/-- Two parsers agree at every position of an input, and what they read ends within it. -/
structure Agree (parser other : Bytes → Option (Value × Bytes)) (input : Bytes) : Prop where
  same : ∀ place, place <:+ input → parser place = other place
  within : ∀ place value rest, other place = some (value, rest) → rest <:+ place

/-- Parsers that agree on an input agree on the end of it. -/
theorem Agree.tail (agree : Agree parser other input) {place : Bytes} (inside : place <:+ input) :
    Agree parser other place :=
  ⟨fun earlier suffix => agree.same earlier (suffix.trans inside), agree.within⟩

/-- What stands behind the next character that is not white space is a position of the input. -/
theorem suffix_behind {mark : UInt8} {place next : Bytes} (found : skipWs place = mark :: next)
    (inside : place <:+ input) : next <:+ input := by
  have skipped := suffix_of_ws (ws_skipWs place)
  rw [found] at skipped
  exact ((List.suffix_cons mark next).trans skipped).trans inside

/-- The loop of `parse_array` asks for items at positions of its input only. -/
theorem parseItems_agree (turns : Nat) (agree : Agree parser other input) :
    parseItems parser turns input = parseItems other turns input := by
  induction turns generalizing input with
  | zero => rfl
  | succ turns ih =>
    have begun := suffix_of_ws (ws_skipWs input)
    rw [parseItems, parseItems, agree.same _ begun]
    cases read : other (skipWs input) with
    | none => rfl
    | some out =>
      obtain ⟨item, rest⟩ := out
      have ended := agree.within _ _ _ read
      simp only [Option.bind_eq_bind, Option.bind_some]
      split
      · rename_i next comma
        rw [ih (agree.tail (suffix_behind comma (ended.trans begun)))]
      · rfl
      · rfl

/-- The loop of `parse_object` asks for values at positions of its input only. -/
theorem parseMembers_agree (turns : Nat) (set : List (Bytes × Value))
    (agree : Agree parser other input) :
    parseMembers parser turns set input = parseMembers other turns set input := by
  induction turns generalizing set input with
  | zero => rfl
  | succ turns ih =>
    rw [parseMembers, parseMembers]
    split
    · rename_i quoted quote
      have opened : quoted <:+ input := suffix_behind quote (List.suffix_refl input)
      cases keyRead : parseString quoted with
      | none => rfl
      | some out =>
        obtain ⟨key, named⟩ := out
        have keyed := (suffix_of_chars (parseString_eq_some_iff.mp keyRead)).trans opened
        simp only [Option.bind_eq_bind, Option.bind_some]
        split
        · rename_i colon mark
          have valued : skipWs colon <:+ input :=
            (suffix_of_ws (ws_skipWs colon)).trans (suffix_behind mark keyed)
          rw [agree.same _ valued]
          cases read : other (skipWs colon) with
          | none => rfl
          | some out =>
            obtain ⟨value, rest⟩ := out
            have ended := (agree.within _ _ _ read).trans valued
            simp only [Option.bind_some]
            split
            · rename_i next comma
              exact ih _ (agree.tail (suffix_behind comma ended))
            · rfl
            · rfl
        · rfl
    · rfl

/-- A container asks for its values at positions of its input only, whatever comes of it. -/
theorem containers_agree (agree : Agree parser other input) :
    parseArray parser input = parseArray other input ∧
      parseObject parser input = parseObject other input := by
  have begun := agree.tail (suffix_of_ws (ws_skipWs input))
  constructor
  · unfold parseArray
    split
    · rfl
    · rw [parseItems_agree _ begun]
  · unfold parseObject
    split
    · rfl
    · rw [parseMembers_agree _ _ begun]

end Cursor

/-- `ps_json_parse` returns a value exactly when the bytes are a JSON text within the nesting limit
whose number literals are shorter than 64 bytes, and then the value of that text; a value or a key
that is read, at any depth, ends within the input, and containers ask for values within it only,
whether the input is accepted or not. -/
theorem parse_accepts_grammar :
    (∀ input value, parse input = some value ↔
      ∃ tree, Text tree input ∧ tree.depth ≤ 32 ∧
        (∀ literal ∈ tree.literals, literal.length < 64) ∧ tree.value = value) ∧
    (∀ levels input value rest, parseValue levels input = some (value, rest) → rest <:+ input) ∧
    (∀ input key rest, parseString input = some (key, rest) → rest <:+ input) ∧
    ∀ levels input parser, (∀ place, place <:+ input → parser place = parseValue levels place) →
      parseArray parser input = parseArray (parseValue levels) input ∧
        parseObject parser input = parseObject (parseValue levels) input := by
  have within : ∀ levels input value rest, parseValue levels input = some (value, rest) →
      rest <:+ input := by
    intro levels input value rest read
    obtain ⟨tree, start, leading, derived, -, -⟩ := parseValue_sound levels _ _ _ read
    exact (suffix_of_derives derived).trans (suffix_of_ws leading)
  refine ⟨fun _ _ => parse_eq_some_iff, within, ?_, ?_⟩
  · intro input key rest read
    exact suffix_of_chars (parseString_eq_some_iff.mp read)
  · intro levels input parser same
    exact containers_agree ⟨same, within levels⟩

/-- An accepted text is derived, and a trailing comma is derived from nothing. -/
theorem parse_accepts_no_trailing_comma :
    (∃ tree, Text tree (ascii " [true, 1e2] ") ∧ tree.depth ≤ 32) ∧
      ¬∃ tree, Text tree (ascii "[true,]") ∧ tree.depth ≤ 32 ∧
        (∀ literal ∈ tree.literals, literal.length < 64) ∧ tree.value = .array [.bool true] := by
  have result := parse_accepts_grammar.1
  refine ⟨?_, fun derived => ?_⟩
  · have accepted : parse (ascii " [true, 1e2] ") =
        some (.array [.bool true, .number (strtod (ascii "1e2"))]) := rfl
    obtain ⟨tree, text, deep, -, -⟩ := (result _ _).mp accepted
    exact ⟨tree, text, deep⟩
  · have accepted := (result _ _).mpr derived
    have refused : parse (ascii "[true,]") = none := rfl
    rw [refused] at accepted
    contradiction

end PlatformService.Verif.JsonGrammar
