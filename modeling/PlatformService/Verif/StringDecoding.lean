import PlatformService.Verif.JsonGrammar

/-!
# What a string literal decodes to

A literal is a sequence of pieces: raw bytes that stand for themselves, and
escapes that stand for a character. The parser accepts exactly these sequences up
to a closing quote, and replaces each escape by the UTF-8 encoding of its
character. A text is UTF-8 here when it is the encoding of some characters, none
of which is a surrogate and each of which has one encoding.
-/

namespace PlatformService.Verif.StringDecoding

open Json Grammar JsonGrammar

section Encoding

/-- The bytes encode some characters in UTF-8. -/
def Valid (bytes : Bytes) : Prop := ∃ chars : List Char, bytes = chars.flatMap String.utf8EncodeChar

/-- A character's encoding is valid. -/
theorem valid_char (char : Char) : Valid (String.utf8EncodeChar char) := ⟨[char], by simp⟩

/-- Valid bytes are valid one after the other. -/
theorem Valid.append {left right : Bytes} (before : Valid left) (after : Valid right) :
    Valid (left ++ right) := by
  obtain ⟨first, rfl⟩ := before
  obtain ⟨second, rfl⟩ := after
  exact ⟨first ++ second, List.flatMap_append.symm⟩

/-- The code points of `char` are those below 0x110000 that are no surrogates. -/
theorem toNat_char (char : Char) :
    char.toNat < 0xD800 ∨ 0xDFFF < char.toNat ∧ char.toNat < 0x110000 := char.valid

/-- A code point that is no surrogate is that of a character. -/
theorem exists_char {point : Nat} (scalar : point < 0xD800 ∨ 0xDFFF < point)
    (small : point < 0x110000) : ∃ char : Char, char.toNat = point := by
  have same : (UInt32.ofNat point).toNat = point := UInt32.toNat_ofNat_of_lt (by
    rw [UInt32.size]
    omega)
  have valid : (UInt32.ofNat point).isValidChar := by
    unfold UInt32.isValidChar Nat.isValidChar
    rw [same]
    omega
  exact ⟨⟨UInt32.ofNat point, valid⟩, same⟩

/-- `append_utf8` appends the UTF-8 encoding of a character. -/
theorem utf8_toNat (char : Char) : utf8 char.toNat = String.utf8EncodeChar char := by
  have range := toNat_char char
  have same : char.val.toNat = char.toNat := rfl
  unfold utf8 String.utf8EncodeChar
  simp only [same]
  have swap (lead rest : Nat) : (lead + rest).toUInt8 = UInt8.ofNat (rest + lead) := by
    rw [Nat.add_comm]
  split_ifs with one two three
  · rfl
  · have high : char.toNat / 64 % 0x20 = char.toNat / 64 := Nat.mod_eq_of_lt (by omega)
    rw [swap, swap, high]
  · have high : char.toNat / 4096 % 0x10 = char.toNat / 4096 := Nat.mod_eq_of_lt (by omega)
    rw [swap, swap, swap, high]
  · have high : char.toNat / 262144 % 0x08 = char.toNat / 262144 := Nat.mod_eq_of_lt (by omega)
    rw [swap, swap, swap, swap, high]

/-- The bytes of `append_utf8` as the source computes them, by shifts, masks and bitwise or. -/
theorem utf8_eq_bits {point : Nat} (small : point < 0x110000) :
    utf8 point =
      if point ≤ 0x7F then [point.toUInt8]
      else if point ≤ 0x7FF then
        [(0xC0 ||| point >>> 6).toUInt8, (0x80 ||| point &&& 0x3F).toUInt8]
      else if point ≤ 0xFFFF then
        [(0xE0 ||| point >>> 12).toUInt8, (0x80 ||| (point >>> 6) &&& 0x3F).toUInt8,
          (0x80 ||| point &&& 0x3F).toUInt8]
      else
        [(0xF0 ||| point >>> 18).toUInt8, (0x80 ||| (point >>> 12) &&& 0x3F).toUInt8,
          (0x80 ||| (point >>> 6) &&& 0x3F).toUInt8, (0x80 ||| point &&& 0x3F).toUInt8] := by
  have masked (bits : Nat) : bits &&& 0x3F = bits % 64 := Nat.and_two_pow_sub_one_eq_mod bits 6
  have two : ∀ bits < 32, 0xC0 ||| bits = 0xC0 + bits := by decide
  have three : ∀ bits < 16, 0xE0 ||| bits = 0xE0 + bits := by decide
  have four : ∀ bits < 5, 0xF0 ||| bits = 0xF0 + bits := by decide
  have trailing : ∀ bits < 64, 0x80 ||| bits = 0x80 + bits := by decide
  unfold utf8
  simp only [masked, Nat.shiftRight_eq_div_pow, trailing _ (Nat.mod_lt _ (by decide : 0 < 64))]
  split_ifs with one double triple
  · rfl
  · rw [two _ (by omega)]
  · rw [three _ (by omega)]
  · rw [four _ (by omega)]

end Encoding

section Pieces

/-- The escapes of one character. -/
def shortEscapes : List (UInt8 × Char) :=
  [(34, '"'), (92, '\\'), (47, '/'), (98, '\x08'), (102, '\x0c'), (110, '\n'), (114, '\r'),
    (116, '\t')]

/-- An escape sequence and the character it stands for. -/
inductive Escape : Bytes → Char → Prop
  /-- A backslash and a letter or sign. -/
  | short {code : UInt8} {char : Char} (known : (code, char) ∈ shortEscapes) : Escape [92, code] char
  /-- `\u` and the code point, which is no surrogate as it is that of a character. -/
  | unicode {digits : Bytes} {char : Char} (hex : Hex4 digits char.toNat) :
    Escape (92 :: 117 :: digits) char
  /-- A high surrogate and a low one, which denote one code point. -/
  | surrogates {first second : Bytes} {high low : Nat} {char : Char} (hexHigh : Hex4 first high)
    (leads : 0xD800 ≤ high ∧ high ≤ 0xDBFF) (hexLow : Hex4 second low)
    (trails : 0xDC00 ≤ low ∧ low ≤ 0xDFFF)
    (denotes : char.toNat = 0x10000 + (high - 0xD800) * 0x400 + (low - 0xDC00)) :
    Escape (92 :: 117 :: (first ++ 92 :: 117 :: second)) char

/-- A piece of a literal: a raw byte, or an escape sequence with its character. -/
inductive Piece where
  | raw (byte : UInt8)
  | escape (text : Bytes) (char : Char)
  deriving DecidableEq

namespace Piece

/-- The piece as it stands in the literal. -/
def source : Piece → Bytes
  | .raw byte => [byte]
  | .escape text _ => text

/-- What the piece stands for. -/
def decoded : Piece → Bytes
  | .raw byte => [byte]
  | .escape _ char => String.utf8EncodeChar char

/-- A raw byte is no control character, quote or backslash; an escape stands for its character. -/
def WellFormed : Piece → Prop
  | .raw byte => 0x20 ≤ byte ∧ byte ≠ 34 ∧ byte ≠ 92
  | .escape text char => Escape text char

/-- The piece is an escape. -/
def isEscape : Piece → Bool
  | .raw _ => false
  | .escape _ _ => true

end Piece

/-- The pieces as they stand in the literal. -/
def source (pieces : List Piece) : Bytes := pieces.flatMap Piece.source

/-- What the pieces stand for. -/
def decoded (pieces : List Piece) : Bytes := pieces.flatMap Piece.decoded

/-- The runs of raw bytes before, between and after the escapes. -/
def runs (pieces : List Piece) : List Bytes := (pieces.splitOnP Piece.isEscape).map source

/-- The short escapes of the grammar, with their characters. -/
theorem short_iff {code : UInt8} {decoded : Bytes} :
    (∃ byte, (code, byte) ∈ escapes ∧ decoded = [byte]) ↔
      ∃ char, (code, char) ∈ shortEscapes ∧ decoded = String.utf8EncodeChar char := by
  have same : escapes.map (fun row => (row.1, [row.2])) =
      shortEscapes.map fun row => (row.1, String.utf8EncodeChar row.2) := by decide
  constructor
  · rintro ⟨byte, known, rfl⟩
    have listed : (code, [byte]) ∈ escapes.map fun row => (row.1, [row.2]) :=
      List.mem_map.mpr ⟨_, known, rfl⟩
    rw [same] at listed
    obtain ⟨row, member, equal⟩ := List.mem_map.mp listed
    obtain ⟨rfl, encoded⟩ := Prod.mk.inj equal
    exact ⟨row.2, member, encoded.symm⟩
  · rintro ⟨char, known, rfl⟩
    have listed : (code, String.utf8EncodeChar char) ∈
        shortEscapes.map fun row => (row.1, String.utf8EncodeChar row.2) :=
      List.mem_map.mpr ⟨_, known, rfl⟩
    rw [← same] at listed
    obtain ⟨row, member, equal⟩ := List.mem_map.mp listed
    obtain ⟨rfl, encoded⟩ := Prod.mk.inj equal
    exact ⟨row.2, member, encoded.symm⟩

/-- The value of four hexadecimal digits has sixteen bits. -/
theorem hex4_lt {digits : Bytes} {point : Nat} (hex : Hex4 digits point) : point < 0x10000 := by
  have nibble {byte : UInt8} {value : Nat} (read : hexDigit byte = some value) : value < 16 := by
    unfold hexDigit at read
    split_ifs at read with digit lower upper
    · have high : byte.toNat ≤ 57 := UInt8.le_iff_toNat_le.mp digit.2
      cases read
      omega
    · have high : byte.toNat ≤ 102 := UInt8.le_iff_toNat_le.mp lower.2
      cases read
      omega
    · have high : byte.toNat ≤ 70 := UInt8.le_iff_toNat_le.mp upper.2
      cases read
      omega
  obtain ⟨a, b, c, d, i, j, k, l, -, first, second, third, fourth, rfl⟩ := hex
  have h1 := nibble first
  have h2 := nibble second
  have h3 := nibble third
  have h4 := nibble fourth
  omega

/-- What the pieces of a literal are. -/
def Spells (pieces : List Piece) (text input rest : Bytes) : Prop :=
  (∀ piece ∈ pieces, piece.WellFormed) ∧ input = source pieces ++ 34 :: rest ∧ text = decoded pieces

/-- A piece in front of a literal. -/
theorem spells_cons (piece : Piece) {text input rest : Bytes} (fine : piece.WellFormed)
    (found : ∃ pieces, Spells pieces text input rest) :
    ∃ pieces, Spells pieces (piece.decoded ++ text) (piece.source ++ input) rest := by
  obtain ⟨pieces, each, rfl, rfl⟩ := found
  refine ⟨piece :: pieces, List.forall_mem_cons.mpr ⟨fine, each⟩, ?_, rfl⟩
  simp [source]

/-- A literal is a sequence of pieces and a closing quote, and decodes to what they stand for. -/
theorem chars_iff_pieces {text input rest : Bytes} :
    Chars text input rest ↔ ∃ pieces, Spells pieces text input rest := by
  constructor
  · intro chars
    induction chars with
    | close rest => exact ⟨[], by simp, rfl, rfl⟩
    | @plain byte text input rest printable quote backslash more ih =>
      exact spells_cons (.raw byte) ⟨printable, quote, backslash⟩ ih
    | @escape code byte text input rest known more ih =>
      obtain ⟨char, listed, encoded⟩ := short_iff.mp ⟨byte, known, rfl⟩
      have spelled := spells_cons (.escape [92, code] char) (.short listed) ih
      rw [Piece.decoded, ← encoded] at spelled
      exact spelled
    | @unicode digits point text input rest hex scalar more ih =>
      have small := hex4_lt hex
      obtain ⟨char, rfl⟩ := exists_char scalar (by omega)
      rw [utf8_toNat]
      exact spells_cons (.escape (92 :: 117 :: digits) char) (.unicode hex) ih
    | @surrogates first second high low text input rest hexHigh leads hexLow trails more ih =>
      obtain ⟨char, denotes⟩ : ∃ char : Char,
          char.toNat = 0x10000 + (high - 0xD800) * 1024 + (low - 0xDC00) :=
        exists_char (Or.inr (by omega)) (by omega)
      have spelled := spells_cons (.escape (92 :: 117 :: (first ++ 92 :: 117 :: second)) char)
        (.surrogates hexHigh leads hexLow trails denotes) ih
      rw [← denotes, utf8_toNat]
      simpa [Piece.source, Piece.decoded] using spelled
  · rintro ⟨pieces, each, rfl, rfl⟩
    induction pieces with
    | nil => exact .close rest
    | cons piece pieces ih =>
      obtain ⟨fine, others⟩ := List.forall_mem_cons.mp each
      have more := ih others
      have split : source (piece :: pieces) = piece.source ++ source pieces := List.flatMap_cons
      have joined : decoded (piece :: pieces) = piece.decoded ++ decoded pieces := List.flatMap_cons
      rw [split, joined, List.append_assoc]
      cases piece with
      | raw byte => exact .plain fine.1 fine.2.1 fine.2.2 more
      | escape text char =>
        cases fine with
        | @short code char known =>
          obtain ⟨byte, listed, encoded⟩ := short_iff.mpr ⟨char, known, rfl⟩
          rw [Piece.decoded, encoded]
          exact .escape listed more
        | @unicode digits char hex =>
          have range := toNat_char char
          rw [Piece.decoded, ← utf8_toNat]
          exact .unicode hex (by omega) more
        | @surrogates first second high low char hexHigh leads hexLow trails denotes =>
          have pair := Chars.surrogates hexHigh leads hexLow trails more
          rw [Piece.decoded, ← utf8_toNat, denotes]
          simpa [Piece.source] using pair

end Pieces

section Refusals

/-- What no literal goes on with. -/
inductive Broken : Bytes → Prop
  /-- A raw control character. -/
  | control {byte : UInt8} (rest : Bytes) (control : byte < 0x20) : Broken (byte :: rest)
  /-- A backslash at the end. -/
  | unfinished : Broken [92]
  /-- A backslash before what is no escape. -/
  | unknown {code : UInt8} (rest : Bytes) (unicode : code ≠ 117)
    (unlisted : ∀ char, (code, char) ∉ shortEscapes) : Broken (92 :: code :: rest)
  /-- `\u` without four hexadecimal digits. -/
  | digits {rest : Bytes} (bad : ∀ digits point after, Hex4 digits point → rest ≠ digits ++ after) :
    Broken (92 :: 117 :: rest)
  /-- A low surrogate with no high one before it. -/
  | loneLow {digits : Bytes} {low : Nat} (rest : Bytes) (hex : Hex4 digits low)
    (trails : 0xDC00 ≤ low ∧ low ≤ 0xDFFF) : Broken (92 :: 117 :: (digits ++ rest))
  /-- A high surrogate with no escape behind it that is a low one. -/
  | loneHigh {digits rest : Bytes} {high : Nat} (hex : Hex4 digits high)
    (leads : 0xD800 ≤ high ∧ high ≤ 0xDBFF)
    (unpaired : ∀ second low after, Hex4 second low → 0xDC00 ≤ low ∧ low ≤ 0xDFFF →
      rest ≠ 92 :: 117 :: (second ++ after)) : Broken (92 :: 117 :: (digits ++ rest))

/-- Four hexadecimal digits and what follows them are determined by the text. -/
theorem hex4_unique {first second rest after : Bytes} {left right : Nat} (one : Hex4 first left)
    (other : Hex4 second right) (same : first ++ rest = second ++ after) :
    left = right ∧ first = second ∧ rest = after := by
  have readOne := parseHex4_complete one rest
  have readOther := parseHex4_complete other after
  rw [same, readOther] at readOne
  obtain ⟨points, rests⟩ := Prod.mk.inj (Option.some.inj readOne)
  rw [rests] at same
  exact ⟨points.symm, (List.append_left_inj _).mp same, rests.symm⟩

/-- What follows `\u` in a literal: a code point that is no surrogate, or a pair of surrogates. -/
theorem chars_unicode {text input rest : Bytes} (chars : Chars text (92 :: 117 :: input) rest) :
    ∃ digits point after later, Hex4 digits point ∧ input = digits ++ after ∧
      ((point < 0xD800 ∨ 0xDFFF < point) ∧ Chars later after rest ∨
        (0xD800 ≤ point ∧ point ≤ 0xDBFF) ∧ ∃ second low more, Hex4 second low ∧
          (0xDC00 ≤ low ∧ low ≤ 0xDFFF) ∧ after = 92 :: 117 :: (second ++ more) ∧
          Chars later more rest) := by
  cases chars with
  | plain printable quote backslash more => exact absurd rfl backslash
  | escape known more => exact absurd known (by simp [escapes])
  | unicode hex scalar more => exact ⟨_, _, _, _, hex, rfl, Or.inl ⟨scalar, more⟩⟩
  | surrogates hexHigh leads hexLow trails more =>
    exact ⟨_, _, _, _, hexHigh, rfl, Or.inr ⟨leads, _, _, _, hexLow, trails, rfl, more⟩⟩

/-- No literal starts with what none goes on with. -/
theorem not_chars_of_broken {text input rest : Bytes} (broken : Broken input) :
    ¬Chars text input rest := by
  intro chars
  cases broken with
  | control tail control =>
    cases chars with
    | close rest => exact absurd control (by decide)
    | plain printable quote backslash more => exact absurd control (UInt8.not_lt.mpr printable)
    | escape known more => exact absurd control (by decide)
    | unicode hex scalar more => exact absurd control (by decide)
    | surrogates hexHigh leads hexLow trails more => exact absurd control (by decide)
  | unfinished =>
    cases chars with
    | plain printable quote backslash more => exact backslash rfl
  | unknown tail unicode unlisted =>
    cases chars with
    | plain printable quote backslash more => exact backslash rfl
    | escape known more =>
      obtain ⟨char, listed, -⟩ := short_iff.mp ⟨_, known, rfl⟩
      exact unlisted char listed
    | unicode hex scalar more => exact unicode rfl
    | surrogates hexHigh leads hexLow trails more => exact unicode rfl
  | digits bad =>
    obtain ⟨digits, point, after, _, hex, same, -⟩ := chars_unicode chars
    exact bad digits point after hex same
  | loneLow tail hex trails =>
    obtain ⟨digits, point, after, _, read, same, kinds⟩ := chars_unicode chars
    obtain ⟨rfl, -, -⟩ := hex4_unique hex read same
    rcases kinds with ⟨scalar, -⟩ | ⟨leads, -⟩
    · omega
    · omega
  | loneHigh hex leads unpaired =>
    obtain ⟨digits, point, after, _, read, same, kinds⟩ := chars_unicode chars
    obtain ⟨rfl, -, rfl⟩ := hex4_unique hex read same
    rcases kinds with ⟨scalar, -⟩ | ⟨-, second, low, more, hexLow, trails, paired, -⟩
    · omega
    · exact unpaired second low more hexLow trails paired

/-- A literal behind a piece. -/
theorem chars_behind {piece : Piece} {text input rest : Bytes} (fine : piece.WellFormed)
    (chars : Chars text (piece.source ++ input) rest) : ∃ later, Chars later input rest := by
  cases piece with
  | raw byte =>
    obtain ⟨-, quote, backslash⟩ := fine
    cases chars with
    | close rest => exact absurd rfl quote
    | plain printable quote backslash more => exact ⟨_, more⟩
    | escape known more => exact absurd rfl backslash
    | unicode hex scalar more => exact absurd rfl backslash
    | surrogates hexHigh leads hexLow trails more => exact absurd rfl backslash
  | escape text char =>
    cases fine with
    | short known =>
      have listed (char : Char) : (117, char) ∉ shortEscapes := by simp [shortEscapes]
      cases chars with
      | plain printable quote backslash more => exact absurd rfl backslash
      | escape known more => exact ⟨_, more⟩
      | unicode hex scalar more => exact absurd known (listed _)
      | surrogates hexHigh leads hexLow trails more => exact absurd known (listed _)
    | @unicode digits _ hex =>
      have range := toNat_char char
      obtain ⟨_, point, after, later, read, same, kinds⟩ := chars_unicode chars
      obtain ⟨rfl, -, rfl⟩ := hex4_unique hex read same
      rcases kinds with ⟨-, more⟩ | ⟨leads, -⟩
      · exact ⟨later, more⟩
      · omega
    | @surrogates first second high low _ hexHigh leads hexLow trails denotes =>
      have unicode : Chars text (92 :: 117 :: (first ++ 92 :: 117 :: (second ++ input))) rest := by
        simpa [Piece.source] using chars
      obtain ⟨_, point, after, later, read, same, kinds⟩ := chars_unicode unicode
      obtain ⟨rfl, -, rfl⟩ := hex4_unique hexHigh read same
      rcases kinds with ⟨scalar, -⟩ | ⟨-, other, trail, more, readLow, -, paired, chars⟩
      · omega
      · simp only [List.cons.injEq, true_and] at paired
        obtain ⟨-, -, rfl⟩ := hex4_unique hexLow readLow paired
        exact ⟨later, chars⟩

/-- The text is some pieces up to its end or up to what no literal goes on with. -/
def Refused (input : Bytes) : Prop :=
  ∃ pieces rest, (∀ piece ∈ pieces, Piece.WellFormed piece) ∧ input = source pieces ++ rest ∧
    (rest = [] ∨ Broken rest)

/-- A piece in front of a text that is refused. -/
theorem refused_cons {piece : Piece} {input : Bytes} (fine : piece.WellFormed)
    (refused : Refused input) : Refused (piece.source ++ input) := by
  obtain ⟨pieces, rest, each, rfl, stops⟩ := refused
  refine ⟨piece :: pieces, rest, List.forall_mem_cons.mpr ⟨fine, each⟩, ?_, stops⟩
  simp [source]

/-- A text that breaks at once is refused. -/
theorem refused_of_broken {input : Bytes} (broken : Broken input) : Refused input :=
  ⟨[], input, by simp, rfl, Or.inr broken⟩

/-- A refused text starts with no literal. -/
theorem not_chars_of_refused {text input rest : Bytes} (refused : Refused input) :
    ¬Chars text input rest := by
  obtain ⟨pieces, tail, each, rfl, stops⟩ := refused
  intro chars
  induction pieces generalizing text with
  | nil =>
    rcases stops with rfl | broken
    · cases chars
    · exact not_chars_of_broken broken chars
  | cons piece pieces ih =>
    obtain ⟨fine, others⟩ := List.forall_mem_cons.mp each
    have split : source (piece :: pieces) = piece.source ++ source pieces := List.flatMap_cons
    rw [split, List.append_assoc] at chars
    obtain ⟨later, more⟩ := chars_behind fine chars
    exact ih others more

/-- A text that starts with a literal, or one that is refused. -/
def Settled (input : Bytes) : Prop := (∃ text rest, Chars text input rest) ∨ Refused input

/-- A piece in front of a settled text. -/
theorem settled_cons (piece : Piece) {input : Bytes} (fine : piece.WellFormed)
    (settled : Settled input) : Settled (piece.source ++ input) := by
  rcases settled with ⟨text, rest, chars⟩ | refused
  · obtain ⟨pieces, spelled⟩ := spells_cons piece fine (chars_iff_pieces.mp chars)
    exact Or.inl ⟨_, rest, chars_iff_pieces.mpr ⟨pieces, spelled⟩⟩
  · exact Or.inr (refused_cons fine refused)

/-- What follows `\u` is settled if all that is shorter is. -/
theorem settled_unicode {input : Bytes}
    (shorter : ∀ rest : Bytes, rest.length ≤ input.length → Settled rest) :
    Settled (92 :: 117 :: input) := by
  by_cases read : ∃ digits point after, Hex4 digits point ∧ input = digits ++ after
  · obtain ⟨digits, point, after, hex, rfl⟩ := read
    have below : after.length ≤ (digits ++ after).length := by simp
    have small := hex4_lt hex
    by_cases leads : 0xD800 ≤ point ∧ point ≤ 0xDBFF
    · by_cases paired : ∃ second low more, Hex4 second low ∧ (0xDC00 ≤ low ∧ low ≤ 0xDFFF) ∧
          after = 92 :: 117 :: (second ++ more)
      · obtain ⟨second, low, more, hexLow, trails, rfl⟩ := paired
        obtain ⟨char, denotes⟩ : ∃ char : Char,
            char.toNat = 0x10000 + (point - 0xD800) * 0x400 + (low - 0xDC00) :=
          exists_char (Or.inr (by omega)) (by omega)
        have whole := settled_cons (.escape (92 :: 117 :: (digits ++ 92 :: 117 :: second)) char)
          (.surrogates hex leads hexLow trails denotes) (shorter more (by simp; omega))
        simpa [Piece.source] using whole
      · apply Or.inr
        apply refused_of_broken
        apply Broken.loneHigh hex leads
        intro second low more hexLow trails same
        exact paired ⟨second, low, more, hexLow, trails, same⟩
    · by_cases trails : 0xDC00 ≤ point ∧ point ≤ 0xDFFF
      · exact Or.inr (refused_of_broken (.loneLow after hex trails))
      · obtain ⟨char, rfl⟩ : ∃ char : Char, char.toNat = point := exists_char (by omega) (by omega)
        exact settled_cons (.escape (92 :: 117 :: digits) char) (.unicode hex) (shorter after below)
  · apply Or.inr
    apply refused_of_broken
    apply Broken.digits
    intro digits point after hex same
    exact read ⟨digits, point, after, hex, same⟩

/-- A text starts with a literal or is refused. -/
theorem settled (input : Bytes) : Settled input := by
  induction size : input.length using Nat.strong_induction_on generalizing input with
  | _ length ih =>
    have shorter (rest : Bytes) (less : rest.length < input.length) : Settled rest :=
      ih rest.length (size ▸ less) rest rfl
    cases input with
    | nil => exact Or.inr ⟨[], [], by simp, rfl, Or.inl rfl⟩
    | cons byte input =>
      by_cases quote : byte = 34
      · rw [quote]
        exact Or.inl ⟨[], input, .close input⟩
      by_cases control : byte < 0x20
      · exact Or.inr (refused_of_broken (.control input control))
      by_cases raw : byte ≠ 92
      · exact settled_cons (.raw byte) ⟨UInt8.not_lt.mp control, quote, raw⟩
          (shorter input (Nat.lt_succ_self _))
      rw [not_not.mp raw]
      cases input with
      | nil => exact Or.inr (refused_of_broken .unfinished)
      | cons code input =>
        by_cases known : ∃ char, (code, char) ∈ shortEscapes
        · obtain ⟨char, listed⟩ := known
          exact settled_cons (.escape [92, code] char) (.short listed) (shorter input (by simp))
        by_cases unicode : code ≠ 117
        · exact Or.inr (refused_of_broken (.unknown input unicode (not_exists.mp known)))
        rw [not_not.mp unicode]
        exact settled_unicode fun rest less => shorter rest (by simp; omega)

end Refusals

section Utf8

/-- Raw bytes before some pieces and the first run of these are followed by the other runs. -/
theorem valid_decoded_from {before : Bytes} {pieces : List Piece}
    (first : Valid (before ++ source ((pieces.splitOnP Piece.isEscape).headD [])))
    (later : ∀ run ∈ (pieces.splitOnP Piece.isEscape).tail, Valid (source run)) :
    Valid (before ++ decoded pieces) := by
  induction pieces generalizing before with
  | nil => simpa [List.splitOnP_nil, source, decoded] using first
  | cons piece pieces ih =>
    have joined : decoded (piece :: pieces) = piece.decoded ++ decoded pieces := List.flatMap_cons
    obtain ⟨run, others, split⟩ := List.exists_cons_of_ne_nil
      (List.splitOnP_ne_nil Piece.isEscape pieces)
    rw [joined]
    cases piece with
    | raw byte =>
      have here : (Piece.raw byte :: pieces).splitOnP Piece.isEscape = (.raw byte :: run) :: others := by
        rw [List.splitOnP_cons_eq_if_modifyHead, split]
        rfl
      rw [here] at first later
      rw [split] at ih
      have begun : Valid ((before ++ [byte]) ++ source run) := by
        simpa [source, Piece.source] using first
      have rest := ih begun later
      simpa [Piece.decoded] using rest
    | escape text char =>
      have here : (Piece.escape text char :: pieces).splitOnP Piece.isEscape = [] :: run :: others := by
        rw [List.splitOnP_cons_eq_if_modifyHead, split]
        rfl
      rw [here] at first later
      rw [split] at ih
      obtain ⟨next, more⟩ := List.forall_mem_cons.mp later
      have rest : Valid ([] ++ decoded pieces) := ih next more
      have start : Valid before := by simpa [source] using first
      exact start.append ((valid_char char).append rest)

/-- When the runs of raw bytes are UTF-8, so is what the literal decodes to. -/
theorem valid_decoded {pieces : List Piece} (each : ∀ run ∈ runs pieces, Valid run) :
    Valid (decoded pieces) := by
  have raw (run : List Piece) (listed : run ∈ pieces.splitOnP Piece.isEscape) : Valid (source run) :=
    each _ (List.mem_map_of_mem listed)
  obtain ⟨run, others, split⟩ := List.exists_cons_of_ne_nil
    (List.splitOnP_ne_nil Piece.isEscape pieces)
  rw [split] at raw
  have whole : Valid ([] ++ decoded pieces) := by
    apply valid_decoded_from
    · rw [split]
      exact raw run List.mem_cons_self
    · rw [split]
      exact fun other listed => raw other (List.mem_cons_of_mem _ listed)
  exact whole

end Utf8

/-- `parse_string` accepts exactly the sequences of raw bytes and escapes up to a quote, and decodes
them piece by piece; it refuses exactly what ends or breaks before a quote; and what it decodes is
UTF-8 when each run of raw bytes between the escapes is. -/
theorem strings_decoded_exactly :
    (∀ input text rest, parseString input = some (text, rest) ↔
      ∃ pieces : List Piece, (∀ piece ∈ pieces, piece.WellFormed) ∧
        input = source pieces ++ 34 :: rest ∧ text = decoded pieces) ∧
    (∀ input, parseString input = none ↔
      ∃ pieces rest, (∀ piece ∈ pieces, Piece.WellFormed piece) ∧ input = source pieces ++ rest ∧
        (rest = [] ∨ Broken rest)) ∧
    ∀ pieces, (∀ run ∈ runs pieces, Valid run) → Valid (decoded pieces) := by
  refine ⟨fun input text rest => ?_, fun input => ?_, fun pieces => valid_decoded⟩
  · rw [parseString_eq_some_iff]
    exact chars_iff_pieces
  · constructor
    · intro refused
      rcases settled input with ⟨text, rest, chars⟩ | stops
      · rw [parseString_eq_some_iff.mpr chars] at refused
        contradiction
      · exact stops
    · intro stops
      cases read : parseString input with
      | none => rfl
      | some result =>
        exact (not_chars_of_refused stops (parseString_eq_some_iff.mp read)).elim

/-- A lead byte is followed by a continuation byte. -/
theorem not_valid_of_lead {next : UInt8} {rest : Bytes} (ascii : next < 0x80) :
    ¬Valid (0xC3 :: next :: rest) := by
  rintro ⟨chars, same⟩
  have low : next.toNat < 128 := UInt8.lt_iff_toNat_lt.mp ascii
  cases chars with
  | nil => contradiction
  | cons char chars =>
    rw [List.flatMap_cons] at same
    have trail (bits : Nat) : (UInt8.ofNat (bits % 0x40 + 0x80)).toNat = bits % 0x40 + 0x80 :=
      Nat.mod_eq_of_lt (by omega)
    have continues (bits : Nat) : next ≠ UInt8.ofNat (bits % 0x40 + 0x80) := by
      intro equal
      rw [equal, trail] at low
      omega
    unfold String.utf8EncodeChar at same
    dsimp only at same
    split_ifs at same with one two three
    · have size : (UInt8.ofNat char.val.toNat).toNat = char.val.toNat := Nat.mod_eq_of_lt (by omega)
      have lead : 0xC3 = char.val.toNat := size ▸ congrArg UInt8.toNat (List.cons.inj same).1
      omega
    · exact continues _ (List.cons.inj (List.cons.inj same).2).1
    · exact continues _ (List.cons.inj (List.cons.inj same).2).1
    · exact continues _ (List.cons.inj (List.cons.inj same).2).1

/-- An escape in the middle of a two-byte sequence: the raw bytes together are UTF-8, and what the
literal decodes to is not. -/
theorem split_sequence_not_utf8 :
    ∃ pieces : List Piece, (∀ piece ∈ pieces, piece.WellFormed) ∧
      parseString (source pieces ++ [34]) = some (decoded pieces, []) ∧
      Valid (runs pieces).flatten ∧ ¬Valid (decoded pieces) := by
  refine ⟨[.raw 0xC3, .escape (ascii "\\n") '\n', .raw 0xA9], ?_, by decide +kernel, ⟨['é'], rfl⟩,
    not_valid_of_lead (by decide)⟩
  intro piece listed
  simp only [List.mem_cons, List.not_mem_nil, or_false] at listed
  rcases listed with rfl | rfl | rfl
  · exact ⟨by decide, by decide, by decide⟩
  · exact .short (by decide)
  · exact ⟨by decide, by decide, by decide⟩

end PlatformService.Verif.StringDecoding
