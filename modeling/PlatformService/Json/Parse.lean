import PlatformService.Json.Value

/-!
# The JSON parser

The recursive-descent parser of `json_parse.c`. A parsing function takes the
bytes from the current position on and returns what it read with the bytes that
remain, or nothing where the source calls `fail`; the error texts are left out,
as every caller discards them. Nesting is bounded by the source's own depth
limit, on which the recursion is structural; the three loops are bounded by the
length of their input, of which every turn consumes at least one byte.
-/

namespace PlatformService.Json

open Lib

/-- `skip_ws` -/
def skipWs (input : Bytes) : Bytes :=
  input.dropWhile fun byte => byte = 32 || byte = 9 || byte = 10 || byte = 13

/-- `expect_literal` -/
def expectLiteral (literal input : Bytes) : Option Bytes :=
  if literal.isPrefixOf input then some (input.drop literal.length) else none

/-- The sign and integer part of a number: a lone zero or a run of digits. -/
def scanInteger (input : Bytes) : Option Bytes :=
  match if input.head? = some 45 then input.tail else input with
  | [] => none
  | first :: rest =>
    if first = 48 then some rest
    else if isDigit first then some (rest.dropWhile isDigit) else none

/-- At least one digit. -/
def scanDigits : Bytes → Option Bytes
  | [] => none
  | first :: rest => if isDigit first then some (rest.dropWhile isDigit) else none

/-- The fraction of a number, if it has one. -/
def scanFraction (input : Bytes) : Option Bytes :=
  if input.head? = some 46 then scanDigits input.tail else some input

/-- The exponent of a number, if it has one. -/
def scanExponent (input : Bytes) : Option Bytes :=
  if input.head? = some 101 ∨ input.head? = some 69 then
    let signed := input.tail
    scanDigits (if signed.head? = some 43 ∨ signed.head? = some 45 then signed.tail else signed)
  else some input

/-- `parse_number`: the literal must fit a buffer of 64 bytes with its terminator. -/
def parseNumber (input : Bytes) : Option (Value × Bytes) := do
  let rest ← scanInteger input
  let rest ← scanFraction rest
  let rest ← scanExponent rest
  let literal := input.take (input.length - rest.length)
  if 64 ≤ literal.length then none else some (.number (strtod literal), rest)

/-- One hexadecimal digit. -/
def hexDigit (byte : UInt8) : Option Nat :=
  if 48 ≤ byte ∧ byte ≤ 57 then some (byte.toNat - 48)
  else if 97 ≤ byte ∧ byte ≤ 102 then some (byte.toNat - 97 + 10)
  else if 65 ≤ byte ∧ byte ≤ 70 then some (byte.toNat - 65 + 10)
  else none

/-- `parse_hex4` -/
def parseHex4 : Bytes → Option (Nat × Bytes)
  | a :: b :: c :: d :: rest => do
    let a ← hexDigit a
    let b ← hexDigit b
    let c ← hexDigit c
    let d ← hexDigit d
    some (((a * 16 + b) * 16 + c) * 16 + d, rest)
  | _ => none

/-- `append_utf8`: the encoding of a code point. -/
def utf8 (point : Nat) : Bytes :=
  if point ≤ 0x7F then [point.toUInt8]
  else if point ≤ 0x7FF then [(0xC0 + point / 64).toUInt8, (0x80 + point % 64).toUInt8]
  else if point ≤ 0xFFFF then
    [(0xE0 + point / 4096).toUInt8, (0x80 + point / 64 % 64).toUInt8, (0x80 + point % 64).toUInt8]
  else
    [(0xF0 + point / 262144).toUInt8, (0x80 + point / 4096 % 64).toUInt8,
      (0x80 + point / 64 % 64).toUInt8, (0x80 + point % 64).toUInt8]

/-- The `\u` escape after its `u`, surrogates in pairs only. -/
def parseUnicodeEscape (input : Bytes) : Option (Bytes × Bytes) := do
  let (point, rest) ← parseHex4 input
  if 0xD800 ≤ point ∧ point ≤ 0xDBFF then
    match rest with
    | 92 :: 117 :: rest =>
      let (low, rest) ← parseHex4 rest
      if low < 0xDC00 ∨ 0xDFFF < low then none
      else some (utf8 (0x10000 + (point - 0xD800) * 1024 + (low - 0xDC00)), rest)
    | _ => none
  else if 0xDC00 ≤ point ∧ point ≤ 0xDFFF then none
  else some (utf8 point, rest)

/-- An escape sequence after its backslash. -/
def parseEscape : Bytes → Option (Bytes × Bytes)
  | [] => none
  | escape :: rest =>
    if escape = 34 then some ([34], rest)
    else if escape = 92 then some ([92], rest)
    else if escape = 47 then some ([47], rest)
    else if escape = 98 then some ([8], rest)
    else if escape = 102 then some ([12], rest)
    else if escape = 110 then some ([10], rest)
    else if escape = 114 then some ([13], rest)
    else if escape = 116 then some ([9], rest)
    else if escape = 117 then parseUnicodeEscape rest
    else none

/-- The loop of `parse_string`, from after the opening quote: the decoded text. -/
def parseStringLoop : Nat → Bytes → Option (Bytes × Bytes)
  | 0, _ => none
  | _ + 1, [] => none
  | turns + 1, byte :: rest =>
    if byte = 34 then some ([], rest)
    else if byte < 0x20 then none
    else do
      let (decoded, rest) ← if byte = 92 then parseEscape rest else some ([byte], rest)
      let (text, rest) ← parseStringLoop turns rest
      some (decoded ++ text, rest)

/-- `parse_string` -/
def parseString (input : Bytes) : Option (Bytes × Bytes) := parseStringLoop (input.length + 1) input

section Containers

variable (parseItem : Bytes → Option (Value × Bytes))

/-- The loop of `parse_array`. -/
def parseItems : Nat → Bytes → Option (List Value × Bytes)
  | 0, _ => none
  | turns + 1, input => do
    let (item, rest) ← parseItem (skipWs input)
    match skipWs rest with
    | 44 :: rest =>
      let (items, rest) ← parseItems turns rest
      some (item :: items, rest)
    | 93 :: rest => some ([item], rest)
    | _ => none

/-- `parse_array`, from after the opening bracket. -/
def parseArray (input : Bytes) : Option (Value × Bytes) :=
  match skipWs input with
  | 93 :: rest => some (.array [], rest)
  | rest => (parseItems parseItem (rest.length + 1) rest).map fun (items, rest) => (.array items, rest)

/-- The loop of `parse_object`, with the members set so far. -/
def parseMembers : Nat → List (Bytes × Value) → Bytes → Option (List (Bytes × Value) × Bytes)
  | 0, _, _ => none
  | turns + 1, members, input =>
    match skipWs input with
    | 34 :: rest => do
      let (key, rest) ← parseString rest
      match skipWs rest with
      | 58 :: rest =>
        let (value, rest) ← parseItem (skipWs rest)
        let members := objectSet members key value
        match skipWs rest with
        | 44 :: rest => parseMembers turns members rest
        | 125 :: rest => some (members, rest)
        | _ => none
      | _ => none
    | _ => none

/-- `parse_object`, from after the opening brace. -/
def parseObject (input : Bytes) : Option (Value × Bytes) :=
  match skipWs input with
  | 125 :: rest => some (.object [], rest)
  | rest =>
    (parseMembers parseItem (rest.length + 1) [] rest).map fun (members, rest) =>
      (.object members, rest)

end Containers

/-- `parse_value` with the levels of nesting that are left. -/
def parseValue : Nat → Bytes → Option (Value × Bytes)
  | 0, _ => none
  | levels + 1, input =>
    match skipWs input with
    | [] => none
    | first :: rest =>
      if first = 34 then (parseString rest).map fun (text, rest) => (.string text, rest)
      else if first = 123 then parseObject (parseValue levels) rest
      else if first = 91 then parseArray (parseValue levels) rest
      else if first = 116 then
        (expectLiteral (ascii "true") (first :: rest)).map fun rest => (.bool true, rest)
      else if first = 102 then
        (expectLiteral (ascii "false") (first :: rest)).map fun rest => (.bool false, rest)
      else if first = 110 then
        (expectLiteral (ascii "null") (first :: rest)).map fun rest => (.null, rest)
      else if first = 45 ∨ isDigit first then parseNumber (first :: rest)
      else none

/-- `ps_json_parse`: one value and nothing but white space after it. -/
def parse (input : Bytes) : Option Value := do
  let (value, rest) ← parseValue maxDepth input
  if skipWs rest = [] then some value else none

end PlatformService.Json
