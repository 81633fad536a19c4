import PlatformService.Json.Value

/-!
# The JSON writer

`json_write.c`. The writer refuses values nested deeper than the parser accepts,
writes keys as the C strings they are, and has no numeral for an infinity, which
it writes as `null`. A numeral of `%.17g` always fits the writer's buffer.
-/

namespace PlatformService.Json

open Lib

/-- A hexadecimal digit of `%x`. -/
def hexByte (value : Nat) : UInt8 := if value < 10 then (48 + value).toUInt8 else (87 + value).toUInt8

/-- What `write_string` appends for one byte. -/
def escapeByte (byte : UInt8) : Bytes :=
  if byte = 34 then [92, 34]
  else if byte = 92 then [92, 92]
  else if byte = 8 then [92, 98]
  else if byte = 12 then [92, 102]
  else if byte = 10 then [92, 110]
  else if byte = 13 then [92, 114]
  else if byte = 9 then [92, 116]
  else if byte < 0x20 then [92, 117, 48, 48, hexByte (byte.toNat / 16), hexByte (byte.toNat % 16)]
  else [byte]

/-- `write_string` -/
def writeString (text : Bytes) : Bytes := [34] ++ text.flatMap escapeByte ++ [34]

/-- `write_number` -/
def writeNumber : Binary64 → Bytes
  | .finite number => formatG17 number
  | .infinite _ => ascii "null"

/-- Parts separated by commas. -/
def joinParts : List Bytes → Bytes
  | [] => []
  | [part] => part
  | part :: parts => part ++ [44] ++ joinParts parts

/-- `write_value` with the levels of nesting that are left. -/
def writeValue : Nat → Value → Option Bytes
  | 0, _ => none
  | _ + 1, .null => some (ascii "null")
  | _ + 1, .bool true => some (ascii "true")
  | _ + 1, .bool false => some (ascii "false")
  | _ + 1, .number number => some (writeNumber number)
  | _ + 1, .string text => some (writeString text)
  | levels + 1, .array items => do
    let parts ← items.mapM fun item => writeValue levels item
    some ([91] ++ joinParts parts ++ [93])
  | levels + 1, .object members => do
    let parts ← members.mapM fun (key, value) => do
      some (writeString (cString key) ++ [58] ++ (← writeValue levels value))
    some ([123] ++ joinParts parts ++ [125])

/-- `ps_json_write` -/
def write (value : Value) : Option Bytes := writeValue maxDepth value

end PlatformService.Json
