import PlatformService.Json.Parse

/-!
# The JSON grammar

The grammar of RFC 8259 as a relation between positions of a text, with the value
of a text as a syntax tree. Strings may hold any byte from 0x20 on, and `\u`
surrogates stand in pairs. The tree keeps what a value forgets: the literal of a
number and every member of an object, in order and with repetitions. How deep a
tree is nested and which literals it holds are functions of the tree.
-/

namespace PlatformService.Json

open Lib

/-- A syntax tree. -/
inductive Tree where
  | null
  | bool (value : Bool)
  | number (literal : Bytes)
  | string (text : Bytes)
  | array (items : List Tree)
  | object (members : List (Bytes × Tree))

namespace Tree

mutual
/-- The nesting depth, one for a scalar or an empty container. -/
def depth : Tree → Nat
  | .array items => depthItems items + 1
  | .object members => depthMembers members + 1
  | _ => 1

/-- The depth of the deepest item. -/
def depthItems : List Tree → Nat
  | [] => 0
  | tree :: trees => max tree.depth (depthItems trees)

/-- The depth of the deepest member. -/
def depthMembers : List (Bytes × Tree) → Nat
  | [] => 0
  | (_, tree) :: members => max tree.depth (depthMembers members)
end

mutual
/-- The number literals of a tree. -/
def literals : Tree → List Bytes
  | .number literal => [literal]
  | .array items => literalsItems items
  | .object members => literalsMembers members
  | _ => []

/-- The number literals of the items. -/
def literalsItems : List Tree → List Bytes
  | [] => []
  | tree :: trees => tree.literals ++ literalsItems trees

/-- The number literals of the members. -/
def literalsMembers : List (Bytes × Tree) → List Bytes
  | [] => []
  | (_, tree) :: members => tree.literals ++ literalsMembers members
end

/-- The members of an object after each of a list is set in turn. -/
def setAll (members : List (Bytes × Value)) (more : List (Bytes × Value)) : List (Bytes × Value) :=
  more.foldl (fun members member => objectSet members member.1 member.2) members

mutual
/-- The value a tree denotes: a repeated key keeps its first place and takes its last value. -/
def value : Tree → Value
  | .null => .null
  | .bool value => .bool value
  | .number literal => .number (strtod literal)
  | .string text => .string text
  | .array items => .array (values items)
  | .object members => .object (setAll [] (memberValues members))

/-- The values of the items. -/
def values : List Tree → List Value
  | [] => []
  | tree :: trees => tree.value :: values trees

/-- The values of the members. -/
def memberValues : List (Bytes × Tree) → List (Bytes × Value)
  | [] => []
  | (key, tree) :: members => (key, tree.value) :: memberValues members
end

end Tree

namespace Grammar

/-- A white space character. -/
def isWs (byte : UInt8) : Bool := byte = 32 || byte = 9 || byte = 10 || byte = 13

/-- `ws`: white space from one position to another. -/
def Ws (input rest : Bytes) : Prop := ∃ blank, input = blank ++ rest ∧ ∀ byte ∈ blank, isWs byte

/-- `1*DIGIT` -/
def Digits (text : Bytes) : Prop := text ≠ [] ∧ ∀ byte ∈ text, isDigit byte

/-- `int`: a lone zero, or digits of which the first is not zero. -/
def Integer (text : Bytes) : Prop := text = [48] ∨ Digits text ∧ text.head? ≠ some 48

/-- `[ frac ]` -/
def Fraction (text : Bytes) : Prop := text = [] ∨ ∃ digits, text = 46 :: digits ∧ Digits digits

/-- `[ exp ]` -/
def Exponent (text : Bytes) : Prop :=
  text = [] ∨ ∃ mark sign digits, text = mark :: (sign ++ digits) ∧ (mark = 101 ∨ mark = 69) ∧
    (sign = [] ∨ sign = [43] ∨ sign = [45]) ∧ Digits digits

/-- `number` -/
def Number (literal : Bytes) : Prop :=
  ∃ sign integer fraction exponent, literal = sign ++ (integer ++ (fraction ++ exponent)) ∧
    (sign = [] ∨ sign = [45]) ∧ Integer integer ∧ Fraction fraction ∧ Exponent exponent

/-- The escapes of one character and what they stand for. -/
def escapes : List (UInt8 × UInt8) :=
  [(34, 34), (92, 92), (47, 47), (98, 8), (102, 12), (110, 10), (114, 13), (116, 9)]

/-- `4HEXDIG` and its value. -/
def Hex4 (digits : Bytes) (point : Nat) : Prop :=
  ∃ a b c d i j k l, digits = [a, b, c, d] ∧ hexDigit a = some i ∧ hexDigit b = some j ∧
    hexDigit c = some k ∧ hexDigit d = some l ∧ point = 4096 * i + 256 * j + 16 * k + l

/-- `*char quotation-mark`: the text that the characters up to a closing quote stand for. -/
inductive Chars : Bytes → Bytes → Bytes → Prop
  | close (rest : Bytes) : Chars [] (34 :: rest) rest
  | plain {byte : UInt8} {text input rest : Bytes} (printable : 0x20 ≤ byte) (quote : byte ≠ 34)
      (backslash : byte ≠ 92) (more : Chars text input rest) :
      Chars (byte :: text) (byte :: input) rest
  | escape {code byte : UInt8} {text input rest : Bytes} (known : (code, byte) ∈ escapes)
      (more : Chars text input rest) :
      Chars (byte :: text) (92 :: code :: input) rest
  | unicode {digits : Bytes} {point : Nat} {text input rest : Bytes} (hex : Hex4 digits point)
      (scalar : point < 0xD800 ∨ 0xDFFF < point) (more : Chars text input rest) :
      Chars (utf8 point ++ text) (92 :: 117 :: (digits ++ input)) rest
  | surrogates {first second : Bytes} {high low : Nat} {text input rest : Bytes}
      (hexHigh : Hex4 first high) (leads : 0xD800 ≤ high ∧ high ≤ 0xDBFF)
      (hexLow : Hex4 second low) (trails : 0xDC00 ≤ low ∧ low ≤ 0xDFFF)
      (more : Chars text input rest) :
      Chars (utf8 (0x10000 + (high - 0xD800) * 1024 + (low - 0xDC00)) ++ text)
        (92 :: 117 :: (first ++ 92 :: 117 :: (second ++ input))) rest

/-- What the grammar derives. -/
inductive Symbol where
  /-- `value` -/
  | value (tree : Tree)
  /-- `value *( value-separator value ) end-array` -/
  | items (trees : List Tree)
  /-- `member *( value-separator member ) end-object` -/
  | members (members : List (Bytes × Tree))

/-- `string name-separator`: a member's key up to its value, with the space around it. -/
def Key (key input rest : Bytes) : Prop :=
  ∃ quoted named colon, Ws input (34 :: quoted) ∧ Chars key quoted named ∧
    Ws named (58 :: colon) ∧ Ws colon rest

/-- A symbol spans a text from one position to another. -/
inductive Derives : Symbol → Bytes → Bytes → Prop
  | null (rest : Bytes) : Derives (.value .null) (ascii "null" ++ rest) rest
  | true (rest : Bytes) : Derives (.value (.bool true)) (ascii "true" ++ rest) rest
  | false (rest : Bytes) : Derives (.value (.bool false)) (ascii "false" ++ rest) rest
  | number {literal : Bytes} (rest : Bytes) (number : Number literal) :
      Derives (.value (.number literal)) (literal ++ rest) rest
  | string {text input rest : Bytes} (chars : Chars text input rest) :
      Derives (.value (.string text)) (34 :: input) rest
  | emptyArray {input rest : Bytes} (close : Ws input (93 :: rest)) :
      Derives (.value (.array [])) (91 :: input) rest
  | array {trees : List Tree} {input rest : Bytes} (items : Derives (.items trees) input rest) :
      Derives (.value (.array trees)) (91 :: input) rest
  | emptyObject {input rest : Bytes} (close : Ws input (125 :: rest)) :
      Derives (.value (.object [])) (123 :: input) rest
  | object {members : List (Bytes × Tree)} {input rest : Bytes}
      (listed : Derives (.members members) input rest) :
      Derives (.value (.object members)) (123 :: input) rest
  | lastItem {tree : Tree} {input start after rest : Bytes} (leading : Ws input start)
      (item : Derives (.value tree) start after) (close : Ws after (93 :: rest)) :
      Derives (.items [tree]) input rest
  | item {tree : Tree} {trees : List Tree} {input start after next rest : Bytes}
      (leading : Ws input start) (item : Derives (.value tree) start after)
      (comma : Ws after (44 :: next)) (more : Derives (.items trees) next rest) :
      Derives (.items (tree :: trees)) input rest
  | lastMember {key : Bytes} {tree : Tree} {input start after rest : Bytes}
      (named : Key key input start) (member : Derives (.value tree) start after)
      (close : Ws after (125 :: rest)) :
      Derives (.members [(key, tree)]) input rest
  | member {key : Bytes} {tree : Tree} {members : List (Bytes × Tree)}
      {input start after next rest : Bytes} (named : Key key input start)
      (member : Derives (.value tree) start after) (comma : Ws after (44 :: next))
      (more : Derives (.members members) next rest) :
      Derives (.members ((key, tree) :: members)) input rest

/-- `JSON-text`: one value with white space around it. -/
def Text (tree : Tree) (input : Bytes) : Prop :=
  ∃ start rest, Ws input start ∧ Derives (.value tree) start rest ∧ Ws rest []

end Grammar

end PlatformService.Json
