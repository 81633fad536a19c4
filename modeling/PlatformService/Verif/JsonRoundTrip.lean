import PlatformService.Json.Parse
import PlatformService.Json.Write

/-!
# Parsing what was written

A value tree that the writer accepts, whose keys are distinct C strings and whose
numbers read back from their numerals, is parsed back from its text. The proof
follows the writer: one lemma for strings, one for each kind of container, and an
induction on the levels of nesting. Whole numbers of at most 53 bits are the
numbers the service writes; they read back because `%.17g` prints their digits.
-/

namespace PlatformService.Verif.JsonRoundTrip

open Lib Json

/-- What follows a value in a written text: nothing, or a byte that ends every token. -/
def Terminated (rest : Bytes) : Prop :=
  ∀ byte ∈ rest.head?, byte = 44 ∨ byte = 93 ∨ byte = 125

/-- The first byte of a written value. -/
def Opening (byte : UInt8) : Prop :=
  byte = 34 ∨ byte = 123 ∨ byte = 91 ∨ byte = 116 ∨ byte = 102 ∨ byte = 110 ∨ byte = 45 ∨
    isDigit byte = true

/-- A number that is parsed back from its numeral. -/
def Readable (number : Binary64) : Prop :=
  ∃ first digits, writeNumber number = first :: digits ∧ (first = 45 ∨ isDigit first = true) ∧
    ∀ rest, Terminated rest →
      parseNumber (writeNumber number ++ rest) = some (.number number, rest)

/-- Values the writer accepts at a nesting level and the parser reads back. -/
def Plain : Nat → Value → Prop
  | 0, _ => False
  | _ + 1, .number number => Readable number
  | levels + 1, .array items => ∀ item ∈ items, Plain levels item
  | levels + 1, .object members =>
    (members.map Prod.fst).Nodup ∧ ∀ member ∈ members, (0 : UInt8) ∉ member.1 ∧ Plain levels member.2
  | _ + 1, _ => True

/-- White space is skipped up to the first other byte. -/
theorem skipWs_cons {byte : UInt8} {rest : Bytes}
    (solid : byte ≠ 32 ∧ byte ≠ 9 ∧ byte ≠ 10 ∧ byte ≠ 13) :
    skipWs (byte :: rest) = byte :: rest := by
  unfold skipWs
  rw [List.dropWhile_cons_of_neg]
  simp [solid]

/-- An opening byte is no white space. -/
theorem Opening.solid {byte : UInt8} (opening : Opening byte) :
    byte ≠ 32 ∧ byte ≠ 9 ∧ byte ≠ 10 ∧ byte ≠ 13 := by
  rcases opening with rfl | rfl | rfl | rfl | rfl | rfl | rfl | digit
  all_goals try decide
  refine ⟨?_, ?_, ?_, ?_⟩
  all_goals
    rintro rfl
    revert digit
    decide

/-- An opening byte closes nothing. -/
theorem Opening.ne_close {byte : UInt8} (opening : Opening byte) : byte ≠ 93 ∧ byte ≠ 125 := by
  rcases opening with rfl | rfl | rfl | rfl | rfl | rfl | rfl | digit
  all_goals try decide
  refine ⟨?_, ?_⟩
  all_goals
    rintro rfl
    revert digit
    decide

/-- A hexadecimal digit is read back. -/
theorem hexDigit_hexByte {value : Nat} (small : value < 16) : hexDigit (hexByte value) = some value := by
  have table : ∀ v < 16, hexDigit (hexByte v) = some v := by decide
  exact table value small

/-- A control character is decoded from its four hexadecimal digits. -/
theorem parseUnicodeEscape_control {byte : UInt8} (control : byte < 0x20) (rest : Bytes) :
    parseUnicodeEscape
      ([48, 48, hexByte (byte.toNat / 16), hexByte (byte.toNat % 16)] ++ rest) =
        some ([byte], rest) := by
  have small : byte.toNat < 32 := by simpa [UInt8.lt_iff_toNat_lt] using control
  have high := @hexDigit_hexByte (byte.toNat / 16) (by omega)
  have low := @hexDigit_hexByte (byte.toNat % 16) (by omega)
  have zero : hexDigit 48 = some 0 := by decide
  have point : ((0 * 16 + 0) * 16 + byte.toNat / 16) * 16 + byte.toNat % 16 = byte.toNat := by omega
  have encoded : utf8 byte.toNat = [byte] := by
    unfold utf8
    rw [if_pos (by omega)]
    simp
  simp only [List.cons_append, List.nil_append, parseUnicodeEscape, parseHex4, zero, high, low,
    Option.bind_eq_bind, Option.bind_some, point, encoded]
  rw [if_neg (by omega), if_neg (by omega)]

/-- A turn of the string loop on an escape sequence. -/
theorem parseStringLoop_escape {turns : Nat} {byte : UInt8} {escape rest : Bytes}
    (decoded : parseEscape escape = some ([byte], rest)) :
    parseStringLoop (turns + 1) (92 :: escape) =
      (parseStringLoop turns rest).map fun (text, rest) => (byte :: text, rest) := by
  have printable : ¬(92 : UInt8) < 0x20 := by decide
  have plain : ¬(92 : UInt8) = 34 := by decide
  rw [parseStringLoop, if_neg plain, if_neg printable]
  simp only [if_true, decoded, Option.bind_eq_bind, Option.bind_some]
  cases parseStringLoop turns rest with
  | none => rfl
  | some result => rfl

/-- One turn of the string loop decodes what the writer wrote for one byte. -/
theorem parseStringLoop_escapeByte (turns : Nat) (byte : UInt8) (rest : Bytes) :
    parseStringLoop (turns + 1) (escapeByte byte ++ rest) =
      (parseStringLoop turns rest).map fun (text, rest) => (byte :: text, rest) := by
  unfold escapeByte
  split_ifs with quote backslash backspace formFeed newline carriage tab control
  · exact parseStringLoop_escape (by rw [quote]; rfl)
  · exact parseStringLoop_escape (by rw [backslash]; rfl)
  · exact parseStringLoop_escape (by rw [backspace]; rfl)
  · exact parseStringLoop_escape (by rw [formFeed]; rfl)
  · exact parseStringLoop_escape (by rw [newline]; rfl)
  · exact parseStringLoop_escape (by rw [carriage]; rfl)
  · exact parseStringLoop_escape (by rw [tab]; rfl)
  · exact parseStringLoop_escape (parseUnicodeEscape_control control rest)
  · rw [List.singleton_append, parseStringLoop, if_neg quote, if_neg control]
    simp only [backslash, if_false, Option.bind_eq_bind, Option.bind_some]
    cases parseStringLoop turns rest with
    | none => rfl
    | some result => rfl

/-- The string loop reads a written string back, given a turn for each byte and one for the quote. -/
theorem parseStringLoop_written {text : Bytes} {turns : Nat} (enough : text.length < turns)
    (rest : Bytes) :
    parseStringLoop turns (text.flatMap escapeByte ++ 34 :: rest) = some (text, rest) := by
  induction text generalizing turns with
  | nil =>
    obtain ⟨turns, rfl⟩ := Nat.exists_eq_add_one.mpr enough
    simp [parseStringLoop]
  | cons byte text ih =>
    obtain ⟨turns, rfl⟩ := Nat.exists_eq_add_one.mpr (Nat.lt_of_le_of_lt (Nat.zero_le _) enough)
    have remaining : text.length < turns := by
      rw [List.length_cons] at enough
      omega
    rw [List.flatMap_cons, List.append_assoc, parseStringLoop_escapeByte, ih remaining]
    rfl

/-- Every byte is written as at least one byte. -/
theorem length_le_flatMap_escapeByte (text : Bytes) :
    text.length ≤ (text.flatMap escapeByte).length := by
  induction text with
  | nil => exact le_rfl
  | cons byte text ih =>
    have some_byte : 1 ≤ (escapeByte byte).length := by
      unfold escapeByte
      split_ifs <;> simp
    rw [List.flatMap_cons, List.length_append, List.length_cons]
    omega

/-- A written string is parsed back from after its opening quote. -/
theorem parseString_written (text rest : Bytes) :
    parseString (text.flatMap escapeByte ++ 34 :: rest) = some (text, rest) := by
  have longer := length_le_flatMap_escapeByte text
  refine parseStringLoop_written ?_ rest
  rw [List.length_append]
  omega

/-- What is needed of a written text: an opening byte first, and that it is parsed back. -/
def ParsedBack (parser : Bytes → Option (Value × Bytes)) (value : Value) (text : Bytes) : Prop :=
  (∃ first tail, text = first :: tail ∧ Opening first) ∧
    ∀ rest, Terminated rest → parser (text ++ rest) = some (value, rest)

/-- What follows an item inside a container terminates it. -/
theorem terminated_cons {byte : UInt8} {rest : Bytes} (ends : byte = 44 ∨ byte = 93 ∨ byte = 125) :
    Terminated (byte :: rest) := by
  intro first found
  rw [List.head?_cons, Option.mem_some_iff] at found
  exact found ▸ ends

/-- A text that opens with a solid byte has no white space to skip. -/
theorem ParsedBack.skipWs_eq {parser : Bytes → Option (Value × Bytes)} {value : Value}
    {text rest : Bytes} (back : ParsedBack parser value text) :
    skipWs (text ++ rest) = text ++ rest := by
  obtain ⟨⟨first, tail, rfl, opening⟩, -⟩ := back
  exact skipWs_cons opening.solid

/-- Joining puts a comma after every part but the last. -/
theorem joinParts_cons_cons (part second : Bytes) (parts : List Bytes) :
    joinParts (part :: second :: parts) = part ++ 44 :: joinParts (second :: parts) := by
  simp [joinParts]

/-- The item loop reads written items back, given a turn for each. -/
theorem parseItems_written {parser : Bytes → Option (Value × Bytes)} {items : List Value}
    {parts : List Bytes} (back : List.Forall₂ (ParsedBack parser) items parts)
    (nonempty : items ≠ []) {turns : Nat} (enough : items.length ≤ turns) (rest : Bytes) :
    parseItems parser turns (joinParts parts ++ 93 :: rest) = some (items, rest) := by
  induction back generalizing turns with
  | nil => contradiction
  | @cons item part items parts first later ih =>
    obtain ⟨turns, rfl⟩ := Nat.exists_eq_add_one.mpr (Nat.lt_of_lt_of_le (Nat.succ_pos _) enough)
    cases later with
    | nil =>
      rw [joinParts, parseItems, first.skipWs_eq]
      have read := first.2 (93 :: rest) (terminated_cons (by simp))
      simp only [read, Option.bind_eq_bind, Option.bind_some]
      rw [skipWs_cons (by decide)]
      rfl
    | @cons second secondPart items parts next others =>
      have remaining : (second :: items).length ≤ turns := by
        rw [List.length_cons] at enough
        omega
      have tail := ih (List.cons_ne_nil _ _) remaining
      rw [joinParts_cons_cons, List.append_assoc, List.cons_append, parseItems, first.skipWs_eq]
      have read := first.2 (44 :: (joinParts (secondPart :: parts) ++ 93 :: rest))
        (terminated_cons (by simp))
      rw [read]
      simp only [Option.bind_eq_bind, Option.bind_some]
      rw [skipWs_cons (by decide)]
      simp [tail]

/-- A joined text has a byte for each part that is not empty. -/
theorem length_le_joinParts {α : Type} {related : α → Bytes → Prop} {items : List α}
    {parts : List Bytes} (nonempty : ∀ item part, related item part → part ≠ [])
    (back : List.Forall₂ related items parts) : items.length ≤ (joinParts parts).length := by
  induction back with
  | nil => exact le_rfl
  | @cons item part items parts first later ih =>
    have long : 1 ≤ part.length := List.length_pos_iff.mpr (nonempty item part first)
    cases later with
    | nil => simpa [joinParts] using long
    | cons next others =>
      rw [joinParts_cons_cons]
      simp only [List.length_append, List.length_cons] at ih ⊢
      omega

/-- A joined text opens as its first part does. -/
theorem joinParts_opens {part tail : Bytes} {byte : UInt8} (opens : part = byte :: tail)
    (parts : List Bytes) : ∃ tail, joinParts (part :: parts) = byte :: tail := by
  cases parts with
  | nil => exact ⟨tail, opens⟩
  | cons second parts =>
    refine ⟨tail ++ 44 :: joinParts (second :: parts), ?_⟩
    rw [joinParts_cons_cons, opens, List.cons_append]

/-- A written array is parsed back from after its opening bracket. -/
theorem parseArray_written {parser : Bytes → Option (Value × Bytes)} {items : List Value}
    {parts : List Bytes} (back : List.Forall₂ (ParsedBack parser) items parts) (rest : Bytes) :
    parseArray parser (joinParts parts ++ 93 :: rest) = some (.array items, rest) := by
  have room : items.length ≤ (joinParts parts).length := by
    refine length_le_joinParts ?_ back
    rintro item part ⟨⟨byte, tail, rfl, -⟩, -⟩
    exact List.cons_ne_nil _ _
  unfold parseArray
  cases back with
  | nil =>
    rw [joinParts, List.nil_append, skipWs_cons (by decide)]
    rfl
  | @cons item part items parts first later =>
    have back := List.Forall₂.cons first later
    obtain ⟨⟨byte, tail, opens, opening⟩, -⟩ := first
    obtain ⟨tail, joined⟩ := joinParts_opens opens parts
    have solid : skipWs (joinParts (part :: parts) ++ 93 :: rest) =
        joinParts (part :: parts) ++ 93 :: rest := by
      rw [joined]
      exact skipWs_cons opening.solid
    rw [solid]
    split
    · rename_i found
      rw [joined, List.cons_append, List.cons.injEq] at found
      exact absurd found.1 opening.ne_close.1
    · rw [parseItems_written back (List.cons_ne_nil _ _) (by simp at room ⊢; omega)]
      rfl

/-- What is needed of a written member: its key is a C string and its value is parsed back. -/
def MemberBack (parser : Bytes → Option (Value × Bytes)) (member : Bytes × Value) (part : Bytes) :
    Prop :=
  (0 : UInt8) ∉ member.1 ∧
    ∃ text, part = 34 :: (member.1.flatMap escapeByte ++ 34 :: 58 :: text) ∧
      ParsedBack parser member.2 text

/-- A turn of the member loop, up to the byte after the member. -/
theorem parseMembers_turn {parser : Bytes → Option (Value × Bytes)} {member : Bytes × Value}
    {part : Bytes} (back : MemberBack parser member part) {members : List (Bytes × Value)}
    (fresh : member.1 ∉ members.map Prod.fst) (turns : Nat) {byte : UInt8} {rest : Bytes}
    (ends : byte = 44 ∨ byte = 93 ∨ byte = 125) :
    parseMembers parser (turns + 1) members (part ++ byte :: rest) =
      if byte = 44 then parseMembers parser turns (members ++ [member]) rest
      else if byte = 125 then some (members ++ [member], rest) else none := by
  obtain ⟨free, text, rfl, value⟩ := back
  have key : cString member.1 = member.1 := cString_eq_self free
  have stored : objectSet members member.1 member.2 = members ++ [member] := by
    rw [objectSet_of_absent (by rwa [key]), key]
  have read := value.2 (byte :: rest) (terminated_cons ends)
  rw [List.cons_append, List.append_assoc, List.cons_append, List.cons_append, parseMembers,
    skipWs_cons (by decide)]
  simp only [parseString_written, Option.bind_eq_bind, Option.bind_some]
  rw [skipWs_cons (by decide)]
  simp only [value.skipWs_eq, read, Option.bind_some, stored]
  have solid : byte ≠ 32 ∧ byte ≠ 9 ∧ byte ≠ 10 ∧ byte ≠ 13 := by
    rcases ends with rfl | rfl | rfl <;> decide
  rw [skipWs_cons solid]
  rcases ends with rfl | rfl | rfl <;> rfl

/-- The member loop reads written members back, given a turn for each. -/
theorem parseMembers_written {parser : Bytes → Option (Value × Bytes)}
    {later : List (Bytes × Value)} {parts : List Bytes}
    (back : List.Forall₂ (MemberBack parser) later parts) (nonempty : later ≠ [])
    {members : List (Bytes × Value)} (distinct : ((members ++ later).map Prod.fst).Nodup)
    {turns : Nat} (enough : later.length ≤ turns) (rest : Bytes) :
    parseMembers parser turns members (joinParts parts ++ 125 :: rest) =
      some (members ++ later, rest) := by
  induction back generalizing turns members with
  | nil => contradiction
  | @cons member part later parts first others ih =>
    obtain ⟨turns, rfl⟩ := Nat.exists_eq_add_one.mpr (Nat.lt_of_lt_of_le (Nat.succ_pos _) enough)
    have fresh : member.1 ∉ members.map Prod.fst := by
      intro stored
      rw [List.map_append, List.map_cons, List.nodup_append] at distinct
      exact distinct.2.2 _ stored _ List.mem_cons_self rfl
    cases others with
    | nil => rw [joinParts, parseMembers_turn first fresh turns (by simp), if_neg (by decide),
        if_pos rfl]
    | @cons second secondPart later parts next others =>
      have remaining : (second :: later).length ≤ turns := by
        rw [List.length_cons] at enough
        omega
      rw [joinParts_cons_cons, List.append_assoc, List.cons_append,
        parseMembers_turn first fresh turns (by simp), if_pos rfl,
        ih (List.cons_ne_nil _ _) (by simpa using distinct) remaining]
      simp

/-- A written object is parsed back from after its opening brace. -/
theorem parseObject_written {parser : Bytes → Option (Value × Bytes)}
    {members : List (Bytes × Value)} {parts : List Bytes}
    (back : List.Forall₂ (MemberBack parser) members parts)
    (distinct : (members.map Prod.fst).Nodup) (rest : Bytes) :
    parseObject parser (joinParts parts ++ 125 :: rest) = some (.object members, rest) := by
  have room : members.length ≤ (joinParts parts).length := by
    refine length_le_joinParts ?_ back
    rintro member part ⟨-, text, rfl, -⟩
    exact List.cons_ne_nil _ _
  unfold parseObject
  cases back with
  | nil =>
    rw [joinParts, List.nil_append, skipWs_cons (by decide)]
    rfl
  | @cons member part members parts first later =>
    have back := List.Forall₂.cons first later
    obtain ⟨-, text, opens, -⟩ := first
    obtain ⟨tail, joined⟩ := joinParts_opens opens parts
    have solid : skipWs (joinParts (part :: parts) ++ 125 :: rest) =
        joinParts (part :: parts) ++ 125 :: rest := by
      rw [joined]
      exact skipWs_cons (by decide)
    rw [solid]
    split
    · rename_i found
      rw [joined, List.cons_append, List.cons.injEq] at found
      exact absurd found.1 (by decide)
    · rw [parseMembers_written back (List.cons_ne_nil _ _) (by simpa using distinct)
        (by simp at room ⊢; omega), List.nil_append]
      rfl

/-- A parser of the values of one level, seen through its first byte. -/
theorem parseValue_cons {levels : Nat} {first : UInt8} {rest : Bytes} (opening : Opening first) :
    parseValue (levels + 1) (first :: rest) =
      if first = 34 then (parseString rest).map fun (text, rest) => (.string text, rest)
      else if first = 123 then parseObject (parseValue levels) rest
      else if first = 91 then parseArray (parseValue levels) rest
      else if first = 116 then
        (expectLiteral (ascii "true") (first :: rest)).map fun rest => (.bool true, rest)
      else if first = 102 then
        (expectLiteral (ascii "false") (first :: rest)).map fun rest => (.bool false, rest)
      else if first = 110 then
        (expectLiteral (ascii "null") (first :: rest)).map fun rest => (.null, rest)
      else parseNumber (first :: rest) := by
  rw [parseValue, skipWs_cons opening.solid]
  dsimp only
  split_ifs with a b c d e f g
  all_goals try rfl
  rcases opening with same | same | same | same | same | same | same | same
  all_goals simp_all

/-- A written literal is parsed back. -/
theorem expectLiteral_append (literal rest : Bytes) :
    expectLiteral literal (literal ++ rest) = some rest := by
  unfold expectLiteral
  rw [if_pos (by simp), List.drop_left]

/-- A numeral does not open as any other value does. -/
theorem numeral_ne {first : UInt8} (numeral : first = 45 ∨ isDigit first = true) :
    first ≠ 34 ∧ first ≠ 123 ∧ first ≠ 91 ∧ first ≠ 116 ∧ first ≠ 102 ∧ first ≠ 110 := by
  rcases numeral with rfl | digit
  · decide
  · refine ⟨?_, ?_, ?_, ?_, ?_, ?_⟩
    all_goals
      rintro rfl
      revert digit
      decide

/-- Writing a list item by item relates the items to their texts. -/
theorem mapM_forall₂ {α : Type} {writer : α → Option Bytes} {related : α → Bytes → Prop}
    {items : List α} (each : ∀ item ∈ items, ∃ text, writer item = some text ∧ related item text) :
    ∃ parts, items.mapM writer = some parts ∧ List.Forall₂ related items parts := by
  induction items with
  | nil => exact ⟨[], rfl, List.Forall₂.nil⟩
  | cons item items ih =>
    obtain ⟨text, written, first⟩ := each item List.mem_cons_self
    obtain ⟨parts, others, later⟩ := ih fun other stored => each other (List.mem_cons_of_mem _ stored)
    refine ⟨text :: parts, ?_, List.Forall₂.cons first later⟩
    simp [List.mapM_cons, written, others]

/-- A value the writer accepts is parsed back from its text. -/
theorem parseValue_written {levels : Nat} {value : Value} (plain : Plain levels value) :
    ∃ text, writeValue levels value = some text ∧ ParsedBack (parseValue levels) value text := by
  induction levels generalizing value with
  | zero => exact plain.elim
  | succ levels ih =>
    cases value with
    | null =>
      refine ⟨ascii "null", rfl, ⟨110, ascii "ull", rfl, by simp [Opening]⟩, fun rest _ => ?_⟩
      have read := expectLiteral_append (ascii "null") rest
      have cons : ascii "null" ++ rest = 110 :: (ascii "ull" ++ rest) := rfl
      rw [cons] at read ⊢
      rw [parseValue_cons (by simp [Opening]), read]
      rfl
    | bool value =>
      cases value with
      | true =>
        refine ⟨ascii "true", rfl, ⟨116, ascii "rue", rfl, by simp [Opening]⟩, fun rest _ => ?_⟩
        have read := expectLiteral_append (ascii "true") rest
        have cons : ascii "true" ++ rest = 116 :: (ascii "rue" ++ rest) := rfl
        rw [cons] at read ⊢
        rw [parseValue_cons (by simp [Opening]), read]
        rfl
      | false =>
        refine ⟨ascii "false", rfl, ⟨102, ascii "alse", rfl, by simp [Opening]⟩, fun rest _ => ?_⟩
        have read := expectLiteral_append (ascii "false") rest
        have cons : ascii "false" ++ rest = 102 :: (ascii "alse" ++ rest) := rfl
        rw [cons] at read ⊢
        rw [parseValue_cons (by simp [Opening]), read]
        rfl
    | number number =>
      obtain ⟨first, digits, written, numeral, read⟩ := plain
      have opening : Opening first := by
        rcases numeral with minus | digit
        · simp [Opening, minus]
        · simp [Opening, digit]
      obtain ⟨a, b, c, d, e, f⟩ := numeral_ne numeral
      refine ⟨writeNumber number, rfl, ⟨first, digits, written, opening⟩, fun rest ends => ?_⟩
      have back := read rest ends
      rw [written, List.cons_append] at back ⊢
      rw [parseValue_cons opening, if_neg a, if_neg b, if_neg c, if_neg d, if_neg e, if_neg f, back]
    | string text =>
      refine ⟨writeString text, rfl, ⟨34, text.flatMap escapeByte ++ [34], rfl, by simp [Opening]⟩,
        fun rest _ => ?_⟩
      have cons : writeString text ++ rest = 34 :: (text.flatMap escapeByte ++ 34 :: rest) := by
        simp [writeString]
      rw [cons, parseValue_cons (by simp [Opening]), if_pos rfl, parseString_written]
      rfl
    | array items =>
      obtain ⟨parts, written, back⟩ := mapM_forall₂ fun item stored => ih (plain item stored)
      refine ⟨91 :: (joinParts parts ++ [93]), by simp [writeValue, written],
        ⟨91, joinParts parts ++ [93], rfl, by simp [Opening]⟩, fun rest _ => ?_⟩
      rw [List.cons_append, List.append_assoc, List.singleton_append,
        parseValue_cons (by simp [Opening]), if_neg (by decide), if_neg (by decide), if_pos rfl,
        parseArray_written back]
    | object members =>
      obtain ⟨distinct, each⟩ := plain
      have member : ∀ member ∈ members, ∃ part,
          (do some (writeString (cString member.1) ++ [58] ++ (← writeValue levels member.2))) =
            some part ∧ MemberBack (parseValue levels) member part := by
        intro member stored
        obtain ⟨free, inner⟩ := each member stored
        obtain ⟨text, written, back⟩ := ih inner
        refine ⟨_, by rw [written]; rfl, free, text, ?_, back⟩
        rw [cString_eq_self free]
        simp [writeString]
      obtain ⟨parts, written, back⟩ := mapM_forall₂ member
      have whole : writeValue (levels + 1) (.object members) =
          (some parts).bind fun parts => some ([123] ++ joinParts parts ++ [125]) := by
        rw [← written]
        rfl
      refine ⟨123 :: (joinParts parts ++ [125]), whole.trans rfl,
        ⟨123, joinParts parts ++ [125], rfl, by simp [Opening]⟩, fun rest _ => ?_⟩
      rw [List.cons_append, List.append_assoc, List.singleton_append,
        parseValue_cons (by simp [Opening]), if_neg (by decide), if_pos rfl,
        parseObject_written back distinct]

/-- What `ps_json_write` writes, `ps_json_parse` reads back. -/
theorem parse_of_write {value : Value} (plain : Plain maxDepth value) :
    ∃ text, write value = some text ∧ parse text = some value := by
  obtain ⟨text, written, -, read⟩ := parseValue_written plain
  refine ⟨text, written, ?_⟩
  have whole := read [] (by simp [Terminated])
  rw [List.append_nil] at whole
  simp [parse, whole, skipWs]

/-- Digits end where a terminated text begins. -/
theorem dropWhile_digits_append {digits rest : Bytes} (all : ∀ byte ∈ digits, isDigit byte = true)
    (ends : Terminated rest) :
    (digits ++ rest).dropWhile isDigit = rest ∧ (digits ++ rest).takeWhile isDigit = digits := by
  have stop : ∀ byte ∈ rest.head?, isDigit byte = false := by
    intro byte first
    rcases ends byte first with rfl | rfl | rfl <;> decide
  cases rest with
  | nil => simp [List.dropWhile_eq_nil_iff.mpr all, List.takeWhile_eq_self_iff.mpr all]
  | cons byte rest =>
    have last := stop byte (by simp)
    rw [List.dropWhile_append_of_pos all, List.takeWhile_append_of_pos all]
    simp [last]

/-- A number's digits do not start with a sign. -/
theorem natDigits_opens (n : Nat) :
    ∃ first digits, natDigits n = first :: digits ∧ isDigit first = true ∧ first ≠ 45 := by
  obtain ⟨first, digits, split⟩ : ∃ first digits, natDigits n = first :: digits := by
    rcases natDigits_cases n with zero | ⟨first, digits, split, -⟩
    · exact ⟨48, [], zero⟩
    · exact ⟨first, digits, split⟩
  have digit : isDigit first = true := isDigit_of_mem_natDigits (n := n) (by simp [split])
  refine ⟨first, digits, split, digit, ?_⟩
  rintro rfl
  revert digit
  decide

/-- The integer scanner takes the digits of a number. -/
theorem scanInteger_natDigits (n : Nat) {rest : Bytes} (ends : Terminated rest) :
    scanInteger (natDigits n ++ rest) = some rest := by
  have all : ∀ byte ∈ natDigits n, isDigit byte = true := fun byte => isDigit_of_mem_natDigits
  rcases natDigits_cases n with zero | ⟨first, digits, split, nonzero⟩
  · rw [zero]
    simp [scanInteger]
  · rw [split] at all ⊢
    have digit := all first List.mem_cons_self
    have unsigned : first ≠ 45 := by
      rintro rfl
      revert digit
      decide
    have later : ∀ byte ∈ digits, isDigit byte = true := fun byte stored =>
      all byte (List.mem_cons_of_mem _ stored)
    simp [scanInteger, unsigned, nonzero, digit, (dropWhile_digits_append later ends).1]

/-- After a sign the integer scanner takes the digits of a number. -/
theorem scanInteger_minus (n : Nat) {rest : Bytes} (ends : Terminated rest) :
    scanInteger (45 :: (natDigits n ++ rest)) = some rest := by
  have unsigned := scanInteger_natDigits n ends
  obtain ⟨first, digits, split, -, plainFirst⟩ := natDigits_opens n
  have plain : (natDigits n ++ rest).head? ≠ some 45 := by simpa [split] using plainFirst
  unfold scanInteger at unsigned ⊢
  rw [if_neg plain] at unsigned
  rw [List.head?_cons, if_pos rfl, List.tail_cons]
  exact unsigned

/-- A terminated text continues no number. -/
theorem scan_terminated {rest : Bytes} (ends : Terminated rest) :
    scanFraction rest = some rest ∧ scanExponent rest = some rest := by
  cases rest with
  | nil => exact ⟨rfl, rfl⟩
  | cons byte rest =>
    rcases ends byte (by simp) with rfl | rfl | rfl <;> exact ⟨rfl, rfl⟩

/-- The numeral of an integer a double holds exactly. -/
theorem writeNumber_ofInt {n : Int} (small : n.natAbs ≤ 2 ^ 53) :
    writeNumber (Binary64.ofInt n) =
      (if n < 0 then [45] else []) ++ natDigits n.natAbs := by
  obtain ⟨number, rounded, sign, magnitude⟩ :=
    Binary64.value_round_natCast small (decide (n < 0)) (by positivity)
  have short : n.natAbs < 10 ^ 17 := lt_of_le_of_lt small (by norm_num)
  have converted : Binary64.ofInt n = .finite number := rounded
  rw [converted, writeNumber, formatG17, sign, magnitude, formatMagnitude_natCast short]
  simp

/-- The numeral of an integer denotes it. -/
theorem strtod_intNumeral (n : Int) :
    strtod ((if n < 0 then [45] else []) ++ natDigits n.natAbs) = Binary64.ofInt n := by
  have all : ∀ byte ∈ natDigits n.natAbs, isDigit byte = true := fun byte => isDigit_of_mem_natDigits
  have taken : (natDigits n.natAbs).takeWhile isDigit = natDigits n.natAbs :=
    List.takeWhile_eq_self_iff.mpr all
  have dropped : (natDigits n.natAbs).dropWhile isDigit = [] := List.dropWhile_eq_nil_iff.mpr all
  have value : decimalValue (natDigits n.natAbs) [] 0 = (n.natAbs : ℚ) := by
    simp [decimalValue]
  obtain ⟨first, digits, split, -, unsigned⟩ := natDigits_opens n.natAbs
  have head : (natDigits n.natAbs).head? ≠ some 45 := by simpa [split] using unsigned
  by_cases negative : n < 0
  · simp only [negative, if_true, List.singleton_append, strtod, List.head?_cons, List.tail_cons,
      taken, dropped, List.head?_nil, reduceCtorEq, if_false, exponentPart, or_self, value,
      Binary64.ofInt, decide_true]
  · simp only [negative, if_false, List.nil_append, strtod, head, taken, dropped, List.head?_nil,
      reduceCtorEq, exponentPart, or_self, value, Binary64.ofInt, decide_false]

/-- Integers a double holds exactly are parsed back. -/
theorem readable_ofInt {n : Int} (small : n.natAbs ≤ 2 ^ 53) : Readable (Binary64.ofInt n) := by
  have written := writeNumber_ofInt small
  have size : (natDigits n.natAbs).length ≤ 17 := by
    rcases Nat.eq_zero_or_pos n.natAbs with zero | positive
    · simp [zero, natDigits]
    · rw [length_natDigits positive]
      exact Nat.log_lt_of_lt_pow positive.ne' (lt_of_le_of_lt small (by norm_num))
  obtain ⟨first, digits, split, digit, -⟩ := natDigits_opens n.natAbs
  have scanned : ∀ rest, Terminated rest →
      scanInteger (writeNumber (Binary64.ofInt n) ++ rest) = some rest := by
    intro rest ends
    rw [written]
    by_cases negative : n < 0
    · rw [if_pos negative, List.singleton_append, List.cons_append]
      exact scanInteger_minus _ ends
    · rw [if_neg negative, List.nil_append]
      exact scanInteger_natDigits _ ends
  have parsed : ∀ rest, Terminated rest →
      parseNumber (writeNumber (Binary64.ofInt n) ++ rest) =
        some (.number (Binary64.ofInt n), rest) := by
    intro rest ends
    obtain ⟨fraction, exponent⟩ := scan_terminated ends
    have literal : (writeNumber (Binary64.ofInt n) ++ rest).take
        ((writeNumber (Binary64.ofInt n) ++ rest).length - rest.length) =
          writeNumber (Binary64.ofInt n) := by
      rw [List.length_append, Nat.add_sub_cancel, List.take_left]
    have short : ¬64 ≤ (writeNumber (Binary64.ofInt n)).length := by
      rw [written]
      split_ifs <;> simp <;> omega
    simp only [parseNumber, scanned rest ends, fraction, exponent, Option.bind_eq_bind,
      Option.bind_some, literal, if_neg short]
    rw [written, strtod_intNumeral]
  by_cases negative : n < 0
  · exact ⟨45, natDigits n.natAbs, by rw [written, if_pos negative]; rfl, Or.inl rfl, parsed⟩
  · exact ⟨first, digits, by rw [written, if_neg negative, split]; rfl, Or.inr digit, parsed⟩

end PlatformService.Verif.JsonRoundTrip
