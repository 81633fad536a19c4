import PlatformService.Lib.Doubling
import PlatformService.Json.Write

/-!
# The growing buffer

`buf.c` with its words of 64 bits, and the JSON writer as it appends to a buffer. An append answers
`false` when `realloc` finds no memory. It does not come back as it should when the capacity would have to
be doubled past the largest power of two of a word, or when the length wraps and the octets are copied
behind the allocation.
-/

namespace PlatformService

open Lib Json

/-- `ps_buf_t`: the octets written, and the octets allocated. -/
structure Buf where
  bytes : Bytes
  cap : Nat
  /-- What is written is allocated. -/
  fits : bytes.length ≤ cap

namespace Buf

/-- The bits of a `size_t`. -/
def sizeBits : Nat := 64

/-- `ps_buf_init` -/
def init : Buf := ⟨[], 0, Nat.le_refl 0⟩

/-- More turns than a word can be doubled before it is zero. -/
def growTurns : Nat := sizeBits + 1

/-- Where `ensure_capacity` ends. -/
inductive Ensured where
  | room (cap : Nat)
  | noMemory
  | endless

/-- `ensure_capacity`, with the answer of `realloc`. -/
def ensureCapacity (buf : Buf) (additional : Nat) (granted : Bool) : Ensured :=
  if additional ≤ buf.cap - buf.bytes.length then .room buf.cap
  else
    let need := (buf.bytes.length + additional) % 2 ^ sizeBits
    let cap := if buf.cap = 0 then 256 else buf.cap
    match Doubling.grow sizeBits need growTurns cap with
    | none => .endless
    | some cap => if granted then .room cap else .noMemory

/-- How an append ends. -/
inductive Appended where
  | done (buf : Buf)
  | refused
  | endless
  /-- `memcpy` writes behind the allocation. -/
  | overrun

/-- `ps_buf_append`, with the answer of `realloc`. -/
def append (buf : Buf) (data : Bytes) (granted : Bool) : Appended :=
  if data.length = 0 then .done buf
  else match buf.ensureCapacity data.length granted with
    | .endless => .endless
    | .noMemory => .refused
    | .room cap =>
      if fits : (buf.bytes ++ data).length ≤ cap then .done ⟨buf.bytes ++ data, cap, fits⟩ else .overrun

end Buf

/-- Code that appends to a buffer, with the answers of `realloc` that lie before it: each append takes
one, also where it finds room and does not ask, and none is left means memory. There is no result where an
append does not come back as it should. -/
abbrev Writing := StateT (Buf × List Bool) Option

namespace Writing

/-- `ps_buf_append` of a writer -/
def append (data : Bytes) : Writing Bool := fun (buf, grants) =>
  match buf.append data (grants.headD true) with
  | .done next => some (true, next, grants.tail)
  | .refused => some (false, buf, grants.tail)
  | .endless => none
  | .overrun => none

/-- Go on unless something has failed. -/
def andThen (first second : Writing Bool) : Writing Bool := do
  if !(← first) then return false
  second

/-- The loop of `write_string`. -/
def writeBytes : Bytes → Writing Bool
  | [] => return true
  | byte :: rest => andThen (append (escapeByte byte)) (writeBytes rest)

/-- `write_string` -/
def writeString (text : Bytes) : Writing Bool :=
  andThen (append [34]) (andThen (writeBytes text) (append [34]))

/-- The loop of `write_array` and `write_object`: a comma stands before each element but the first. -/
def writeParts {A : Type} (write : A → Writing Bool) : (leading : Bool) → List A → Writing Bool
  | _, [] => return true
  | true, item :: items => andThen (write item) (writeParts write false items)
  | false, item :: items => andThen (append [44]) (andThen (write item) (writeParts write false items))

/-- `write_value` with the levels of nesting that are left. -/
def writeValue : Nat → Value → Writing Bool
  | 0, _ => return false
  | _ + 1, .null => append (ascii "null")
  | _ + 1, .bool true => append (ascii "true")
  | _ + 1, .bool false => append (ascii "false")
  | _ + 1, .number number => append (writeNumber number)
  | _ + 1, .string text => writeString text
  | levels + 1, .array items =>
    andThen (append [91]) (andThen (writeParts (writeValue levels) true items) (append [93]))
  | levels + 1, .object members =>
    let member (entry : Bytes × Value) : Writing Bool :=
      andThen (writeString (cString entry.1)) (andThen (append [58]) (writeValue levels entry.2))
    andThen (append [123]) (andThen (writeParts member true members) (append [125]))

/-- `ps_json_write` -/
def write (value : Value) : Writing Bool := writeValue maxDepth value

end Writing

end PlatformService
