import PlatformService.Lib.Decimal

/-!
# JSON values

The value tree of `json_parse.c`: construction and inspection. An object keeps
its members in insertion order under keys that are C strings, and setting a key
that is present replaces its value in place. A missing member is `none`, where
the source returns a null pointer. Allocation is assumed to succeed.
-/

namespace PlatformService.Json

open Lib

/-- `PS_JSON_MAX_DEPTH` -/
def maxDepth : Nat := 32

/-- `ps_json_value_t` -/
inductive Value where
  | null
  | bool (value : Bool)
  | number (value : Binary64)
  | string (value : Bytes)
  | array (items : List Value)
  | object (members : List (Bytes × Value))

/-- `ps_json_object_set` on the members of an object: keys are compared by `strcmp`. -/
def objectSet : List (Bytes × Value) → Bytes → Value → List (Bytes × Value)
  | [], key, value => [(cString key, value)]
  | (name, old) :: members, key, value =>
    if name = cString key then (name, value) :: members
    else (name, old) :: objectSet members key value

/-- `ps_json_object_get` on the members of an object. -/
def memberGet (members : List (Bytes × Value)) (key : Bytes) : Option Value :=
  (members.find? fun member => member.1 = cString key).map Prod.snd

/-- `ps_json_object_get` -/
def objectGet : Value → Bytes → Option Value
  | .object members, key => memberGet members key
  | _, _ => none

/-- `ps_json_object_count` -/
def objectCount : Value → Nat
  | .object members => members.length
  | _ => 0

/-- `ps_json_object_key_at` -/
def objectKeyAt : Value → Nat → Option Bytes
  | .object members, index => (members[index]?).map Prod.fst
  | _, _ => none

/-- `ps_json_object_value_at` -/
def objectValueAt : Value → Nat → Option Value
  | .object members, index => (members[index]?).map Prod.snd
  | _, _ => none

/-- The string a member holds, when it is present and a string. -/
def stringField (value : Value) (key : Bytes) : Option Bytes :=
  match objectGet value key with
  | some (.string text) => some text
  | _ => none

/-- Setting a key that is not present appends a member. -/
theorem objectSet_of_absent {members : List (Bytes × Value)} {key : Bytes} {value : Value}
    (absent : cString key ∉ members.map Prod.fst) :
    objectSet members key value = members ++ [(cString key, value)] := by
  induction members with
  | nil => rfl
  | cons member members ih =>
    obtain ⟨name, old⟩ := member
    simp only [List.map_cons, List.mem_cons, not_or] at absent
    rw [objectSet, if_neg (Ne.symm absent.1), ih absent.2, List.cons_append]

end PlatformService.Json
