import PlatformService.Lib.Assoc
import PlatformService.Verif.JsonGrammar

/-!
# The members of an object

An object of an accepted text is looked up by the members of the text: the last
member of a name counts, whatever stands between it and the first, and names are
compared as they are decoded. The members are those of the syntax tree, so this
holds for every object at every depth of a value that is parsed.
-/

namespace PlatformService.Verif.ObjectMembers

open Lib Json Grammar

/-- A value inside a value, itself included. -/
inductive ValuePart : Value → Value → Prop
  | whole (value : Value) : ValuePart value value
  | item {part item : Value} {items : List Value} (listed : item ∈ items)
    (inside : ValuePart part item) : ValuePart part (.array items)
  | member {part value : Value} {key : Bytes} {members : List (Bytes × Value)}
    (listed : (key, value) ∈ members) (inside : ValuePart part value) :
    ValuePart part (.object members)

/-- A tree inside a tree, itself included. -/
inductive TreePart : Tree → Tree → Prop
  | whole (tree : Tree) : TreePart tree tree
  | item {part item : Tree} {items : List Tree} (listed : item ∈ items)
    (inside : TreePart part item) : TreePart part (.array items)
  | member {part tree : Tree} {key : Bytes} {members : List (Bytes × Tree)}
    (listed : (key, tree) ∈ members) (inside : TreePart part tree) : TreePart part (.object members)

/-- An object as its members in the text, in order and with repetitions, determine it. -/
structure Determined (members : List (Bytes × Tree)) (object : Value) : Prop where
  /-- A name has the value of the last member of that name, and none if there is no such member. -/
  get : ∀ key : Bytes, (0 : UInt8) ∉ key → objectGet object key =
    ((members.filter fun member => member.1 = key).getLast?).map fun member => member.2.value
  /-- There are as many members as distinct names. -/
  count : objectCount object = (members.map Prod.fst).toFinset.card
  /-- The names are listed once each, in the order of their first occurrences. -/
  keys : ∃ keys : List Bytes, (∀ index, objectKeyAt object index = keys[index]?) ∧ keys.Nodup ∧
    (∀ key, key ∈ keys ↔ key ∈ members.map Prod.fst) ∧
    keys.Pairwise fun left right =>
      (members.map Prod.fst).idxOf left < (members.map Prod.fst).idxOf right
  /-- The value listed next to a name is the one it is looked up under. -/
  values : ∀ index key, objectKeyAt object index = some key →
    objectValueAt object index = objectGet object key

/-- `ps_json_object_set` sets the C string that the key is. -/
theorem objectSet_eq_set (members : List (Bytes × Value)) (key : Bytes) (value : Value) :
    objectSet members key value = Assoc.set members (cString key) value := by
  induction members with
  | nil => rfl
  | cons member members ih =>
    obtain ⟨name, old⟩ := member
    rw [objectSet, Assoc.set, ih]

/-- A C string is looked up as it is. -/
theorem objectGet_eq_get {members : List (Bytes × Value)} {key : Bytes} (free : (0 : UInt8) ∉ key) :
    objectGet (.object members) key = Assoc.get members key := by
  rw [objectGet, memberGet, cString_eq_self free]
  rfl

/-- Setting members is setting the C strings that their keys are. -/
theorem setAll_eq_setAll (members : List (Bytes × Value)) :
    Tree.setAll [] members =
      Assoc.setAll [] (members.map fun member => (cString member.1, member.2)) := by
  unfold Tree.setAll Assoc.setAll
  rw [List.foldl_map]
  congr 1
  funext set member
  exact objectSet_eq_set set member.1 member.2

/-- The values of the members, one for each. -/
theorem memberValues_eq_map (members : List (Bytes × Tree)) :
    Tree.memberValues members = members.map fun member => (member.1, member.2.value) := by
  induction members with
  | nil => rfl
  | cons member members ih => rw [Tree.memberValues, ih, List.map_cons]

/-- The values of the items, one for each. -/
theorem values_eq_map (items : List Tree) : Tree.values items = items.map Tree.value := by
  induction items with
  | nil => rfl
  | cons item items ih => rw [Tree.values, ih, List.map_cons]

/-- An object whose keys are without NUL has the members set under these keys. -/
theorem value_object {members : List (Bytes × Tree)}
    (free : ∀ member ∈ members, (0 : UInt8) ∉ member.1) :
    (Tree.object members).value =
      .object (Assoc.setAll [] (members.map fun member => (member.1, member.2.value))) := by
  rw [Tree.value, setAll_eq_setAll, memberValues_eq_map, List.map_map]
  congr 2
  apply List.map_congr_left
  intro member listed
  exact congrArg (fun key => (key, member.2.value)) (cString_eq_self (free member listed))

/-- An object of a text is determined by its members. -/
theorem determined_of_free {members : List (Bytes × Tree)}
    (free : ∀ member ∈ members, (0 : UInt8) ∉ member.1) :
    Determined members (Tree.object members).value := by
  have names : (members.map fun member => (member.1, member.2.value)).map Prod.fst =
      members.map Prod.fst := by
    rw [List.map_map]
    rfl
  have distinct := Assoc.nodup_keys_setAll (members.map fun member => (member.1, member.2.value))
  rw [value_object free]
  constructor
  · intro key keyFree
    have found := Assoc.get_setAll (members.map fun member => (member.1, member.2.value)) key
    rw [objectGet_eq_get keyFree, found]
    unfold Assoc.last
    rw [List.filter_map, List.getLast?_map, Option.map_map]
    rfl
  · rw [objectCount, Assoc.length_setAll, names]
  · refine ⟨(Assoc.setAll [] (members.map fun member => (member.1, member.2.value))).map Prod.fst,
      fun index => ?_, distinct, fun key => ?_, ?_⟩
    · rw [objectKeyAt, List.getElem?_map]
    · rw [Assoc.mem_keys_setAll, names]
    · have ordered := Assoc.pairwise_keys_setAll
        (members.map fun member => (member.1, member.2.value))
      rw [names] at ordered
      exact ordered
  · intro index key listed
    rw [objectKeyAt, Option.map_eq_some_iff] at listed
    obtain ⟨⟨name, value⟩, present, rfl⟩ := listed
    have stored := List.mem_of_getElem? present
    have keyFree : (0 : UInt8) ∉ name := by
      have known := Assoc.mem_keys_setAll.mp (List.mem_map_of_mem stored)
      rw [names] at known
      obtain ⟨member, listed, rfl⟩ := List.mem_map.mp known
      exact free member listed
    rw [objectValueAt, present, objectGet_eq_get keyFree, Assoc.get_of_mem distinct stored]
    rfl

/-- A value inside the value of a tree is the value of a tree inside it. -/
theorem treePart_of_valuePart {tree : Tree} {part : Value} (inside : ValuePart part tree.value) :
    ∃ inner, TreePart inner tree ∧ inner.value = part := by
  generalize same : tree.value = value at inside
  induction inside generalizing tree with
  | whole => exact ⟨tree, .whole tree, same⟩
  | @item item items listed inside ih =>
    cases tree with
    | array trees =>
      rw [Tree.value, Value.array.injEq, values_eq_map] at same
      rw [← same] at listed
      obtain ⟨inner, member, equal⟩ := List.mem_map.mp listed
      obtain ⟨found, within, denotes⟩ := ih equal
      exact ⟨found, .item member within, denotes⟩
    | _ => simp [Tree.value] at same
  | @member value key members listed inside ih =>
    cases tree with
    | object trees =>
      rw [Tree.value, Value.object.injEq, setAll_eq_setAll, memberValues_eq_map, List.map_map] at same
      rw [← same] at listed
      have stored := Assoc.mem_values_setAll (List.mem_map_of_mem listed)
      simp only [List.map_map] at stored
      obtain ⟨member, known, equal⟩ := List.mem_map.mp stored
      obtain ⟨found, within, denotes⟩ := ih equal
      exact ⟨found, .member known within, denotes⟩
    | _ => simp [Tree.value] at same

/-- Every object of an accepted text whose keys are without NUL is determined by its members, and
every object of the value that is parsed is one of the text. -/
theorem objects_determined {input : Bytes} {value : Value} (accepted : parse input = some value) :
    ∃ tree, Text tree input ∧ tree.value = value ∧
      (∀ members, TreePart (.object members) tree →
        (∀ member ∈ members, (0 : UInt8) ∉ member.1) →
          Determined members (Tree.object members).value) ∧
      ∀ object, ValuePart (.object object) value →
        ∃ members, TreePart (.object members) tree ∧
          (Tree.object members).value = .object object := by
  obtain ⟨tree, text, -, -, rfl⟩ := JsonGrammar.parse_eq_some_iff.mp accepted
  refine ⟨tree, text, rfl, fun members _ free => determined_of_free free, fun object inside => ?_⟩
  obtain ⟨inner, within, denotes⟩ := treePart_of_valuePart inside
  cases inner with
  | object members => exact ⟨members, within, denotes⟩
  | _ => simp [Tree.value] at denotes

/-- A text that repeats a name, once as an escape. -/
def repeated : Bytes :=
  ascii "\x7b\"a\":\"first\",\"b\":[],\"\\u0061\":\"last\"\x7d"

/-- The objects of the text that repeats a name are determined: the first member has the last value. -/
theorem objects_determined_of_repeated :
    ∃ tree, Text tree repeated ∧
      tree.value = .object [(ascii "a", .string (ascii "last")), (ascii "b", .array [])] ∧
      ∀ members, TreePart (.object members) tree →
        (∀ member ∈ members, (0 : UInt8) ∉ member.1) →
          Determined members (Tree.object members).value := by
  have accepted : parse repeated =
      some (.object [(ascii "a", .string (ascii "last")), (ascii "b", .array [])]) := by rfl
  obtain ⟨tree, text, denotes, determined, -⟩ := objects_determined accepted
  exact ⟨tree, text, denotes, determined⟩

end PlatformService.Verif.ObjectMembers
