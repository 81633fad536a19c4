import Mathlib.Logic.Function.Basic
import PlatformService.Lib.Assoc

/-!
# Layered assignments

A store holds a value of its own type under every key. Texts are assigned to keys one
after the other: each is read as a value of its key, or refused. When none is refused, the
store holds under each key what the last text assigned to it reads as, so a later layer of
assignments overrides an earlier one key by key.
-/

namespace PlatformService.Lib

namespace Assoc

variable {K T : Type} [DecidableEq K]

/-- The last entry under a key is in what follows the first entry, or it is the first. -/
theorem last_cons (entry : K × T) (entries : List (K × T)) (key : K) :
    last (entry :: entries) key =
      (last entries key).or (if entry.1 = key then some entry.2 else none) := by
  unfold last
  by_cases same : entry.1 = key
  · rw [List.filter_cons_of_pos (by simpa using same), if_pos same, List.getLast?_cons]
    cases ((entries.filter fun entry => entry.1 = key).getLast?) with
    | none => rfl
    | some later => rfl
  · rw [List.filter_cons_of_neg (by simpa using same), if_neg same, Option.or_none]

/-- The last entry under a key is in the second list, unless that has none. -/
theorem last_append (first second : List (K × T)) (key : K) :
    last (first ++ second) key = (last second key).or (last first key) := by
  unfold last
  rw [List.filter_append, List.getLast?_append]
  cases ((second.filter fun entry => entry.1 = key).getLast?) with
  | none => rfl
  | some later => rfl

/-- A list with at most one entry for each key, all from one table, holds the table. -/
theorem last_filterMap (table : K → Option T) {keys : List K} {key : K} (listed : key ∈ keys) :
    last (keys.filterMap fun key => (table key).map (Prod.mk key)) key = table key := by
  induction keys with
  | nil => contradiction
  | cons first keys ih =>
    by_cases later : key ∈ keys
    · have found := ih later
      cases row : table first with
      | none =>
        rw [List.filterMap_cons_none (by rw [row]; rfl)]
        exact found
      | some text =>
        rw [List.filterMap_cons_some (by rw [row]; rfl), last_cons, found]
        by_cases same : first = key
        · subst same
          rw [row]
          rfl
        · rw [if_neg same, Option.or_none]
    · have same : key = first := (List.mem_cons.mp listed).resolve_right later
      subst same
      have none : last (keys.filterMap fun key => (table key).map (Prod.mk key)) key = none := by
        unfold last
        have empty : (keys.filterMap fun key => (table key).map (Prod.mk key)).filter
            (fun entry => entry.1 = key) = [] := by
          rw [List.filter_eq_nil_iff]
          intro entry stored
          obtain ⟨other, member, made⟩ := List.mem_filterMap.mp stored
          obtain ⟨text, -, rfl⟩ := Option.map_eq_some_iff.mp made
          rw [decide_eq_true_eq]
          rintro rfl
          exact later member
        rw [empty]
        rfl
      cases row : table key with
      | none =>
        rw [List.filterMap_cons_none (by rw [row]; rfl)]
        exact none
      | some text =>
        rw [List.filterMap_cons_some (by rw [row]; rfl), last_cons, none, if_pos rfl]
        rfl

end Assoc

namespace Layers

variable {K T E X : Type} {V : K → Type} [DecidableEq K] (read : (key : K) → T → Except E (V key))
  (parse : X → Except E (Option (K × T)))

/-- The store after a text is assigned to a key. -/
def assign (store : (key : K) → V key) (entry : K × T) : Except E ((key : K) → V key) := do
  let value ← read entry.1 entry.2
  return Function.update store entry.1 value

/-- The store after texts are assigned one after the other. -/
def assignAll (store : (key : K) → V key) (entries : List (K × T)) :
    Except E ((key : K) → V key) :=
  entries.foldlM (assign read) store

/-- The store after an item that holds an assignment, or none. -/
def load (store : (key : K) → V key) (item : X) : Except E ((key : K) → V key) := do
  match ← parse item with
  | none => return store
  | some entry => assign read store entry

/-- The assignments that items hold. -/
def entries (items : List X) : List (K × T) := items.filterMap fun item => (parse item).toOption.join

variable {read parse} {store after : (key : K) → V key}

/-- Two computations in sequence succeed exactly when each does. -/
theorem bind_eq_ok {A B : Type} {first : Except E A} {next : A → Except E B} {result : B} :
    (first >>= next) = .ok result ↔ ∃ middle, first = .ok middle ∧ next middle = .ok result := by
  cases first with
  | error reason =>
    constructor
    · intro done
      nomatch done
    · rintro ⟨middle, done, -⟩
      nomatch done
  | ok middle =>
    constructor
    · intro done
      exact ⟨middle, rfl, done⟩
    · rintro ⟨other, done, rest⟩
      cases done
      exact rest

/-- A text is assigned exactly when it is read. -/
theorem assign_eq_ok {entry : K × T} : assign read store entry = .ok after ↔
    ∃ value, read entry.1 entry.2 = .ok value ∧ Function.update store entry.1 value = after := by
  unfold assign
  rw [bind_eq_ok]
  simp only [pure, Except.pure, Except.ok.injEq]

/-- The first of several texts is assigned before the others. -/
theorem assignAll_cons {entry : K × T} {rest : List (K × T)} :
    assignAll read store (entry :: rest) = .ok after ↔
      ∃ middle, assign read store entry = .ok middle ∧ assignAll read middle rest = .ok after := by
  unfold assignAll
  rw [List.foldlM_cons]
  exact bind_eq_ok

/-- One list of texts after another is assigned like both together. -/
theorem assignAll_append {first second : List (K × T)} :
    assignAll read store (first ++ second) = .ok after ↔
      ∃ middle, assignAll read store first = .ok middle ∧
        assignAll read middle second = .ok after := by
  induction first generalizing store with
  | nil =>
    constructor
    · intro done
      exact ⟨store, rfl, done⟩
    · rintro ⟨middle, start, done⟩
      cases start
      exact done
  | cons entry first ih =>
    rw [List.cons_append, assignAll_cons]
    constructor
    · rintro ⟨next, head, tail⟩
      obtain ⟨middle, front, back⟩ := ih.mp tail
      exact ⟨middle, assignAll_cons.mpr ⟨next, head, front⟩, back⟩
    · rintro ⟨middle, front, back⟩
      obtain ⟨next, head, tail⟩ := assignAll_cons.mp front
      exact ⟨next, head, ih.mpr ⟨middle, tail, back⟩⟩

/-- After all assignments the store holds what the last text of each key reads as, and what it
held under the keys that none was assigned to. -/
theorem read_last {rows : List (K × T)} (done : assignAll read store rows = .ok after) (key : K) :
    match Assoc.last rows key with
    | some text => read key text = .ok (after key)
    | none => after key = store key := by
  induction rows generalizing store with
  | nil =>
    cases done
    rfl
  | cons entry rows ih =>
    obtain ⟨middle, head, tail⟩ := assignAll_cons.mp done
    obtain ⟨value, denoted, rfl⟩ := assign_eq_ok.mp head
    have rest := ih tail
    rw [Assoc.last_cons]
    cases later : Assoc.last rows key with
    | some text =>
      rw [later] at rest
      exact rest
    | none =>
      rw [later] at rest
      by_cases same : entry.1 = key
      · subst same
        rw [if_pos rfl]
        rw [Function.update_self] at rest
        show read entry.1 entry.2 = .ok (after entry.1)
        rw [rest]
        exact denoted
      · rw [if_neg same]
        rw [Function.update_of_ne (Ne.symm same)] at rest
        exact rest

/-- Texts are all assigned exactly when each is read. -/
theorem exists_assignAll {rows : List (K × T)} : (∃ after, assignAll read store rows = .ok after) ↔
    ∀ row ∈ rows, ∃ value, read row.1 row.2 = .ok value := by
  induction rows generalizing store with
  | nil =>
    constructor
    · intro _ row stored
      contradiction
    · intro _
      exact ⟨store, rfl⟩
  | cons entry rows ih =>
    rw [List.forall_mem_cons]
    constructor
    · rintro ⟨after, done⟩
      obtain ⟨middle, head, tail⟩ := assignAll_cons.mp done
      obtain ⟨value, denoted, -⟩ := assign_eq_ok.mp head
      exact ⟨⟨value, denoted⟩, ih.mp ⟨after, tail⟩⟩
    · rintro ⟨⟨value, denoted⟩, others⟩
      obtain ⟨after, tail⟩ := ih.mpr others
      exact ⟨after, assignAll_cons.mpr ⟨_, assign_eq_ok.mpr ⟨value, denoted, rfl⟩, tail⟩⟩

/-- Items are all loaded exactly when none is refused and their assignments are all made. -/
theorem loadAll_eq_ok {items : List X} : items.foldlM (load read parse) store = .ok after ↔
    (∀ item ∈ items, ∃ held, parse item = .ok held) ∧
      assignAll read store (entries parse items) = .ok after := by
  induction items generalizing store with
  | nil =>
    constructor
    · intro done
      refine ⟨?_, done⟩
      intro item stored
      contradiction
    · rintro ⟨-, done⟩
      exact done
  | cons item items ih =>
    rw [List.foldlM_cons, bind_eq_ok, List.forall_mem_cons]
    unfold load entries
    cases held : parse item with
    | error reason =>
      constructor
      · rintro ⟨middle, done, -⟩
        nomatch done
      · rintro ⟨⟨⟨other, none⟩, -⟩, -⟩
        nomatch none
    | ok entry =>
      cases entry with
      | none =>
        rw [List.filterMap_cons_none (by rw [held]; rfl)]
        constructor
        · rintro ⟨middle, done, rest⟩
          cases done
          obtain ⟨accepted, rest⟩ := ih.mp rest
          exact ⟨⟨⟨none, rfl⟩, accepted⟩, rest⟩
        · rintro ⟨⟨-, accepted⟩, rest⟩
          exact ⟨store, rfl, ih.mpr ⟨accepted, rest⟩⟩
      | some entry =>
        rw [List.filterMap_cons_some (by rw [held]; rfl), assignAll_cons]
        constructor
        · rintro ⟨middle, done, rest⟩
          obtain ⟨accepted, rest⟩ := ih.mp rest
          exact ⟨⟨⟨some entry, rfl⟩, accepted⟩, middle, done, rest⟩
        · rintro ⟨⟨-, accepted⟩, middle, done, rest⟩
          exact ⟨middle, done, ih.mpr ⟨accepted, rest⟩⟩

end Layers

end PlatformService.Lib
