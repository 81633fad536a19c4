import Mathlib.Data.List.Nodup

/-!
# Keyed tables

A table is a list of rows in insertion order whose keys never repeat: the
uniqueness of the primary key is a field of the type, so an insertion that would
break it has no result. Updates carry the proof that they keep every key.
Membership is the one observation that the lemmas below compute for each
operation; `find?` is tied to it by `find?_eq_some_iff`.
-/

namespace PlatformService.Lib

/-- Rows with pairwise different keys, in insertion order. -/
@[ext]
structure Table (K R : Type) (key : R → K) where
  /-- The stored rows. -/
  rows : List R
  /-- No key is stored twice. -/
  unique : (rows.map key).Nodup

namespace Table

variable {K R : Type} {key : R → K}

instance : Membership R (Table K R key) := ⟨fun table row => row ∈ table.rows⟩

instance [DecidableEq R] (row : R) (table : Table K R key) : Decidable (row ∈ table) :=
  inferInstanceAs (Decidable (row ∈ table.rows))

instance [DecidableEq R] : DecidableEq (Table K R key) := fun _ _ =>
  decidable_of_iff _ Table.ext_iff.symm

/-- Membership in a table is membership in its rows. -/
theorem mem_def {table : Table K R key} {row : R} : row ∈ table ↔ row ∈ table.rows := Iff.rfl

/-- The table without rows. -/
def empty : Table K R key := ⟨[], List.nodup_nil⟩

instance : Inhabited (Table K R key) := ⟨empty⟩

/-- Nothing is stored in the empty table. -/
@[simp]
theorem not_mem_empty (row : R) : row ∉ (empty : Table K R key) := List.not_mem_nil

/-- Two stored rows with one key are the same row. -/
theorem eq_of_key {table : Table K R key} {left right : R} (hl : left ∈ table)
    (hr : right ∈ table) (same : key left = key right) : left = right :=
  List.inj_on_of_nodup_map table.unique hl hr same

section Keyed

variable [DecidableEq K]

/-- The row stored under a key. -/
def find? (table : Table K R key) (k : K) : Option R :=
  table.rows.find? fun row => key row = k

/-- Lookup succeeds exactly on the stored row of that key. -/
theorem find?_eq_some_iff {table : Table K R key} {k : K} {row : R} :
    table.find? k = some row ↔ row ∈ table ∧ key row = k := by
  constructor
  · intro found
    exact ⟨List.mem_of_find?_eq_some found, by simpa using List.find?_some found⟩
  · rintro ⟨stored, rfl⟩
    cases found : table.find? (key row) with
    | none =>
      have absent := List.find?_eq_none.mp found row stored
      simp at absent
    | some other =>
      have same : key other = key row := by simpa using List.find?_some found
      rw [eq_of_key (List.mem_of_find?_eq_some found) stored same]

/-- Lookup fails exactly when no stored row has the key. -/
theorem find?_eq_none_iff {table : Table K R key} {k : K} :
    table.find? k = none ↔ ∀ row ∈ table, key row ≠ k := by
  unfold find?
  simp only [List.find?_eq_none, decide_eq_true_eq]
  exact Iff.rfl

/-- A stored row is found under its own key. -/
theorem find?_of_mem {table : Table K R key} {row : R} (stored : row ∈ table) :
    table.find? (key row) = some row :=
  find?_eq_some_iff.mpr ⟨stored, rfl⟩

/-- `INSERT`: no result when the key is already stored. -/
def insert (table : Table K R key) (row : R) : Option (Table K R key) :=
  if fresh : key row ∈ table.rows.map key then none
  else some ⟨table.rows ++ [row], by
    rw [List.map_append, List.map_singleton]
    exact List.nodup_append.mpr ⟨table.unique, List.nodup_singleton _, by
      intro k hk k' hk' same
      rw [List.mem_singleton] at hk'
      exact fresh (hk' ▸ same ▸ hk)⟩⟩

/-- A successful insertion adds exactly its row, whose key was not stored. -/
theorem mem_insert {table after : Table K R key} {row : R} (done : table.insert row = some after) :
    (∀ other, other ∈ after ↔ other ∈ table ∨ other = row) ∧
      ∀ other ∈ table, key other ≠ key row := by
  unfold insert at done
  split at done
  · contradiction
  · rename_i fresh
    cases done
    refine ⟨fun other => by simp [mem_def], fun other stored same => fresh ?_⟩
    exact List.mem_map.mpr ⟨other, stored, same⟩

/-- A successful insertion appends its row. -/
theorem rows_insert {table after : Table K R key} {row : R} (done : table.insert row = some after) :
    after.rows = table.rows ++ [row] := by
  unfold insert at done
  split at done
  · contradiction
  · cases done
    rfl

/-- Lookup after an insertion finds the new row under its key and is as before elsewhere. -/
theorem find?_insert {table after : Table K R key} {row : R} (done : table.insert row = some after)
    (k : K) : after.find? k = if key row = k then some row else table.find? k := by
  have rows := (mem_insert done).1
  by_cases own : key row = k
  · rw [if_pos own, find?_eq_some_iff]
    exact ⟨(rows row).mpr (Or.inr rfl), own⟩
  · rw [if_neg own]
    cases found : table.find? k with
    | none =>
      rw [find?_eq_none_iff]
      intro other stored
      cases (rows other).mp stored with
      | inl old => exact find?_eq_none_iff.mp found other old
      | inr new => exact new ▸ own
    | some other =>
      obtain ⟨stored, same⟩ := find?_eq_some_iff.mp found
      exact find?_eq_some_iff.mpr ⟨(rows other).mpr (Or.inl stored), same⟩

/-- Insertion of a key that is not stored succeeds. -/
theorem insert_isSome {table : Table K R key} {row : R}
    (fresh : ∀ other ∈ table, key other ≠ key row) : ∃ after, table.insert row = some after := by
  have absent : key row ∉ table.rows.map key := by
    intro stored
    obtain ⟨other, member, same⟩ := List.mem_map.mp stored
    exact fresh other member same
  exact ⟨_, dif_neg absent⟩

end Keyed

/-- `UPDATE … SET … WHERE`: rewrite the selected rows, keeping every key. -/
def update (table : Table K R key) (selected : R → Bool) (change : R → R)
    (keeps : ∀ row, key (change row) = key row) : Table K R key where
  rows := table.rows.map fun row => if selected row then change row else row
  unique := by
    have same : (key ∘ fun row => if selected row then change row else row) = key := by
      funext row
      simp only [Function.comp_apply]
      split
      · exact keeps row
      · rfl
    rw [List.map_map, same]
    exact table.unique

/-- The rows after an update are the old rows, the selected ones changed. -/
theorem mem_update {table : Table K R key} {selected : R → Bool} {change : R → R}
    {keeps : ∀ row, key (change row) = key row} {row : R} :
    row ∈ table.update selected change keeps ↔
      ∃ old ∈ table, row = if selected old then change old else old := by
  simp only [mem_def, update, List.mem_map]
  constructor
  · rintro ⟨old, stored, rfl⟩
    exact ⟨old, stored, rfl⟩
  · rintro ⟨old, stored, rfl⟩
    exact ⟨old, stored, rfl⟩

/-- An update keeps the keys. -/
theorem keys_update {table : Table K R key} {selected : R → Bool} {change : R → R}
    (keeps : ∀ row, key (change row) = key row) :
    (table.update selected change keeps).rows.map key = table.rows.map key := by
  unfold update
  rw [List.map_map]
  apply List.map_congr_left
  intro row _
  rw [Function.comp_apply]
  split
  · exact keeps row
  · rfl

/-- Between tables with the same keys, each row has one of its key. -/
theorem exists_of_keys {left right : Table K R key} (same : left.rows.map key = right.rows.map key) :
    ∀ row ∈ left, ∃ other ∈ right, key other = key row := by
  intro row stored
  have listed : key row ∈ right.rows.map key := same ▸ List.mem_map_of_mem stored
  exact List.mem_map.mp listed

/-- An update that selects no stored row changes nothing. -/
theorem update_eq_self {table : Table K R key} {selected : R → Bool} {change : R → R}
    {keeps : ∀ row, key (change row) = key row} (unselected : ∀ row ∈ table, selected row = false) :
    table.update selected change keeps = table := by
  ext1
  refine (List.map_congr_left fun row stored => ?_).trans (List.map_id _)
  rw [unselected row stored]
  rfl

/-- Lookup after an update is the lookup before it, changed when selected. -/
theorem find?_update [DecidableEq K] {table : Table K R key} {selected : R → Bool} {change : R → R}
    {keeps : ∀ row, key (change row) = key row} {k : K} :
    (table.update selected change keeps).find? k =
      (table.find? k).map fun row => if selected row then change row else row := by
  cases found : table.find? k with
  | none =>
    rw [Option.map_none, find?_eq_none_iff]
    intro row stored
    obtain ⟨old, member, rfl⟩ := mem_update.mp stored
    have absent := find?_eq_none_iff.mp found old member
    split
    · rwa [keeps]
    · exact absent
  | some row =>
    obtain ⟨stored, rfl⟩ := find?_eq_some_iff.mp found
    rw [Option.map_some, find?_eq_some_iff]
    refine ⟨mem_update.mpr ⟨row, stored, rfl⟩, ?_⟩
    split
    · exact keeps row
    · rfl

/-- `DELETE … WHERE`: drop the selected rows. -/
def delete (table : Table K R key) (selected : R → Bool) : Table K R key where
  rows := table.rows.filter fun row => !selected row
  unique := table.unique.sublist (List.Sublist.map key List.filter_sublist)

/-- The rows after a deletion are the rows it did not select. -/
theorem mem_delete {table : Table K R key} {selected : R → Bool} {row : R} :
    row ∈ table.delete selected ↔ row ∈ table ∧ selected row = false := by
  simp [mem_def, delete]

/-- Lookup after a deletion is the lookup before it, unless its row is dropped. -/
theorem find?_delete [DecidableEq K] {table : Table K R key} {selected : R → Bool} {k : K} :
    (table.delete selected).find? k = (table.find? k).filter fun row => !selected row := by
  cases found : table.find? k with
  | none =>
    rw [Option.filter_none, find?_eq_none_iff]
    intro row stored
    exact find?_eq_none_iff.mp found row (mem_delete.mp stored).1
  | some row =>
    obtain ⟨stored, own⟩ := find?_eq_some_iff.mp found
    cases dropped : selected row with
    | true =>
      rw [Option.filter_some, dropped, Bool.not_true, if_neg (by simp), find?_eq_none_iff]
      intro other kept same
      obtain ⟨member, spared⟩ := mem_delete.mp kept
      rw [eq_of_key member stored (same.trans own.symm), dropped] at spared
      contradiction
    | false =>
      rw [Option.filter_some, dropped, Bool.not_false, if_pos rfl, find?_eq_some_iff]
      exact ⟨mem_delete.mpr ⟨stored, dropped⟩, own⟩

/-- How many rows a condition selects. -/
def count (table : Table K R key) (selected : R → Bool) : Nat := table.rows.countP selected

/-- A count is positive exactly when some stored row is selected. -/
theorem count_pos_iff {table : Table K R key} {selected : R → Bool} :
    0 < table.count selected ↔ ∃ row ∈ table, selected row = true :=
  List.countP_pos_iff

end Table

end PlatformService.Lib
