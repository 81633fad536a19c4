import PlatformService.Lib.Table

/-!
# Tables that come from each other

Each row of a table comes from the row of its key in an earlier one, or is new there. What may be new,
and what a row may turn into, are parameters: a relation between rows is carried through insertions,
updates and deletions, so that it is checked on the rows that they touch only. Two tables agree on some
rows if they hold the same of them; what touches only others keeps this.
-/

namespace PlatformService.Lib.Table

variable {K R : Type} {key : R → K} {before middle after : Table K R key} {joins : R → Prop}
  {turns : R → R → Prop}

/-- Each row joins under a key of its own or is what the row of its key turned into. -/
def Follows (before after : Table K R key) (joins : R → Prop) (turns : R → R → Prop) : Prop :=
  ∀ row ∈ after, ((∀ old ∈ before, key old ≠ key row) ∧ joins row) ∨
    ∃ old ∈ before, key old = key row ∧ turns old row

/-- A table comes from itself where a row may stay what it is. -/
theorem Follows.refl (table : Table K R key) (stays : ∀ row, turns row row) :
    Follows table table joins turns :=
  fun row stored => Or.inr ⟨row, stored, rfl, stays row⟩

/-- A table that is the same comes from it. -/
theorem Follows.of_eq (stays : ∀ row, turns row row) (same : after = before) :
    Follows before after joins turns := by
  rw [same]
  exact Follows.refl before stays

/-- An update turns the rows that it selects. -/
theorem Follows.update {selected : R → Bool} {change : R → R} (stays : ∀ row, turns row row)
    (updated : after.rows = before.rows.map fun row => if selected row then change row else row)
    (keeps : ∀ row, key (change row) = key row)
    (changed : ∀ row ∈ before, selected row = true → turns row (change row)) :
    Follows before after joins turns := by
  intro row stored
  rw [mem_def, updated] at stored
  obtain ⟨old, member, rfl⟩ := List.mem_map.mp stored
  refine Or.inr ⟨old, member, ?_, ?_⟩
  · split
    · exact (keeps old).symm
    · rfl
  · split
    · rename_i picked
      exact changed old member picked
    · exact stays old

/-- A deletion turns nothing. -/
theorem Follows.delete {selected : R → Bool} (stays : ∀ row, turns row row)
    (deleted : after = before.delete selected) : Follows before after joins turns := by
  intro row stored
  rw [deleted] at stored
  exact Or.inr ⟨row, (mem_delete.mp stored).1, rfl, stays row⟩

/-- Two tables hold the same of some rows. -/
def Agrees (before after : Table K R key) (mine : R → Prop) : Prop :=
  ∀ row, mine row → (row ∈ after ↔ row ∈ before)

variable {mine : R → Prop}

/-- A table that is the same agrees. -/
theorem Agrees.of_eq (same : after = before) : Agrees before after mine := by
  rw [same]
  exact fun _ _ => Iff.rfl

/-- An update of other rows, which stay others. -/
theorem Agrees.update {selected : R → Bool} {change : R → R}
    (updated : after.rows = before.rows.map fun row => if selected row then change row else row)
    (others : ∀ row ∈ before, selected row = true → ¬mine row ∧ ¬mine (change row)) :
    Agrees before after mine := by
  intro row own
  rw [mem_def, updated, List.mem_map]
  constructor
  · rintro ⟨old, member, same⟩
    split at same
    · rename_i picked
      rw [← same] at own
      exact absurd own (others old member picked).2
    · rw [← same]
      exact member
  · intro member
    refine ⟨row, member, if_neg fun picked => ?_⟩
    exact (others row member picked).1 own

variable [DecidableEq K]

/-- An insertion of another row. -/
theorem Agrees.insert {row : R} (agrees : Agrees before middle mine)
    (done : middle.insert row = some after) (other : ¬mine row) : Agrees before after mine := by
  intro held own
  rw [(mem_insert done).1 held, ← agrees held own]
  refine or_iff_left fun same => other ?_
  rw [← same]
  exact own

/-- An insertion after other changes that kept every key. -/
theorem Follows.insert {row : R} (follows : Follows before middle joins turns)
    (keys : before.rows.map key = middle.rows.map key) (done : middle.insert row = some after)
    (joined : joins row) : Follows before after joins turns := by
  intro other stored
  obtain ⟨rows, fresh⟩ := mem_insert done
  cases (rows other).mp stored with
  | inl old => exact follows other old
  | inr new =>
    rw [new]
    refine Or.inl ⟨fun old member same => ?_, joined⟩
    obtain ⟨kept, held, alike⟩ := exists_of_keys keys old member
    exact fresh kept held (alike.trans same)

/-- An insertion into a table as it was. -/
theorem Follows.inserted {row : R} (stays : ∀ row, turns row row)
    (done : before.insert row = some after) (joined : joins row) :
    Follows before after joins turns :=
  (Follows.refl before stays).insert rfl done joined

end PlatformService.Lib.Table
