import Mathlib.Data.List.Find

/-!
# Bounded search in growing data

The first occurrence of a pattern at or after a position, looked for only below a
limit. What is found in some data is found at the same place when data is appended
and the limit raised, and what is not found below a limit is not found below it
later: the facts a parser needs that starts over whenever more data arrives.
-/

namespace PlatformService.Lib

variable {A : Type} [DecidableEq A]

/-- A pattern stands at a position of some data. -/
def occursAt (pattern data : List A) (i : Nat) : Bool :=
  decide ((data.drop i).take pattern.length = pattern)

/-- The first position from `start` on at which a pattern stands that ends at or before `limit`. -/
def firstOccurrence (pattern data : List A) (start limit : Nat) : Option Nat :=
  (List.range' start (limit + 1 - pattern.length - start)).find? (occursAt pattern data)

/-- What a search finds. -/
theorem firstOccurrence_eq_some {pattern data : List A} {start limit i : Nat} :
    firstOccurrence pattern data start limit = some i ↔
      (start ≤ i ∧ i + pattern.length ≤ limit) ∧ occursAt pattern data i = true ∧
        ∀ j, start ≤ j → j < i → occursAt pattern data j = false := by
  simp only [firstOccurrence, List.find?_range'_eq_some, List.mem_range'_1, Bool.not_eq_true']
  constructor
  · intro ⟨here, bounds, before⟩
    exact ⟨by omega, here, before⟩
  · intro ⟨bounds, here, before⟩
    exact ⟨here, by omega, before⟩

/-- What a search in vain rules out. -/
theorem not_occursAt_of_eq_none {pattern data : List A} {start limit i : Nat}
    (missed : firstOccurrence pattern data start limit = none) (after : start ≤ i)
    (below : i + pattern.length ≤ limit) : occursAt pattern data i = false := by
  have none := List.find?_eq_none.mp missed i
  rw [List.mem_range'_1] at none
  exact Bool.eq_false_iff.mpr (none (by omega))

/-- Data appended behind a limit does not change what stands before it. -/
theorem occursAt_append {pattern data : List A} {i : Nat} (fits : i + pattern.length ≤ data.length)
    (more : List A) : occursAt pattern (data ++ more) i = occursAt pattern data i := by
  have inside : i ≤ data.length := by omega
  have covered : pattern.length ≤ (data.drop i).length := by
    rw [List.length_drop]
    omega
  rw [occursAt, occursAt, List.drop_append_of_le_length inside, List.take_append_of_le_length covered]

/-- Data appended behind the limit does not change what a search finds. -/
theorem firstOccurrence_append {pattern data : List A} {start limit : Nat}
    (within : limit ≤ data.length) (more : List A) :
    firstOccurrence pattern (data ++ more) start limit = firstOccurrence pattern data start limit := by
  apply List.find?_congr
  intro i member
  rw [List.mem_range'_1] at member
  exact occursAt_append (by omega) more

/-- What is found is found again in more data below a higher limit. -/
theorem firstOccurrence_of_found {pattern data : List A} {start limit higher i : Nat}
    (found : firstOccurrence pattern data start limit = some i) (raised : limit ≤ higher) :
    firstOccurrence pattern data start higher = some i := by
  obtain ⟨bounds, here, before⟩ := firstOccurrence_eq_some.mp found
  exact firstOccurrence_eq_some.mpr ⟨by omega, here, before⟩

/-- A pattern stands where the data goes on with it. -/
theorem occursAt_iff {pattern data : List A} {i : Nat} :
    occursAt pattern data i = true ↔ pattern <+: data.drop i := by
  rw [occursAt, decide_eq_true_eq, List.prefix_iff_eq_take]
  exact eq_comm

/-- Data in front moves what stands behind it. -/
theorem occursAt_append_left (pattern before data : List A) (i : Nat) :
    occursAt pattern (before ++ data) (before.length + i) = occursAt pattern data i := by
  rw [occursAt, occursAt, ← List.drop_drop, List.drop_left]

/-- Where two patterns stand one after the other, the first stands. -/
theorem occursAt_of_append {first second data : List A} {i : Nat}
    (here : occursAt (first ++ second) data i = true) : occursAt first data i = true := by
  rw [occursAt_iff] at here ⊢
  exact (List.prefix_append first second).trans here

/-- Where two patterns stand one after the other, the second stands behind the first. -/
theorem occursAt_of_append_right {first second data : List A} {i : Nat}
    (here : occursAt (first ++ second) data i = true) :
    occursAt second data (i + first.length) = true := by
  rw [occursAt_iff] at here ⊢
  obtain ⟨rest, shape⟩ := here
  rw [← List.drop_drop, ← shape, List.append_assoc, List.drop_left]
  exact List.prefix_append second rest

/-- Two patterns stand one after the other where the second stands behind the first. -/
theorem occursAt_append_iff {first second data : List A} {i : Nat} :
    occursAt (first ++ second) data i = true ↔
      occursAt first data i = true ∧ occursAt second data (i + first.length) = true := by
  constructor
  · intro here
    exact ⟨occursAt_of_append here, occursAt_of_append_right here⟩
  · rintro ⟨front, back⟩
    rw [occursAt_iff] at front back ⊢
    obtain ⟨rest, shape⟩ := front
    rw [← List.drop_drop, ← shape, List.drop_left] at back
    rw [← shape]
    exact (List.prefix_append_right_inj first).mpr back

/-- A search below a lower limit finds the same or nothing. -/
theorem firstOccurrence_lower {pattern data : List A} {start limit lower i : Nat}
    (found : firstOccurrence pattern data start limit = some i) :
    firstOccurrence pattern data start lower =
      if i + pattern.length ≤ lower then some i else none := by
  obtain ⟨bounds, here, before⟩ := firstOccurrence_eq_some.mp found
  split
  · exact firstOccurrence_eq_some.mpr ⟨by omega, here, before⟩
  · rename_i outside
    cases other : firstOccurrence pattern data start lower with
    | none => rfl
    | some j =>
      obtain ⟨within, there, _⟩ := firstOccurrence_eq_some.mp other
      have early := before j within.1 (by omega)
      rw [there] at early
      contradiction

/-- A search in the start of some data is the search in the data below a limit. -/
theorem firstOccurrence_take {pattern data : List A} {start size limit : Nat}
    (within : limit ≤ (data.take size).length) :
    firstOccurrence pattern (data.take size) start limit = firstOccurrence pattern data start limit := by
  conv_rhs => rw [← List.take_append_drop size data]
  exact (firstOccurrence_append within (data.drop size)).symm

end PlatformService.Lib
