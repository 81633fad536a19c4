import Mathlib.Tactic.Common

/-!
# Work in batches

A loop that takes pending work in batches of a size until a batch was not full. When a
batch takes what it can and leaves the finished state as it was, the loop ends with all
the work done and counted, whatever each batch picked. The count has a limit, as a
machine integer has.
-/

namespace PlatformService.Lib.Batches

/-- How a loop ends, within a number of batches. -/
inductive Ended (S : Type) where
  | returned (total : Nat) (state : S)
  | overflowed
  | unfinished
  deriving DecidableEq, Repr

variable {S : Type}

/-- Batches until one is not full, adding up what they took. -/
def loop (step : Nat → S → Nat × S) (size limit : Nat) : (left turn total : Nat) → S → Ended S
  | 0, _, _, _ => .unfinished
  | left + 1, turn, total, state =>
    let (taken, next) := step turn state
    if limit < total + taken then .overflowed
    else if taken < size then .returned (total + taken) next
    else loop step size limit left (turn + 1) (total + taken) next

/-- A batch takes as much of the pending work as fits, and what there is to finish stays the same. -/
structure Drains (step : S → Nat × S) (size : Nat) (pending : S → Nat) (finish : S → S) : Prop where
  taken : ∀ state, (step state).1 = min size (pending state)
  rest : ∀ state, pending (step state).2 + (step state).1 = pending state
  same : ∀ state, finish (step state).2 = finish state
  idle : ∀ state, pending state = 0 → finish state = state

/-- The loop finishes the work and counts it, as long as the count fits. -/
theorem loop_eq {step : Nat → S → Nat × S} {size limit : Nat} {pending : S → Nat} {finish : S → S}
    (drains : ∀ turn, Drains (step turn) size pending finish) (positive : 0 < size)
    {left turn total : Nat} {state : S} (enough : pending state < left) :
    loop step size limit left turn total state =
      if total + pending state ≤ limit then .returned (total + pending state) (finish state)
      else .overflowed := by
  induction left generalizing turn total state with
  | zero => omega
  | succ left ih =>
    have taken := (drains turn).taken state
    have rest := (drains turn).rest state
    have same := (drains turn).same state
    rw [loop]
    generalize step turn state = outcome at taken rest same
    obtain ⟨count, next⟩ := outcome
    dsimp only at taken rest same ⊢
    by_cases above : limit < total + count
    · have beyond : ¬ total + pending state ≤ limit := by omega
      rw [if_pos above, if_neg beyond]
    · rw [if_neg above]
      by_cases last : count < size
      · have all : count = pending state := by omega
        have nothing : pending next = 0 := by omega
        have within : total + pending state ≤ limit := by omega
        have done := (drains turn).idle next nothing
        rw [if_pos last, if_pos within, all, ← same, done]
      · rw [if_neg last, ih (by omega), same]
        have sum : total + count + pending next = total + pending state := by omega
        rw [sum]

section Rows

variable {R : Type} {rows : List R} {taken condition : R → Bool}

/-- Taking some of the rows that meet a condition takes them from its count. -/
theorem countP_rest (within : ∀ row ∈ rows, taken row = true → condition row = true) :
    (rows.filter fun row => !taken row).countP condition + rows.countP taken =
      rows.countP condition := by
  induction rows with
  | nil => rfl
  | cons row rows ih =>
    have tail := ih fun other member => within other (List.mem_cons_of_mem _ member)
    have head := within row List.mem_cons_self
    cases here : taken row with
    | true =>
      have meets := head here
      rw [List.filter_cons_of_neg (by simp [here]), List.countP_cons_of_pos here,
        List.countP_cons_of_pos meets]
      omega
    | false =>
      rw [List.filter_cons_of_pos (by simp [here]), List.countP_cons, List.countP_cons,
        List.countP_cons, here]
      simp only [Bool.false_eq_true, if_false]
      omega

/-- Taking some of the rows that meet a condition leaves those that do not. -/
theorem filter_rest (within : ∀ row ∈ rows, taken row = true → condition row = true) :
    ((rows.filter fun row => !taken row).filter fun row => !condition row) =
      rows.filter fun row => !condition row := by
  rw [List.filter_filter]
  apply List.filter_congr
  intro row member
  cases meets : condition row with
  | true => rfl
  | false =>
    have spared : taken row = false := by
      by_contra caught
      have contrary := within row member (by simpa using caught)
      rw [meets] at contrary
      contradiction
    rw [spared]
    rfl

/-- Nothing that meets a condition: nothing is dropped. -/
theorem filter_of_countP_eq_zero (unmet : rows.countP condition = 0) :
    (rows.filter fun row => !condition row) = rows := by
  rw [List.filter_eq_self]
  intro row member
  have spared := List.countP_eq_zero.mp unmet row member
  simpa using spared

variable {change : R → R}

/-- Changing some of the rows that meet a condition, so that they no longer do, takes them from its
count. -/
theorem countP_changed (within : ∀ row ∈ rows, taken row = true → condition row = true)
    (clears : ∀ row, condition (change row) = false) :
    (rows.map fun row => if taken row then change row else row).countP condition +
      rows.countP taken = rows.countP condition := by
  induction rows with
  | nil => rfl
  | cons row rows ih =>
    have tail := ih fun other member => within other (List.mem_cons_of_mem _ member)
    have head := within row List.mem_cons_self
    rw [List.map_cons]
    cases here : taken row with
    | true =>
      have meets := head here
      rw [if_pos rfl, List.countP_cons_of_neg (by simp [clears row]),
        List.countP_cons_of_pos here, List.countP_cons_of_pos meets]
      omega
    | false =>
      rw [if_neg (by simp), List.countP_cons, List.countP_cons, List.countP_cons, here]
      simp only [Bool.false_eq_true, if_false]
      omega

/-- Changing some of the rows that meet a condition, and then all that do, changes those. -/
theorem map_changed (within : ∀ row ∈ rows, taken row = true → condition row = true)
    (clears : ∀ row, condition (change row) = false) :
    ((rows.map fun row => if taken row then change row else row).map fun row =>
        if condition row then change row else row) =
      rows.map fun row => if condition row then change row else row := by
  rw [List.map_map]
  apply List.map_congr_left
  intro row member
  rw [Function.comp_apply]
  cases here : taken row with
  | true =>
    have meets := within row member here
    rw [if_pos rfl, clears row, meets]
    rfl
  | false => simp only [Bool.false_eq_true, if_false]

end Rows

end PlatformService.Lib.Batches
