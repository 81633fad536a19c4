import Mathlib.Order.Basic

/-!
# Bisection

A window of positions is halved until it is empty or its middle compares equal. When the
comparisons ascend, the positions that compare equal never leave the window, so the
search answers whether there is one.
-/

namespace PlatformService.Lib

/-- Whether the search ends at an equal position, within a number of steps. -/
def bisect (compare : Nat → Ordering) : (steps lo hi : Nat) → Bool
  | 0, _, _ => false
  | steps + 1, lo, hi =>
    if lo < hi then
      let mid := lo + (hi - lo) / 2
      match compare mid with
      | .eq => true
      | .lt => bisect compare steps (mid + 1) hi
      | .gt => bisect compare steps lo mid
    else false

/-- Below a limit, positions before a lesser one are lesser, and positions behind a greater one are
greater. -/
structure Ascends (compare : Nat → Ordering) (limit : Nat) : Prop where
  below : ∀ i j, i ≤ j → j < limit → compare j = .lt → compare i = .lt
  above : ∀ i j, i ≤ j → j < limit → compare i = .gt → compare j = .gt

/-- With enough steps the search finds an equal position of its window exactly when there is one. -/
theorem bisect_eq_true_iff {compare : Nat → Ordering} {limit : Nat} (ascends : Ascends compare limit)
    {steps lo hi : Nat} (enough : hi - lo < steps) (inside : hi ≤ limit) :
    bisect compare steps lo hi = true ↔ ∃ i, lo ≤ i ∧ i < hi ∧ compare i = .eq := by
  induction steps generalizing lo hi with
  | zero => omega
  | succ steps ih =>
    unfold bisect
    by_cases active : lo < hi
    · have bounds : lo ≤ lo + (hi - lo) / 2 ∧ lo + (hi - lo) / 2 < hi := by omega
      rw [if_pos active]
      dsimp only
      generalize lo + (hi - lo) / 2 = mid at bounds
      cases outcome : compare mid with
      | eq => exact ⟨fun _ => ⟨mid, bounds.1, bounds.2, outcome⟩, fun _ => rfl⟩
      | lt =>
        dsimp only
        rw [ih (by omega) inside]
        constructor
        · intro ⟨i, after, before, equal⟩
          exact ⟨i, by omega, before, equal⟩
        · intro ⟨i, after, before, equal⟩
          have right : mid + 1 ≤ i := by
            by_contra left
            have lesser := ascends.below i mid (by omega) (by omega) outcome
            rw [lesser] at equal
            contradiction
          exact ⟨i, right, before, equal⟩
      | gt =>
        dsimp only
        rw [ih (by omega) (by omega)]
        constructor
        · intro ⟨i, after, before, equal⟩
          exact ⟨i, after, by omega, equal⟩
        · intro ⟨i, after, before, equal⟩
          have left : i < mid := by
            by_contra right
            have greater := ascends.above mid i (by omega) (by omega) outcome
            rw [greater] at equal
            contradiction
          exact ⟨i, after, left, equal⟩
    · rw [if_neg active]
      constructor
      · intro refused
        contradiction
      · intro ⟨i, after, before, _⟩
        omega

end PlatformService.Lib
