import Mathlib.Algebra.Order.Ring.Nat
import Mathlib.Tactic.Ring

/-!
# A word that is doubled

A word of a number of bits is doubled until it is large enough. As long as a power of two of the word's
width suffices, the loop ends with the least one from where it starts; past that the word becomes zero and
the loop never ends.
-/

namespace PlatformService.Lib.Doubling

/-- `while (word < need) word *= 2` on words of some bits: where it ends, unless its turns run out. -/
def grow (bits need : Nat) : (turns word : Nat) → Option Nat
  | 0, _ => none
  | turns + 1, word => if word < need then grow bits need turns (word * 2 % 2 ^ bits) else some word

variable {bits need : Nat}

/-- Zero is doubled forever. -/
theorem grow_zero (positive : 0 < need) (turns : Nat) : grow bits need turns 0 = none := by
  induction turns with
  | zero => rfl
  | succ turns ih =>
    unfold grow
    rw [if_pos positive, Nat.zero_mul, Nat.zero_mod]
    exact ih

/-- Doubling a power of two that is not the largest one. -/
theorem double_mod {exponent : Nat} (inside : exponent + 1 < bits) :
    2 ^ exponent * 2 % 2 ^ bits = 2 ^ (exponent + 1) := by
  rw [← pow_succ]
  exact Nat.mod_eq_of_lt (Nat.pow_lt_pow_right (by decide) inside)

/-- The loop ends with a power of two that is large enough, and less than twice as large unless it has
begun there. -/
theorem grow_of_le {exponent : Nat} (inside : exponent < bits) (fits : need ≤ 2 ^ (bits - 1)) :
    ∀ turns, bits - exponent < turns + 1 → ∃ larger, grow bits need turns (2 ^ exponent) =
      some (2 ^ larger) ∧ exponent ≤ larger ∧ larger < bits ∧ need ≤ 2 ^ larger ∧
        (larger = exponent ∨ 2 ^ larger < 2 * need) := by
  intro turns enough
  induction turns generalizing exponent with
  | zero => omega
  | succ turns ih =>
    unfold grow
    by_cases small : 2 ^ exponent < need
    · have next : exponent + 1 < bits := by
        have below : 2 ^ exponent < 2 ^ (bits - 1) := Nat.lt_of_lt_of_le small fits
        have ordered := (Nat.pow_lt_pow_iff_right (by decide)).mp below
        omega
      rw [if_pos small, double_mod next]
      obtain ⟨larger, ended, above, within, suffices_, tight⟩ := ih next (by omega)
      refine ⟨larger, ended, by omega, within, suffices_, Or.inr ?_⟩
      cases tight with
      | inl same =>
        rw [same, pow_succ]
        omega
      | inr tight => exact tight
    · rw [if_neg small]
      exact ⟨exponent, rfl, Nat.le_refl _, inside, Nat.le_of_not_lt small, Or.inl rfl⟩

/-- Past the largest power of two the loop never ends. -/
theorem grow_of_gt {exponent : Nat} (inside : exponent < bits) (beyond : 2 ^ (bits - 1) < need) :
    ∀ turns, grow bits need turns (2 ^ exponent) = none := by
  intro turns
  induction turns generalizing exponent with
  | zero => rfl
  | succ turns ih =>
    have small : 2 ^ exponent < need :=
      Nat.lt_of_le_of_lt (Nat.pow_le_pow_right (by decide) (by omega)) beyond
    unfold grow
    rw [if_pos small]
    by_cases next : exponent + 1 < bits
    · rw [double_mod next]
      exact ih next
    · have last : bits = exponent + 1 := by omega
      rw [last, ← pow_succ, Nat.mod_self]
      exact grow_zero (Nat.lt_of_le_of_lt (Nat.zero_le _) small) turns

end PlatformService.Lib.Doubling
