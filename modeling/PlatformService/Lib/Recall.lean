import PlatformService.Lib.Interleave

/-!
# Conditions on what a thread recalls

Whether a step of a run goes right may depend on what its thread saw at an earlier
step. `AlongRecalling` collects such a condition along a run: a thread recalls its
last observation, and the condition of a step is asked with what the thread
recalls. `run_invariant_recalling` is the invariant rule for such runs.
-/

namespace PlatformService.Lib.Pool

variable {S T ι M : Type} [DecidableEq ι] {act : S → T → S × T}

/-- What the threads recall after a step: the thread that steps recalls what it observes, if it
observes anything. -/
def recalled (observe : Pool S T ι → ι → Option M) (memory : ι → M) (pool : Pool S T ι) (i : ι) :
    ι → M :=
  Function.update memory i ((observe pool i).getD (memory i))

/-- Other threads recall what they did. -/
theorem recalled_of_ne {observe : Pool S T ι → ι → Option M} {memory : ι → M} {pool : Pool S T ι}
    {i j : ι} (other : j ≠ i) : recalled observe memory pool i j = memory j :=
  Function.update_of_ne other ..

/-- The thread that steps recalls what it has just observed. -/
theorem recalled_self {observe : Pool S T ι → ι → Option M} {memory : ι → M} {pool : Pool S T ι}
    {i : ι} : recalled observe memory pool i i = (observe pool i).getD (memory i) :=
  Function.update_self ..

/-- A condition, on what the thread recalls, that every step of a run meets. -/
def AlongRecalling (act : S → T → S × T) (observe : Pool S T ι → ι → Option M)
    (condition : M → Pool S T ι → ι → Prop) : (ι → M) → Pool S T ι → List ι → Prop
  | _, _, [] => True
  | memory, pool, i :: schedule => condition (memory i) pool i ∧
      AlongRecalling act observe condition (recalled observe memory pool i) (pool.step act i) schedule

instance decidableAlongRecalling (observe : Pool S T ι → ι → Option M)
    (condition : M → Pool S T ι → ι → Prop) [∀ seen pool i, Decidable (condition seen pool i)] :
    (memory : ι → M) → (pool : Pool S T ι) → (schedule : List ι) →
      Decidable (AlongRecalling act observe condition memory pool schedule)
  | _, _, [] => isTrue trivial
  | memory, pool, i :: schedule =>
    @instDecidableAnd _ _ _ (decidableAlongRecalling observe condition
      (recalled observe memory pool i) (pool.step act i) schedule)

/-- A condition along a run holds along each of its beginnings. -/
theorem AlongRecalling.beginning {observe : Pool S T ι → ι → Option M}
    {condition : M → Pool S T ι → ι → Prop} {memory : ι → M} {pool : Pool S T ι}
    {first second : List ι}
    (along : AlongRecalling act observe condition memory pool (first ++ second)) :
    AlongRecalling act observe condition memory pool first := by
  induction first generalizing memory pool with
  | nil => trivial
  | cons i first ih => exact ⟨along.1, ih along.2⟩

/-- What every step that meets the condition keeps holds at the end of a run that meets it, for what
the threads recall there. -/
theorem run_invariant_recalling {observe : Pool S T ι → ι → Option M}
    {condition : M → Pool S T ι → ι → Prop} (invariant : (ι → M) → Pool S T ι → Prop)
    (kept : ∀ memory pool i, invariant memory pool → condition (memory i) pool i →
      invariant (recalled observe memory pool i) (pool.step act i))
    {memory : ι → M} {pool : Pool S T ι} (start : invariant memory pool) {schedule : List ι}
    (along : AlongRecalling act observe condition memory pool schedule) :
    ∃ recalled, invariant recalled (pool.run act schedule) := by
  induction schedule generalizing memory pool with
  | nil => exact ⟨memory, start⟩
  | cons i schedule ih => exact ih (kept memory pool i start along.1) along.2

end PlatformService.Lib.Pool
