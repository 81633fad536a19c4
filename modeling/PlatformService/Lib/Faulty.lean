import Mathlib.Logic.Basic

/-!
# Commands that may fail

A command transforms a state and draws, for every attempted action, one verdict
from a list of faults: a drawn fault makes the action fail and leaves the state
as it was. A failure that undoes earlier actions as well is no fault of this kind.
`Ensures` states what a command guarantees, whatever the faults are or
on runs without one, and has one rule for each way of building a command, so
that a proof about a long command follows its text.
-/

namespace PlatformService.Lib

/-- Commands over a state, drawing their faults from a list; an exhausted list has no fault. -/
abbrev Faulty (σ : Type) := StateM (σ × List Bool)

namespace Faulty

variable {σ α β : Type}

/-- Attempt one action: it fails on a drawn fault or when it has no result, changing nothing. -/
def attempt (action : σ → Option (α × σ)) : Faulty σ (Option α) := fun (state, faults) =>
  if faults.headD false then (none, state, faults.tail)
  else match action state with
    | none => (none, state, faults.tail)
    | some (value, after) => (some value, after, faults.tail)

/-- An action that no fault can stop. -/
def always (action : σ → α × σ) : Faulty σ α := fun (state, faults) =>
  ((action state).1, (action state).2, faults)

/-- A sequence runs its second command where the first has ended. -/
theorem run_bind (first : Faulty σ α) (next : α → Faulty σ β) (state : σ × List Bool) :
    (first >>= next) state = next (first state).1 (first state).2 := rfl

/-- Working on the value of a command leaves the state that the command leaves. -/
theorem state_bind {first : Faulty σ α} {next : α → Faulty σ β}
    (returns : ∀ value, ∃ result, next value = pure result) (state : σ × List Bool) :
    ((first >>= next) state).2 = (first state).2 := by
  obtain ⟨result, same⟩ := returns (first state).1
  rw [run_bind, same]
  rfl

/-- What a command guarantees from a state: whatever its faults are, or, when it is `reliable`,
on runs without faults. -/
def Ensures (reliable : Prop) (command : Faulty σ α) (state : σ) (post : α → σ → Prop) : Prop :=
  ∀ faults, (reliable → faults = []) →
    post (command (state, faults)).1 (command (state, faults)).2.1 ∧
      (reliable → (command (state, faults)).2.2 = [])

variable {reliable : Prop}

/-- Returning a value guarantees what holds of the value. -/
theorem ensures_pure {value : α} {state : σ} {post : α → σ → Prop} (h : post value state) :
    Ensures reliable (pure value : Faulty σ α) state post := fun _ none => ⟨h, none⟩

/-- A sequence guarantees what its second command does from every result of the first. -/
theorem ensures_bind {first : Faulty σ α} {next : α → Faulty σ β} {state : σ}
    {middle : α → σ → Prop} {post : β → σ → Prop} (begins : Ensures reliable first state middle)
    (continues : ∀ value after, middle value after → Ensures reliable (next value) after post) :
    Ensures reliable (first >>= next) state post := by
  intro faults none
  obtain ⟨reached, left⟩ := begins faults none
  exact continues _ _ reached _ left

/-- An attempt guarantees what holds of its action's result, and of failure in place where the
action has no result or a fault is possible. -/
theorem ensures_attempt {action : σ → Option (α × σ)} {state : σ} {post : Option α → σ → Prop}
    (failure : ¬reliable ∨ action state = none → post none state)
    (success : ∀ value after, action state = some (value, after) → post (some value) after) :
    Ensures reliable (attempt action) state post := by
  intro faults none
  unfold attempt
  dsimp only
  by_cases drawn : faults.headD false = true
  · rw [if_pos drawn]
    have possible : ¬reliable := by
      intro sure
      rw [none sure] at drawn
      simp at drawn
    exact ⟨failure (Or.inl possible), fun sure => absurd sure possible⟩
  · rw [if_neg drawn]
    have left : reliable → faults.tail = [] := fun sure => by rw [none sure, List.tail_nil]
    cases done : action state with
    | none => exact ⟨failure (Or.inr done), left⟩
    | some result => exact ⟨success _ _ done, left⟩

/-- An unstoppable action guarantees what holds of its result. -/
theorem ensures_always {action : σ → α × σ} {state : σ} {post : α → σ → Prop}
    (h : post (action state).1 (action state).2) : Ensures reliable (always action) state post :=
  fun _ none => ⟨h, none⟩

/-- A weaker guarantee follows from a stronger one. -/
theorem Ensures.mono {command : Faulty σ α} {state : σ} {post weaker : α → σ → Prop}
    (h : Ensures reliable command state post)
    (weaken : ∀ value after, post value after → weaker value after) :
    Ensures reliable command state weaker :=
  fun faults none => ⟨weaken _ _ (h faults none).1, (h faults none).2⟩

end Faulty

end PlatformService.Lib
