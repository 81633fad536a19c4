import Mathlib.Algebra.Order.Field.Basic
import Mathlib.Tactic.Linarith
import Mathlib.Tactic.Ring

/-!
# Token buckets

A bucket refills with the time that passes, up to its capacity, and a call takes a token
when a whole one is there. Times may step back: the bucket only counts time beyond the
latest it has seen. The tokens spent and the tokens left never exceed the capacity and
the refill since the first call, which bounds the calls allowed over a whole history.
-/

namespace PlatformService.Lib.TokenBucket

variable {K : Type} [Field K] [LinearOrder K]

/-- A bucket: its tokens, and the latest time it has seen. -/
structure Level (K : Type) where
  tokens : K
  latest : K

/-- Refill for the time passed, up to the capacity. -/
def Level.refill (capacity rate : K) (level : Level K) (now : K) : Level K :=
  if level.latest < now then
    ⟨min capacity (level.tokens + rate * (now - level.latest)), now⟩
  else level

/-- Refill, then try to take one token. -/
def Level.charge (capacity rate : K) (level : Level K) (now : K) : Bool × Level K :=
  let refilled := level.refill capacity rate now
  if refilled.tokens < 1 then (false, refilled)
  else (true, ⟨refilled.tokens - 1, refilled.latest⟩)

/-- What holds of a bucket and the history of its calls, each with its time and its outcome. -/
structure Within (capacity rate first : K) (rows : List (K × Bool)) (level : Level K) : Prop where
  nonneg : 0 ≤ level.tokens
  capped : level.tokens ≤ capacity
  start : rows.head?.map Prod.fst = some first
  seen : ∃ row ∈ rows, row.1 = level.latest
  covers : ∀ row ∈ rows, row.1 ≤ level.latest
  potential : (rows.countP Prod.snd : K) + level.tokens ≤ capacity + rate * (level.latest - first)
  spent : capacity ≤ level.tokens + rows.length

/-- The budget a history keeps: the allowed calls are bounded by the capacity and the refill between
the first call and the latest, the first calls are allowed, and so is one that waited long enough. -/
structure Budgeted (capacity rate : K) (rows : List (K × Bool)) : Prop where
  total : ∀ first rest latest, rows = first :: rest → (∀ row ∈ rows, row.1 ≤ latest) →
    (rows.countP Prod.snd : K) ≤ capacity + rate * (latest - first.1)
  early : ∀ (index : Nat) (row : K × Bool), rows[index]? = some row → (index : K) + 1 ≤ capacity → row.2 = true
  rested : ∀ (index : Nat) (row : K × Bool), rows[index]? = some row →
    (∀ earlier ∈ rows.take index, 1 ≤ rate * (row.1 - earlier.1)) → row.2 = true

/-- The empty history is within every budget. -/
theorem budgeted_nil (capacity rate : K) : Budgeted capacity rate ([] : List (K × Bool)) where
  total := by
    intro first rest latest split
    simp at split
  early := by
    intro index row found
    simp at found
  rested := by
    intro index row found
    simp at found

variable {capacity rate first now : K} {rows : List (K × Bool)} {level : Level K}

/-- A refill sees the time of its call. -/
theorem latest_refill (capacity rate now : K) (level : Level K) :
    (level.refill capacity rate now).latest = max level.latest now := by
  unfold Level.refill
  by_cases later : level.latest < now
  · rw [if_pos later]
    exact (max_eq_right later.le).symm
  · rw [if_neg later]
    exact (max_eq_left (not_lt.mp later)).symm

/-- A refill adds no more than the time passed is worth. -/
theorem refill_le (capacity rate now : K) (level : Level K) :
    (level.refill capacity rate now).tokens ≤
      level.tokens + rate * ((level.refill capacity rate now).latest - level.latest) := by
  unfold Level.refill
  by_cases later : level.latest < now
  · rw [if_pos later]
    exact min_le_right _ _
  · rw [if_neg later, sub_self, mul_zero, add_zero]

/-- A call is allowed exactly when the refill leaves a whole token. -/
theorem charge_allowed (capacity rate now : K) (level : Level K) :
    (level.charge capacity rate now).1 = true ↔ 1 ≤ (level.refill capacity rate now).tokens := by
  unfold Level.charge
  dsimp only
  by_cases short : (level.refill capacity rate now).tokens < 1
  · rw [if_pos short]
    simp [short]
  · rw [if_neg short]
    simp [not_lt.mp short]

/-- What a call leaves: the refill, less the token it took. -/
theorem charge_level (capacity rate now : K) (level : Level K) :
    (level.charge capacity rate now).2 = ⟨(level.refill capacity rate now).tokens -
        (if (level.charge capacity rate now).1 then 1 else 0),
      (level.refill capacity rate now).latest⟩ := by
  unfold Level.charge
  dsimp only
  by_cases short : (level.refill capacity rate now).tokens < 1
  · simp [if_pos short]
  · simp [if_neg short]

variable [IsStrictOrderedRing K]

/-- A refill takes no token, and ends at the capacity at most. -/
theorem tokens_refill (now : K) (growing : 0 ≤ rate) (capped : level.tokens ≤ capacity) :
    level.tokens ≤ (level.refill capacity rate now).tokens ∧
      (level.refill capacity rate now).tokens ≤ capacity := by
  unfold Level.refill
  by_cases later : level.latest < now
  · have gain : 0 ≤ rate * (now - level.latest) := mul_nonneg growing (sub_nonneg.mpr later.le)
    rw [if_pos later]
    exact ⟨le_min capped (by linarith), min_le_left _ _⟩
  · rw [if_neg later]
    exact ⟨le_rfl, capped⟩

/-- A wait worth a token refills one. -/
theorem one_le_refill (room : 1 ≤ capacity) (growing : 0 < rate) (nonneg : 0 ≤ level.tokens)
    (wait : 1 ≤ rate * (now - level.latest)) :
    1 ≤ (level.refill capacity rate now).tokens := by
  have later : level.latest < now := by
    have gain : 0 < rate * (now - level.latest) := lt_of_lt_of_le one_pos wait
    exact sub_pos.mp (pos_of_mul_pos_right gain growing.le)
  unfold Level.refill
  rw [if_pos later]
  exact le_min room (by linarith)

/-- A new bucket is within its first call. -/
theorem within_start (rate first : K) (room : 1 ≤ capacity) :
    Within capacity rate first [(first, (Level.charge capacity rate ⟨capacity, first⟩ first).1)]
      (Level.charge capacity rate ⟨capacity, first⟩ first).2 := by
  have still : Level.refill capacity rate ⟨capacity, first⟩ first = ⟨capacity, first⟩ :=
    if_neg (lt_irrefl first)
  have charged : Level.charge capacity rate ⟨capacity, first⟩ first = (true, ⟨capacity - 1, first⟩) := by
    unfold Level.charge
    rw [still]
    exact if_neg (not_lt.mpr room)
  rw [charged]
  exact {
    nonneg := sub_nonneg.mpr room
    capped := sub_le_self _ zero_le_one
    start := rfl
    seen := ⟨_, List.mem_singleton_self _, rfl⟩
    covers := fun row member => by rw [List.mem_singleton.mp member]
    potential := by simp
    spent := by simp }

/-- A history's next call keeps the bucket within it. -/
theorem Within.charge (within : Within capacity rate first rows level) (growing : 0 ≤ rate) (now : K) :
    Within capacity rate first (rows ++ [(now, (level.charge capacity rate now).1)])
      (level.charge capacity rate now).2 := by
  have latest := latest_refill capacity rate now level
  have bounds := tokens_refill now growing within.capped
  have gain := refill_le capacity rate now level
  have allowed := charge_allowed capacity rate now level
  have nonneg := within.nonneg
  have potential := within.potential
  have spent := within.spent
  rw [charge_level]
  generalize level.refill capacity rate now = refilled at *
  generalize (level.charge capacity rate now).1 = outcome at *
  have taken : (if outcome then (1 : K) else 0) ≤ 1 := by cases outcome <;> simp
  have enough : (if outcome then (1 : K) else 0) ≤ refilled.tokens := by
    cases outcome with
    | false => simpa using nonneg.trans bounds.1
    | true => simpa using allowed.mp rfl
  have positive : (0 : K) ≤ if outcome then (1 : K) else 0 := by cases outcome <;> simp
  have counted : (((rows ++ [(now, outcome)]).countP Prod.snd : Nat) : K) =
      (rows.countP Prod.snd : K) + if outcome then (1 : K) else 0 := by
    cases outcome <;> simp [List.countP_append]
  have spread : rate * (refilled.latest - first) =
      rate * (level.latest - first) + rate * (refilled.latest - level.latest) := by ring
  exact {
    nonneg := sub_nonneg.mpr enough
    capped := by
      show refilled.tokens - _ ≤ capacity
      linarith [bounds.2]
    start := by
      obtain ⟨row, member, _⟩ := within.seen
      have head := within.start
      cases rows with
      | nil => exact absurd member List.not_mem_nil
      | cons front rest => simpa using head
    seen := by
      show ∃ row ∈ rows ++ [(now, outcome)], row.1 = refilled.latest
      rw [latest]
      by_cases later : level.latest < now
      · exact ⟨(now, outcome), by simp, (max_eq_right later.le).symm⟩
      · obtain ⟨row, member, same⟩ := within.seen
        exact ⟨row, List.mem_append_left _ member, same.trans (max_eq_left (not_lt.mp later)).symm⟩
    covers := by
      intro row member
      show row.1 ≤ refilled.latest
      rw [latest]
      rcases List.mem_append.mp member with old | new
      · exact (within.covers row old).trans (le_max_left _ _)
      · rw [List.mem_singleton.mp new]
        exact le_max_right _ _
    potential := by
      show (((rows ++ [(now, outcome)]).countP Prod.snd : Nat) : K) + (refilled.tokens - _) ≤
        capacity + rate * (refilled.latest - first)
      rw [counted, spread]
      linarith
    spent := by
      show capacity ≤ refilled.tokens - _ + _
      rw [List.length_append, List.length_singleton, Nat.cast_add, Nat.cast_one]
      linarith [bounds.1] }

/-- The history of a bucket within it is bounded by the capacity and the refill. -/
theorem Within.total (within : Within capacity rate first rows level) (growing : 0 ≤ rate)
    {latest : K} (bound : ∀ row ∈ rows, row.1 ≤ latest) :
    (rows.countP Prod.snd : K) ≤ capacity + rate * (latest - first) := by
  obtain ⟨row, member, same⟩ := within.seen
  have before : level.latest ≤ latest := by
    rw [← same]
    exact bound row member
  have more : rate * (level.latest - first) ≤ rate * (latest - first) :=
    mul_le_mul_of_nonneg_left (sub_le_sub_right before first) growing
  have potential := within.potential
  have nonneg := within.nonneg
  linarith

/-- What holds of each earlier row and of the next one holds of each row behind it. -/
theorem getElem?_concat_cases {A : Type} {list : List A} {last : A} {index : Nat} {row : A}
    (found : (list ++ [last])[index]? = some row) :
    list[index]? = some row ∨ index = list.length ∧ row = last := by
  by_cases inside : index < list.length
  · rw [List.getElem?_append_left inside] at found
    exact Or.inl found
  · rw [List.getElem?_append_right (not_lt.mp inside)] at found
    have at_end : index - list.length = 0 := by
      by_contra beyond
      rw [List.getElem?_eq_none (by rw [List.length_singleton]; omega)] at found
      contradiction
    rw [at_end] at found
    exact Or.inr ⟨by omega, (Option.some.inj found).symm⟩

/-- A history's next call keeps its budget. -/
theorem Within.budgeted_charge (within : Within capacity rate first rows level)
    (budgeted : Budgeted capacity rate rows) (room : 1 ≤ capacity) (growing : 0 < rate) (now : K) :
    Budgeted capacity rate (rows ++ [(now, (level.charge capacity rate now).1)]) where
  total := by
    intro front rest latest split bound
    have after := within.charge growing.le now
    have head := after.start
    rw [split] at head
    have same : front.1 = first := Option.some.inj head
    rw [same]
    exact after.total growing.le bound
  early := by
    intro index row found inside
    rcases getElem?_concat_cases found with old | ⟨at_end, rfl⟩
    · exact budgeted.early index row old inside
    · have spent := within.spent
      have refill := (tokens_refill now growing.le within.capped).1
      rw [at_end] at inside
      exact (charge_allowed capacity rate now level).mpr (by linarith)
  rested := by
    intro index row found waited
    rcases getElem?_concat_cases found with old | ⟨at_end, rfl⟩
    · have inside : index < rows.length := (List.getElem?_eq_some_iff.mp old).1
      rw [List.take_append_of_le_length inside.le] at waited
      exact budgeted.rested index row old waited
    · rw [at_end, List.take_left] at waited
      obtain ⟨earlier, member, same⟩ := within.seen
      have wait := waited earlier member
      rw [same] at wait
      exact (charge_allowed capacity rate now level).mpr (one_le_refill room growing within.nonneg wait)

/-- A bucket's first call keeps the budget. -/
theorem budgeted_start (first : K) (room : 1 ≤ capacity) (growing : 0 ≤ rate) :
    Budgeted capacity rate
      [(first, (Level.charge capacity rate ⟨capacity, first⟩ first).1)] := by
  have within := within_start rate first room
  have still : Level.refill capacity rate ⟨capacity, first⟩ first = ⟨capacity, first⟩ :=
    if_neg (lt_irrefl first)
  have allowed : (Level.charge capacity rate ⟨capacity, first⟩ first).1 = true := by
    rw [charge_allowed, still]
    exact room
  exact {
    total := by
      intro front rest latest split bound
      rw [List.cons.injEq] at split
      rw [← split.1]
      exact within.total growing bound
    early := by
      intro index row found _
      have member := List.mem_of_getElem? found
      rw [List.mem_singleton.mp member]
      exact allowed
    rested := by
      intro index row found _
      have member := List.mem_of_getElem? found
      rw [List.mem_singleton.mp member]
      exact allowed }

end PlatformService.Lib.TokenBucket
