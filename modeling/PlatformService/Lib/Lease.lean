import Mathlib.Data.List.Count

/-!
# Programs that lease

A program takes items from a stock, one at a time, and permits; it issues commands on
the item it holds, and gives back what it took. What a command answers, and whether an
allocation succeeds, is left open. `Balanced` is a weakest precondition for the leases:
items and permits are taken one at a time, used only while they are held and given
back by whoever holds them. It has one equation for each operation and one for
sequences, so that a proof follows the text of a program, and the runs of a balanced
program take and give back equally often.
-/

namespace PlatformService.Lib

/-- A program over items and over commands that are issued on an item. -/
inductive Leasing (K : Type) (Command : Type → Type) (α : Type) : Type 1 where
  | done (value : α)
  | acquire (next : K → Leasing K Command α)
  | release (item : K) (next : Leasing K Command α)
  | tryPermit (next : Bool → Leasing K Command α)
  | returnPermit (next : Leasing K Command α)
  | use {β : Type} (item : K) (command : Command β) (next : β → Leasing K Command α)
  | allocate (next : Bool → Leasing K Command α)

namespace Leasing

variable {K : Type} {Command : Type → Type} {α β : Type}

/-- One program after the other. -/
def andThen (next : α → Leasing K Command β) : Leasing K Command α → Leasing K Command β
  | done value => next value
  | acquire rest => acquire fun item => (rest item).andThen next
  | release item rest => release item (rest.andThen next)
  | tryPermit rest => tryPermit fun granted => (rest granted).andThen next
  | returnPermit rest => returnPermit (rest.andThen next)
  | use item command rest => use item command fun value => (rest value).andThen next
  | allocate rest => allocate fun allocated => (rest allocated).andThen next

instance monad : Monad (Leasing K Command) where
  pure := done
  bind program next := program.andThen next

/-- Sequences associate. -/
theorem andThen_assoc {γ : Type} (program : Leasing K Command α) (next : α → Leasing K Command β)
    (last : β → Leasing K Command γ) :
    (program.andThen next).andThen last = program.andThen fun value => (next value).andThen last := by
  induction program with
  | done value => rfl
  | acquire rest ih => simp only [andThen, ih]
  | release item rest ih => simp only [andThen, ih]
  | tryPermit rest ih => simp only [andThen, ih]
  | returnPermit rest ih => simp only [andThen, ih]
  | use item command rest ih => simp only [andThen, ih]
  | allocate rest ih => simp only [andThen, ih]

/-- A program and nothing behind it. -/
theorem andThen_done (program : Leasing K Command α) : program.andThen done = program := by
  induction program with
  | done value => rfl
  | acquire rest ih => simp only [andThen, ih]
  | release item rest ih => simp only [andThen, ih]
  | tryPermit rest ih => simp only [andThen, ih]
  | returnPermit rest ih => simp only [andThen, ih]
  | use item command rest ih => simp only [andThen, ih]
  | allocate rest ih => simp only [andThen, ih]

instance lawful : LawfulMonad (Leasing K Command) :=
  LawfulMonad.mk' _ andThen_done (fun _ _ => rfl) andThen_assoc

/-- A program on one item, its commands issued in a monad: whether a permit is granted and whether
allocations succeed is settled beforehand. -/
def runOn {m : Type → Type} [Monad m] (issue : {γ : Type} → Command γ → m γ) (item : K)
    (granted allocated : Bool) : Leasing K Command α → m α
  | done value => return value
  | acquire next => (next item).runOn issue item granted allocated
  | release _ next => next.runOn issue item granted allocated
  | tryPermit next => (next granted).runOn issue item granted allocated
  | returnPermit next => next.runOn issue item granted allocated
  | use _ command next => do (next (← issue command)).runOn issue item granted allocated
  | allocate next => (next allocated).runOn issue item granted allocated

/-- What a program holds. -/
structure Held (K : Type) where
  item : Option K := none
  permit : Bool := false
  deriving DecidableEq

/-- Holding nothing. -/
def Held.nothing : Held K := {}

/-- From what it holds, a program leases one thing at a time, uses and gives back only what it holds,
and ends as required. -/
def Balanced : Leasing K Command α → Held K → (α → Held K → Prop) → Prop
  | done value, held, ends => ends value held
  | acquire next, held, ends =>
    held.item = none ∧ ∀ item, (next item).Balanced { held with item := some item } ends
  | release item next, held, ends =>
    held.item = some item ∧ next.Balanced { held with item := none } ends
  | tryPermit next, held, ends =>
    held.permit = false ∧ (next true).Balanced { held with permit := true } ends ∧
      (next false).Balanced held ends
  | returnPermit next, held, ends =>
    held.permit = true ∧ next.Balanced { held with permit := false } ends
  | use item _ next, held, ends => held.item = some item ∧ ∀ value, (next value).Balanced held ends
  | allocate next, held, ends => ∀ allocated, (next allocated).Balanced held ends

section Rules

variable {held : Held K} {ends : β → Held K → Prop}

/-- A sequence is balanced if its first program ends where the second can go on. -/
theorem balanced_bind {program : Leasing K Command α} {next : α → Leasing K Command β} :
    (program >>= next).Balanced held ends ↔
      program.Balanced held fun value after => (next value).Balanced after ends := by
  show (program.andThen next).Balanced held ends ↔ _
  induction program generalizing held with
  | done value => exact Iff.rfl
  | acquire rest ih => simp only [andThen, Balanced, ih]
  | release item rest ih => simp only [andThen, Balanced, ih]
  | tryPermit rest ih => simp only [andThen, Balanced, ih]
  | returnPermit rest ih => simp only [andThen, Balanced, ih]
  | use item command rest ih => simp only [andThen, Balanced, ih]
  | allocate rest ih => simp only [andThen, Balanced, ih]

/-- What ends as required ends as anything that follows from it. -/
theorem Balanced.mono {program : Leasing K Command β} (balanced : program.Balanced held ends)
    {weaker : β → Held K → Prop} (weaken : ∀ value after, ends value after → weaker value after) :
    program.Balanced held weaker := by
  induction program generalizing held with
  | done value => exact weaken value held balanced
  | acquire rest ih => exact ⟨balanced.1, fun item => ih item (balanced.2 item)⟩
  | release item rest ih => exact ⟨balanced.1, ih balanced.2⟩
  | tryPermit rest ih => exact ⟨balanced.1, ih true balanced.2.1, ih false balanced.2.2⟩
  | returnPermit rest ih => exact ⟨balanced.1, ih balanced.2⟩
  | use item command rest ih => exact ⟨balanced.1, fun value => ih value (balanced.2 value)⟩
  | allocate rest ih => exact fun allocated => ih allocated (balanced allocated)

end Rules

/-- What can be seen of a step. -/
inductive Lease (K : Type) where
  | took (item : K)
  | gave (item : K)
  | tookPermit
  | refusedPermit
  | gavePermit
  | silent
  deriving DecidableEq

/-- A step of a program. A command may answer anything. -/
inductive Step : Leasing K Command α → Lease K → Leasing K Command α → Prop where
  | acquire (next : K → Leasing K Command α) (item : K) : Step (.acquire next) (.took item) (next item)
  | release (item : K) (next : Leasing K Command α) : Step (.release item next) (.gave item) next
  | permit (next : Bool → Leasing K Command α) : Step (.tryPermit next) .tookPermit (next true)
  | refusal (next : Bool → Leasing K Command α) : Step (.tryPermit next) .refusedPermit (next false)
  | returnPermit (next : Leasing K Command α) : Step (.returnPermit next) .gavePermit next
  | use {β : Type} (item : K) (command : Command β) (next : β → Leasing K Command α) (value : β) :
    Step (.use item command next) .silent (next value)
  | allocate (next : Bool → Leasing K Command α) (allocated : Bool) :
    Step (.allocate next) .silent (next allocated)

/-- Some steps of a program. -/
inductive Steps : Leasing K Command α → List (Lease K) → Leasing K Command α → Prop where
  | none (program : Leasing K Command α) : Steps program [] program
  | more {program middle last : Leasing K Command α} {leases : List (Lease K)} {lease : Lease K}
    (before : Steps program leases middle) (step : Step middle lease last) :
    Steps program (leases ++ [lease]) last

/-- What is held after a lease. -/
def Held.after (held : Held K) : Lease K → Held K
  | .took item => { held with item := some item }
  | .gave _ => { held with item := none }
  | .tookPermit => { held with permit := true }
  | .gavePermit => { held with permit := false }
  | .refusedPermit => held
  | .silent => held

/-- Where a lease is in order: nothing is taken on top of another, and what is given is held. -/
def Held.Allows (held : Held K) : Lease K → Prop
  | .took _ => held.item = none
  | .gave item => held.item = some item
  | .tookPermit => held.permit = false
  | .gavePermit => held.permit = true
  | .refusedPermit => True
  | .silent => True

/-- A step of a balanced program is in order and leaves it balanced. -/
theorem Balanced.step {program after : Leasing K Command α} {held : Held K}
    {ends : α → Held K → Prop} {lease : Lease K} (balanced : program.Balanced held ends)
    (step : Step program lease after) :
    held.Allows lease ∧ after.Balanced (held.after lease) ends := by
  cases step with
  | acquire next item => exact ⟨balanced.1, balanced.2 item⟩
  | release item next => exact ⟨balanced.1, balanced.2⟩
  | permit next => exact ⟨balanced.1, balanced.2.1⟩
  | refusal next => exact ⟨trivial, balanced.2.2⟩
  | returnPermit next => exact ⟨balanced.1, balanced.2⟩
  | use item command next value => exact ⟨trivial, balanced.2 value⟩
  | allocate next allocated => exact ⟨trivial, balanced allocated⟩

variable [DecidableEq K]

/-- How often an item is held. -/
def Held.items (held : Held K) (item : K) : Nat := held.item.toList.count item

/-- How many permits are held. -/
def Held.permits (held : Held K) : Nat := held.permit.toNat

/-- The leases by which a program came to hold what it holds. -/
structure Accounts (leases : List (Lease K)) (held : Held K) : Prop where
  items : ∀ item, leases.count (.took item) = leases.count (.gave item) + held.items item
  permits : leases.count .tookPermit = leases.count .gavePermit + held.permits

/-- Nothing is given back that was not taken before, and at most one item and one permit are out. -/
structure Orderly (leases : List (Lease K)) : Prop where
  given : ∀ item, leases.count (.gave item) ≤ leases.count (.took item)
  once : ∀ item, leases.count (.took item) ≤ leases.count (.gave item) + 1
  single : ∀ one other, leases.count (.gave one) < leases.count (.took one) →
    leases.count (.gave other) < leases.count (.took other) → one = other
  permit : leases.count .gavePermit ≤ leases.count .tookPermit ∧
    leases.count .tookPermit ≤ leases.count .gavePermit + 1

/-- Everything taken has been given back, as often as it was taken. -/
structure Returned (leases : List (Lease K)) : Prop where
  items : ∀ item, leases.count (.gave item) = leases.count (.took item)
  permits : leases.count .gavePermit = leases.count .tookPermit

/-- The item held is the one taken more often than given. -/
theorem Accounts.out_iff {leases : List (Lease K)} {held : Held K} (accounts : Accounts leases held)
    (item : K) : leases.count (.gave item) < leases.count (.took item) ↔ held.item = some item := by
  have balance := accounts.items item
  unfold Held.items at balance
  cases shape : held.item with
  | none =>
    rw [shape, Option.toList_none, List.count_nil] at balance
    simp only [reduceCtorEq, iff_false]
    omega
  | some other =>
    rw [shape, Option.toList_some, List.count_singleton] at balance
    by_cases same : other = item
    · simp only [same, beq_self_eq_true, if_true, iff_true] at balance ⊢
      omega
    · simp only [beq_iff_eq, same, if_false, Option.some.injEq, iff_false] at balance ⊢
      omega

/-- Leases that account for what one holds are in order. -/
theorem Accounts.orderly {leases : List (Lease K)} {held : Held K}
    (accounts : Accounts leases held) : Orderly leases := by
  have slots : held.permits ≤ 1 := Bool.toNat_le held.permit
  have permits := accounts.permits
  refine ⟨fun item => ?_, fun item => ?_, fun one other oneOut otherOut => ?_, by omega, by omega⟩
  · have balance := accounts.items item
    omega
  · have balance := accounts.items item
    have few : held.items item ≤ 1 := Nat.le_trans List.count_le_length Option.length_toList_le
    omega
  · have isOne := (accounts.out_iff one).mp oneOut
    have isOther := (accounts.out_iff other).mp otherOut
    rw [isOne] at isOther
    exact Option.some.inj isOther

/-- Leases that account for nothing held have all been returned. -/
theorem Accounts.returned {leases : List (Lease K)} (accounts : Accounts leases Held.nothing) :
    Returned leases :=
  ⟨fun item => (accounts.items item).symm, accounts.permits.symm⟩

/-- No leases account for nothing held. -/
theorem accounts_nothing : Accounts ([] : List (Lease K)) Held.nothing := ⟨fun _ => rfl, rfl⟩

/-- One more lease that is in order. -/
theorem Accounts.concat {leases : List (Lease K)} {held : Held K} (accounts : Accounts leases held)
    {lease : Lease K} (allowed : held.Allows lease) :
    Accounts (leases ++ [lease]) (held.after lease) := by
  constructor
  · intro item
    have before := accounts.items item
    rw [List.count_append, List.count_append]
    unfold Held.items at before ⊢
    cases lease with
    | took other =>
      have none : held.item = none := allowed
      rw [none] at before
      simp only [Held.after, Option.toList_some, Option.toList_none, List.count_nil] at before ⊢
      by_cases same : other = item
      · rw [same]
        simp
        omega
      · simp [same]
        omega
    | gave other =>
      have some : held.item = some other := allowed
      rw [some] at before
      simp only [Held.after, Option.toList_some, Option.toList_none, List.count_nil] at before ⊢
      by_cases same : other = item
      · rw [same] at before ⊢
        simp at before ⊢
        omega
      · simp [same] at before ⊢
        omega
    | tookPermit => simpa [Held.after] using before
    | refusedPermit => simpa [Held.after] using before
    | gavePermit => simpa [Held.after] using before
    | silent => simpa [Held.after] using before
  · have before := accounts.permits
    rw [List.count_append, List.count_append]
    unfold Held.permits at before ⊢
    cases lease with
    | took other => simpa [Held.after] using before
    | gave other => simpa [Held.after] using before
    | tookPermit =>
      have none : held.permit = false := allowed
      rw [none] at before
      simp [Held.after] at before ⊢
      omega
    | refusedPermit => simpa [Held.after] using before
    | gavePermit =>
      have some : held.permit = true := allowed
      rw [some] at before
      simp [Held.after] at before ⊢
      omega
    | silent => simpa [Held.after] using before

/-- The leases of a balanced program account for what it holds. -/
theorem Balanced.steps {program after : Leasing K Command α} {ends : α → Held K → Prop}
    {leases : List (Lease K)} (balanced : program.Balanced Held.nothing ends)
    (steps : Steps program leases after) :
    ∃ held, after.Balanced held ends ∧ Accounts leases held := by
  induction steps with
  | none => exact ⟨Held.nothing, balanced, accounts_nothing⟩
  | more before step ih =>
    obtain ⟨held, still, accounts⟩ := ih
    obtain ⟨allowed, next⟩ := still.step step
    exact ⟨_, next, accounts.concat allowed⟩

end Leasing

end PlatformService.Lib
