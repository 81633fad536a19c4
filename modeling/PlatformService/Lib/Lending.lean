import Mathlib.Algebra.BigOperators.Pi
import Mathlib.Algebra.GroupWithZero.Nat
import Mathlib.Algebra.Order.BigOperators.Group.Finset
import Mathlib.Algebra.Order.Group.Multiset
import Mathlib.Algebra.Order.Group.Nat
import Mathlib.Logic.Relation
import PlatformService.Lib.Lease

/-!
# A stock that is lent

Clients run programs side by side over one stock: a client may open any program of a kind,
takes its steps one at a time, and closes the program when it is done. A lease moves an
item or a permit between the stock and one client, so that the stock and what all clients
hold add up to what there was at first (`Lent`). From the sum follows who can hold an item,
and that the stock has an item left while a client has none.
-/

namespace PlatformService.Lib.Leasing

/-- Items and permits. -/
abbrev Stock (K : Type) : Type := Multiset K × Nat

variable {K : Type}

/-- What is held, as a part of a stock. -/
def Held.stock (held : Held K) : Stock K := (held.item.toList, held.permit.toNat)

/-- Holding nothing is no part of a stock. -/
theorem stock_nothing : (Held.nothing : Held K).stock = 0 := rfl

/-- The one item of what holds an item. -/
theorem stock_items {held : Held K} {item : K} (holding : held.item = some item) :
    held.stock.1 = {item} := by
  unfold Held.stock
  rw [holding]
  rfl

/-- What a lease makes of a stock. -/
def Serves (stock : Stock K) : Lease K → Stock K → Prop
  | .took item, after => stock = ({item}, 0) + after
  | .gave item, after => after = ({item}, 0) + stock
  | .tookPermit, after => stock = (0, 1) + after
  | .gavePermit, after => after = (0, 1) + stock
  | .refusedPermit, after => after = stock
  | .silent, after => after = stock

/-- A lease moves a part of the stock to the one who holds it, or back. -/
theorem Serves.conserves {stock after : Stock K} {lease : Lease K} {held : Held K}
    (serves : Serves stock lease after) (allowed : held.Allows lease) :
    after + (held.after lease).stock = stock + held.stock := by
  obtain ⟨item, permit⟩ := held
  cases lease with
  | took other =>
    have none : item = none := allowed
    have taken : stock = ({other}, 0) + after := serves
    rw [taken, none]
    ext : 1
    · show after.1 + {other} = {other} + after.1 + 0
      rw [add_zero, add_comm]
    · show after.2 + permit.toNat = 0 + after.2 + permit.toNat
      rw [zero_add]
  | gave other =>
    have some : item = some other := allowed
    have given : after = ({other}, 0) + stock := serves
    rw [given, some]
    ext : 1
    · show {other} + stock.1 + 0 = stock.1 + {other}
      rw [add_zero, add_comm]
    · show 0 + stock.2 + permit.toNat = stock.2 + permit.toNat
      rw [zero_add]
  | tookPermit =>
    have none : permit = false := allowed
    have taken : stock = (0, 1) + after := serves
    rw [taken, none]
    ext : 1
    · show after.1 + _ = 0 + after.1 + _
      rw [zero_add]
      rfl
    · show after.2 + 1 = 1 + after.2 + 0
      omega
  | gavePermit =>
    have some : permit = true := allowed
    have given : after = (0, 1) + stock := serves
    rw [given, some]
    ext : 1
    · show 0 + stock.1 + _ = stock.1 + _
      rw [zero_add]
      rfl
    · show 1 + stock.2 + 0 = stock.2 + 1
      omega
  | refusedPermit =>
    have same : after = stock := serves
    rw [same]
    rfl
  | silent =>
    have same : after = stock := serves
    rw [same]
    rfl

section Clients

variable {ι : Type} [Fintype ι]

/-- The stock and what the clients hold are together all there is. -/
def Lent (all stock : Stock K) (holds : ι → Held K) : Prop :=
  stock + ∑ client, (holds client).stock = all

/-- Before any lease everything is in the stock. -/
theorem lent_nothing (all : Stock K) : Lent all all fun _ : ι => Held.nothing := by
  unfold Lent
  simp only [stock_nothing, Finset.sum_const_zero, add_zero]

/-- A lease of one client lends no more and no less than there is. -/
theorem Lent.step [DecidableEq ι] {all stock after : Stock K} {holds : ι → Held K}
    (lent : Lent all stock holds) {client : ι} {lease : Lease K}
    (allowed : (holds client).Allows lease) (serves : Serves stock lease after) :
    Lent all after (Function.update holds client ((holds client).after lease)) := by
  unfold Lent at lent ⊢
  have before : ∑ other, (holds other).stock =
      (holds client).stock + ∑ other ∈ Finset.univ.erase client, (holds other).stock :=
    (Finset.add_sum_erase _ _ (Finset.mem_univ client)).symm
  have others : ∑ other ∈ Finset.univ.erase client,
      (Function.update holds client ((holds client).after lease) other).stock =
        ∑ other ∈ Finset.univ.erase client, (holds other).stock :=
    Finset.sum_congr rfl fun other among => by
      rw [Function.update_of_ne (Finset.ne_of_mem_erase among)]
  rw [← Finset.add_sum_erase _ _ (Finset.mem_univ client), others, Function.update_self,
    ← add_assoc, serves.conserves allowed, add_assoc, ← before, lent]

variable {all stock : Stock K} {holds : ι → Held K} (lent : Lent all stock holds)
include lent

/-- The items in the stock and those that are held. -/
theorem Lent.items : stock.1 + ∑ client, (holds client).stock.1 = all.1 := by
  rw [← lent, Prod.fst_add, Prod.fst_sum]

/-- A client's item is one of those there are. -/
theorem Lent.add_le (client : ι) : stock.1 + (holds client).stock.1 ≤ all.1 := by
  rw [← lent.items]
  have within : (holds client).stock.1 ≤ ∑ other, (holds other).stock.1 :=
    Finset.single_le_sum (f := fun other => (holds other).stock.1) (fun _ _ => Multiset.zero_le _)
      (Finset.mem_univ client)
  exact add_le_add_right within _

/-- Where no item is there twice, two clients do not hold the same. -/
theorem Lent.one_holder (distinct : all.1.Nodup) {one two : ι} {item : K}
    (holdsOne : (holds one).item = some item) (holdsTwo : (holds two).item = some item) :
    one = two := by
  classical
  by_contra differ
  have both : (holds one).stock.1 + (holds two).stock.1 ≤ ∑ client, (holds client).stock.1 :=
    Finset.add_le_sum (f := fun client => (holds client).stock.1) (fun _ _ => Multiset.zero_le _)
      (Finset.mem_univ one) (Finset.mem_univ two) differ
  have twice : ({item} + {item} : Multiset K) ≤ all.1 := by
    rw [← lent.items]
    rw [stock_items holdsOne, stock_items holdsTwo] at both
    exact both.trans (Multiset.le_add_left _ _)
  have once := Multiset.nodup_iff_count_le_one.mp distinct item
  have counted := Multiset.count_le_of_le item twice
  rw [Multiset.count_add, Multiset.count_singleton_self] at counted
  omega

/-- Where no item is there twice, what is held is not in the stock. -/
theorem Lent.not_mem (distinct : all.1.Nodup) {client : ι} {item : K}
    (held : (holds client).item = some item) : item ∉ stock.1 := by
  classical
  intro inside
  have once := Multiset.nodup_iff_count_le_one.mp distinct item
  have counted := Multiset.count_le_of_le item (lent.add_le client)
  rw [Multiset.count_add, stock_items held, Multiset.count_singleton_self] at counted
  have present := Multiset.one_le_count_iff_mem.mpr inside
  omega

/-- While a client holds an item, the stock is not full. -/
theorem Lent.card_lt {client : ι} {item : K} (held : (holds client).item = some item) :
    stock.1.card < all.1.card := by
  have within := Multiset.card_le_card (lent.add_le client)
  rw [Multiset.card_add, stock_items held, Multiset.card_singleton] at within
  exact within

/-- While a client holds no item, the stock is not empty, if there is an item for each. -/
theorem Lent.card_pos (enough : Fintype.card ι ≤ all.1.card) {client : ι}
    (free : (holds client).item = none) : 0 < stock.1.card := by
  classical
  have held : (∑ other, (holds other).stock.1).card ≤ Fintype.card ι - 1 := by
    rw [Multiset.card_sum, ← Finset.add_sum_erase _ _ (Finset.mem_univ client)]
    unfold Held.stock
    rw [free]
    calc
      _ ≤ 0 + ∑ other ∈ Finset.univ.erase client, 1 :=
        Nat.add_le_add_left (Finset.sum_le_sum fun other _ => Option.length_toList_le) 0
      _ = Fintype.card ι - 1 := by
        rw [zero_add, ← Finset.card_eq_sum_ones,
          Finset.card_erase_of_mem (Finset.mem_univ client), Finset.card_univ]
  have total := congrArg Multiset.card lent.items
  rw [Multiset.card_add] at total
  have inhabited : 0 < Fintype.card ι := Fintype.card_pos_iff.mpr ⟨client⟩
  omega

/-- While nothing is held, everything is in the stock. -/
theorem Lent.restored (nothing : ∀ client, holds client = Held.nothing) : stock = all := by
  rw [← lent]
  simp only [nothing, stock_nothing, Finset.sum_const_zero, add_zero]

end Clients

section Shop

variable {Command : Type → Type} {α S ι : Type}

/-- A running program and its leases so far. -/
structure Client (K : Type) (Command : Type → Type) (α : Type) where
  program : Leasing K Command α
  leases : List (Lease K)

/-- What is shared, and clients that each run at most one program. -/
structure Shop (ι S K : Type) (Command : Type → Type) (α : Type) where
  shared : S
  client : ι → Option (Client K Command α)

/-- A step of one client: it opens a program, takes a step of it, or closes it. -/
inductive Shop.Step [DecidableEq ι] (serves : S → Lease K → S → Prop)
    (opens : Leasing K Command α → Prop) : Shop ι S K Command α → Shop ι S K Command α → Prop where
  | opened {shop : Shop ι S K Command α} {who : ι} {program : Leasing K Command α}
    (idle : shop.client who = none) (kind : opens program) :
    Step serves opens shop
      { shop with client := Function.update shop.client who (some ⟨program, []⟩) }
  | leased {shop : Shop ι S K Command α} {who : ι} {program after : Leasing K Command α}
    {leases : List (Lease K)} {lease : Lease K} {shared : S}
    (running : shop.client who = some ⟨program, leases⟩) (step : program.Step lease after)
    (served : serves shop.shared lease shared) :
    Step serves opens shop
      ⟨shared, Function.update shop.client who (some ⟨after, leases ++ [lease]⟩)⟩
  | closed {shop : Shop ι S K Command α} {who : ι} {value : α} {leases : List (Lease K)}
    (finished : shop.client who = some ⟨.done value, leases⟩) :
    Step serves opens shop { shop with client := Function.update shop.client who none }

/-- An ending with nothing held. -/
def EmptyHanded (_ : α) (held : Held K) : Prop := held = Held.nothing

variable [DecidableEq K]

/-- What a client holds, by its leases and by what its program has still to give back. -/
def Keeps (held : Held K) : Option (Client K Command α) → Prop
  | none => held = Held.nothing
  | some client => client.program.Balanced held EmptyHanded ∧ Accounts client.leases held

/-- What all clients hold, by their leases, is lent to them. -/
structure Shop.Sound [Fintype ι] (view : S → Stock K) (all : Stock K) (shop : Shop ι S K Command α)
    (holds : ι → Held K) : Prop where
  lent : Lent all (view shop.shared) holds
  keeps : ∀ who, Keeps (holds who) (shop.client who)

/-- A client that changes keeps what it holds, and the others keep theirs. -/
theorem keeps_update [DecidableEq ι] {clients : ι → Option (Client K Command α)} {holds : ι → Held K}
    (keeps : ∀ who, Keeps (holds who) (clients who)) {who : ι} {held : Held K}
    {client : Option (Client K Command α)} (new : Keeps held client) (other : ι) :
    Keeps (Function.update holds who held other) (Function.update clients who client other) := by
  by_cases same : other = who
  · rw [same, Function.update_self, Function.update_self]
    exact new
  · rw [Function.update_of_ne same, Function.update_of_ne same]
    exact keeps other

variable [Fintype ι] [DecidableEq ι] {serves : S → Lease K → S → Prop}
  {opens : Leasing K Command α → Prop} {view : S → Stock K} {valid : S → Prop}

/-- A step of one client keeps the shop sound, if programs are balanced and what is shared is served
like a stock. -/
theorem Shop.Sound.step {all : Stock K} {shop after : Shop ι S K Command α} {holds : ι → Held K}
    (sound : shop.Sound view all holds)
    (balanced : ∀ program, opens program → program.Balanced Held.nothing EmptyHanded)
    (refines : ∀ lease shared, serves shop.shared lease shared →
      Serves (view shop.shared) lease (view shared))
    (step : Shop.Step serves opens shop after) : ∃ holds, after.Sound view all holds := by
  cases step with
  | @opened who program idle kind =>
    have before : holds who = Held.nothing := by
      have kept := sound.keeps who
      rw [idle] at kept
      exact kept
    have unchanged : holds = Function.update holds who Held.nothing := by
      rw [← before, Function.update_eq_self]
    refine ⟨holds, sound.lent, ?_⟩
    have new : Keeps Held.nothing (some (Client.mk program [])) :=
      ⟨balanced program kind, accounts_nothing⟩
    rw [unchanged]
    exact keeps_update sound.keeps new
  | @leased who program rest leases lease shared running step served =>
    obtain ⟨still, accounts⟩ : program.Balanced (holds who) EmptyHanded ∧
        Accounts leases (holds who) := by
      have kept := sound.keeps who
      rw [running] at kept
      exact kept
    obtain ⟨allowed, next⟩ := still.step step
    have new : Keeps ((holds who).after lease) (some (Client.mk rest (leases ++ [lease]))) :=
      ⟨next, accounts.concat allowed⟩
    exact ⟨_, sound.lent.step allowed (refines lease shared served),
      keeps_update sound.keeps new⟩
  | @closed who value leases finished =>
    have before : holds who = Held.nothing := by
      have kept := sound.keeps who
      rw [finished] at kept
      exact kept.1
    have unchanged : holds = Function.update holds who Held.nothing := by
      rw [← before, Function.update_eq_self]
    refine ⟨holds, sound.lent, ?_⟩
    have new : Keeps (Held.nothing : Held K) (none : Option (Client K Command α)) := rfl
    rw [unchanged]
    exact keeps_update sound.keeps new

/-- In every run from idle clients the shop stays sound. -/
theorem Shop.sound_of_reachable
    (balanced : ∀ program, opens program → program.Balanced Held.nothing EmptyHanded)
    (refines : ∀ shared lease after, valid shared → serves shared lease after →
      Serves (view shared) lease (view after) ∧ valid after)
    {start shop : Shop ι S K Command α} (idle : ∀ who, start.client who = none)
    (begins : valid start.shared) (reached : Relation.ReflTransGen (Shop.Step serves opens) start shop) :
    valid shop.shared ∧ ∃ holds, shop.Sound view (view start.shared) holds := by
  induction reached with
  | refl =>
    refine ⟨begins, fun _ => Held.nothing, lent_nothing _, fun who => ?_⟩
    rw [idle who]
    rfl
  | @tail shop after before step ih =>
    obtain ⟨good, holds, sound⟩ := ih
    refine ⟨?_, sound.step balanced (fun lease shared served =>
      (refines _ lease shared good served).1) step⟩
    cases step with
    | opened idle kind => exact good
    | leased running step served => exact (refines _ _ _ good served).2
    | closed finished => exact good

end Shop

end PlatformService.Lib.Leasing
