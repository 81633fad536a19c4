import Mathlib.Algebra.BigOperators.Fin
import Mathlib.Algebra.Order.BigOperators.Group.Finset
import PlatformService.Platform.RatelimitSlots
import PlatformService.Verif.Limiter

/-!
# The limiter's memory

The laid-out shards of the source behave as the functional tables do, for as many
calls as there may be, and no access leaves an array. What bounds the memory is an
invariant of the whole table: the counter is the number of occupied slots, it never
passes the shard's bound, and the bound is half the table. So a probe always meets
an empty slot, and a full shard has an entry to evict as long as the times of the
calls stay below `INT64_MAX`, from where the eviction loop starts.
-/

namespace PlatformService.Verif.LimiterMemory

open Lib Lib.Probe Ratelimit Verif.Limiter

section Layout

variable {α : Type} {cap : Nat}

/-- The source's layout of a shard. -/
def layout (shard : Shard α cap) : RlShard α where
  slots := List.ofFn shard.slots
  slotCount := 2 * cap
  cap := cap
  occupied := shard.occupied

/-- The layout has every slot of the table at its index. -/
theorem getElem?_layout (shard : Shard α cap) (slot : Fin (2 * cap)) :
    (layout shard).slots[slot.val]? = some (shard.slots slot) := by
  simp [layout]

/-- Writing a slot of the table writes its index in the layout. -/
theorem ofFn_update (slots : Fin (2 * cap) → Option (Entry α)) (slot : Fin (2 * cap))
    (content : Option (Entry α)) :
    List.ofFn (Function.update slots slot content) = (List.ofFn slots).set slot.val content := by
  apply List.ext_getElem
  · simp
  · intro i inside _
    have bound : i < 2 * cap := by simpa using inside
    rw [List.getElem_ofFn, List.getElem_set, List.getElem_ofFn]
    by_cases here : slot.val = i
    · have same : (⟨i, bound⟩ : Fin (2 * cap)) = slot := Fin.ext here.symm
      rw [if_pos here, same, Function.update_self]
    · have other : (⟨i, bound⟩ : Fin (2 * cap)) ≠ slot := fun same => here (congrArg Fin.val same).symm
      rw [if_neg here, Function.update_of_ne other]

/-- A shard that was just created is laid out as the source creates it. -/
theorem layout_create (α : Type) (maxEntries : Int) :
    (fun index => layout (create α maxEntries index)) = createShards α maxEntries := by
  funext index
  have empty : List.ofFn (fun _ : Fin (2 * perShardCap maxEntries) => (none : Option (Entry α))) =
      List.replicate (2 * perShardCap maxEntries) none := List.ofFn_const _ _
  simp [layout, create, createShards, RlShard.create, Nat.mul_comm, empty]

/-- How a search's outcome reads as an end of the probe loop. -/
def probed (shard : Shard α cap) : Outcome (2 * cap) → Probed α
  | .hit slot =>
    match shard.slots slot with
    | some entry => .hit slot.val entry
    | none => .exhausted
  | .empty slot => .foundEmpty slot.val
  | .full => .exhausted

/-- The eviction loop on the layout is the scan of the table, and stays inside the array. -/
theorem foldlM_victimStep (slots : Fin (2 * cap) → Option (Entry α)) (list : List (Fin (2 * cap)))
    (state : Fin (2 * cap) × Int) :
    (list.map Fin.val).foldlM (victimStep (List.ofFn slots)) (state.1.val, state.2) =
      some ((list.foldl (scanStep slots) state).1.val, (list.foldl (scanStep slots) state).2) := by
  induction list generalizing state with
  | nil => rfl
  | cons slot list ih =>
    have turn : victimStep (List.ofFn slots) (state.1.val, state.2) slot.val =
        some ((scanStep slots state slot).1.val, (scanStep slots state slot).2) := by
      have read : (List.ofFn slots)[slot.val]? = some (slots slot) := by simp
      unfold victimStep scanStep
      rw [read]
      cases slots slot with
      | none => rfl
      | some entry =>
        dsimp only
        by_cases older : entry.lastUsedNs < state.2
        · rw [if_pos older, if_pos older]
        · rw [if_neg older, if_neg older]
    rw [List.map_cons, List.foldlM_cons, turn, List.foldl_cons]
    exact ih (scanStep slots state slot)

section Loops

variable [NeZero cap]

/-- The probe loop on the layout is the search in the table, and stays inside the array. -/
theorem probeFrom_layout (shard : Shard α cap) (key : Bytes) (start left offset : Nat) :
    (layout shard).probeFrom key start left offset =
      some (probed shard (searchFrom shard.slots Entry.key key start left offset)) := by
  induction left generalizing offset with
  | zero => rfl
  | succ left ih =>
    have place : ((slotAt start offset : Fin (2 * cap)).val) = (start + offset) % (2 * cap) := by
      simp [slotAt]
    have read := getElem?_layout shard (slotAt start offset)
    rw [place] at read
    rw [RlShard.probeFrom, searchFrom]
    have size : (layout shard).slotCount = 2 * cap := rfl
    simp only [size, read]
    cases content : shard.slots (slotAt start offset) with
    | none => simp [probed, place]
    | some entry =>
      by_cases same : entry.key = key
      · simp [same, probed, content, place]
      · simp only [if_neg same]
        exact ih (offset + 1)

/-- The probe of the layout is the search of the table. -/
theorem probe_layout (shard : Shard α cap) (key : Bytes) :
    (layout shard).probe key =
      some (probed shard (search shard.slots Entry.key (home (2 * cap)) key)) :=
  probeFrom_layout shard key _ _ _

/-- The victim in the layout is the victim in the table. -/
theorem victim_layout (shard : Shard α cap) :
    (layout shard).victim = some (scanVictim shard.slots).val := by
  have scan := foldlM_victimStep shard.slots (List.finRange (2 * cap)) (0, 2 ^ 63 - 1)
  have first : ((0 : Fin (2 * cap)).val) = 0 := rfl
  rw [List.map_coe_finRange_eq_range, first] at scan
  have loop : (List.range (2 * cap)).foldlM (victimStep (List.ofFn shard.slots)) (0, 2 ^ 63 - 1) =
      some (((List.finRange (2 * cap)).foldl (scanStep shard.slots) (0, 2 ^ 63 - 1)).1.val,
        ((List.finRange (2 * cap)).foldl (scanStep shard.slots) (0, 2 ^ 63 - 1)).2) := scan
  unfold RlShard.victim scanVictim
  show ((List.range (2 * cap)).foldlM (victimStep (List.ofFn shard.slots)) (0, 2 ^ 63 - 1)).map
    Prod.fst = _
  rw [loop]
  rfl

end Loops

section Calls

variable [Add α] [Sub α] [Mul α] [Div α] [IntCast α] [LT α] [DecidableLT α]

/-- Storing in the layout is storing in the table. -/
theorem put_layout (shard : Shard α cap) (slot : Fin (2 * cap)) (key : Bytes) (bucket : Bucket α)
    (perMinute nowNs : Int) (occupied : Nat) :
    (layout shard).put slot.val key bucket perMinute nowNs occupied =
      some ((shard.put slot key bucket perMinute nowNs occupied).1,
        layout (shard.put slot key bucket perMinute nowNs occupied).2) := by
  have inside : slot.val < (layout shard).slots.length := by
    simp [layout]
  unfold RlShard.put
  rw [if_pos inside]
  simp [layout, Shard.put, ofFn_update]

variable [NeZero cap]

/-- A call on the layout is the call on the table: no access leaves the array. -/
theorem allow_layout (shard : Shard α cap) (key : Bytes) (perMinute nowNs : Int) :
    (layout shard).allow key perMinute nowNs =
      some ((shard.allow key perMinute nowNs).1, layout (shard.allow key perMinute nowNs).2) := by
  have evicts : (layout shard).evict key perMinute nowNs =
      some ((shard.put (scanVictim shard.slots) key (freshBucket perMinute nowNs) perMinute nowNs
          shard.occupied).1,
        layout (shard.put (scanVictim shard.slots) key (freshBucket perMinute nowNs) perMinute nowNs
          shard.occupied).2) := by
    unfold RlShard.evict
    rw [victim_layout]
    exact put_layout shard _ key _ perMinute nowNs shard.occupied
  unfold RlShard.allow Shard.allow
  rw [probe_layout]
  cases outcome : search shard.slots Entry.key (home (2 * cap)) key with
  | hit slot =>
    obtain ⟨entry, stored, _⟩ := stored_of_search_hit outcome
    simp only [probed, stored]
    exact put_layout shard slot key entry.bucket perMinute nowNs shard.occupied
  | empty slot =>
    simp only [probed]
    have bound : (layout shard).cap = cap := rfl
    have count : (layout shard).occupied = shard.occupied := rfl
    rw [bound, count]
    by_cases room : shard.occupied < cap
    · rw [if_pos room, if_pos room]
      exact put_layout shard slot key _ perMinute nowNs _
    · rw [if_neg room, if_neg room]
      exact evicts
  | full =>
    simp only [probed]
    exact evicts

/-- A call on the laid-out limiter is the call on the tables. -/
theorem allowAtShards_layout (limiter : Limiter α cap) (key : Bytes) (perMinute nowNs : Int) :
    allowAtShards (fun index => layout (limiter index)) key perMinute nowNs =
      some ((allowAt limiter key perMinute nowNs).1,
        fun index => layout ((allowAt limiter key perMinute nowNs).2 index)) := by
  unfold allowAtShards allowAt
  by_cases refused : perMinute ≤ 0
  · rw [if_pos refused, if_pos refused]
  · rw [if_neg refused, if_neg refused]
    simp only [allow_layout]
    congr 2
    funext index
    by_cases here : index = shardOf (boundedCopy keyMax key)
    · rw [here, Function.update_self, Function.update_self]
    · rw [Function.update_of_ne here, Function.update_of_ne here]

end Calls

end Layout

section Counting

variable {α : Type} {cap : Nat}

/-- What the calls keep of a shard: the counter counts, within the bound, and every stored time is
below the one the eviction loop starts from. -/
structure Counted (shard : Shard α cap) : Prop where
  count : shard.occupied = (List.ofFn shard.slots).countP Option.isSome
  bounded : shard.occupied ≤ cap
  young : ∀ slot entry, shard.slots slot = some entry → entry.lastUsedNs < 2 ^ 63 - 1

/-- Storing an entry adds one to the occupied slots unless its slot was one of them. -/
theorem countP_update (slots : Fin (2 * cap) → Option (Entry α)) (slot : Fin (2 * cap))
    (entry : Entry α) :
    (List.ofFn (Function.update slots slot (some entry))).countP Option.isSome =
      (List.ofFn slots).countP Option.isSome + (if (slots slot).isSome then 0 else 1) := by
  have inside : slot.val < (List.ofFn slots).length := by simp
  have content : (List.ofFn slots)[slot.val] = slots slot := by simp
  rw [ofFn_update, List.countP_set inside, content]
  by_cases occupied : (slots slot).isSome
  · have counted : 0 < (List.ofFn slots).countP Option.isSome :=
      List.countP_pos_iff.mpr ⟨slots slot, List.mem_ofFn.mpr ⟨slot, rfl⟩, occupied⟩
    simp only [if_pos occupied, Option.isSome_some, if_true]
    omega
  · simp only [if_neg occupied, Option.isSome_some, if_true]
    omega

variable {shard : Shard α cap}

/-- A full shard has an occupied slot. -/
theorem Counted.stored (counted : Counted shard) [NeZero cap] (full : ¬ shard.occupied < cap) :
    ∃ slot entry, shard.slots slot = some entry := by
  have positive := Nat.pos_of_neZero cap
  have some_counted : 0 < (List.ofFn shard.slots).countP Option.isSome := by
    have count := counted.count
    omega
  obtain ⟨content, member, occupied⟩ := List.countP_pos_iff.mp some_counted
  obtain ⟨slot, read⟩ := List.mem_ofFn.mp member
  obtain ⟨entry, rfl⟩ := Option.isSome_iff_exists.mp occupied
  exact ⟨slot, entry, read⟩

/-- The eviction loop of a full shard ends at an occupied slot. -/
theorem Counted.victim_stored (counted : Counted shard) [NeZero cap]
    (full : ¬ shard.occupied < cap) :
    ∃ oldest, shard.slots (scanVictim shard.slots) = some oldest := by
  obtain ⟨slot, entry, stored⟩ := counted.stored full
  obtain ⟨oldest, found, _⟩ := scanVictim_oldest stored (counted.young slot entry stored)
  exact ⟨oldest, found⟩

/-- No search of a counted shard passes the whole table. -/
theorem Counted.search_ne_full (counted : Counted shard) [NeZero cap] (key : Bytes) :
    search shard.slots Entry.key (home (2 * cap)) key ≠ .full := by
  intro outcome
  have every : ∀ content ∈ List.ofFn shard.slots, content.isSome := by
    intro content member
    obtain ⟨slot, read⟩ := List.mem_ofFn.mp member
    have occupied := occupied_of_search_full outcome slot
    rw [read] at occupied
    exact Option.isSome_iff_ne_none.mpr occupied
  have whole := List.countP_eq_length.mpr every
  rw [List.length_ofFn] at whole
  have positive := Nat.pos_of_neZero cap
  have count := counted.count
  have bounded := counted.bounded
  omega

section Calls

variable [Add α] [Sub α] [Mul α] [Div α] [IntCast α] [LT α] [DecidableLT α]

/-- Storing keeps the counting when the counter moves with the occupied slots. -/
theorem Counted.put (counted : Counted shard) {slot : Fin (2 * cap)} {key : Bytes}
    {bucket : Bucket α} {perMinute nowNs : Int} {occupied : Nat} (time : nowNs < 2 ^ 63 - 1)
    (moved : occupied = shard.occupied + (if (shard.slots slot).isSome then 0 else 1))
    (room : occupied ≤ cap) :
    Counted (shard.put slot key bucket perMinute nowNs occupied).2 where
  count := by
    have count := counted.count
    have update := countP_update shard.slots slot ⟨key, (consume bucket perMinute nowNs).2, nowNs⟩
    show occupied = (List.ofFn (Function.update shard.slots slot
      (some ⟨key, (consume bucket perMinute nowNs).2, nowNs⟩))).countP Option.isSome
    rw [update, moved, count]
  bounded := room
  young := by
    intro place entry stored
    have read : Function.update shard.slots slot
        (some ⟨key, (consume bucket perMinute nowNs).2, nowNs⟩) place = some entry := stored
    by_cases here : place = slot
    · rw [here, Function.update_self] at read
      rw [← Option.some.inj read]
      exact time
    · rw [Function.update_of_ne here] at read
      exact counted.young place entry read

variable [NeZero cap]

/-- A call keeps the counting of its shard. -/
theorem Counted.allow (counted : Counted shard) (key : Bytes) (perMinute : Int) {nowNs : Int}
    (time : nowNs < 2 ^ 63 - 1) : Counted (shard.allow key perMinute nowNs).2 := by
  have bounded := counted.bounded
  unfold Shard.allow
  cases outcome : search shard.slots Entry.key (home (2 * cap)) key with
  | hit slot =>
    obtain ⟨entry, stored, _⟩ := stored_of_search_hit outcome
    simp only [stored]
    exact counted.put time (by simp [stored]) bounded
  | empty slot =>
    obtain ⟨vacant, _⟩ := reaches_of_search_empty outcome
    by_cases room : shard.occupied < cap
    · simp only [if_pos room]
      exact counted.put time (by simp [vacant]) (by omega)
    · obtain ⟨oldest, stored⟩ := counted.victim_stored room
      simp only [if_neg room]
      exact counted.put time (by simp [stored]) bounded
  | full => exact absurd outcome (counted.search_ne_full key)

/-- A call keeps the counting of every shard. -/
theorem counted_allowAt {limiter : Limiter α cap} (counted : ∀ index, Counted (limiter index))
    (key : Bytes) (perMinute : Int) {nowNs : Int} (time : nowNs < 2 ^ 63 - 1) :
    ∀ index, Counted ((allowAt limiter key perMinute nowNs).2 index) := by
  intro index
  unfold allowAt
  by_cases refused : perMinute ≤ 0
  · rw [if_pos refused]
    exact counted index
  · rw [if_neg refused]
    by_cases here : index = shardOf (boundedCopy keyMax key)
    · rw [here]
      simp only [Function.update_self]
      exact (counted _).allow _ perMinute time
    · simp only [Function.update_of_ne here]
      exact counted index

end Calls

end Counting

section Results

variable {α : Type}

/-- The bounds on a laid-out limiter, and what they give the loops. -/
structure Bounded (maxEntries : Int) (shards : RlShards α) : Prop where
  counter : ∀ index, (shards index).occupied = (shards index).slots.countP Option.isSome
  capped : ∀ index, (shards index).occupied ≤ (shards index).cap
  headroom : ∀ index, (shards index).cap < (shards index).slotCount
  length : ∀ index, (shards index).slots.length = (shards index).slotCount
  probe : ∀ index key,
    (∃ idx entry, (shards index).probe key = some (.hit idx entry) ∧
      (shards index).slots[idx]? = some (some entry) ∧ entry.key = key) ∨
    ∃ idx, (shards index).probe key = some (.foundEmpty idx) ∧
      (shards index).slots[idx]? = some none
  victim : ∀ index, ¬ (shards index).occupied < (shards index).cap →
    ∃ idx entry, (shards index).victim = some idx ∧ (shards index).slots[idx]? = some (some entry)
  total : ((∑ index, (shards index).slots.countP Option.isSome : Nat) : Int) ≤ max 16 maxEntries

/-- Sixteen shards of the capacity a limiter is created with. -/
theorem shards_perShardCap (maxEntries : Int) :
    ((shardCount * perShardCap maxEntries : Nat) : Int) ≤ max 16 maxEntries := by
  have sixteen : shardCount = 16 := rfl
  unfold perShardCap
  rw [sixteen]
  omega

/-- Counted shards are within the bounds. -/
theorem bounded_of_counted {maxEntries : Int} {limiter : Limiter α (perShardCap maxEntries)}
    (counted : ∀ index, Counted (limiter index)) :
    Bounded maxEntries fun index => layout (limiter index) where
  counter := fun index => (counted index).count
  capped := fun index => (counted index).bounded
  headroom := by
    intro index
    have positive := Nat.pos_of_neZero (perShardCap maxEntries)
    show perShardCap maxEntries < 2 * perShardCap maxEntries
    omega
  length := fun index => by simp [layout]
  probe := by
    intro index key
    rw [probe_layout]
    cases outcome : search (limiter index).slots Entry.key
        (home (2 * perShardCap maxEntries)) key with
    | hit slot =>
      obtain ⟨entry, stored, same⟩ := stored_of_search_hit outcome
      have read := getElem?_layout (limiter index) slot
      rw [stored] at read
      exact Or.inl ⟨slot.val, entry, by simp [probed, stored], read, same⟩
    | empty slot =>
      obtain ⟨vacant, _⟩ := reaches_of_search_empty outcome
      have read := getElem?_layout (limiter index) slot
      rw [vacant] at read
      exact Or.inr ⟨slot.val, by simp [probed], read⟩
    | full => exact absurd outcome ((counted index).search_ne_full key)
  victim := by
    intro index full
    obtain ⟨oldest, stored⟩ := (counted index).victim_stored full
    have read := getElem?_layout (limiter index) (scanVictim (limiter index).slots)
    rw [stored] at read
    exact ⟨_, oldest, victim_layout (limiter index), read⟩
  total := by
    have each : ∀ index ∈ (Finset.univ : Finset (Fin shardCount)),
        (layout (limiter index)).slots.countP Option.isSome ≤ perShardCap maxEntries := by
      intro index _
      have bound := (counted index).bounded
      rw [(counted index).count] at bound
      exact bound
    have summed := Finset.sum_le_card_nsmul Finset.univ _ _ each
    rw [Finset.card_univ, Fintype.card_fin, smul_eq_mul] at summed
    have whole := shards_perShardCap maxEntries
    omega

/-- A new shard counts nothing. -/
theorem counted_create (maxEntries : Int) (index : Fin shardCount) :
    Counted (create α maxEntries index) where
  count := by
    have empty : ∀ content ∈ List.ofFn (create α maxEntries index).slots, ¬ content.isSome := by
      intro content member
      obtain ⟨slot, rfl⟩ := List.mem_ofFn.mp member
      simp [create]
    exact (List.countP_eq_zero.mpr empty).symm
  bounded := Nat.zero_le _
  young := by
    intro slot entry stored
    simp [create] at stored

variable [Add α] [Sub α] [Mul α] [Div α] [IntCast α] [LT α] [DecidableLT α]

/-- The limiter after a sequence of calls, unless one of them left an array. -/
def runShards : RlShards α → List Call → Option (RlShards α)
  | shards, [] => some shards
  | shards, call :: calls =>
    match allowAtShards shards call.key call.perMinute call.nowNs with
    | none => none
    | some (_, later) => runShards later calls

/-- A run of calls on a counted limiter stays inside the arrays and within the bounds. -/
theorem runShards_layout {maxEntries : Int} {limiter : Limiter α (perShardCap maxEntries)}
    (counted : ∀ index, Counted (limiter index)) {calls : List Call}
    (times : ∀ call ∈ calls, call.nowNs < 2 ^ 63 - 1) :
    ∃ shards, runShards (fun index => layout (limiter index)) calls = some shards ∧
      Bounded maxEntries shards := by
  induction calls generalizing limiter with
  | nil => exact ⟨_, rfl, bounded_of_counted counted⟩
  | cons call calls ih =>
    have time := times call List.mem_cons_self
    have later := counted_allowAt counted call.key call.perMinute time
    rw [runShards, allowAtShards_layout]
    exact ih later fun next member => times next (List.mem_cons_of_mem _ member)

variable (α)

/-- For every number of entries asked for and every sequence of calls with times below `INT64_MAX`,
no access leaves an array, and in every state the counters count the occupied slots and stay within
their shards' bounds, the loops end where they should and the stored entries are within the number
asked for. -/
theorem limiter_memory_bounded (maxEntries : Int) (calls : List Call)
    (times : ∀ call ∈ calls, call.nowNs < 2 ^ 63 - 1) :
    ∃ shards, runShards (createShards α maxEntries) calls = some shards ∧
      Bounded maxEntries shards := by
  rw [← layout_create]
  exact runShards_layout (counted_create maxEntries) times

/-- Five keys through a limiter for 48: one of them evicts. -/
theorem limiter_memory_bounded_evicting :
    ∃ shards, runShards (createShards ℚ 48) (callsOf ["e", "bu", "u", "ds", "ds"]) = some shards ∧
      Bounded 48 shards :=
  limiter_memory_bounded ℚ 48 (callsOf ["e", "bu", "u", "ds", "ds"]) (by decide)

end Results

end PlatformService.Verif.LimiterMemory
