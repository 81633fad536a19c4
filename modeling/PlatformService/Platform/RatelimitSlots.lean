import PlatformService.Platform.Ratelimit

/-!
# The rate limiter's slots

The shards of `ratelimit.c` as the source lays them out: an array of slots with its
length, the bound on occupied slots and their counter beside it. Every index is
checked against the array, and `none` is an access outside it.
-/

namespace PlatformService.Ratelimit

open Lib

/-- `rl_shard_t` -/
structure RlShard (α : Type) where
  slots : List (Option (Entry α))
  slotCount : Nat
  cap : Nat
  occupied : Nat
  deriving DecidableEq, Repr

/-- One shard of `ps_ratelimiter_create`: its `calloc` leaves every slot unoccupied. -/
def RlShard.create (α : Type) (perShardCap : Nat) : RlShard α where
  slots := List.replicate (perShardCap * 2) none
  slotCount := perShardCap * 2
  cap := perShardCap
  occupied := 0

/-- `struct ps_ratelimiter` -/
abbrev RlShards (α : Type) : Type := Fin shardCount → RlShard α

/-- `ps_ratelimiter_create` -/
def createShards (α : Type) (maxEntries : Int) : RlShards α := fun _ =>
  RlShard.create α (perShardCap maxEntries)

/-- How the probe loop ends: at the key, at an unoccupied slot, or after the whole table. -/
inductive Probed (α : Type) where
  | hit (idx : Nat) (entry : Entry α)
  | foundEmpty (emptySlot : Nat)
  | exhausted
  deriving DecidableEq, Repr

section Loops

variable {α : Type}

/-- The probe loop, with a number of turns left. -/
def RlShard.probeFrom (shard : RlShard α) (boundedKey : Bytes) (start : Nat) :
    Nat → Nat → Option (Probed α)
  | 0, _ => some .exhausted
  | left + 1, probe =>
    let idx := (start + probe) % shard.slotCount
    match shard.slots[idx]? with
    | none => none
    | some none => some (.foundEmpty idx)
    | some (some entry) =>
      if entry.key = boundedKey then some (.hit idx entry)
      else shard.probeFrom boundedKey start left (probe + 1)

/-- The probe loop from the key's home on. -/
def RlShard.probe (shard : RlShard α) (boundedKey : Bytes) : Option (Probed α) :=
  shard.probeFrom boundedKey ((hashKey boundedKey).toNat % shard.slotCount) shard.slotCount 0

/-- One turn of the eviction loop: the victim and the oldest time so far. -/
def victimStep (slots : List (Option (Entry α))) (state : Nat × Int) (i : Nat) :
    Option (Nat × Int) :=
  match slots[i]? with
  | none => none
  | some none => some state
  | some (some entry) =>
    some (if entry.lastUsedNs < state.2 then (i, entry.lastUsedNs) else state)

/-- The eviction loop's choice, from slot 0 and `INT64_MAX` on. -/
def RlShard.victim (shard : RlShard α) : Option Nat :=
  ((List.range shard.slotCount).foldlM (victimStep shard.slots) (0, 2 ^ 63 - 1)).map Prod.fst

end Loops

section Calls

variable {α : Type} [Add α] [Sub α] [Mul α] [Div α] [IntCast α] [LT α] [DecidableLT α]

/-- Charge a bucket and write it to a slot under a key. -/
def RlShard.put (shard : RlShard α) (idx : Nat) (key : Bytes) (bucket : Bucket α)
    (perMinute nowNs : Int) (occupied : Nat) : Option (Bool × RlShard α) :=
  if idx < shard.slots.length then
    let charged := consume bucket perMinute nowNs
    some (charged.1, { shard with slots := shard.slots.set idx (some ⟨key, charged.2, nowNs⟩)
                                  occupied := occupied })
  else none

/-- The eviction path: the new key takes the victim's slot. -/
def RlShard.evict (shard : RlShard α) (boundedKey : Bytes) (perMinute nowNs : Int) :
    Option (Bool × RlShard α) :=
  match shard.victim with
  | none => none
  | some victim =>
    shard.put victim boundedKey (freshBucket perMinute nowNs) perMinute nowNs shard.occupied

/-- The critical section of `ps_ratelimiter_allow_at`. -/
def RlShard.allow (shard : RlShard α) (boundedKey : Bytes) (perMinute nowNs : Int) :
    Option (Bool × RlShard α) :=
  match shard.probe boundedKey with
  | none => none
  | some (.hit idx entry) =>
    shard.put idx boundedKey entry.bucket perMinute nowNs shard.occupied
  | some (.foundEmpty emptySlot) =>
    if shard.occupied < shard.cap then
      shard.put emptySlot boundedKey (freshBucket perMinute nowNs) perMinute nowNs
        (shard.occupied + 1)
    else shard.evict boundedKey perMinute nowNs
  | some .exhausted => shard.evict boundedKey perMinute nowNs

/-- `ps_ratelimiter_allow_at` -/
def allowAtShards (shards : RlShards α) (key : Bytes) (perMinute nowNs : Int) :
    Option (Bool × RlShards α) :=
  if perMinute ≤ 0 then some (false, shards)
  else
    let boundedKey := boundedCopy keyMax key
    match (shards (shardOf boundedKey)).allow boundedKey perMinute nowNs with
    | none => none
    | some (allowed, shard) => some (allowed, Function.update shards (shardOf boundedKey) shard)

end Calls

end PlatformService.Ratelimit
