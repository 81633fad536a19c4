import Mathlib.Algebra.Field.Rat
import Mathlib.Algebra.Order.Ring.Rat
import Mathlib.Data.Int.Cast.Basic
import Mathlib.Data.List.FinRange
import PlatformService.Lib.Bytes
import PlatformService.Lib.Probe

/-!
# The rate limiter

`ratelimit.c`: sixteen shards, each an open-addressed table of token buckets with
twice as many slots as it may hold keys. A key that is absent from a full shard
takes the slot of the least recently used one. The number type of the buckets is
a parameter: the source computes in doubles, and nothing below depends on how its
arithmetic rounds. The shard locks make a call atomic.
-/

namespace PlatformService.Ratelimit

open Lib Lib.Probe

/-- `PS_RATELIMIT_SHARDS` -/
def shardCount : Nat := 16

/-- `PS_RATELIMIT_KEY_MAX` -/
def keyMax : Nat := 64

/-- `hash_key`: FNV-1a. -/
def hashKey (key : Bytes) : UInt64 :=
  key.foldl (fun h byte => (h ^^^ byte.toUInt64) * 1099511628211) 14695981039346656037

/-- The part of an entry that its owner's calls compute with. -/
structure Bucket (α : Type) where
  tokens : α
  lastRefillNs : Int
  deriving DecidableEq, Repr

/-- `rl_entry_t` of an occupied slot. -/
structure Entry (α : Type) where
  key : Bytes
  bucket : Bucket α
  lastUsedNs : Int
  deriving DecidableEq, Repr

/-- The home of a key in a table of a given size. -/
def home (slotCount : Nat) (key : Bytes) : Nat := (hashKey key).toNat % slotCount

/-- `rl_shard_t` with room for `cap` keys. -/
structure Shard (α : Type) (cap : Nat) where
  slots : Fin (2 * cap) → Option (Entry α)
  occupied : Nat

/-- `struct ps_ratelimiter` -/
abbrev Limiter (α : Type) (cap : Nat) : Type := Fin shardCount → Shard α cap

/-- The capacity `ps_ratelimiter_create` gives each shard. -/
def perShardCap (maxEntries : Int) : Nat := max 1 ((max 1 maxEntries).toNat / shardCount)

/-- `ps_ratelimiter_create` -/
def create (α : Type) (maxEntries : Int) : Limiter α (perShardCap maxEntries) := fun _ =>
  { slots := fun _ => none, occupied := 0 }

instance neZero_perShardCap (maxEntries : Int) : NeZero (perShardCap maxEntries) :=
  ⟨by unfold perShardCap; omega⟩

instance neZero_slots (cap : Nat) [NeZero cap] : NeZero (2 * cap) :=
  ⟨by have := NeZero.ne cap; omega⟩

section Arithmetic

variable {α : Type} [Add α] [Sub α] [Mul α] [Div α] [IntCast α] [LT α] [DecidableLT α]

/-- A difference of type `int64_t`: it wraps where C leaves the overflow undefined. -/
def subInt64 (left right : Int) : Int := (left - right).bmod (2 ^ 64)

/-- `consume`: refill for the time passed, up to the limit, then try to take one token. -/
def consume (bucket : Bucket α) (perMinute nowNs : Int) : Bool × Bucket α :=
  let elapsed := subInt64 nowNs bucket.lastRefillNs
  let refilled : Bucket α :=
    if 0 < elapsed then
      let tokens := bucket.tokens + (elapsed : α) / ((60000000000 : Int) : α) * (perMinute : α)
      ⟨if (perMinute : α) < tokens then (perMinute : α) else tokens, nowNs⟩
    else bucket
  if refilled.tokens < ((1 : Int) : α) then (false, refilled)
  else (true, { refilled with tokens := refilled.tokens - ((1 : Int) : α) })

/-- The bucket of a key that is new to its shard. -/
def freshBucket (perMinute nowNs : Int) : Bucket α := ⟨(perMinute : α), nowNs⟩

variable {cap : Nat} [NeZero cap]

/-- One turn of the scan for the least recently used entry: the victim and the oldest time so far. -/
def scanStep (slots : Fin (2 * cap) → Option (Entry α)) (state : Fin (2 * cap) × Int)
    (slot : Fin (2 * cap)) : Fin (2 * cap) × Int :=
  match slots slot with
  | some entry => if entry.lastUsedNs < state.2 then (slot, entry.lastUsedNs) else state
  | none => state

/-- The scan for the least recently used entry, from `INT64_MAX` down. -/
def scanVictim (slots : Fin (2 * cap) → Option (Entry α)) : Fin (2 * cap) :=
  ((List.finRange (2 * cap)).foldl (scanStep slots) (0, 2 ^ 63 - 1)).1

/-- Charge a bucket and put it into a slot under a key. -/
def Shard.put (shard : Shard α cap) (slot : Fin (2 * cap)) (key : Bytes) (bucket : Bucket α)
    (perMinute nowNs : Int) (occupied : Nat) : Bool × Shard α cap :=
  let charged := consume bucket perMinute nowNs
  (charged.1, { slots := Function.update shard.slots slot (some ⟨key, charged.2, nowNs⟩)
                occupied := occupied })

/-- The critical section of `ps_ratelimiter_allow_at` on the key's shard. -/
def Shard.allow (shard : Shard α cap) (key : Bytes) (perMinute nowNs : Int) : Bool × Shard α cap :=
  match search shard.slots Entry.key (home (2 * cap)) key with
  | .hit slot =>
    match shard.slots slot with
    | some entry => shard.put slot key entry.bucket perMinute nowNs shard.occupied
    | none => (false, shard)
  | .empty slot =>
    if shard.occupied < cap then
      shard.put slot key (freshBucket perMinute nowNs) perMinute nowNs (shard.occupied + 1)
    else
      shard.put (scanVictim shard.slots) key (freshBucket perMinute nowNs) perMinute nowNs
        shard.occupied
  | .full =>
    shard.put (scanVictim shard.slots) key (freshBucket perMinute nowNs) perMinute nowNs
      shard.occupied

/-- The shard of a key. -/
def shardOf (key : Bytes) : Fin shardCount :=
  ⟨(hashKey key).toNat % shardCount, Nat.mod_lt _ (by decide)⟩

/-- `ps_ratelimiter_allow_at` -/
def allowAt (limiter : Limiter α cap) (key : Bytes) (perMinute nowNs : Int) :
    Bool × Limiter α cap :=
  if perMinute ≤ 0 then (false, limiter)
  else
    let boundedKey := boundedCopy keyMax key
    let result := (limiter (shardOf boundedKey)).allow boundedKey perMinute nowNs
    (result.1, Function.update limiter (shardOf boundedKey) result.2)

end Arithmetic

end PlatformService.Ratelimit
