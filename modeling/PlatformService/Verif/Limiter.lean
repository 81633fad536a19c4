import Mathlib.Data.Rat.Defs
import Mathlib.Data.List.Infix
import PlatformService.Platform.Ratelimit

/-!
# The rate limiter against an ideal one

The ideal limiter keeps, for each shard, the buckets of at most `cap` keys in the
order of their last use, and drops the first of them to make room. The table of
`ratelimit.c` mirrors it as long as its probe paths stay intact. They break when
an eviction puts the new key into a slot that a search from the key's home does
not get to: the key is then lost, and its next call starts a fresh bucket. The
refinement holds for the runs in which every eviction stays on the new key's
path, and those are exactly the runs that keep the table sound.
-/

namespace PlatformService.Verif.Limiter

open Lib Lib.Probe Ratelimit

/-- The arguments of one call of `ps_ratelimiter_allow_at`. -/
structure Call where
  key : Bytes
  perMinute : Int
  nowNs : Int

section Runs

variable {α : Type} [Add α] [Sub α] [Mul α] [Div α] [IntCast α] [LT α] [DecidableLT α]
variable {cap : Nat}

/-- The ideal shard: keys with their buckets, the least recently used first. -/
abbrev IdealShard (α : Type) := List (Bytes × Bucket α)

/-- The ideal shard's answer to a call, and what it keeps. -/
def idealAllow (cap : Nat) (rows : IdealShard α) (key : Bytes) (perMinute nowNs : Int) :
    Bool × IdealShard α :=
  match rows.find? fun row => row.1 = key with
  | some row =>
    let charged := consume row.2 perMinute nowNs
    (charged.1, (rows.filter fun row => row.1 ≠ key) ++ [(key, charged.2)])
  | none =>
    let kept := if rows.length < cap then rows else rows.tail
    let charged := consume (freshBucket perMinute nowNs : Bucket α) perMinute nowNs
    (charged.1, kept ++ [(key, charged.2)])

/-- The ideal limiter's answer to a call. -/
def idealAllowAt (cap : Nat) (shards : Fin shardCount → IdealShard α) (call : Call) :
    Bool × (Fin shardCount → IdealShard α) :=
  let key := boundedCopy keyMax call.key
  let result := idealAllow cap (shards (shardOf key)) key call.perMinute call.nowNs
  (result.1, Function.update shards (shardOf key) result.2)

/-- The decisions of the ideal limiter on a sequence of calls. -/
def idealDecisions (cap : Nat) : (Fin shardCount → IdealShard α) → List Call → List Bool
  | _, [] => []
  | shards, call :: calls =>
    (idealAllowAt cap shards call).1 :: idealDecisions cap (idealAllowAt cap shards call).2 calls

variable [NeZero cap]

/-- The decisions of the limiter on a sequence of calls. -/
def decisions : Limiter α cap → List Call → List Bool
  | _, [] => []
  | limiter, call :: calls =>
    (allowAt limiter call.key call.perMinute call.nowNs).1 ::
      decisions (allowAt limiter call.key call.perMinute call.nowNs).2 calls

/-- Every stored key has one slot, and a search from its home gets there. -/
def SoundShard (shard : Shard α cap) : Prop := Sound shard.slots Entry.key (home (2 * cap))

/-- If the call evicts, the evicted slot is on the new key's path. -/
def OnPath (shard : Shard α cap) (key : Bytes) : Prop :=
  (∀ slot, search shard.slots Entry.key (home (2 * cap)) key ≠ .hit slot) → cap ≤ shard.occupied →
    Reaches shard.slots (home (2 * cap) key) (scanVictim shard.slots)

/-- The condition on a limiter and the call it gets. -/
def EvictsOnPath (limiter : Limiter α cap) (call : Call) : Prop :=
  OnPath (limiter (shardOf (boundedCopy keyMax call.key))) (boundedCopy keyMax call.key)

instance (shard : Shard α cap) (key : Bytes) : Decidable (OnPath shard key) :=
  inferInstanceAs (Decidable ((∀ _, _) → _ → _))

/-- Every eviction of a run stays on the path of the key it makes room for. -/
def StaysOnPath : Limiter α cap → List Call → Prop
  | _, [] => True
  | limiter, call :: calls => EvictsOnPath limiter call ∧
      StaysOnPath (allowAt limiter call.key call.perMinute call.nowNs).2 calls

instance : (limiter : Limiter α cap) → (calls : List Call) → Decidable (StaysOnPath limiter calls)
  | _, [] => inferInstanceAs (Decidable True)
  | limiter, call :: calls =>
    have := instDecidableStaysOnPath (allowAt limiter call.key call.perMinute call.nowNs).2 calls
    inferInstanceAs (Decidable (OnPath _ _ ∧ _))

/-- Every table a run reaches is sound. -/
def StaysSound : Limiter α cap → List Call → Prop
  | limiter, [] => ∀ shard, SoundShard (limiter shard)
  | limiter, call :: calls => (∀ shard, SoundShard (limiter shard)) ∧
      StaysSound (allowAt limiter call.key call.perMinute call.nowNs).2 calls

/-- A shard whose stored entries are the given ones, in the order of their last use. -/
structure Mirrors (shard : Shard α cap) (entries : List (Entry α)) : Prop where
  recency : entries.Pairwise fun left right => left.lastUsedNs < right.lastUsedNs
  stored : ∀ entry, entry ∈ entries ↔ ∃ slot, shard.slots slot = some entry
  count : shard.occupied = entries.length
  bounded : entries.length ≤ cap
  sound : SoundShard shard

/-- The row of an entry in the ideal shard. -/
def row (entry : Entry α) : Bytes × Bucket α := (entry.key, entry.bucket)

end Runs

section Scan

variable {α : Type} {cap : Nat}

/-- What a scan has established: its time is that of its victim unless it never moved. -/
def Scanned (slots : Fin (2 * cap) → Option (Entry α)) (start state : Fin (2 * cap) × Int) : Prop :=
  state = start ∨ ∃ entry, slots state.1 = some entry ∧ entry.lastUsedNs = state.2

/-- A turn of the scan lowers its time to that of the slot it looks at. -/
theorem scanStep_spec (slots : Fin (2 * cap) → Option (Entry α)) (state : Fin (2 * cap) × Int)
    (slot : Fin (2 * cap)) :
    (scanStep slots state slot).2 ≤ state.2 ∧
      (∀ entry, slots slot = some entry → (scanStep slots state slot).2 ≤ entry.lastUsedNs) ∧
      Scanned slots state (scanStep slots state slot) := by
  unfold scanStep Scanned
  cases found : slots slot with
  | none => simp
  | some entry =>
    by_cases older : entry.lastUsedNs < state.2
    · simp only [if_pos older]
      exact ⟨older.le, fun other same => (Option.some.inj same ▸ le_rfl),
        Or.inr ⟨entry, found, rfl⟩⟩
    · simp only [if_neg older]
      exact ⟨le_rfl, fun other same => Option.some.inj same ▸ not_lt.mp older, Or.inl trivial⟩

/-- A scan ends with the least time of the slots it looked at, and a victim of that time. -/
theorem foldl_scanStep_spec (slots : Fin (2 * cap) → Option (Entry α))
    (list : List (Fin (2 * cap))) (state : Fin (2 * cap) × Int) :
    (list.foldl (scanStep slots) state).2 ≤ state.2 ∧
      (∀ slot ∈ list, ∀ entry, slots slot = some entry →
        (list.foldl (scanStep slots) state).2 ≤ entry.lastUsedNs) ∧
      Scanned slots state (list.foldl (scanStep slots) state) := by
  induction list generalizing state with
  | nil => exact ⟨le_rfl, by simp, Or.inl rfl⟩
  | cons slot list ih =>
    obtain ⟨below, least, source⟩ := ih (scanStep slots state slot)
    obtain ⟨lowered, here, moved⟩ := scanStep_spec slots state slot
    rw [List.foldl_cons]
    refine ⟨below.trans lowered, ?_, ?_⟩
    · intro other member entry found
      rcases List.mem_cons.mp member with rfl | later
      · exact below.trans (here entry found)
      · exact least other later entry found
    · rcases source with unmoved | fresh
      · rw [unmoved]
        exact moved
      · exact Or.inr fresh

/-- The victim is the oldest entry, as every stored time is below `INT64_MAX`. -/
theorem scanVictim_oldest [NeZero cap] {slots : Fin (2 * cap) → Option (Entry α)} {slot : Fin (2 * cap)}
    {entry : Entry α} (stored : slots slot = some entry) (young : entry.lastUsedNs < 2 ^ 63 - 1) :
    ∃ oldest, slots (scanVictim slots) = some oldest ∧
      ∀ s e, slots s = some e → oldest.lastUsedNs ≤ e.lastUsedNs := by
  obtain ⟨-, least, source⟩ := foldl_scanStep_spec slots (List.finRange (2 * cap)) (0, 2 ^ 63 - 1)
  rcases source with unmoved | ⟨oldest, found, time⟩
  · have bound := least slot (List.mem_finRange slot) entry stored
    rw [unmoved] at bound
    dsimp only at bound
    omega
  · refine ⟨oldest, found, fun s e held => ?_⟩
    rw [time]
    exact least s (List.mem_finRange s) e held

end Scan

section Mirror

variable {α : Type} {cap : Nat} [NeZero cap] {shard : Shard α cap} {entries : List (Entry α)}
variable {key : Bytes}

/-- Mirrored entries have different keys. -/
theorem Mirrors.eq_of_key (mirrors : Mirrors shard entries) {left right : Entry α}
    (hl : left ∈ entries) (hr : right ∈ entries) (same : left.key = right.key) : left = right := by
  obtain ⟨i, storedLeft⟩ := (mirrors.stored left).mp hl
  obtain ⟨j, storedRight⟩ := (mirrors.stored right).mp hr
  have place := mirrors.sound.unique storedLeft storedRight same
  rw [place, storedRight] at storedLeft
  exact (Option.some.inj storedLeft).symm

/-- The ideal shard finds the row of the entry that has the key. -/
theorem Mirrors.find_row (mirrors : Mirrors shard entries) {entry : Entry α}
    (held : entry ∈ entries) (same : entry.key = key) :
    (entries.map row).find? (fun row => row.1 = key) = some (row entry) := by
  cases found : (entries.map row).find? (fun row => row.1 = key) with
  | none =>
    have absent := List.find?_eq_none.mp found (row entry) (List.mem_map_of_mem held)
    simp [row, same] at absent
  | some other =>
    obtain ⟨candidate, member, rfl⟩ := List.mem_map.mp (List.mem_of_find?_eq_some found)
    have selected := List.find?_some found
    rw [decide_eq_true_eq] at selected
    have matching : candidate.key = key := selected
    rw [mirrors.eq_of_key member held (matching.trans same.symm)]

/-- A search that misses tells that the key is not stored. -/
theorem Mirrors.absent_of_miss (mirrors : Mirrors shard entries)
    (miss : ∀ slot, search shard.slots Entry.key (home (2 * cap)) key ≠ .hit slot) :
    ∀ entry ∈ entries, entry.key ≠ key := by
  intro entry held same
  obtain ⟨slot, stored⟩ := (mirrors.stored entry).mp held
  exact miss slot (mirrors.sound.search_stored stored same)

/-- The ideal shard has no row for a key that is not stored. -/
theorem find_row_none (absent : ∀ entry ∈ entries, entry.key ≠ key) :
    (entries.map row).find? (fun row => row.1 = key) = none := by
  rw [List.find?_eq_none]
  intro candidate member
  obtain ⟨entry, held, rfl⟩ := List.mem_map.mp member
  rw [decide_eq_true_eq]
  exact absent entry held

/-- A mirrored table always has an empty slot. -/
theorem Mirrors.not_full (mirrors : Mirrors shard entries) : ∃ slot, shard.slots slot = none := by
  by_contra full
  have occupied : ∀ slot, ∃ entry, shard.slots slot = some entry := fun slot =>
    Option.ne_none_iff_exists'.mp fun none => full ⟨slot, none⟩
  choose entryAt stored using occupied
  -- more slots than entries, each slot with an entry of its own
  have injective : Function.Injective entryAt := by
    intro i j same
    exact mirrors.sound.unique (stored i) (stored j) (congrArg Entry.key same)
  have distinct : ((List.finRange (2 * cap)).map entryAt).Nodup :=
    (List.nodup_finRange _).map injective
  have inside : (List.finRange (2 * cap)).map entryAt ⊆ entries := by
    intro entry member
    obtain ⟨slot, -, rfl⟩ := List.mem_map.mp member
    exact (mirrors.stored _).mpr ⟨slot, stored slot⟩
  have fewer := (List.subperm_of_subset distinct inside).length_le
  have bounded := mirrors.bounded
  have positive := Nat.pos_of_neZero cap
  simp only [List.length_map, List.length_finRange] at fewer
  omega

/-- Without its entry, the rows of a key's shard are those of the other keys. -/
theorem Mirrors.remove (mirrors : Mirrors shard entries) {entry : Entry α}
    (held : entry ∈ entries) (same : entry.key = key) :
    (entries.filter fun other => other.key ≠ key).length + 1 = entries.length ∧
      (entries.map row).filter (fun row => row.1 ≠ key) =
        (entries.filter fun other => other.key ≠ key).map row := by
  constructor
  · obtain ⟨front, back, split⟩ := List.append_of_mem held
    have recency := mirrors.recency
    rw [split, List.pairwise_append, List.pairwise_cons] at recency
    -- an entry of the same key would be the entry itself, which is used at one time only
    have others : ∀ other ∈ front ++ back, other.key ≠ key := by
      intro other member shared
      have inside : other ∈ entries := by
        rw [split]
        rcases List.mem_append.mp member with early | late
        · exact List.mem_append_left _ early
        · exact List.mem_append_right _ (List.mem_cons_of_mem _ late)
      have twin := mirrors.eq_of_key inside held (shared.trans same.symm)
      rcases List.mem_append.mp member with early | late
      · have earlier := recency.2.2 other early entry List.mem_cons_self
        rw [twin] at earlier
        exact lt_irrefl _ earlier
      · have later := recency.2.1.1 other late
        rw [twin] at later
        exact lt_irrefl _ later
    have kept : (entries.filter fun other => other.key ≠ key) = front ++ back := by
      rw [split, List.filter_append, List.filter_cons_of_neg (by simp [same]),
        ← List.filter_append]
      exact List.filter_eq_self.mpr fun other member => by simpa using others other member
    rw [kept, split]
    simp only [List.length_append, List.length_cons]
    omega
  · rw [List.filter_map]
    rfl

/-- The oldest entry of a mirrored shard is the first. -/
theorem Mirrors.oldest_first (mirrors : Mirrors shard entries) {oldest : Entry α}
    (held : oldest ∈ entries)
    (least : ∀ entry ∈ entries, oldest.lastUsedNs ≤ entry.lastUsedNs) :
    entries = oldest :: entries.tail := by
  cases entries with
  | nil => exact absurd held List.not_mem_nil
  | cons first rest =>
    rcases List.mem_cons.mp held with rfl | later
    · rfl
    · have before := (List.pairwise_cons.mp mirrors.recency).1 oldest later
      have after := least first List.mem_cons_self
      omega

end Mirror

section Refinement

variable {α : Type} [Add α] [Sub α] [Mul α] [Div α] [IntCast α] [LT α] [DecidableLT α]
variable {cap : Nat} [NeZero cap] {shard : Shard α cap} {entries : List (Entry α)} {key : Bytes}
variable {perMinute nowNs : Int}

/-- The entry a charged bucket is stored as. -/
def charged (key : Bytes) (bucket : Bucket α) (perMinute nowNs : Int) : Entry α :=
  ⟨key, (consume bucket perMinute nowNs).2, nowNs⟩

/-- Storing a charged bucket on its path moves its key behind the others. -/
theorem Mirrors.put (mirrors : Mirrors shard entries) (perMinute : Int) {slot : Fin (2 * cap)}
    {others : List (Entry α)} (sublist : others.Sublist entries)
    (elsewhere : ∀ entry, entry ∈ others ↔ ∃ s, s ≠ slot ∧ shard.slots s = some entry)
    (absent : ∀ entry ∈ others, entry.key ≠ key)
    (path : Reaches shard.slots (home (2 * cap) key) slot)
    (late : ∀ entry ∈ entries, entry.lastUsedNs < nowNs) (bucket : Bucket α)
    (room : others.length + 1 ≤ cap) :
    Mirrors (shard.put slot key bucket perMinute nowNs (others.length + 1)).2
      (others ++ [charged key bucket perMinute nowNs]) where
  recency := by
    rw [List.pairwise_append]
    refine ⟨mirrors.recency.sublist sublist, List.pairwise_singleton _ _, ?_⟩
    intro entry member new same
    rw [List.mem_singleton] at same
    rw [same]
    exact late entry (sublist.subset member)
  stored := by
    intro entry
    rw [List.mem_append, List.mem_singleton, elsewhere]
    constructor
    · rintro (⟨s, other, held⟩ | rfl)
      · exact ⟨s, by simpa [Shard.put, Function.update_of_ne other] using held⟩
      · exact ⟨slot, by simp [Shard.put, charged]⟩
    · rintro ⟨s, held⟩
      by_cases here : s = slot
      · right
        simpa [Shard.put, charged, here, eq_comm] using held
      · left
        exact ⟨s, here, by simpa [Shard.put, Function.update_of_ne here] using held⟩
  count := by simp [Shard.put]
  bounded := by simpa using room
  sound := by
    refine (mirrors.sound.store_iff ?_).mpr path
    intro i entry held other
    exact absent entry ((elsewhere entry).mpr ⟨i, other, held⟩)

/-- What a call does to a mirrored shard: it charges the key's entry, adds one, or replaces the
oldest. -/
theorem Mirrors.allow_cases (mirrors : Mirrors shard entries) (key : Bytes) (perMinute nowNs : Int)
    (young : ∀ entry ∈ entries, entry.lastUsedNs < 2 ^ 63 - 1) :
    (∃ slot entry, shard.slots slot = some entry ∧ entry.key = key ∧
        shard.allow key perMinute nowNs =
          shard.put slot key entry.bucket perMinute nowNs entries.length) ∨
      ((∀ slot, search shard.slots Entry.key (home (2 * cap)) key ≠ .hit slot) ∧
        ((∃ slot, entries.length < cap ∧ shard.slots slot = none ∧
            Reaches shard.slots (home (2 * cap) key) slot ∧
            shard.allow key perMinute nowNs =
              shard.put slot key (freshBucket perMinute nowNs) perMinute nowNs
                (entries.length + 1)) ∨
          (∃ oldest, entries.length = cap ∧ shard.slots (scanVictim shard.slots) = some oldest ∧
            entries = oldest :: entries.tail ∧
            shard.allow key perMinute nowNs =
              shard.put (scanVictim shard.slots) key (freshBucket perMinute nowNs) perMinute nowNs
                entries.length))) := by
  have count := mirrors.count
  have bounded := mirrors.bounded
  cases outcome : search shard.slots Entry.key (home (2 * cap)) key with
  | hit slot =>
    obtain ⟨entry, stored, same⟩ := stored_of_search_hit outcome
    left
    exact ⟨slot, entry, stored, same, by simp [Shard.allow, outcome, stored, count]⟩
  | full =>
    obtain ⟨slot, empty⟩ := mirrors.not_full
    exact absurd empty (occupied_of_search_full outcome slot)
  | empty slot =>
    right
    refine ⟨by simp, ?_⟩
    obtain ⟨vacant, path⟩ := reaches_of_search_empty outcome
    by_cases room : entries.length < cap
    · left
      refine ⟨slot, room, vacant, path, ?_⟩
      simp [Shard.allow, outcome, count, room]
    · right
      have positive := Nat.pos_of_neZero cap
      obtain ⟨first, rest, split⟩ := List.exists_cons_of_length_pos (l := entries) (by omega)
      have held : first ∈ entries := by simp [split]
      obtain ⟨place, stored⟩ := (mirrors.stored first).mp held
      obtain ⟨oldest, found, least⟩ := scanVictim_oldest stored (young first held)
      have member : oldest ∈ entries := (mirrors.stored oldest).mpr ⟨_, found⟩
      refine ⟨oldest, by omega, found, mirrors.oldest_first member ?_, ?_⟩
      · intro entry inside
        obtain ⟨s, at_s⟩ := (mirrors.stored entry).mp inside
        exact least s entry at_s
      · simp [Shard.allow, outcome, count, room]

/-- A call on a mirrored shard that evicts on the new key's path at most is the ideal shard's. -/
theorem Mirrors.allow (mirrors : Mirrors shard entries) (perMinute : Int)
    (late : ∀ entry ∈ entries, entry.lastUsedNs < nowNs) (int64 : nowNs ≤ 2 ^ 63 - 1)
    (onPath : OnPath shard key) :
    ∃ later, Mirrors (shard.allow key perMinute nowNs).2 later ∧
      idealAllow cap (entries.map row) key perMinute nowNs =
        ((shard.allow key perMinute nowNs).1, later.map row) ∧
      ∀ entry ∈ later, entry.lastUsedNs ≤ nowNs := by
  have young : ∀ entry ∈ entries, entry.lastUsedNs < 2 ^ 63 - 1 := fun entry held =>
    lt_of_lt_of_le (late entry held) int64
  have upto : ∀ {others : List (Entry α)} {bucket : Bucket α}, others.Sublist entries →
      ∀ entry ∈ others ++ [charged key bucket perMinute nowNs], entry.lastUsedNs ≤ nowNs := by
    intro others bucket sublist entry member
    rcases List.mem_append.mp member with old | new
    · exact (late entry (sublist.subset old)).le
    · rw [List.mem_singleton.mp new]
      exact le_rfl
  rcases mirrors.allow_cases key perMinute nowNs young with
    ⟨slot, entry, stored, same, step⟩ | ⟨miss, ⟨slot, room, vacant, path, step⟩ |
      ⟨oldest, full, found, split, step⟩⟩
  · -- the key is stored: its entry moves behind the others
    have held : entry ∈ entries := (mirrors.stored entry).mpr ⟨slot, stored⟩
    obtain ⟨size, rows⟩ := mirrors.remove held same
    have elsewhere : ∀ other, other ∈ entries.filter (fun other => other.key ≠ key) ↔
        ∃ s, s ≠ slot ∧ shard.slots s = some other := by
      intro other
      rw [List.mem_filter, mirrors.stored, decide_eq_true_eq]
      constructor
      · rintro ⟨⟨s, at_s⟩, differs⟩
        refine ⟨s, ?_, at_s⟩
        rintro rfl
        rw [stored] at at_s
        exact differs (Option.some.inj at_s ▸ same)
      · rintro ⟨s, away, at_s⟩
        refine ⟨⟨s, at_s⟩, fun shared => away ?_⟩
        exact mirrors.sound.unique at_s stored (shared.trans same.symm)
    have path : Reaches shard.slots (home (2 * cap) key) slot := same ▸ mirrors.sound.reached stored
    have after := mirrors.put perMinute List.filter_sublist elsewhere
      (fun other member => by simpa using (List.mem_filter.mp member).2) path late entry.bucket
      (by have := mirrors.bounded; omega)
    rw [size] at after
    refine ⟨_, step ▸ after, ?_, upto List.filter_sublist⟩
    rw [step]
    simp only [idealAllow, mirrors.find_row held same, rows, List.map_append, List.map_singleton]
    rfl
  · -- a new key with room: it goes to the empty slot its search ended at
    have absent := mirrors.absent_of_miss miss
    have elsewhere : ∀ other, other ∈ entries ↔ ∃ s, s ≠ slot ∧ shard.slots s = some other := by
      intro other
      rw [mirrors.stored]
      constructor
      · rintro ⟨s, at_s⟩
        refine ⟨s, ?_, at_s⟩
        rintro rfl
        rw [vacant] at at_s
        contradiction
      · rintro ⟨s, -, at_s⟩
        exact ⟨s, at_s⟩
    have after := mirrors.put perMinute (List.Sublist.refl _) elsewhere absent path
      late (freshBucket perMinute nowNs) room
    refine ⟨_, step ▸ after, ?_, upto (List.Sublist.refl _)⟩
    rw [step]
    simp only [idealAllow, find_row_none absent, List.length_map, if_pos room, List.map_append,
      List.map_singleton]
    rfl
  · -- a new key in a full shard: it takes the slot of the oldest entry
    have absent := mirrors.absent_of_miss miss
    have path := onPath miss (by rw [mirrors.count, full])
    have unique : ∀ {s : Fin (2 * cap)}, shard.slots s = some oldest → s = scanVictim shard.slots :=
      fun at_s => mirrors.sound.unique at_s found rfl
    have recency := mirrors.recency
    rw [split, List.pairwise_cons] at recency
    have elsewhere : ∀ other, other ∈ entries.tail ↔
        ∃ s, s ≠ scanVictim shard.slots ∧ shard.slots s = some other := by
      intro other
      constructor
      · intro member
        obtain ⟨s, at_s⟩ := (mirrors.stored other).mp (List.mem_of_mem_tail member)
        refine ⟨s, ?_, at_s⟩
        rintro rfl
        rw [found] at at_s
        have later := recency.1 other member
        rw [Option.some.inj at_s] at later
        exact lt_irrefl _ later
      · rintro ⟨s, away, at_s⟩
        have member : other ∈ entries := (mirrors.stored other).mpr ⟨s, at_s⟩
        rw [split] at member
        rcases List.mem_cons.mp member with rfl | later
        · exact absurd (unique at_s) away
        · exact later
    have size : entries.tail.length + 1 = entries.length := by
      conv_rhs => rw [split]
      rfl
    have after := mirrors.put perMinute (List.tail_sublist entries) elsewhere
      (fun other member => absent other (List.mem_of_mem_tail member)) path late
      (freshBucket perMinute nowNs) (by omega)
    rw [size] at after
    refine ⟨_, step ▸ after, ?_, upto (List.tail_sublist entries)⟩
    rw [step]
    simp only [idealAllow, find_row_none absent, List.length_map, full, lt_irrefl, if_false,
      List.map_append, List.map_singleton, List.map_tail]
    rfl

/-- If a call leaves a mirrored shard sound, what it evicted was on the new key's path. -/
theorem Mirrors.onPath_of_sound (mirrors : Mirrors shard entries)
    (late : ∀ entry ∈ entries, entry.lastUsedNs < nowNs) (int64 : nowNs ≤ 2 ^ 63 - 1)
    (sound : SoundShard (shard.allow key perMinute nowNs).2) : OnPath shard key := by
  have young : ∀ entry ∈ entries, entry.lastUsedNs < 2 ^ 63 - 1 := fun entry held =>
    lt_of_lt_of_le (late entry held) int64
  intro miss full
  rw [mirrors.count] at full
  rcases mirrors.allow_cases key perMinute nowNs young with ⟨slot, entry, stored, same, -⟩ |
    ⟨-, ⟨slot, room, -⟩ | ⟨oldest, -, found, split, step⟩⟩
  · exact absurd (mirrors.sound.search_stored stored same) (miss slot)
  · omega
  · rw [step] at sound
    refine (mirrors.sound.store_iff ?_).mp sound
    intro i entry at_i _
    exact mirrors.absent_of_miss miss entry ((mirrors.stored entry).mpr ⟨i, at_i⟩)

/-- A call with a positive limit is a call on the shard of its bounded key. -/
theorem allowAt_eq (limiter : Limiter α cap) {call : Call} (positive : 0 < call.perMinute) :
    allowAt limiter call.key call.perMinute call.nowNs =
      (((limiter (shardOf (boundedCopy keyMax call.key))).allow (boundedCopy keyMax call.key)
          call.perMinute call.nowNs).1,
        Function.update limiter (shardOf (boundedCopy keyMax call.key))
          ((limiter (shardOf (boundedCopy keyMax call.key))).allow (boundedCopy keyMax call.key)
            call.perMinute call.nowNs).2) := by
  unfold allowAt
  rw [if_neg (not_le.mpr positive)]

/-- Entries of every shard that a limiter mirrors. -/
def MirrorsAll (limiter : Limiter α cap) (entries : Fin shardCount → List (Entry α)) : Prop :=
  ∀ shard, Mirrors (limiter shard) (entries shard)

/-- One call on a mirrored limiter, on the path of its key, is the ideal limiter's. -/
theorem MirrorsAll.allowAt {limiter : Limiter α cap} {entries : Fin shardCount → List (Entry α)}
    (mirrored : MirrorsAll limiter entries) {call : Call} (positive : 0 < call.perMinute)
    (late : ∀ shard, ∀ entry ∈ entries shard, entry.lastUsedNs < call.nowNs)
    (int64 : call.nowNs ≤ 2 ^ 63 - 1) (onPath : EvictsOnPath limiter call) :
    ∃ later, MirrorsAll (allowAt limiter call.key call.perMinute call.nowNs).2 later ∧
      idealAllowAt cap (fun shard => (entries shard).map row) call =
        ((allowAt limiter call.key call.perMinute call.nowNs).1,
          fun shard => (later shard).map row) ∧
      ∀ shard, ∀ entry ∈ later shard, entry.lastUsedNs ≤ call.nowNs := by
  obtain ⟨rows, mirrors, ideal, recent⟩ :=
    (mirrored _).allow call.perMinute (late _) int64 onPath
  have step := allowAt_eq limiter positive
  unfold idealAllowAt
  dsimp only
  rw [step, ideal]
  generalize boundedCopy keyMax call.key = key at *
  refine ⟨Function.update entries (shardOf key) rows, ?_, ?_, ?_⟩
  · intro shard
    dsimp only
    by_cases here : shard = shardOf key
    · rw [here, Function.update_self, Function.update_self]
      exact mirrors
    · rw [Function.update_of_ne here, Function.update_of_ne here]
      exact mirrored shard
  · refine Prod.ext rfl (funext fun shard => ?_)
    by_cases here : shard = shardOf key
    · rw [here]
      simp only [Function.update_self]
    · simp only [Function.update_of_ne here]
  · intro shard entry member
    by_cases here : shard = shardOf key
    · rw [here, Function.update_self] at member
      exact recent entry member
    · rw [Function.update_of_ne here] at member
      exact (late shard entry member).le

/-- If a call leaves a mirrored limiter sound, what it evicted was on the new key's path. -/
theorem MirrorsAll.evictsOnPath {limiter : Limiter α cap}
    {entries : Fin shardCount → List (Entry α)} (mirrored : MirrorsAll limiter entries) {call : Call}
    (positive : 0 < call.perMinute)
    (late : ∀ shard, ∀ entry ∈ entries shard, entry.lastUsedNs < call.nowNs)
    (int64 : call.nowNs ≤ 2 ^ 63 - 1)
    (sound : ∀ shard,
      SoundShard ((Ratelimit.allowAt limiter call.key call.perMinute call.nowNs).2 shard)) :
    EvictsOnPath limiter call := by
  have here := sound (shardOf (boundedCopy keyMax call.key))
  rw [allowAt_eq limiter positive] at here
  dsimp only at here
  rw [Function.update_self] at here
  exact (mirrored _).onPath_of_sound (late _) int64 here

/-- A run that stays sound starts sound. -/
theorem StaysSound.start {limiter : Limiter α cap} {calls : List Call}
    (stays : StaysSound limiter calls) : ∀ shard, SoundShard (limiter shard) := by
  cases calls with
  | nil => exact stays
  | cons call calls => exact stays.1

/-- A run on a mirrored limiter: it stays sound exactly when it stays on the paths, and then its
decisions are the ideal limiter's. -/
theorem MirrorsAll.run {limiter : Limiter α cap} {entries : Fin shardCount → List (Entry α)}
    (mirrored : MirrorsAll limiter entries) {calls : List Call}
    (positive : ∀ call ∈ calls, 0 < call.perMinute)
    (increasing : calls.Pairwise fun left right => left.nowNs < right.nowNs)
    (int64 : ∀ call ∈ calls, call.nowNs ≤ 2 ^ 63 - 1)
    (late : ∀ call ∈ calls, ∀ shard, ∀ entry ∈ entries shard, entry.lastUsedNs < call.nowNs) :
    (StaysSound limiter calls ↔ StaysOnPath limiter calls) ∧
      (StaysOnPath limiter calls →
        decisions limiter calls =
          idealDecisions cap (fun shard => (entries shard).map row) calls) := by
  induction calls generalizing limiter entries with
  | nil => exact ⟨⟨fun _ => trivial, fun _ shard => (mirrored shard).sound⟩, fun _ => rfl⟩
  | cons call calls ih =>
    have first := positive call List.mem_cons_self
    have fits := int64 call List.mem_cons_self
    have fresh := late call List.mem_cons_self
    obtain ⟨before, increasing⟩ := List.pairwise_cons.mp increasing
    by_cases onPath : EvictsOnPath limiter call
    · obtain ⟨later, mirroredAfter, ideal, recent⟩ := mirrored.allowAt first fresh fits onPath
      obtain ⟨soundness, same⟩ := ih mirroredAfter
        (fun next member => positive next (List.mem_cons_of_mem _ member)) increasing
        (fun next member => int64 next (List.mem_cons_of_mem _ member))
        (fun next member shard entry held =>
          lt_of_le_of_lt (recent shard entry held) (before next member))
      refine ⟨⟨fun stays => ⟨onPath, soundness.mp stays.2⟩,
        fun stays => ⟨fun shard => (mirrored shard).sound, soundness.mpr stays.2⟩⟩, fun stays => ?_⟩
      rw [decisions, idealDecisions, ideal, same stays.2]
    · refine ⟨⟨fun stays => ?_, fun stays => absurd stays.1 onPath⟩,
        fun stays => absurd stays.1 onPath⟩
      exact absurd (mirrored.evictsOnPath first fresh fits stays.2.start) onPath

end Refinement

section Results

/-- A new limiter mirrors nothing. -/
theorem mirrorsAll_create (α : Type) (maxEntries : Int) :
    MirrorsAll (create α maxEntries) fun _ => [] := by
  intro shard
  refine ⟨List.Pairwise.nil, ?_, rfl, Nat.zero_le _, ?_⟩
  · intro entry
    simp [create]
  · exact ⟨fun stored => by simp [create] at stored, fun stored => by simp [create] at stored⟩

variable (α : Type) [Add α] [Sub α] [Mul α] [Div α] [IntCast α] [LT α] [DecidableLT α]

/-- For every sequence of calls with positive limits and increasing times, the tables stay sound
exactly when every eviction stays on the path of the new key, and then the limiter decides as the
ideal one does. -/
theorem decisions_eq_ideal_of_staysOnPath (maxEntries : Int) (calls : List Call)
    (positive : ∀ call ∈ calls, 0 < call.perMinute)
    (increasing : calls.Pairwise fun left right => left.nowNs < right.nowNs)
    (int64 : ∀ call ∈ calls, call.nowNs ≤ 2 ^ 63 - 1) :
    (StaysSound (create α maxEntries) calls ↔ StaysOnPath (create α maxEntries) calls) ∧
      (StaysOnPath (create α maxEntries) calls →
        decisions (create α maxEntries) calls =
          idealDecisions (perShardCap maxEntries) (fun _ => ([] : IdealShard α)) calls) :=
  (mirrorsAll_create α maxEntries).run positive increasing int64 (by simp)

end Results

/-- Calls at one token a minute, one nanosecond apart. -/
def callsOf (keys : List String) : List Call :=
  keys.mapIdx fun index key => ⟨ascii key, 1, index + 1⟩

/-- The fourth key evicts the first, which has its home: the run stays on the paths. -/
theorem decisions_eq_ideal_on_shared_home :
    StaysOnPath (create ℚ 48) (callsOf ["e", "bu", "u", "ds", "ds"]) ∧
      decisions (create ℚ 48) (callsOf ["e", "bu", "u", "ds", "ds"]) =
        idealDecisions (perShardCap 48) (fun _ => ([] : IdealShard ℚ))
          (callsOf ["e", "bu", "u", "ds", "ds"]) := by
  have stays : StaysOnPath (create ℚ 48) (callsOf ["e", "bu", "u", "ds", "ds"]) := by decide +kernel
  exact ⟨stays, (decisions_eq_ideal_of_staysOnPath ℚ 48 _ (by decide) (by decide) (by decide)).2
    stays⟩

/-- The fourth key has the second key's home but takes the first key's slot, where its next call does
not look: that call is allowed although the key has no token left. -/
theorem decisions_ne_ideal_off_path :
    (∀ call ∈ callsOf ["e", "bu", "u", "cb", "cb"], 0 < call.perMinute) ∧
      ((callsOf ["e", "bu", "u", "cb", "cb"]).Pairwise fun left right => left.nowNs < right.nowNs) ∧
      decisions (create ℚ 48) (callsOf ["e", "bu", "u", "cb", "cb"]) ≠
        idealDecisions (perShardCap 48) (fun _ => ([] : IdealShard ℚ))
          (callsOf ["e", "bu", "u", "cb", "cb"]) := by
  refine ⟨by decide, by decide, ?_⟩
  decide +kernel

end PlatformService.Verif.Limiter
