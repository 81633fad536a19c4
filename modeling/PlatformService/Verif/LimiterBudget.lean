import PlatformService.Lib.TokenBucket
import PlatformService.Verif.LimiterKeys

/-!
# The budget of a key

In exact arithmetic an entry of the limiter is a token bucket with the calls per minute
as its capacity and its refill of a minute. A key keeps to the budget of one bucket over
a whole run as long as the run keeps that bucket: no call evicts it, and the call that
stored it put it where a search for the key gets to. An eviction on behalf of the key
itself may miss that place, and then every call of the key starts a bucket of its own.
-/

namespace PlatformService.Verif.LimiterBudget

open Lib Lib.Probe Ratelimit Verif.Limiter Verif.LimiterKeys

section Shards

variable {α : Type} {cap : Nat} [NeZero cap]

/-- A shard keeps one bucket for a key, where a search for the key finds it. -/
structure Holds (shard : Shard α cap) (key : Bytes) (slot : Fin (2 * cap)) (bucket : Bucket α) :
    Prop where
  found : search shard.slots Entry.key (home (2 * cap)) key = .hit slot
  held : (shard.slots slot).map Entry.bucket = some bucket
  only : ∀ s entry, shard.slots s = some entry → entry.key = key → s = slot

/-- A shard keeps nothing for a key. -/
def Lacks (shard : Shard α cap) (key : Bytes) : Prop :=
  ∀ s entry, shard.slots s = some entry → entry.key ≠ key

variable [Add α] [Sub α] [Mul α] [Div α] [IntCast α] [LT α] [DecidableLT α]
variable {shard : Shard α cap} {key called : Bytes} {slot : Fin (2 * cap)} {bucket : Bucket α}

omit [NeZero cap] in
/-- What a put leaves in the slots. -/
theorem put_slots (shard : Shard α cap) (slot : Fin (2 * cap)) (key : Bytes) (bucket : Bucket α)
    (perMinute nowNs : Int) (occupied : Nat) :
    (shard.put slot key bucket perMinute nowNs occupied).2.slots =
      Function.update shard.slots slot (some ⟨key, (consume bucket perMinute nowNs).2, nowNs⟩) := rfl

/-- A call stores its key's charged bucket at one slot: the key's, an empty one, or that of the entry
it evicts. -/
theorem allow_eq_put (shard : Shard α cap) (called : Bytes) (perMinute nowNs : Int) :
    ∃ place bucket occupied,
      shard.allow called perMinute nowNs = shard.put place called bucket perMinute nowNs occupied ∧
      ((∀ entry, shard.slots place = some entry → entry.key = called) ∨
        evicting shard called = true ∧ place = scanVictim shard.slots) := by
  unfold Shard.allow evicting
  cases outcome : search shard.slots Entry.key (home (2 * cap)) called with
  | hit place =>
    obtain ⟨entry, stored, same⟩ := stored_of_search_hit outcome
    refine ⟨place, entry.bucket, shard.occupied, by simp only [stored], Or.inl fun other found => ?_⟩
    rw [stored] at found
    rw [← Option.some.inj found]
    exact same
  | empty place =>
    have vacant := (reaches_of_search_empty outcome).1
    by_cases room : shard.occupied < cap
    · refine ⟨place, freshBucket perMinute nowNs, shard.occupied + 1, by simp only [if_pos room],
        Or.inl fun other found => ?_⟩
      rw [vacant] at found
      contradiction
    · exact ⟨scanVictim shard.slots, freshBucket perMinute nowNs, shard.occupied,
        by simp only [if_neg room], Or.inr ⟨decide_eq_true (not_lt.mp room), rfl⟩⟩
  | full => exact ⟨scanVictim shard.slots, freshBucket perMinute nowNs, shard.occupied, rfl,
      Or.inr ⟨rfl, rfl⟩⟩

/-- Putting a key's charged bucket where its search finds it keeps one bucket for the key. -/
theorem holds_put {perMinute nowNs : Int} {occupied : Nat}
    (found : search (shard.put slot key bucket perMinute nowNs occupied).2.slots Entry.key
      (home (2 * cap)) key = .hit slot)
    (only : ∀ s entry, shard.slots s = some entry → entry.key = key → s = slot) :
    Holds (shard.put slot key bucket perMinute nowNs occupied).2 key slot
      (consume bucket perMinute nowNs).2 where
  found := found
  held := by
    rw [put_slots, Function.update_self]
    rfl
  only := by
    intro s entry stored same
    by_cases here : s = slot
    · exact here
    · rw [put_slots, Function.update_of_ne here] at stored
      exact only s entry stored same

/-- A call for the key charges its bucket. -/
theorem Holds.call (holds : Holds shard key slot bucket) (perMinute nowNs : Int) :
    (shard.allow key perMinute nowNs).1 = (consume bucket perMinute nowNs).1 ∧
      Holds (shard.allow key perMinute nowNs).2 key slot (consume bucket perMinute nowNs).2 := by
  obtain ⟨entry, stored, same⟩ := stored_of_search_hit holds.found
  have content := holds.held
  rw [stored] at content
  have charged : entry.bucket = bucket := Option.some.inj content
  have step : shard.allow key perMinute nowNs =
      shard.put slot key bucket perMinute nowNs shard.occupied := by
    unfold Shard.allow
    rw [holds.found]
    simp only [stored, charged]
  rw [step]
  have found := search_hit_update_self holds.found
    (e := ⟨key, (consume bucket perMinute nowNs).2, nowNs⟩) rfl
  exact ⟨rfl, holds_put found holds.only⟩

/-- A key's first call starts a bucket, and its shard keeps it if an eviction put it on its path. -/
theorem Lacks.call (lacks : Lacks shard key) (onPath : OnPath shard key) (perMinute nowNs : Int) :
    ∃ slot,
      (shard.allow key perMinute nowNs).1 =
        (consume (freshBucket perMinute nowNs : Bucket α) perMinute nowNs).1 ∧
      Holds (shard.allow key perMinute nowNs).2 key slot
        (consume (freshBucket perMinute nowNs : Bucket α) perMinute nowNs).2 := by
  have absent : ∀ slot, search shard.slots Entry.key (home (2 * cap)) key ≠ .hit slot := by
    intro slot outcome
    obtain ⟨entry, stored, same⟩ := stored_of_search_hit outcome
    exact lacks slot entry stored same
  have only : ∀ slot s entry, shard.slots s = some entry → entry.key = key → s = slot :=
    fun slot s entry stored same => absurd same (lacks s entry stored)
  have starts : ∀ slot occupied, Reaches shard.slots (home (2 * cap) key) slot →
      Holds (shard.put slot key (freshBucket perMinute nowNs) perMinute nowNs occupied).2 key slot
        (consume (freshBucket perMinute nowNs : Bucket α) perMinute nowNs).2 := by
    intro slot occupied path
    let entry : Entry α :=
      ⟨key, (consume (freshBucket perMinute nowNs : Bucket α) perMinute nowNs).2, nowNs⟩
    have found : search (Function.update shard.slots slot (some entry)) Entry.key (home (2 * cap))
        entry.key = .hit slot := search_hit_store path lacks
    exact holds_put found (only slot)
  unfold Shard.allow
  cases outcome : search shard.slots Entry.key (home (2 * cap)) key with
  | hit slot => exact absurd outcome (absent slot)
  | empty slot =>
    by_cases room : shard.occupied < cap
    · simp only [if_pos room]
      exact ⟨slot, rfl, starts slot _ (reaches_of_search_empty outcome).2⟩
    · simp only [if_neg room]
      exact ⟨_, rfl, starts _ _ (onPath absent (not_lt.mp room))⟩
  | full =>
    -- a table without an empty slot has every slot on every path
    obtain ⟨offset, bound, place⟩ := exists_slotAt (home (2 * cap) key) (scanVictim shard.slots)
    have path : Reaches shard.slots (home (2 * cap) key) (scanVictim shard.slots) :=
      ⟨offset, bound, place, fun before _ => occupied_of_search_full outcome _⟩
    exact ⟨_, rfl, starts _ _ path⟩

/-- A call for another key that does not evict the key's bucket leaves it. -/
theorem Holds.other (holds : Holds shard key slot bucket) (perMinute nowNs : Int)
    (other : called ≠ key)
    (spares : evicting shard called = true →
      ∀ entry, shard.slots (scanVictim shard.slots) = some entry → entry.key ≠ key) :
    Holds (shard.allow called perMinute nowNs).2 key slot bucket := by
  obtain ⟨entry, stored, same⟩ := stored_of_search_hit holds.found
  obtain ⟨place, charged, occupied, step, source⟩ := allow_eq_put shard called perMinute nowNs
  have elsewhere : slot ≠ place := by
    rintro rfl
    rcases source with own | ⟨forced, victim⟩
    · exact other ((own entry stored).symm.trans same)
    · rw [victim] at stored
      exact spares forced entry stored same
  rw [step]
  exact {
    found := search_hit_update_of_ne holds.found elsewhere other
    held := by
      rw [put_slots, Function.update_of_ne elsewhere]
      exact holds.held
    only := by
      intro s found content matching
      by_cases here : s = place
      · rw [put_slots, here, Function.update_self] at content
        rw [← Option.some.inj content] at matching
        exact absurd matching other
      · rw [put_slots, Function.update_of_ne here] at content
        exact holds.only s found content matching }

/-- A call for another key stores nothing for the key. -/
theorem Lacks.other (lacks : Lacks shard key) (perMinute nowNs : Int) (other : called ≠ key) :
    Lacks (shard.allow called perMinute nowNs).2 key := by
  obtain ⟨place, charged, occupied, step, _⟩ := allow_eq_put shard called perMinute nowNs
  rw [step]
  intro s entry content
  by_cases here : s = place
  · rw [put_slots, here, Function.update_self] at content
    rw [← Option.some.inj content]
    exact other
  · rw [put_slots, Function.update_of_ne here] at content
    exact lacks s entry content

end Shards

section Runs

variable {α : Type} [Add α] [Sub α] [Mul α] [Div α] [IntCast α] [LT α] [DecidableLT α]
variable {cap : Nat} [NeZero cap]

/-- The calls of a run for a key: their times and the answers they got. -/
def answers (key : Bytes) : Limiter α cap → List Limiter.Call → List (Int × Bool)
  | _, [] => []
  | limiter, call :: calls =>
    let result := allowAt limiter call.key call.perMinute call.nowNs
    if boundedCopy keyMax call.key = key then (call.nowNs, result.1) :: answers key result.2 calls
    else answers key result.2 calls

/-- Whenever a call for a key evicts, the evicted slot is on the key's path. -/
def KeepsPath (key : Bytes) : Limiter α cap → List Limiter.Call → Prop
  | _, [] => True
  | limiter, call :: calls => (boundedCopy keyMax call.key = key → EvictsOnPath limiter call) ∧
      KeepsPath key (allowAt limiter call.key call.perMinute call.nowNs).2 calls

instance (key : Bytes) : (limiter : Limiter α cap) → (calls : List Limiter.Call) →
    Decidable (KeepsPath key limiter calls)
  | _, [] => inferInstanceAs (Decidable True)
  | limiter, call :: calls =>
    have := instDecidableKeepsPath key (allowAt limiter call.key call.perMinute call.nowNs).2 calls
    inferInstanceAs (Decidable ((_ → OnPath _ _) ∧ _))

/-- A call leaves a shard as it is or is a call on that shard. -/
theorem shard_allowAt (limiter : Limiter α cap) (call : Limiter.Call) (index : Fin shardCount) :
    (allowAt limiter call.key call.perMinute call.nowNs).2 index = limiter index ∨
      0 < call.perMinute ∧ index = shardOf (boundedCopy keyMax call.key) ∧
        (allowAt limiter call.key call.perMinute call.nowNs).2 index =
          ((limiter index).allow (boundedCopy keyMax call.key) call.perMinute call.nowNs).2 := by
  by_cases positive : 0 < call.perMinute
  · rw [allowAt_eq limiter positive]
    by_cases here : index = shardOf (boundedCopy keyMax call.key)
    · right
      refine ⟨positive, here, ?_⟩
      rw [here]
      exact Function.update_self _ _ _
    · exact Or.inl (Function.update_of_ne here _ _)
  · left
    unfold allowAt
    rw [if_pos (not_lt.mp positive)]

/-- A call for another key that evicts no bucket of the key leaves the key's bucket. -/
theorem holds_allowAt {limiter : Limiter α cap} {call : Limiter.Call} {key : Bytes}
    {slot : Fin (2 * cap)} {bucket : Bucket α} (holds : Holds (limiter (shardOf key)) key slot bucket)
    (other : boundedCopy keyMax call.key ≠ key) (spares : evicts limiter call key = false) :
    Holds ((allowAt limiter call.key call.perMinute call.nowNs).2 (shardOf key)) key slot bucket := by
  rcases shard_allowAt limiter call (shardOf key) with same | ⟨positive, here, step⟩
  · rw [same]
    exact holds
  · rw [step]
    refine holds.other call.perMinute call.nowNs other fun forced entry held matching => ?_
    unfold evicts at spares
    dsimp only at spares
    rw [← here, forced, held, decide_eq_true positive] at spares
    simp [matching] at spares

/-- A call for another key stores nothing for the key. -/
theorem lacks_allowAt {limiter : Limiter α cap} {call : Limiter.Call} {key : Bytes}
    (lacks : Lacks (limiter (shardOf key)) key) (other : boundedCopy keyMax call.key ≠ key) :
    Lacks ((allowAt limiter call.key call.perMinute call.nowNs).2 (shardOf key)) key := by
  rcases shard_allowAt limiter call (shardOf key) with same | ⟨_, _, step⟩
  · rw [same]
    exact lacks
  · rw [step]
    exact lacks.other call.perMinute call.nowNs other

/-- A call for the key is a call on its shard. -/
theorem allowAt_own (limiter : Limiter α cap) {call : Limiter.Call} {key : Bytes}
    (own : boundedCopy keyMax call.key = key) (positive : 0 < call.perMinute) :
    (allowAt limiter call.key call.perMinute call.nowNs).1 =
        ((limiter (shardOf key)).allow key call.perMinute call.nowNs).1 ∧
      (allowAt limiter call.key call.perMinute call.nowNs).2 (shardOf key) =
        ((limiter (shardOf key)).allow key call.perMinute call.nowNs).2 := by
  rw [allowAt_eq limiter positive, own]
  exact ⟨rfl, Function.update_self _ _ _⟩

end Runs

section Budget

/-- The budget of a key that is charged with a limit: the calls allowed are at most the limit and
its share of the time from the first call to the latest, the first calls are allowed, and so is one
that comes a token's time after all before it. -/
structure KeepsBudget (perMinute : Int) (rows : List (Int × Bool)) : Prop where
  total : ∀ first rest latest, rows = first :: rest → (∀ row ∈ rows, row.1 ≤ latest) →
    (rows.countP Prod.snd : ℚ) ≤
      perMinute + perMinute * ((latest - first.1 : Int) : ℚ) / 60000000000
  early : ∀ (index : Nat) (row : Int × Bool), rows[index]? = some row →
    (index : Int) < perMinute → row.2 = true
  rested : ∀ (index : Nat) (row : Int × Bool), rows[index]? = some row →
    (∀ earlier ∈ rows.take index, (60000000000 : ℚ) / perMinute ≤ ((row.1 - earlier.1 : Int) : ℚ)) →
    row.2 = true

/-- The tokens a minute refills, for each nanosecond. -/
def perNs (perMinute : Int) : ℚ := perMinute / 60000000000

/-- A bucket in exact arithmetic. -/
def level (bucket : Bucket ℚ) : TokenBucket.Level ℚ := ⟨bucket.tokens, bucket.lastRefillNs⟩

/-- A row with its time in exact arithmetic. -/
def rational (row : Int × Bool) : ℚ × Bool := (row.1, row.2)

/-- A difference that an `int64_t` holds. -/
theorem subInt64_eq {left right : Int} (above : left - right < 2 ^ 63) (below : right - left < 2 ^ 63) :
    subInt64 left right = left - right :=
  Int.bmod_eq_of_le (by omega) (by omega)

/-- In exact arithmetic `consume` charges a token bucket, if the time passed is no overflow. -/
theorem charge_level_eq (bucket : Bucket ℚ) (perMinute : Int) {nowNs : Int}
    (exact : subInt64 nowNs bucket.lastRefillNs = nowNs - bucket.lastRefillNs) :
    (level bucket).charge (perMinute : ℚ) (perNs perMinute) nowNs =
      ((consume bucket perMinute nowNs).1, level (consume bucket perMinute nowNs).2) := by
  have refill : (level bucket).refill (perMinute : ℚ) (perNs perMinute) nowNs =
      level (if 0 < nowNs - bucket.lastRefillNs then
        ⟨if (perMinute : ℚ) < bucket.tokens + ((nowNs - bucket.lastRefillNs : Int) : ℚ) /
            ((60000000000 : Int) : ℚ) * (perMinute : ℚ) then (perMinute : ℚ)
          else bucket.tokens + ((nowNs - bucket.lastRefillNs : Int) : ℚ) /
            ((60000000000 : Int) : ℚ) * (perMinute : ℚ), nowNs⟩
        else bucket) := by
    have gain : bucket.tokens + perNs perMinute * ((nowNs : ℚ) - bucket.lastRefillNs) =
        bucket.tokens + ((nowNs - bucket.lastRefillNs : Int) : ℚ) /
          ((60000000000 : Int) : ℚ) * (perMinute : ℚ) := by
      unfold perNs
      push_cast
      ring
    unfold TokenBucket.Level.refill
    by_cases later : 0 < nowNs - bucket.lastRefillNs
    · have before : (level bucket).latest < (nowNs : ℚ) := by
        have order : bucket.lastRefillNs < nowNs := by omega
        exact Int.cast_lt.mpr order
      rw [if_pos later, if_pos before]
      show (⟨min (perMinute : ℚ) (bucket.tokens + perNs perMinute * (nowNs - bucket.lastRefillNs)),
        nowNs⟩ : TokenBucket.Level ℚ) = _
      rw [gain]
      generalize bucket.tokens + ((nowNs - bucket.lastRefillNs : Int) : ℚ) /
        ((60000000000 : Int) : ℚ) * (perMinute : ℚ) = tokens
      by_cases above : (perMinute : ℚ) < tokens
      · rw [if_pos above, min_eq_left above.le]
        rfl
      · rw [if_neg above, min_eq_right (not_lt.mp above)]
        rfl
    · have after : ¬ (level bucket).latest < (nowNs : ℚ) := by
        intro before
        have order : bucket.lastRefillNs < nowNs := Int.cast_lt.mp before
        omega
      rw [if_neg later, if_neg after]
  unfold TokenBucket.Level.charge consume
  rw [refill, exact]
  dsimp only
  generalize (if 0 < nowNs - bucket.lastRefillNs then _ else bucket) = refilled
  have one : ((1 : Int) : ℚ) = 1 := Int.cast_one
  have tokens : (level refilled).tokens = refilled.tokens := rfl
  rw [one, tokens]
  by_cases short : refilled.tokens < 1
  · rw [if_pos short, if_pos short]
  · rw [if_neg short, if_neg short]
    rfl

/-- A bucket is refilled last at the call or when it was before. -/
theorem lastRefillNs_consume (bucket : Bucket ℚ) (perMinute nowNs : Int) :
    (consume bucket perMinute nowNs).2.lastRefillNs = nowNs ∨
      (consume bucket perMinute nowNs).2.lastRefillNs = bucket.lastRefillNs := by
  unfold consume
  dsimp only
  by_cases later : 0 < subInt64 nowNs bucket.lastRefillNs
  · left
    rw [if_pos later]
    split <;> split <;> rfl
  · right
    rw [if_neg later]
    split <;> rfl

/-- A new bucket, and its capacity as a rational. -/
theorem level_freshBucket (perMinute nowNs : Int) :
    level (freshBucket perMinute nowNs) = ⟨perMinute, nowNs⟩ := rfl

/-- The rows' times are taken to rationals one by one. -/
theorem getElem?_rational {rows : List (Int × Bool)} {index : Nat} {row : Int × Bool}
    (found : rows[index]? = some row) : (rows.map rational)[index]? = some (rational row) := by
  rw [List.getElem?_map, found]
  rfl

/-- The budget in exact arithmetic is the key's budget. -/
theorem keepsBudget_of_budgeted {perMinute : Int} (positive : 0 < perMinute)
    {rows : List (Int × Bool)}
    (budgeted : TokenBucket.Budgeted (perMinute : ℚ) (perNs perMinute) (rows.map rational)) :
    KeepsBudget perMinute rows where
  total := by
    intro first rest latest split bound
    have counted : (rows.map rational).countP Prod.snd = rows.countP Prod.snd := by
      rw [List.countP_map]
      rfl
    have total := budgeted.total (rational first) (rest.map rational) latest (by rw [split]; rfl) (by
      intro row member
      obtain ⟨source, inside, rfl⟩ := List.mem_map.mp member
      exact Int.cast_le.mpr (bound source inside))
    have spread : perNs perMinute * ((latest : ℚ) - (rational first).1) =
        perMinute * ((latest - first.1 : Int) : ℚ) / 60000000000 := by
      unfold perNs rational
      push_cast
      ring
    rw [counted, spread] at total
    exact total
  early := by
    intro index row found inside
    refine budgeted.early index (rational row) (getElem?_rational found) ?_
    have whole : (index : Int) + 1 ≤ perMinute := by omega
    exact_mod_cast whole
  rested := by
    intro index row found waited
    refine budgeted.rested index (rational row) (getElem?_rational found) ?_
    intro earlier member
    rw [← List.map_take] at member
    obtain ⟨source, inside, rfl⟩ := List.mem_map.mp member
    have wait := waited source inside
    have limit : (0 : ℚ) < perMinute := Int.cast_pos.mpr positive
    rw [div_le_iff₀ limit] at wait
    push_cast at wait
    unfold perNs rational
    rw [div_mul_eq_mul_div, one_le_div (by norm_num)]
    linarith

/-- What a run has established for a key: nothing is kept and no call was made, or one bucket is kept,
refilled at a time of a call and within the budget of the calls so far. -/
def Tracked (times : Int → Prop) (key : Bytes) (perMinute : Int) {cap : Nat} [NeZero cap]
    (limiter : Limiter ℚ cap) (rows : List (Int × Bool)) : Prop :=
  (rows = [] ∧ Lacks (limiter (shardOf key)) key) ∨
    ∃ slot bucket first, Holds (limiter (shardOf key)) key slot bucket ∧ times bucket.lastRefillNs ∧
      TokenBucket.Within (perMinute : ℚ) (perNs perMinute) first (rows.map rational) (level bucket) ∧
      TokenBucket.Budgeted (perMinute : ℚ) (perNs perMinute) (rows.map rational)

variable {cap : Nat} [NeZero cap] {key : Bytes} {perMinute : Int} {limiter : Limiter ℚ cap}
variable {rows : List (Int × Bool)} {call : Limiter.Call} {times : Int → Prop}

/-- A call for the key keeps its budget, on the key's path. -/
theorem Tracked.own (tracked : Tracked times key perMinute limiter rows) (positive : 0 < perMinute)
    (close : ∀ time other, times time → times other → time - other < 2 ^ 63)
    (own : boundedCopy keyMax call.key = key) (limit : call.perMinute = perMinute)
    (timely : times call.nowNs) (onPath : EvictsOnPath limiter call) :
    Tracked times key perMinute (allowAt limiter call.key call.perMinute call.nowNs).2
      (rows ++ [(call.nowNs, (allowAt limiter call.key call.perMinute call.nowNs).1)]) := by
  have room : (1 : ℚ) ≤ perMinute := by exact_mod_cast positive
  have growing : 0 < perNs perMinute := div_pos (Int.cast_pos.mpr positive) (by norm_num)
  have charged : 0 < call.perMinute := by omega
  obtain ⟨answer, after⟩ := allowAt_own limiter own charged
  unfold EvictsOnPath at onPath
  rw [own] at onPath
  right
  rw [after, answer, limit]
  have exact {other : Int} (known : times other) : subInt64 call.nowNs other = call.nowNs - other :=
    subInt64_eq (close _ _ timely known) (close _ _ known timely)
  have refilled {bucket : Bucket ℚ} (known : times bucket.lastRefillNs) :
      times (consume bucket perMinute call.nowNs).2.lastRefillNs := by
    rcases lastRefillNs_consume bucket perMinute call.nowNs with now | before
    · rw [now]
      exact timely
    · rw [before]
      exact known
  rcases tracked with ⟨rfl, lacks⟩ | ⟨slot, bucket, first, holds, known, within, budgeted⟩
  · obtain ⟨slot, decision, holds⟩ := lacks.call onPath perMinute call.nowNs
    have step := charge_level_eq (freshBucket perMinute call.nowNs) perMinute (exact timely)
    rw [level_freshBucket] at step
    have within := TokenBucket.within_start (perNs perMinute) (call.nowNs : ℚ) room
    have budgeted := TokenBucket.budgeted_start (call.nowNs : ℚ) room growing.le
    rw [step] at within budgeted
    rw [decision]
    exact ⟨slot, _, call.nowNs, holds, refilled timely, within, budgeted⟩
  · obtain ⟨decision, later⟩ := holds.call perMinute call.nowNs
    have step := charge_level_eq bucket perMinute (exact known)
    have inside := within.charge growing.le (call.nowNs : ℚ)
    have spent := within.budgeted_charge budgeted room growing (call.nowNs : ℚ)
    rw [step] at inside spent
    rw [decision, List.map_append]
    exact ⟨slot, _, first, later, refilled known, inside, spent⟩

/-- A call for another key that evicts no bucket of the key leaves what was established. -/
theorem Tracked.other (tracked : Tracked times key perMinute limiter rows)
    (other : boundedCopy keyMax call.key ≠ key) (spares : evicts limiter call key = false) :
    Tracked times key perMinute (allowAt limiter call.key call.perMinute call.nowNs).2 rows := by
  rcases tracked with ⟨none, lacks⟩ | ⟨slot, bucket, first, holds, kept⟩
  · exact Or.inl ⟨none, lacks_allowAt lacks other⟩
  · exact Or.inr ⟨slot, bucket, first, holds_allowAt holds other spares, kept⟩

/-- A run that keeps the key's bucket keeps its budget. -/
theorem Tracked.run (tracked : Tracked times key perMinute limiter rows) (positive : 0 < perMinute)
    (close : ∀ time other, times time → times other → time - other < 2 ^ 63)
    {calls : List Limiter.Call}
    (same : ∀ call ∈ calls, boundedCopy keyMax call.key = key → call.perMinute = perMinute)
    (timely : ∀ call ∈ calls, boundedCopy keyMax call.key = key → times call.nowNs)
    (spared : spares key limiter calls = true) (onPath : KeepsPath key limiter calls) :
    Tracked times key perMinute (chargeAll limiter calls) (rows ++ answers key limiter calls) := by
  induction calls generalizing limiter rows with
  | nil =>
    rw [answers, List.append_nil]
    exact tracked
  | cons call calls ih =>
    rw [spares, Bool.and_eq_true, Bool.not_eq_true'] at spared
    have rest := fun next member => same next (List.mem_cons_of_mem call member)
    have restTimely := fun next member => timely next (List.mem_cons_of_mem call member)
    rw [chargeAll, answers]
    by_cases own : boundedCopy keyMax call.key = key
    · have limit := same call List.mem_cons_self own
      have now := timely call List.mem_cons_self own
      have step := tracked.own positive close own limit now (onPath.1 own)
      have later := ih step rest restTimely spared.2 onPath.2
      rw [List.append_assoc] at later
      rw [if_pos own]
      exact later
    · rw [if_neg own]
      exact ih (tracked.other own spared.1) rest restTimely spared.2 onPath.2

/-- In every run from a new limiter, a key that is never evicted, always charged with one positive
limit at times whose differences an `int64_t` holds, and only ever stored where its search gets to,
keeps to the budget of one bucket, and its tokens stay between none and the limit. -/
theorem key_keeps_budget_of_path (maxEntries : Int) (key : Bytes) (perMinute : Int)
    (calls : List Limiter.Call) (positive : 0 < perMinute)
    (same : ∀ call ∈ calls, boundedCopy keyMax call.key = key → call.perMinute = perMinute)
    (close : ∀ call ∈ calls, boundedCopy keyMax call.key = key → ∀ other ∈ calls,
      boundedCopy keyMax other.key = key → call.nowNs - other.nowNs < 2 ^ 63)
    (spared : spares key (create ℚ maxEntries) calls = true)
    (onPath : KeepsPath key (create ℚ maxEntries) calls) :
    KeepsBudget perMinute (answers key (create ℚ maxEntries) calls) ∧
      ∀ slot entry, stored (chargeAll (create ℚ maxEntries) calls) key slot = some entry →
        0 ≤ entry.bucket.tokens ∧ entry.bucket.tokens ≤ perMinute := by
  -- the times at which the key is called
  let times : Int → Prop := fun time =>
    ∃ call ∈ calls, boundedCopy keyMax call.key = key ∧ call.nowNs = time
  have near : ∀ time other, times time → times other → time - other < 2 ^ 63 := by
    rintro _ _ ⟨call, member, own, rfl⟩ ⟨other, memberToo, ownToo, rfl⟩
    exact close call member own other memberToo ownToo
  have start : Tracked times key perMinute (create ℚ maxEntries) [] := by
    refine Or.inl ⟨rfl, ?_⟩
    intro slot entry stored
    simp [create] at stored
  have tracked := start.run positive near same
    (fun call member own => ⟨call, member, own, rfl⟩) spared onPath
  rw [List.nil_append] at tracked
  rcases tracked with ⟨none, lacks⟩ | ⟨slot, bucket, first, holds, -, within, budgeted⟩
  · constructor
    · rw [none]
      exact keepsBudget_of_budgeted positive (TokenBucket.budgeted_nil _ _)
    · intro slot entry found
      obtain ⟨content, matching⟩ := Option.filter_eq_some_iff.mp found
      exact absurd (by simpa using matching) (lacks slot entry content)
  · refine ⟨keepsBudget_of_budgeted positive budgeted, fun place entry found => ?_⟩
    obtain ⟨content, matching⟩ := Option.filter_eq_some_iff.mp found
    have here := holds.only place entry content (by simpa using matching)
    have held := holds.held
    rw [← here, content] at held
    have charged : entry.bucket = bucket := Option.some.inj held
    rw [charged]
    exact ⟨within.nonneg, within.capped⟩

end Budget

/-- The fourth key takes the place of the first, on its path: its second call is refused. -/
theorem key_keeps_budget_of_path_shared_home :
    KeepsBudget 1 (answers (ascii "ds") (create ℚ 48) (callsOf ["e", "bu", "u", "ds", "ds"])) ∧
      ∀ slot entry, stored (chargeAll (create ℚ 48) (callsOf ["e", "bu", "u", "ds", "ds"]))
          (ascii "ds") slot = some entry →
        0 ≤ entry.bucket.tokens ∧ entry.bucket.tokens ≤ (1 : Int) :=
  key_keeps_budget_of_path 48 (ascii "ds") 1 (callsOf ["e", "bu", "u", "ds", "ds"]) (by decide)
    (by decide +kernel) (by decide +kernel) (by decide +kernel) (by decide +kernel)

/-- The fourth key takes the place of the first, off its path. It is never evicted, but its second
call, a nanosecond after the first, is allowed as well. -/
theorem key_overdraws_off_path :
    (∀ call ∈ callsOf ["e", "bu", "u", "cb", "cb"], call.perMinute = 1) ∧
      spares (ascii "cb") (create ℚ 48) (callsOf ["e", "bu", "u", "cb", "cb"]) = true ∧
      ¬ KeepsBudget 1 (answers (ascii "cb") (create ℚ 48) (callsOf ["e", "bu", "u", "cb", "cb"])) := by
  refine ⟨by decide, by decide +kernel, fun keeps => ?_⟩
  have rows : answers (ascii "cb") (create ℚ 48) (callsOf ["e", "bu", "u", "cb", "cb"]) =
      [(4, true), (5, true)] := by decide +kernel
  rw [rows] at keeps
  have total := keeps.total (4, true) [(5, true)] 5 rfl (by decide)
  norm_num at total

end PlatformService.Verif.LimiterBudget
