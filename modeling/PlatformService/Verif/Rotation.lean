import PlatformService.Verif.Deployment
import PlatformService.Verif.SessionRuns

/-!
# Rotation is linear

In every run of session transactions a family has at most one unconsumed token: a
step either issues nothing, or a first token under a fresh family, or the successor
of the one unconsumed token. So the tokens of a family form one chain: they are
issued with generations one, two, three and so on, each to a single hash, and all but
the last are consumed, as long as the generations are what an `int` can count. The
invariant speaks of every token row stored so far, so that it survives the sweep.
-/

namespace PlatformService.Verif.Rotation

open Lib Store Crypto Session SessionStore Api

/-- A row that continues a stored one: the same token, not less consumed. -/
def Continues (db : Db) (token : RefreshTokenRow) : Prop :=
  ∃ old ∈ db.refreshTokens, old.tokenHash = token.tokenHash ∧ old.familyId = token.familyId ∧
    old.generation = token.generation ∧ (token.consumedAt = none → old.consumedAt = none)

/-- A stored row continues itself. -/
theorem continues_self {db : Db} {token : RefreshTokenRow} (stored : token ∈ db.refreshTokens) :
    Continues db token := ⟨token, stored, rfl, rfl, rfl, id⟩

/-- What a transaction does to the chain of tokens. -/
inductive ChainStep (ctx : AppCtx) (operation : Operation) (db : Db)
    (verdict : Option RefreshResult) (after : Db) : Prop where
  /-- It issues nothing. -/
  | retained (all : ∀ token ∈ after.refreshTokens, Continues db token)
  /-- It issues the first token of a family it generated. -/
  | first (issued : RefreshTokenRow) (stored : issued ∈ after.refreshTokens)
    (all : ∀ token ∈ after.refreshTokens, token = issued ∨ Continues db token)
    (family : operation.generatesFamily = some issued.familyId)
    (token : operation.generatesToken ctx = some issued.tokenHash)
    (generation : issued.generation = 1)
  /-- A successful refresh issues the successor of an unconsumed token, which it consumes. -/
  | next (issued parent : RefreshTokenRow) (ok : verdict = some .ok)
    (stored : issued ∈ after.refreshTokens)
    (all : ∀ token ∈ after.refreshTokens, token = issued ∨
      (Continues db token ∧ (token.tokenHash = parent.tokenHash → token.consumedAt ≠ none)))
    (token : operation.generatesToken ctx = some issued.tokenHash)
    (presented : operation.presents = some parent.tokenHash)
    (known : parent ∈ db.refreshTokens) (unconsumed : parent.consumedAt = none)
    (family : issued.familyId = parent.familyId)
    (generation : issued.generation = parent.generation + 1)

/-- A token after a claim: a continued one, consumed if it is the claimed one. -/
theorem continues_consumed {db : Db} {tokenHash : Bytes} {now : Int} {token : RefreshTokenRow}
    (stored : token ∈ (db.consumeRefreshTokens (openToken tokenHash) now).refreshTokens) :
    Continues db token ∧ (token.tokenHash = tokenHash → token.consumedAt ≠ none) := by
  obtain ⟨old, member, rfl⟩ := Db.mem_consumeRefreshTokens.mp stored
  by_cases selected : openToken tokenHash old = true
  · rw [if_pos selected]
    exact ⟨⟨old, member, rfl, rfl, rfl, fun impossible => by contradiction⟩, fun _ => by simp⟩
  · rw [if_neg selected]
    refine ⟨continues_self member, fun same unconsumed => selected ?_⟩
    simp [openToken, same, unconsumed]

/-- Every transaction is a step of the chain. -/
theorem chainStep_of_sessionStep {reliable : Prop} {ctx : AppCtx} {operation : Operation}
    {db after : Db} {verdict : Option RefreshResult}
    (step : SessionStep reliable ctx operation db verdict after) :
    ChainStep ctx operation db verdict after := by
  cases step with
  | kept verdict after families tokens quiet =>
    exact .retained fun token stored => continues_self (tokens ▸ stored)
  | opened after familyId tokenHash userId absoluteTtlS idleTtlS familyGenerated tokenGenerated families
      tokens =>
    have inserted := (Table.mem_insert tokens).1
    exact .first _ ((inserted _).mpr (Or.inr rfl))
      (fun token stored => ((inserted token).mp stored).symm.imp_right continues_self)
      familyGenerated tokenGenerated rfl
  | claimed after tokenHash presented families tokens =>
    exact .retained fun token stored => (continues_consumed (tokens ▸ stored)).1
  | rotated after tokenHash newHash idleTtlS token family presented generated stored owner unconsumed
      live families tokens =>
    have inserted := (Table.mem_insert tokens).1
    obtain ⟨known, rfl⟩ := Table.find?_eq_some_iff.mp stored
    exact .next _ token rfl ((inserted _).mpr (Or.inr rfl))
      (fun other member => ((inserted other).mp member).symm.imp_right continues_consumed)
      generated presented known unconsumed rfl rfl
  | detected after tokenHash token presented stored consumed families tokens =>
    exact .retained fun token stored => continues_self (tokens ▸ stored)
  | revoked after selected cause onlyLive families tokens =>
    exact .retained fun token stored => continues_self (tokens ▸ stored)
  | sweptTokens after selected families tokens =>
    refine .retained fun token stored => continues_self ?_
    rw [tokens] at stored
    exact (Table.mem_delete.mp stored).1
  | sweptFamilies after selected families tokens =>
    refine .retained fun token stored => continues_self ?_
    rw [tokens] at stored
    exact (Db.mem_deleteFamilies.mp stored).1

/-- The hashes stored so far in a run were generated, and each stands for one token. -/
structure Identified (ctx : AppCtx) (start : Db) (attempts : List Attempt) : Prop where
  hashes : ∀ token, Seen ctx start attempts token → token.tokenHash ∈ generatedTokens ctx attempts
  same : ∀ left right, Seen ctx start attempts left → Seen ctx start attempts right →
    left.tokenHash = right.tokenHash →
      left.familyId = right.familyId ∧ left.generation = right.generation

/-- A transaction refreshes a token of a family successfully. -/
def rotates (ctx : AppCtx) (familyId : Bytes) (db : Db) (attempt : Attempt) : Bool :=
  decide ((perform ctx db attempt).1 = some .ok) &&
    decide (0 < db.refreshTokens.count fun token =>
      attempt.operation.presents = some token.tokenHash && token.familyId = familyId)

/-- How many transactions of a run refresh a token of a family successfully. -/
def rotations (ctx : AppCtx) (familyId : Bytes) : Db → List Attempt → Nat
  | _, [] => 0
  | db, attempt :: rest =>
    (rotates ctx familyId db attempt).toNat + rotations ctx familyId (perform ctx db attempt).2 rest

/-- The generations of a family start at one without a gap, up to some count, and all tokens of a
lower generation are consumed. -/
def Numbered (ctx : AppCtx) (start : Db) (attempts : List Attempt) (familyId : Bytes) (count : Nat) :
    Prop :=
  (∀ generation : Int, (∃ token, Seen ctx start attempts token ∧ token.familyId = familyId ∧
    token.generation.toInt = generation) ↔ 1 ≤ generation ∧ generation ≤ count) ∧
  ∀ token ∈ (afterAll ctx start attempts).refreshTokens, token.familyId = familyId →
    token.generation.toInt < count → token.consumedAt ≠ none

/-- The tokens of a family stored so far in a run form a chain. -/
structure Chain (ctx : AppCtx) (start : Db) (attempts : List Attempt) (familyId : Bytes) : Prop where
  /-- A generation is one token. -/
  single : ∀ left right, Seen ctx start attempts left → Seen ctx start attempts right →
    left.familyId = familyId → right.familyId = familyId → left.generation = right.generation →
      left.tokenHash = right.tokenHash
  /-- There is one generation more than refreshes, unless the family is new. -/
  generations : ∃ count ≤ rotations ctx familyId start attempts + 1,
    Numbered ctx start attempts familyId count

/-- The tokens stored so far in a run form chains. -/
structure Linear (ctx : AppCtx) (start : Db) (attempts : List Attempt) : Prop where
  /-- Their families were generated. -/
  families : ∀ token, Seen ctx start attempts token → token.familyId ∈ generatedFamilies attempts
  /-- A family has one unconsumed token. -/
  lone : ∀ left ∈ (afterAll ctx start attempts).refreshTokens,
    ∀ right ∈ (afterAll ctx start attempts).refreshTokens, left.familyId = right.familyId →
      left.consumedAt = none → right.consumedAt = none → left.tokenHash = right.tokenHash
  /-- The tokens of a family form a chain as long as an `int` counts them. -/
  chains : ∀ familyId, rotations ctx familyId start attempts < 2 ^ 31 - 1 →
    Chain ctx start attempts familyId

/-- Every token and family id generated in a run is new. -/
structure Fresh (ctx : AppCtx) (attempts : List Attempt) : Prop where
  tokens : (generatedTokens ctx attempts).Nodup
  families : (generatedFamilies attempts).Nodup

/-- No token is stored in a run that has not begun on a database without families. -/
theorem not_seen_nil {ctx : AppCtx} {start : Db} (empty : start.sessionFamilies = Table.empty)
    (token : RefreshTokenRow) : ¬Seen ctx start [] token := by
  intro ⟨earlier, part, stored⟩
  rw [List.prefix_nil.mp part] at stored
  obtain ⟨family, member, _⟩ := start.tokenFamilies token stored
  rw [empty] at member
  exact Table.not_mem_empty _ member

section Chains

variable {ctx : AppCtx} {start : Db} {attempts : List Attempt} {attempt : Attempt}

/-- The tokens generated in a longer run. -/
theorem generatedTokens_concat : generatedTokens ctx (attempts ++ [attempt]) =
    generatedTokens ctx attempts ++ (attempt.operation.generatesToken ctx).toList := by
  simp only [generatedTokens, List.filterMap_append, List.filterMap_cons, List.filterMap_nil]
  cases attempt.operation.generatesToken ctx <;> rfl

/-- The families generated in a longer run. -/
theorem generatedFamilies_concat : generatedFamilies (attempts ++ [attempt]) =
    generatedFamilies attempts ++ attempt.operation.generatesFamily.toList := by
  simp only [generatedFamilies, List.filterMap_append, List.filterMap_cons, List.filterMap_nil]
  cases attempt.operation.generatesFamily <;> rfl

/-- A list without repetition does not hold its last element before the end. -/
theorem unused_of_nodup {values : List Bytes} {last : Option Bytes} {value : Bytes}
    (nodup : (values ++ last.toList).Nodup) (here : last = some value) : value ∉ values := by
  rw [here] at nodup
  intro used
  exact (List.nodup_append.mp nodup).2.2 value used value (by simp) rfl

/-- A token known before: a row of the same token was stored. -/
def Known (ctx : AppCtx) (start : Db) (attempts : List Attempt) (token : RefreshTokenRow) : Prop :=
  ∃ old, Seen ctx start attempts old ∧ old.tokenHash = token.tokenHash ∧
    old.familyId = token.familyId ∧ old.generation = token.generation

/-- A row stored before is known. -/
theorem Known.of_seen {token : RefreshTokenRow} (seen : Seen ctx start attempts token) :
    Known ctx start attempts token := ⟨token, seen, rfl, rfl, rfl⟩

/-- A row that continues a stored one is known. -/
theorem Continues.known {token : RefreshTokenRow}
    (continues : Continues (afterAll ctx start attempts) token) : Known ctx start attempts token := by
  obtain ⟨old, stored, hash, family, generation, _⟩ := continues
  exact ⟨old, ⟨attempts, List.prefix_refl _, stored⟩, hash, family, generation⟩

/-- The hashes of known tokens were generated. -/
theorem Identified.known_hash (identified : Identified ctx start attempts) {token : RefreshTokenRow}
    (known : Known ctx start attempts token) : token.tokenHash ∈ generatedTokens ctx attempts := by
  obtain ⟨old, seen, hash, _, _⟩ := known
  exact hash ▸ identified.hashes old seen

/-- Known tokens of one hash are one token. -/
theorem Identified.known_same (identified : Identified ctx start attempts)
    {left right : RefreshTokenRow} (knownLeft : Known ctx start attempts left)
    (knownRight : Known ctx start attempts right) (same : left.tokenHash = right.tokenHash) :
    left.familyId = right.familyId ∧ left.generation = right.generation := by
  obtain ⟨oldLeft, seenLeft, hashLeft, familyLeft, generationLeft⟩ := knownLeft
  obtain ⟨oldRight, seenRight, hashRight, familyRight, generationRight⟩ := knownRight
  have equal := identified.same oldLeft oldRight seenLeft seenRight
    (hashLeft.trans (same.trans hashRight.symm))
  exact ⟨familyLeft.symm.trans (equal.1.trans familyRight),
    generationLeft.symm.trans (equal.2.trans generationRight)⟩

/-- One more transaction stores known tokens, and perhaps one under the hash it generated. -/
theorem known_or_issued (token : RefreshTokenRow)
    (seen : Seen ctx start (attempts ++ [attempt]) token) :
    Known ctx start attempts token ∨
      attempt.operation.generatesToken ctx = some token.tokenHash ∧
        ∀ other, Seen ctx start (attempts ++ [attempt]) other →
          other.tokenHash = token.tokenHash → other = token ∨ Known ctx start attempts other := by
  have issue (issued : RefreshTokenRow)
      (generated : attempt.operation.generatesToken ctx = some issued.tokenHash)
      (all : ∀ row ∈ (perform ctx (afterAll ctx start attempts) attempt).2.refreshTokens,
        row = issued ∨ Continues (afterAll ctx start attempts) row)
      (stored : token ∈ (perform ctx (afterAll ctx start attempts) attempt).2.refreshTokens) :
      Known ctx start attempts token ∨
        attempt.operation.generatesToken ctx = some token.tokenHash ∧
          ∀ other, Seen ctx start (attempts ++ [attempt]) other →
            other.tokenHash = token.tokenHash → other = token ∨ Known ctx start attempts other := by
    cases all token stored with
    | inr continues => exact Or.inl continues.known
    | inl new =>
      refine Or.inr ⟨new ▸ generated, fun other otherSeen _ => ?_⟩
      cases (seen_concat ctx).mp otherSeen with
      | inl before => exact Or.inr (Known.of_seen before)
      | inr otherStored =>
        exact (all other otherStored).imp (fun same => same.trans new.symm) Continues.known
  cases (seen_concat ctx).mp seen with
  | inl before => exact Or.inl (Known.of_seen before)
  | inr stored =>
    cases chainStep_of_sessionStep (perform_step ctx (afterAll ctx start attempts) attempt) with
    | retained all => exact Or.inl (all token stored).known
    | first issued _ all _ generated _ => exact issue issued generated all stored
    | next issued parent _ _ all generated _ _ _ _ _ =>
      exact issue issued generated (fun row member => (all row member).imp_right And.left) stored

/-- In a run that generates no token twice, a hash stands for one token. -/
theorem identified_run (ctx : AppCtx) {start : Db} (empty : start.sessionFamilies = Table.empty)
    (attempts : List Attempt) (fresh : (generatedTokens ctx attempts).Nodup) :
    Identified ctx start attempts := by
  induction attempts using List.reverseRecOn with
  | nil =>
    exact ⟨fun token seen => absurd seen (not_seen_nil empty token),
      fun token _ seen => absurd seen (not_seen_nil empty token)⟩
  | append_singleton attempts attempt ih =>
    rw [generatedTokens_concat] at fresh
    have identified := ih (List.nodup_append.mp fresh).1
    refine ⟨?_, ?_⟩
    · intro token seen
      rw [generatedTokens_concat]
      cases known_or_issued token seen with
      | inl known => exact List.mem_append_left _ (identified.known_hash known)
      | inr issued => exact List.mem_append_right _ (by simp [issued.1])
    · intro left right seenLeft seenRight same
      -- a hash generated now was not known before
      have clash (new old : RefreshTokenRow)
          (generated : attempt.operation.generatesToken ctx = some new.tokenHash)
          (known : Known ctx start attempts old) (equal : old.tokenHash = new.tokenHash) : False :=
        unused_of_nodup fresh generated (equal ▸ identified.known_hash known)
      cases known_or_issued left seenLeft with
      | inl knownLeft =>
        cases known_or_issued right seenRight with
        | inl knownRight => exact identified.known_same knownLeft knownRight same
        | inr issued => exact (clash right left issued.1 knownLeft same).elim
      | inr issued =>
        cases issued.2 right seenRight same.symm with
        | inl equal => exact equal ▸ ⟨rfl, rfl⟩
        | inr knownRight => exact (clash left right issued.1 knownRight same.symm).elim

/-- The families of known tokens were generated. -/
theorem Linear.known_family (linear : Linear ctx start attempts) {token : RefreshTokenRow}
    (known : Known ctx start attempts token) : token.familyId ∈ generatedFamilies attempts := by
  obtain ⟨old, seen, _, family, _⟩ := known
  exact family ▸ linear.families old seen

/-- Known tokens of one generation of a family have one hash. -/
theorem Chain.known_single {familyId : Bytes} (chain : Chain ctx start attempts familyId)
    {left right : RefreshTokenRow} (knownLeft : Known ctx start attempts left)
    (knownRight : Known ctx start attempts right) (inFamily : left.familyId = familyId)
    (inFamilyToo : right.familyId = familyId) (generation : left.generation = right.generation) :
    left.tokenHash = right.tokenHash := by
  obtain ⟨oldLeft, seenLeft, hashLeft, familyLeft, generationLeft⟩ := knownLeft
  obtain ⟨oldRight, seenRight, hashRight, familyRight, generationRight⟩ := knownRight
  have equal := chain.single oldLeft oldRight seenLeft seenRight (familyLeft.trans inFamily)
    (familyRight.trans inFamilyToo) (generationLeft.trans (generation.trans generationRight.symm))
  exact hashLeft.symm.trans (equal.trans hashRight)

/-- One more transaction is one more rotation if it refreshes a token of the family. -/
theorem rotations_concat (ctx : AppCtx) (familyId : Bytes) (start : Db) (attempts : List Attempt)
    (attempt : Attempt) : rotations ctx familyId start (attempts ++ [attempt]) =
      rotations ctx familyId start attempts +
        (rotates ctx familyId (afterAll ctx start attempts) attempt).toNat := by
  induction attempts generalizing start with
  | nil => rw [List.nil_append, rotations, rotations, rotations, Nat.zero_add, Nat.add_zero]; rfl
  | cons first rest ih => rw [List.cons_append, rotations, rotations, ih, Nat.add_assoc]; rfl

/-- A family none of whose new tokens was issued now keeps its chain. -/
theorem Chain.retain {familyId : Bytes} (chain : Chain ctx start attempts familyId)
    (known : ∀ token, Seen ctx start (attempts ++ [attempt]) token → token.familyId = familyId →
      Known ctx start attempts token)
    (continues : ∀ token ∈ (perform ctx (afterAll ctx start attempts) attempt).2.refreshTokens,
      token.familyId = familyId → Continues (afterAll ctx start attempts) token) :
    Chain ctx start (attempts ++ [attempt]) familyId := by
  obtain ⟨count, few, issued, consumed⟩ := chain.generations
  have more := rotations_concat ctx familyId start attempts attempt
  refine ⟨fun left right seenLeft seenRight inFamily inFamilyToo => ?_, count, by omega,
    fun generation => ?_, ?_⟩
  · exact chain.known_single (known left seenLeft inFamily) (known right seenRight inFamilyToo)
      inFamily inFamilyToo
  · rw [← issued generation]
    constructor
    · intro ⟨token, seen, family, same⟩
      obtain ⟨old, before, _, oldFamily, oldGeneration⟩ := known token seen family
      exact ⟨old, before, oldFamily.trans family, oldGeneration ▸ same⟩
    · intro ⟨token, seen, rest⟩
      exact ⟨token, (seen_concat ctx).mpr (Or.inl seen), rest⟩
  · intro token stored family below
    rw [afterAll_concat] at stored
    obtain ⟨old, before, _, oldFamily, oldGeneration, stays⟩ := continues token stored family
    have spent := consumed old before (oldFamily.trans family) (oldGeneration ▸ below)
    exact fun unconsumed => spent (stays unconsumed)

/-- A step that issues one token at the end of its family's chain keeps the chain. -/
theorem chain_extend {issued : RefreshTokenRow}
    (stored : issued ∈ (perform ctx (afterAll ctx start attempts) attempt).2.refreshTokens)
    (known : ∀ token, Seen ctx start (attempts ++ [attempt]) token →
      token = issued ∨ Known ctx start attempts token)
    (single : ∀ left right, Known ctx start attempts left → Known ctx start attempts right →
      left.familyId = issued.familyId → right.familyId = issued.familyId →
        left.generation = right.generation → left.tokenHash = right.tokenHash) (count : Nat)
    (few : count ≤ rotations ctx issued.familyId start (attempts ++ [attempt]))
    (ends : ∀ generation : Int, (∃ token, Seen ctx start attempts token ∧
      token.familyId = issued.familyId ∧ token.generation.toInt = generation) ↔
        1 ≤ generation ∧ generation ≤ count)
    (follows : issued.generation.toInt = count + 1)
    (spent : ∀ token ∈ (perform ctx (afterAll ctx start attempts) attempt).2.refreshTokens,
      token ≠ issued → token.familyId = issued.familyId → token.consumedAt ≠ none) :
    Chain ctx start (attempts ++ [attempt]) issued.familyId := by
  have earlier : ∀ token, Known ctx start attempts token → token.familyId = issued.familyId →
      1 ≤ token.generation.toInt ∧ token.generation.toInt ≤ count := by
    intro token ⟨old, before, _, oldFamily, oldGeneration⟩ same
    exact oldGeneration ▸ (ends old.generation.toInt).mp ⟨old, before, oldFamily.trans same, rfl⟩
  refine ⟨?_, count + 1, by omega, fun generation => ?_, ?_⟩
  · intro left right seenLeft seenRight inFamily inFamilyToo sameGeneration
    cases known left seenLeft with
    | inl newLeft =>
      cases known right seenRight with
      | inl newRight => rw [newLeft, newRight]
      | inr before =>
        have low := earlier right before inFamilyToo
        rw [← sameGeneration, newLeft] at low
        omega
    | inr before =>
      cases known right seenRight with
      | inl newRight =>
        have low := earlier left before inFamily
        rw [sameGeneration, newRight] at low
        omega
      | inr beforeRight => exact single left right before beforeRight inFamily inFamilyToo sameGeneration
  · constructor
    · intro ⟨token, seen, inFamily, same⟩
      cases known token seen with
      | inl new =>
        rw [new] at same
        omega
      | inr before =>
        have range := earlier token before inFamily
        omega
    · intro range
      by_cases last : generation = count + 1
      · exact ⟨issued, (seen_concat ctx).mpr (Or.inr stored), rfl, follows.trans last.symm⟩
      · obtain ⟨token, seen, inFamily, same⟩ := (ends generation).mpr (by omega)
        exact ⟨token, (seen_concat ctx).mpr (Or.inl seen), inFamily, same⟩
  · intro token member inFamily below
    rw [afterAll_concat] at member
    refine spent token member (fun new => ?_) inFamily
    rw [new, follows] at below
    omega

/-- The next generation, while an `int` holds it. -/
theorem toInt_next {generation : Int32} (small : generation.toInt < 2 ^ 31 - 1) :
    (generation + 1).toInt = generation.toInt + 1 := by
  have low := generation.le_toInt
  rw [Int32.toInt_add, Int32.toInt_one]
  exact Int.bmod_eq_of_le (by omega) (by omega)

/-- A successor extends the chain of its family as long as an `int` counts the generations. -/
theorem Linear.extend (linear : Linear ctx start attempts) {issued parent : RefreshTokenRow}
    (rotated : rotates ctx issued.familyId (afterAll ctx start attempts) attempt = true)
    (stored : issued ∈ (perform ctx (afterAll ctx start attempts) attempt).2.refreshTokens)
    (all : ∀ token ∈ (perform ctx (afterAll ctx start attempts) attempt).2.refreshTokens,
      token = issued ∨ (Continues (afterAll ctx start attempts) token ∧
        (token.tokenHash = parent.tokenHash → token.consumedAt ≠ none)))
    (knownAll : ∀ token, Seen ctx start (attempts ++ [attempt]) token →
      token = issued ∨ Known ctx start attempts token)
    (known : parent ∈ (afterAll ctx start attempts).refreshTokens)
    (unconsumed : parent.consumedAt = none) (family : issued.familyId = parent.familyId)
    (generation : issued.generation = parent.generation + 1)
    (few : rotations ctx issued.familyId start (attempts ++ [attempt]) < 2 ^ 31 - 1) :
    Chain ctx start (attempts ++ [attempt]) issued.familyId := by
  have more := rotations_concat ctx issued.familyId start attempts attempt
  rw [rotated, Bool.toNat_true] at more
  have chain := linear.chains issued.familyId (by omega)
  obtain ⟨count, bound, ends, consumed⟩ := chain.generations
  have seenParent : Seen ctx start attempts parent := ⟨attempts, List.prefix_refl _, known⟩
  -- the parent is unconsumed, so it ends the chain of its family
  have last : parent.generation.toInt = count := by
    have range := (ends parent.generation.toInt).mp ⟨parent, seenParent, family.symm, rfl⟩
    have notBelow : ¬parent.generation.toInt < count := fun below =>
      consumed parent known family.symm below unconsumed
    omega
  refine chain_extend stored knownAll (fun left right knownLeft knownRight => ?_) count (by omega)
    ends ?_ ?_
  · exact chain.known_single knownLeft knownRight
  · rw [generation, toInt_next (by omega), last]
  · intro other member new same spentNot
    obtain ⟨continues, claimed⟩ := (all other member).resolve_left new
    obtain ⟨old, before, hash, oldFamily, _, stays⟩ := continues
    have sameHash := linear.lone old before parent known
      (oldFamily.trans (same.trans family)) (stays spentNot) unconsumed
    exact claimed (hash.symm.trans sameHash) spentNot

/-- A family that is generated now is new. -/
theorem Linear.new_family (linear : Linear ctx start attempts)
    (fresh : (generatedFamilies (attempts ++ [attempt])).Nodup) {familyId : Bytes}
    (generated : attempt.operation.generatesFamily = some familyId) {token : RefreshTokenRow}
    (known : Known ctx start attempts token) : token.familyId ≠ familyId := by
  intro same
  exact unused_of_nodup (generatedFamilies_concat ▸ fresh) generated
    (same ▸ linear.known_family known)

/-- Every transaction with a fresh family id leaves a family one unconsumed token. -/
theorem Linear.lone_concat (linear : Linear ctx start attempts)
    (fresh : (generatedFamilies (attempts ++ [attempt])).Nodup)
    (step : ChainStep ctx attempt.operation (afterAll ctx start attempts)
      (perform ctx (afterAll ctx start attempts) attempt).1
      (perform ctx (afterAll ctx start attempts) attempt).2) :
    ∀ left ∈ (perform ctx (afterAll ctx start attempts) attempt).2.refreshTokens,
      ∀ right ∈ (perform ctx (afterAll ctx start attempts) attempt).2.refreshTokens,
        left.familyId = right.familyId → left.consumedAt = none → right.consumedAt = none →
          left.tokenHash = right.tokenHash := by
  have both {left right : RefreshTokenRow} (before : Continues (afterAll ctx start attempts) left)
      (beforeToo : Continues (afterAll ctx start attempts) right)
      (family : left.familyId = right.familyId) (unconsumed : left.consumedAt = none)
      (unconsumedToo : right.consumedAt = none) : left.tokenHash = right.tokenHash := by
    obtain ⟨old, stored, hash, sameFamily, _, stays⟩ := before
    obtain ⟨oldToo, storedToo, hashToo, sameFamilyToo, _, staysToo⟩ := beforeToo
    rw [← hash, ← hashToo]
    exact linear.lone old stored oldToo storedToo
      (sameFamily.trans (family.trans sameFamilyToo.symm)) (stays unconsumed) (staysToo unconsumedToo)
  intro left member right memberToo family unconsumed unconsumedToo
  cases step with
  | retained all =>
    exact both (all left member) (all right memberToo) family unconsumed unconsumedToo
  | first issued stored all generated token generation =>
    have apart : ∀ other, Continues (afterAll ctx start attempts) other →
        other.familyId ≠ issued.familyId :=
      fun other continues => linear.new_family fresh generated continues.known
    rcases all left member with rfl | before <;> rcases all right memberToo with rfl | beforeToo
    · rfl
    · exact absurd family.symm (apart right beforeToo)
    · exact absurd family (apart left before)
    · exact both before beforeToo family unconsumed unconsumedToo
  | next issued parent ok stored all token presented known spare same generation =>
    -- the one token that was unconsumed is claimed
    have claims {other : RefreshTokenRow}
        (continues : Continues (afterAll ctx start attempts) other)
        (claimed : other.tokenHash = parent.tokenHash → other.consumedAt ≠ none)
        (inFamily : other.familyId = issued.familyId) : other.consumedAt ≠ none := by
      intro unspent
      have hash := both continues (continues_self known) (inFamily.trans same) unspent spare
      exact claimed hash unspent
    rcases all left member with rfl | before <;> rcases all right memberToo with rfl | beforeToo
    · rfl
    · exact absurd unconsumedToo (claims beforeToo.1 beforeToo.2 family.symm)
    · exact absurd unconsumed (claims before.1 before.2 family)
    · exact both before.1 beforeToo.1 family unconsumed unconsumedToo

/-- Every transaction with a fresh family id keeps the chains. -/
theorem Linear.concat (linear : Linear ctx start attempts)
    (fresh : (generatedFamilies (attempts ++ [attempt])).Nodup) :
    Linear ctx start (attempts ++ [attempt]) := by
  have step := chainStep_of_sessionStep (perform_step ctx (afterAll ctx start attempts) attempt)
  have lone := linear.lone_concat fresh step
  rw [← afterAll_concat] at lone
  -- a family that gets no token now keeps its chain
  have chain_retain {familyId : Bytes}
      (few : rotations ctx familyId start (attempts ++ [attempt]) < 2 ^ 31 - 1)
      (continues : ∀ token ∈ (perform ctx (afterAll ctx start attempts) attempt).2.refreshTokens,
        token.familyId = familyId → Continues (afterAll ctx start attempts) token) :
      Chain ctx start (attempts ++ [attempt]) familyId := by
    have more := rotations_concat ctx familyId start attempts attempt
    refine (linear.chains familyId (by omega)).retain (fun token seen inFamily => ?_) continues
    cases (seen_concat ctx).mp seen with
    | inl before => exact Known.of_seen before
    | inr stored => exact (continues token stored inFamily).known
  -- a family that gets one has it besides the known ones
  have known {issued : RefreshTokenRow}
      (all : ∀ token ∈ (perform ctx (afterAll ctx start attempts) attempt).2.refreshTokens,
        token = issued ∨ Continues (afterAll ctx start attempts) token) (token : RefreshTokenRow)
      (seen : Seen ctx start (attempts ++ [attempt]) token) :
      token = issued ∨ Known ctx start attempts token := by
    cases (seen_concat ctx).mp seen with
    | inl before => exact Or.inr (Known.of_seen before)
    | inr stored => exact (all token stored).imp_right Continues.known
  have families {issued : RefreshTokenRow}
      (all : ∀ token ∈ (perform ctx (afterAll ctx start attempts) attempt).2.refreshTokens,
        token = issued ∨ Continues (afterAll ctx start attempts) token)
      (generated : issued.familyId ∈ generatedFamilies (attempts ++ [attempt]))
      (token : RefreshTokenRow) (seen : Seen ctx start (attempts ++ [attempt]) token) :
      token.familyId ∈ generatedFamilies (attempts ++ [attempt]) := by
    cases known all token seen with
    | inl new => exact new ▸ generated
    | inr before =>
      rw [generatedFamilies_concat]
      exact List.mem_append_left _ (linear.known_family before)
  cases step with
  | retained all =>
    refine ⟨fun token seen => ?_, lone, fun familyId few => chain_retain few fun token stored _ =>
      all token stored⟩
    have before : Known ctx start attempts token := by
      cases (seen_concat ctx).mp seen with
      | inl before => exact Known.of_seen before
      | inr stored => exact (all token stored).known
    rw [generatedFamilies_concat]
    exact List.mem_append_left _ (linear.known_family before)
  | first issued stored all generated token generation =>
    have apart : ∀ other, Known ctx start attempts other → other.familyId ≠ issued.familyId :=
      fun other => linear.new_family fresh generated
    refine ⟨families all ?_, lone, fun familyId few => ?_⟩
    · rw [generatedFamilies_concat, generated]
      simp
    by_cases here : familyId = issued.familyId
    · rw [here]
      refine chain_extend stored (known all) ?_ 0 (Nat.zero_le _) ?_ ?_ ?_
      · intro left right knownLeft _ inFamily
        exact absurd inFamily (apart left knownLeft)
      · intro number
        constructor
        · intro ⟨other, seen, same, _⟩
          exact absurd same (apart other (Known.of_seen seen))
        · intro range
          omega
      · rw [generation]
        rfl
      · intro other member new same
        exact absurd same (apart other ((all other member).resolve_left new).known)
    · refine chain_retain few fun other member inFamily => (all other member).resolve_left fun new => ?_
      exact here (inFamily.symm.trans (new ▸ rfl))
  | next issued parent ok stored all token presented parentKnown unconsumed family generation =>
    have plain : ∀ token ∈ (perform ctx (afterAll ctx start attempts) attempt).2.refreshTokens,
        token = issued ∨ Continues (afterAll ctx start attempts) token :=
      fun other member => (all other member).imp_right And.left
    have rotated : rotates ctx issued.familyId (afterAll ctx start attempts) attempt = true := by
      unfold rotates
      rw [Bool.and_eq_true, decide_eq_true_eq, decide_eq_true_eq, Table.count_pos_iff]
      exact ⟨ok, parent, parentKnown, by simp [presented, family]⟩
    refine ⟨families plain ?_, lone, fun familyId few => ?_⟩
    · rw [generatedFamilies_concat, family]
      exact List.mem_append_left _ (linear.families parent ⟨attempts, List.prefix_refl _, parentKnown⟩)
    by_cases here : familyId = issued.familyId
    · rw [here] at few ⊢
      exact linear.extend rotated stored all (known plain) parentKnown unconsumed family generation few
    · refine chain_retain few fun other member inFamily =>
        (plain other member).resolve_left fun new => ?_
      exact here (inFamily.symm.trans (new ▸ rfl))

/-- The tokens stored in a run that generates no family twice form chains. -/
theorem linear_run (ctx : AppCtx) {start : Db} (empty : start.sessionFamilies = Table.empty)
    (attempts : List Attempt) (fresh : (generatedFamilies attempts).Nodup) :
    Linear ctx start attempts := by
  induction attempts using List.reverseRecOn with
  | nil =>
    have none : ∀ token, ¬Seen ctx start [] token := not_seen_nil empty
    have absent : ∀ token ∈ (afterAll ctx start []).refreshTokens, False :=
      fun token stored => none token ⟨[], List.prefix_refl _, stored⟩
    refine ⟨fun token seen => absurd seen (none token), fun left stored => (absent left stored).elim,
      fun familyId _ => ⟨fun left _ seen => absurd seen (none left), 0, Nat.zero_le _,
        fun generation => ?_, fun token stored => (absent token stored).elim⟩⟩
    constructor
    · intro ⟨token, seen, _⟩
      exact absurd seen (none token)
    · intro range
      omega
  | append_singleton attempts attempt ih =>
    have earlier : (generatedFamilies attempts).Nodup := by
      rw [generatedFamilies_concat] at fresh
      exact (List.nodup_append.mp fresh).1
    exact (ih earlier).concat fresh

/-- Every stored token of a hash is consumed. -/
def Spent (tokenHash : Bytes) (db : Db) : Prop :=
  ∀ token ∈ db.refreshTokens, token.tokenHash = tokenHash → token.consumedAt ≠ none

/-- A spent token stays spent unless its hash is generated again. -/
theorem Spent.step {tokenHash : Bytes} {db after : Db} {operation : Operation}
    {verdict : Option RefreshResult} (spent : Spent tokenHash db)
    (step : ChainStep ctx operation db verdict after)
    (other : operation.generatesToken ctx ≠ some tokenHash) : Spent tokenHash after := by
  have continued : ∀ token, Continues db token → token.tokenHash = tokenHash →
      token.consumedAt ≠ none := by
    intro token ⟨old, stored, hash, _, _, stays⟩ same unconsumed
    exact spent old stored (hash.trans same) (stays unconsumed)
  intro token stored same
  cases step with
  | retained all => exact continued token (all token stored) same
  | first issued _ all _ generated _ =>
    cases all token stored with
    | inl new => exact absurd (generated.trans (congrArg some (new ▸ same))) other
    | inr continues => exact continued token continues same
  | next issued parent _ _ all generated _ _ _ _ _ =>
    cases all token stored with
    | inl new => exact absurd (generated.trans (congrArg some (new ▸ same))) other
    | inr continues => exact continued token continues.1 same

/-- A hash that a run does not generate is generated neither by its first step nor by its rest. -/
theorem not_generated_cons {tokenHash : Bytes}
    (unused : tokenHash ∉ generatedTokens ctx (attempt :: attempts)) :
    attempt.operation.generatesToken ctx ≠ some tokenHash ∧
      tokenHash ∉ generatedTokens ctx attempts := by
  constructor
  · intro generated
    exact unused (List.mem_filterMap.mpr ⟨attempt, List.mem_cons_self, generated⟩)
  · intro used
    obtain ⟨later, member, generated⟩ := List.mem_filterMap.mp used
    exact unused (List.mem_filterMap.mpr ⟨later, List.mem_cons_of_mem _ member, generated⟩)

/-- A spent token stays spent along a run that does not generate its hash again. -/
theorem Spent.run {tokenHash : Bytes} {db : Db} (spent : Spent tokenHash db)
    (attempts : List Attempt) (unused : tokenHash ∉ generatedTokens ctx attempts) :
    Spent tokenHash (afterAll ctx db attempts) := by
  induction attempts generalizing db with
  | nil => exact spent
  | cons attempt attempts ih =>
    obtain ⟨other, rest⟩ := not_generated_cons unused
    exact ih (spent.step (chainStep_of_sessionStep (perform_step ctx db attempt)) other) rest

/-- A successful refresh found its token unconsumed and leaves it consumed. -/
theorem spent_of_ok {db : Db} {tokenHash : Bytes}
    (presented : attempt.operation.presents = some tokenHash)
    (ok : (perform ctx db attempt).1 = some .ok) :
    (∃ token ∈ db.refreshTokens, token.tokenHash = tokenHash ∧ token.consumedAt = none) ∧
      Spent tokenHash (perform ctx db attempt).2 := by
  have step := perform_step ctx db attempt
  rw [ok] at step
  generalize (perform ctx db attempt).2 = after at step ⊢
  cases step with
  | kept verdict after families tokens quiet => simp at quiet
  | rotated after tokenHash' newHash idleTtlS token family presented' generated stored owner
      unconsumed live families tokens =>
    have same : tokenHash' = tokenHash := Option.some.inj (presented'.symm.trans presented)
    rw [same] at stored tokens
    have found := Table.find?_eq_some_iff.mp stored
    refine ⟨⟨token, found.1, found.2, unconsumed⟩, ?_⟩
    intro other member hash
    have inserted := Table.mem_insert tokens
    cases (inserted.1 other).mp member with
    | inl old => exact (continues_consumed old).2 hash
    | inr new =>
      -- the successor's hash differs from that of every stored token
      have claimed : ∃ row ∈ (db.consumeRefreshTokens (openToken tokenHash)
          attempt.operation.now).refreshTokens, row.tokenHash = tokenHash := by
        refine ⟨_, Db.mem_consumeRefreshTokens.mpr ⟨token, found.1, rfl⟩, ?_⟩
        split
        · exact found.2
        · exact found.2
      obtain ⟨row, kept, rowHash⟩ := claimed
      exact absurd (rowHash.trans (hash.symm.trans (new ▸ rfl))) (inserted.2 row kept)

end Chains

/-- After some transactions, another one presents a token and its refresh succeeds. -/
def RefreshesAfter (ctx : AppCtx) (start : Db) (before : List Attempt) (attempt : Attempt)
    (tokenHash : Bytes) : Prop :=
  attempt.operation.presents = some tokenHash ∧
    (perform ctx (afterAll ctx start before) attempt).1 = some .ok

/-- In every run of login, refresh, logout, password-change and sweep transactions with fresh values,
each family has at most one unconsumed token, its generations are one to some count with all below
the count consumed as long as an `int` counts them, and no token is refreshed twice. -/
theorem rotation_is_linear (ctx : AppCtx) (start : Db) (attempts : List Attempt)
    (empty : start.sessionFamilies = Table.empty) (fresh : Fresh ctx attempts) :
    (∀ left ∈ (afterAll ctx start attempts).refreshTokens,
      ∀ right ∈ (afterAll ctx start attempts).refreshTokens, left.familyId = right.familyId →
        left.consumedAt = none → right.consumedAt = none → left = right) ∧
    (∀ familyId, rotations ctx familyId start attempts < 2 ^ 31 - 1 →
      ∃ count, Numbered ctx start attempts familyId count) ∧
    ∀ before first between second rest tokenHash,
      attempts = (before ++ [first] ++ between) ++ second :: rest →
        RefreshesAfter ctx start before first tokenHash →
          ¬RefreshesAfter ctx start (before ++ [first] ++ between) second tokenHash := by
  have linear := linear_run ctx empty attempts fresh.families
  refine ⟨?_, ?_, ?_⟩
  · intro left storedLeft right storedRight family unconsumedLeft unconsumedRight
    exact Table.eq_of_key storedLeft storedRight
      (linear.lone left storedLeft right storedRight family unconsumedLeft unconsumedRight)
  · intro familyId few
    obtain ⟨count, _, numbered⟩ := (linear.chains familyId few).generations
    exact ⟨count, numbered⟩
  · intro before first between second rest tokenHash split once twice
    have tokens := fresh.tokens
    rw [split] at tokens
    simp only [generatedTokens_append, List.append_assoc] at tokens
    obtain ⟨⟨token, stored, hash, _⟩, spent⟩ := spent_of_ok once.1 once.2
    -- the token was generated before its first refresh, so nothing in between generates it
    have generated : tokenHash ∈ generatedTokens ctx before := by
      rw [← hash]
      exact (identified_run ctx empty before (List.nodup_append.mp tokens).1).hashes token
        ⟨before, List.prefix_refl _, stored⟩
    have unused : tokenHash ∉ generatedTokens ctx between := fun again =>
      (List.nodup_append.mp tokens).2.2 tokenHash generated tokenHash
        (List.mem_append_right _ (List.mem_append_left _ again)) rfl
    rw [← afterAll_concat] at spent
    have stays := spent.run between unused
    rw [← afterAll_append] at stays
    obtain ⟨⟨later, laterStored, laterHash, unconsumed⟩, _⟩ := spent_of_ok twice.1 twice.2
    exact stays later laterStored laterHash unconsumed

/-- A login, a rotation, and the replay of the first token. -/
def replayRun : List Attempt :=
  [⟨.login (Deployment.env 2000 1 1) 1, []⟩,
    ⟨.refresh (Deployment.env 3000 2 2) (Deployment.crypto.sha256 (Deployment.rawToken 1).bytes), []⟩,
    ⟨.refresh (Deployment.env 4000 3 2) (Deployment.crypto.sha256 (Deployment.rawToken 1).bytes), []⟩]

/-- The replayed token is refreshed once and its family has two generations. -/
theorem rotation_is_linear_on_replay :
    Fresh Deployment.ctx replayRun ∧
      RefreshesAfter Deployment.ctx (Deployment.database .active) (replayRun.take 1)
        (replayRun.getD 1 ⟨.refresh (Deployment.env 0 1 1) [], []⟩)
        (Deployment.crypto.sha256 (Deployment.rawToken 1).bytes) ∧
      ¬RefreshesAfter Deployment.ctx (Deployment.database .active) (replayRun.take 2)
        (replayRun.getD 2 ⟨.refresh (Deployment.env 0 1 1) [], []⟩)
        (Deployment.crypto.sha256 (Deployment.rawToken 1).bytes) := by
  have fresh : Fresh Deployment.ctx replayRun := ⟨by decide +kernel, by decide +kernel⟩
  have once : RefreshesAfter Deployment.ctx (Deployment.database .active) (replayRun.take 1)
      (replayRun.getD 1 ⟨.refresh (Deployment.env 0 1 1) [], []⟩)
      (Deployment.crypto.sha256 (Deployment.rawToken 1).bytes) := ⟨rfl, by decide +kernel⟩
  exact ⟨fresh, once, (rotation_is_linear Deployment.ctx (Deployment.database .active) replayRun rfl
    fresh).2.2 (replayRun.take 1) _ [] _ [] _ rfl once⟩

end PlatformService.Verif.Rotation
