import PlatformService.Verif.Rotation

/-!
# Reuse detection ends a family

Once a consumed token has been presented again, no token of its family is ever
refreshed, although sweeps may delete the rows on which the detection rests. The
invariant of a single token is that, while it is stored, its family is stored as
revoked: revoked families stay as they are, a deleted family takes its tokens
with it, and a stored family keeps its id from being opened again.
-/

namespace PlatformService.Verif.Reuse

open Lib Store Crypto Session SessionStore Api Rotation

/-- Every revocation carries a positive time. -/
def TimesPositive (db : Db) : Prop :=
  ∀ family ∈ db.sessionFamilies, ∀ time, family.revokedAt = some time → 0 < time

/-- A token that cannot be refreshed: while it is stored, it belongs to a family that is revoked. -/
def Blocked (tokenHash familyId : Bytes) (db : Db) : Prop :=
  ∀ token ∈ db.refreshTokens, token.tokenHash = tokenHash → token.familyId = familyId ∧
    ∀ family ∈ db.sessionFamilies, family.familyId = familyId → nullAsZero family.revokedAt ≠ 0

/-- What a transaction does to the families. -/
inductive FamilyStep (operation : Operation) (db after : Db) : Prop where
  /-- It keeps, revokes or deletes families; a revoked one is kept or deleted. -/
  | fewer (all : ∀ family ∈ after.sessionFamilies, ∃ old ∈ db.sessionFamilies,
      old.familyId = family.familyId ∧ (family = old ∨
        old.revokedAt = none ∧ family.revokedAt = some operation.now))
  /-- It opens one family under an id that is not stored. -/
  | opened (new : SessionFamilyRow) (live : new.revokedAt = none)
    (all : ∀ family ∈ after.sessionFamilies, family ∈ db.sessionFamilies ∨ family = new)
    (unused : ∀ family ∈ db.sessionFamilies, family.familyId ≠ new.familyId)

/-- Families that stay as they are. -/
theorem FamilyStep.same {operation : Operation} {db after : Db}
    (families : after.sessionFamilies = db.sessionFamilies) : FamilyStep operation db after :=
  .fewer fun family stored => ⟨family, families ▸ stored, rfl, Or.inl rfl⟩

/-- An update that revokes live families only. -/
theorem FamilyStep.revoked {operation : Operation} {db after : Db}
    {selected : SessionFamilyRow → Bool} {cause : RevokeCause}
    (onlyLive : ∀ family, selected family = true → family.revokedAt = none)
    (families : after.sessionFamilies =
      (db.revokeFamilies selected operation.now cause).sessionFamilies) :
    FamilyStep operation db after := by
  refine .fewer fun family stored => ?_
  rw [families] at stored
  obtain ⟨old, member, rfl⟩ := Db.mem_revokeFamilies.mp stored
  by_cases chosen : selected old = true
  · rw [if_pos chosen]
    exact ⟨old, member, rfl, Or.inr ⟨onlyLive old chosen, rfl⟩⟩
  · rw [if_neg chosen]
    exact ⟨old, member, rfl, Or.inl rfl⟩

/-- The condition of a revocation by id selects live families only. -/
theorem revokedAt_of_liveFamily {familyId : Bytes} (family : SessionFamilyRow)
    (selected : liveFamily familyId family = true) : family.revokedAt = none := by
  simp only [liveFamily, Bool.and_eq_true, Option.isNone_iff_eq_none] at selected
  exact selected.2

/-- Every transaction is a step of the families. -/
theorem familyStep_of_sessionStep {reliable : Prop} {ctx : AppCtx} {operation : Operation}
    {db after : Db} {verdict : Option RefreshResult}
    (step : SessionStep reliable ctx operation db verdict after) :
    FamilyStep operation db after := by
  cases step with
  | kept verdict after families tokens quiet => exact .same families
  | opened after familyId tokenHash userId absoluteTtlS idleTtlS familyGenerated tokenGenerated
      families tokens =>
    have inserted := Table.mem_insert families
    exact .opened _ rfl (fun family stored => (inserted.1 family).mp stored) inserted.2
  | claimed after tokenHash presented families tokens => exact .same families
  | rotated after tokenHash newHash idleTtlS token family presented generated stored owner unconsumed
      live families tokens => exact .same families
  | detected after tokenHash token presented stored consumed families tokens =>
    cases families with
    | inl revoked => exact .revoked revokedAt_of_liveFamily revoked
    | inr unnoticed => exact .same unnoticed.2
  | revoked after selected cause onlyLive families tokens => exact .revoked onlyLive families
  | sweptTokens after selected families tokens => exact .same families
  | sweptFamilies after selected families tokens =>
    refine .fewer fun family stored => ?_
    rw [families] at stored
    exact ⟨family, (Table.mem_delete.mp stored).1, rfl, Or.inl rfl⟩

/-- Transactions at positive times write positive times. -/
theorem TimesPositive.step {operation : Operation} {db after : Db} (positive : TimesPositive db)
    (later : 0 < operation.now) (step : FamilyStep operation db after) : TimesPositive after := by
  intro family stored time revoked
  cases step with
  | fewer all =>
    obtain ⟨old, member, _, change⟩ := all family stored
    cases change with
    | inl same => exact positive old member time (same ▸ revoked)
    | inr now =>
      rw [now.2] at revoked
      exact Option.some.inj revoked ▸ later
  | opened new live all unused =>
    cases all family stored with
    | inl old => exact positive family old time revoked
    | inr same =>
      rw [same, live] at revoked
      contradiction

/-- A blocked token stays blocked unless its hash is generated again. -/
theorem Blocked.step {ctx : AppCtx} {operation : Operation} {tokenHash familyId : Bytes}
    {db after : Db} (blocked : Blocked tokenHash familyId db)
    {verdict : Option RefreshResult} (chain : ChainStep ctx operation db verdict after)
    (families : FamilyStep operation db after)
    (other : operation.generatesToken ctx ≠ some tokenHash) :
    Blocked tokenHash familyId after := by
  intro token stored hash
  have continues : Continues db token := by
    cases chain with
    | retained all => exact all token stored
    | first issued _ all _ generated _ =>
      exact (all token stored).resolve_left fun new =>
        other (generated.trans (congrArg some (new ▸ hash)))
    | next issued parent _ _ all generated _ _ _ _ _ =>
      exact ((all token stored).resolve_left fun new =>
        other (generated.trans (congrArg some (new ▸ hash)))).1
  obtain ⟨old, member, oldHash, oldFamily, _, _⟩ := continues
  obtain ⟨inFamily, revoked⟩ := blocked old member (oldHash.trans hash)
  refine ⟨oldFamily.symm.trans inFamily, fun family present same => ?_⟩
  cases families with
  | fewer all =>
    obtain ⟨before, known, id, change⟩ := all family present
    have dead := revoked before known (id.trans same)
    cases change with
    | inl unchanged => exact unchanged ▸ dead
    | inr live => exact absurd (by rw [live.1]; rfl) dead
  | opened new live all unused =>
    cases all family present with
    | inl known => exact revoked family known same
    | inr opened =>
      -- the stored token keeps its family stored, so the id cannot be opened again
      obtain ⟨owner, ownerStored, ownerId⟩ := db.tokenFamilies old member
      exact absurd (ownerId.trans (inFamily.trans (same.symm.trans (opened ▸ rfl))))
        (unused owner ownerStored)

/-- A blocked token is not refreshed. -/
theorem Blocked.not_ok {ctx : AppCtx} {attempt : Attempt} {tokenHash familyId : Bytes} {db : Db}
    (blocked : Blocked tokenHash familyId db)
    (presented : attempt.operation.presents = some tokenHash) :
    (perform ctx db attempt).1 ≠ some .ok := by
  intro ok
  have step := perform_step ctx db attempt
  rw [ok] at step
  generalize (perform ctx db attempt).2 = after at step
  cases step with
  | kept verdict after families tokens quiet => simp at quiet
  | rotated after tokenHash' newHash idleTtlS token family presented' generated stored owner
      unconsumed live families tokens =>
    have same : tokenHash' = tokenHash := Option.some.inj (presented'.symm.trans presented)
    rw [same] at stored
    obtain ⟨member, hash⟩ := Table.find?_eq_some_iff.mp stored
    obtain ⟨ownerStored, ownerId⟩ := Table.find?_eq_some_iff.mp owner
    obtain ⟨inFamily, revoked⟩ := blocked token member hash
    exact revoked family ownerStored (ownerId.trans inFamily) live

section Runs

variable {ctx : AppCtx} {start : Db}

/-- Every state of a run at positive times has positive revocation times. -/
theorem timesPositive_run {attempts : List Attempt} {db : Db} (positive : TimesPositive db)
    (times : ∀ attempt ∈ attempts, 0 < attempt.operation.now) :
    TimesPositive (afterAll ctx db attempts) := by
  induction attempts generalizing db with
  | nil => exact positive
  | cons attempt attempts ih =>
    have step := familyStep_of_sessionStep (perform_step ctx db attempt)
    exact ih (positive.step (times attempt List.mem_cons_self) step)
      fun later member => times later (List.mem_cons_of_mem _ member)

/-- A blocked token stays blocked along a run that does not generate its hash again. -/
theorem blocked_run {attempts : List Attempt} {db : Db} {tokenHash familyId : Bytes}
    (blocked : Blocked tokenHash familyId db) (unused : tokenHash ∉ generatedTokens ctx attempts) :
    Blocked tokenHash familyId (afterAll ctx db attempts) := by
  induction attempts generalizing db with
  | nil => exact blocked
  | cons attempt attempts ih =>
    obtain ⟨other, rest⟩ := not_generated_cons unused
    have step := perform_step ctx db attempt
    exact ih (blocked.step (chainStep_of_sessionStep step) (familyStep_of_sessionStep step) other)
      rest

/-- After some transactions, a transaction presents a stored token and is told that it was consumed. -/
structure DetectsAfter (ctx : AppCtx) (start : Db) (before : List Attempt) (detect : Attempt)
    (token : RefreshTokenRow) : Prop where
  presented : detect.operation.presents = some token.tokenHash
  stored : token ∈ (afterAll ctx start before).refreshTokens
  verdict : (perform ctx (afterAll ctx start before) detect).1 = some .reuseDetected

/-- A detection without faults revokes the family of its token if it is live, and does nothing else
to the session tables. -/
theorem DetectsAfter.leaves {before : List Attempt} {detect : Attempt} {token : RefreshTokenRow}
    (detects : DetectsAfter ctx start before detect token) (sound : detect.faults = []) :
    (afterAll ctx start (before ++ [detect])).refreshTokens =
        (afterAll ctx start before).refreshTokens ∧
      (afterAll ctx start (before ++ [detect])).sessionFamilies =
        ((afterAll ctx start before).revokeFamilies (liveFamily token.familyId) detect.operation.now
          .reuseDetected).sessionFamilies := by
  obtain ⟨presented, stored, verdict⟩ := detects
  have step := perform_step ctx (afterAll ctx start before) detect
  rw [verdict] at step
  rw [afterAll_concat]
  generalize (perform ctx (afterAll ctx start before) detect).2 = after at step ⊢
  cases step with
  | kept verdict after families tokens quiet => simp at quiet
  | detected after tokenHash found presented' foundStored consumed families tokens =>
    have same : tokenHash = token.tokenHash := Option.some.inj (presented'.symm.trans presented)
    obtain ⟨member, hash⟩ := Table.find?_eq_some_iff.mp foundStored
    have token_eq : found = token := Table.eq_of_key member stored (hash.trans same)
    rw [token_eq] at families
    exact ⟨tokens, families.resolve_right fun unnoticed => unnoticed.1 sound⟩

/-- A detection blocks every token of its family stored so far. -/
theorem DetectsAfter.blocks {before : List Attempt} {detect : Attempt}
    {replayed token : RefreshTokenRow} (detects : DetectsAfter ctx start before detect replayed)
    (sound : detect.faults = []) (positive : TimesPositive (afterAll ctx start before))
    (later : 0 < detect.operation.now) (identified : Identified ctx start (before ++ [detect]))
    (seen : Seen ctx start (before ++ [detect]) token)
    (family : token.familyId = replayed.familyId) :
    Blocked token.tokenHash replayed.familyId (afterAll ctx start (before ++ [detect])) := by
  obtain ⟨_, families⟩ := detects.leaves sound
  intro other stored hash
  have known : Seen ctx start (before ++ [detect]) other := ⟨_, List.prefix_refl _, stored⟩
  refine ⟨(identified.same other token known seen hash).1.trans family, fun row present same => ?_⟩
  rw [families] at present
  obtain ⟨old, member, rfl⟩ := Db.mem_revokeFamilies.mp present
  by_cases chosen : liveFamily replayed.familyId old = true
  · rw [if_pos chosen]
    exact ne_of_gt later
  · rw [if_neg chosen] at same ⊢
    cases revocation : old.revokedAt with
    | none => exact absurd (by simp [liveFamily, same, revocation]) chosen
    | some time => exact ne_of_gt (positive old member time revocation)

/-- A revoked family is kept by every transaction that leaves its id stored. -/
theorem revoked_kept {operation : Operation} {db after : Db} {family : SessionFamilyRow}
    (stored : family ∈ db.sessionFamilies) (revoked : family.revokedAt ≠ none)
    (step : FamilyStep operation db after)
    (present : ∃ row ∈ after.sessionFamilies, row.familyId = family.familyId) :
    family ∈ after.sessionFamilies := by
  obtain ⟨row, member, same⟩ := present
  cases step with
  | fewer all =>
    obtain ⟨old, known, id, change⟩ := all row member
    have old_eq : old = family := Table.eq_of_key known stored (id.trans same)
    cases change with
    | inl unchanged => exact old_eq ▸ unchanged ▸ member
    | inr live => exact absurd (old_eq ▸ live.1) revoked
  | opened new live all unused =>
    cases all row member with
    | inl known => exact Table.eq_of_key known stored same ▸ member
    | inr opened => exact absurd (same.symm.trans (opened ▸ rfl)) (unused family stored)

/-- A revoked family is kept along a run as long as its id stays stored. -/
theorem revoked_kept_run {before between : List Attempt} {family : SessionFamilyRow}
    (stored : family ∈ (afterAll ctx start before).sessionFamilies)
    (revoked : family.revokedAt ≠ none)
    (present : ∀ part, part <+: between → ∃ row ∈ (afterAll ctx start (before ++ part)).sessionFamilies,
      row.familyId = family.familyId) :
    family ∈ (afterAll ctx start (before ++ between)).sessionFamilies := by
  induction between using List.reverseRecOn with
  | nil =>
    rw [List.append_nil]
    exact stored
  | append_singleton between attempt ih =>
    have earlier := ih fun part prior => present part (prior.trans (List.prefix_append _ _))
    have last := present (between ++ [attempt]) (List.prefix_refl _)
    rw [← List.append_assoc, afterAll_concat] at last ⊢
    exact revoked_kept earlier revoked (familyStep_of_sessionStep (perform_step ctx _ attempt)) last

end Runs

/-- In every run of session transactions without SQL failure, at positive times and with fresh
tokens: after a detected reuse no token of the family is ever refreshed, a revocation never changes
while its row exists, and a detection leaves all other families and their tokens alone. -/
theorem reuse_detection_is_final (ctx : AppCtx) (start : Db) (attempts : List Attempt)
    (empty : start.sessionFamilies = Table.empty) (sound : ∀ attempt ∈ attempts, attempt.faults = [])
    (times : ∀ attempt ∈ attempts, 0 < attempt.operation.now)
    (fresh : (generatedTokens ctx attempts).Nodup) :
    (∀ before detect between later rest replayed token,
      attempts = (before ++ [detect] ++ between) ++ later :: rest →
        DetectsAfter ctx start before detect replayed →
        Seen ctx start (before ++ [detect]) token → token.familyId = replayed.familyId →
        later.operation.presents = some token.tokenHash →
        (perform ctx (afterAll ctx start (before ++ [detect] ++ between)) later).1 ≠ some .ok) ∧
    (∀ before between rest family, attempts = before ++ between ++ rest →
      family ∈ (afterAll ctx start before).sessionFamilies → family.revokedAt ≠ none →
      (∀ part, part <+: between →
        ∃ row ∈ (afterAll ctx start (before ++ part)).sessionFamilies,
          row.familyId = family.familyId) →
      ∀ row ∈ (afterAll ctx start (before ++ between)).sessionFamilies,
        row.familyId = family.familyId →
          row.revokedAt = family.revokedAt ∧ row.revokeCause = family.revokeCause) ∧
    ∀ before detect rest replayed, attempts = before ++ detect :: rest →
      DetectsAfter ctx start before detect replayed →
      (∀ family : SessionFamilyRow, family.familyId ≠ replayed.familyId →
        (family ∈ (afterAll ctx start (before ++ [detect])).sessionFamilies ↔
          family ∈ (afterAll ctx start before).sessionFamilies)) ∧
      ∀ token : RefreshTokenRow, token.familyId ≠ replayed.familyId →
        (token ∈ (afterAll ctx start (before ++ [detect])).refreshTokens ↔
          token ∈ (afterAll ctx start before).refreshTokens) := by
  have positiveStart : TimesPositive start := by
    intro family stored
    rw [empty] at stored
    exact absurd stored (Table.not_mem_empty _)
  refine ⟨?_, ?_, ?_⟩
  · intro before detect between later rest replayed token split detects seen family presented
    rw [split] at sound times fresh
    have member : detect ∈ (before ++ [detect] ++ between) ++ later :: rest := by simp
    rw [generatedTokens_append, generatedTokens_append] at fresh
    have early := (List.nodup_append.mp fresh).1
    have identified := identified_run ctx empty (before ++ [detect]) (List.nodup_append.mp early).1
    have positive : TimesPositive (afterAll ctx start before) :=
      timesPositive_run positiveStart fun attempt earlier => times attempt (by simp [earlier])
    have blocked := detects.blocks (sound detect member) positive (times detect member) identified
      seen family
    have unused : token.tokenHash ∉ generatedTokens ctx between := fun again =>
      (List.nodup_append.mp early).2.2 _ (identified.hashes token seen) _ again rfl
    have stays := blocked_run blocked unused
    rw [← afterAll_append] at stays
    exact stays.not_ok presented
  · intro before between rest family _ stored revoked present row member same
    have kept := revoked_kept_run stored revoked present
    rw [Table.eq_of_key member kept same]
    exact ⟨rfl, rfl⟩
  · intro before detect rest replayed split detects
    have member : detect ∈ attempts := by simp [split]
    obtain ⟨tokens, families⟩ := detects.leaves (sound detect member)
    refine ⟨fun family other => ?_, fun token _ => by rw [tokens]⟩
    rw [families, Db.mem_revokeFamilies]
    have unselected (row : SessionFamilyRow) (id : row.familyId ≠ replayed.familyId) :
        ¬liveFamily replayed.familyId row = true := by simp [liveFamily, id]
    constructor
    · intro selected
      obtain ⟨old, known, change⟩ := selected
      by_cases chosen : liveFamily replayed.familyId old = true
      · rw [if_pos chosen] at change
        exact absurd chosen (unselected old (by rw [change] at other; exact other))
      · rw [if_neg chosen] at change
        exact change ▸ known
    · intro known
      exact ⟨family, known, (if_neg (unselected family other)).symm⟩

/-- The first token of the replay as it stands when it is replayed. -/
def replayedToken : RefreshTokenRow where
  tokenHash := Deployment.crypto.sha256 (Deployment.rawToken 1).bytes
  familyId := (Deployment.sixteen 1).bytes
  generation := 1
  idleExp := 2594000
  consumedAt := some 3000
  issuedAt := 2000

/-- The successor of the replayed token is presented last. -/
def successorRun : List Attempt :=
  replayRun ++ [⟨.refresh (Deployment.env 5000 4 2)
    (Deployment.crypto.sha256 (Deployment.rawToken 2).bytes), []⟩]

/-- After the replay of the first token its successor is refused. -/
theorem reuse_detection_is_final_on_replay :
    DetectsAfter Deployment.ctx (Deployment.database .active) (successorRun.take 2)
        (successorRun.getD 2 ⟨.refresh (Deployment.env 0 1 1) [], []⟩) replayedToken ∧
      (perform Deployment.ctx
        (afterAll Deployment.ctx (Deployment.database .active) (successorRun.take 3))
        (successorRun.getD 3 ⟨.refresh (Deployment.env 0 1 1) [], []⟩)).1 ≠ some .ok := by
  have detects : DetectsAfter Deployment.ctx (Deployment.database .active) (successorRun.take 2)
      (successorRun.getD 2 ⟨.refresh (Deployment.env 0 1 1) [], []⟩) replayedToken :=
    ⟨rfl, by decide +kernel, by decide +kernel⟩
  have successorSeen : Seen Deployment.ctx (Deployment.database .active) (successorRun.take 3)
      ⟨Deployment.crypto.sha256 (Deployment.rawToken 2).bytes, (Deployment.sixteen 1).bytes, 2,
        2595000, none, 3000⟩ := ⟨successorRun.take 2, ⟨(successorRun.drop 2).take 1, rfl⟩, by decide +kernel⟩
  refine ⟨detects, ?_⟩
  exact (reuse_detection_is_final Deployment.ctx (Deployment.database .active) successorRun rfl
    (by decide +kernel) (by decide +kernel) (by decide +kernel)).1 (successorRun.take 2) _ [] _ [] _
    _ rfl detects successorSeen rfl rfl

end PlatformService.Verif.Reuse
