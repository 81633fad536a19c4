import PlatformService.Verif.Issuance
import PlatformService.Verif.Rotation

/-!
# Where generations stop to count

Nothing limits how often a family is refreshed while it lives, and the generation of a successor is
an `int` sum. A run in which every refresh presents the latest token goes past the last number of
an `int`, and then issues a token whose generation is negative.
-/

namespace PlatformService.Verif.RotationLimit

open Lib Store Crypto Session Api SessionStore Rotation Issuance

section Transactions

variable {ctx : AppCtx} {env : Env} {db : Db}

/-- A transaction of a refresh rotates what is rotatable, when nothing fails. -/
theorem perform_refresh {tokenHash : Bytes} {token : RefreshTokenRow} {family : SessionFamilyRow}
    {raw : Drawn 32} (rotatable : Rotatable ctx env tokenHash db token family raw) :
    (perform ctx db ⟨.refresh env tokenHash, []⟩).2.sessionFamilies = db.sessionFamilies ∧
      (db.consumeRefreshTokens (openToken tokenHash) env.now).refreshTokens.insert
        (successor (ctx.crypto.sha256 raw.bytes) ctx.config.refreshIdleTtlS env.now token) =
          some (perform ctx db ⟨.refresh env tokenHash, []⟩).2.refreshTokens := by
  have written := (refresh_written_sure trivial rotatable).and
    (refresh_write_spec ctx env tokenHash db)
  have rotates : Sql.Leaves True (Operation.sql ctx (.refresh env tokenHash)) db fun _ after =>
      after.sessionFamilies = db.sessionFamilies ∧
        (db.consumeRefreshTokens (openToken tokenHash) env.now).refreshTokens.insert
          (successor (ctx.crypto.sha256 raw.bytes) ctx.config.refreshIdleTtlS env.now token) =
            some after.refreshTokens := by
    apply written.andReturn
    intro result after left
    refine ⟨_, rfl, ?_⟩
    match result with
    | .error reason => exact absurd trivial left.1.1
    | .ok (verdict, refreshed) =>
      obtain ⟨ok, fine, seen, rfl, step⟩ := left
      generalize same : (verdict, refreshed) = outcome at step
      cases step with
      | rotated token' family' raw' stored owner unconsumed live inTime notIdle drawn after issued =>
        have sameToken : token' = token := Option.some.inj (stored.symm.trans rotatable.stored)
        have sameRaw : raw' = raw := Option.some.inj (drawn.symm.trans rotatable.drawn)
        rw [sameToken, sameRaw] at issued
        have inserted := Db.insertRefreshToken_eq_some issued
        exact ⟨inserted.2.2, inserted.1⟩
      | _ =>
        cases same
        contradiction
  exact (rotates [] fun _ => rfl).1

end Transactions

/-- A token that a number stands for. -/
def numbered (number : Nat) : Drawn 32 :=
  ⟨Deployment.octets 32 number, by simp [Deployment.octets]⟩

/-- Numbers below 2^32 stand for different tokens. -/
theorem numbered_inj {left right : Nat} (leftSmall : left < 2 ^ 32) (rightSmall : right < 2 ^ 32)
    (same : (numbered left).bytes = (numbered right).bytes) : left = right := by
  have digits : Deployment.octets 32 left = Deployment.octets 32 right := same
  have octet (i : Nat) (below : i < 32) : left / 256 ^ i % 256 = right / 256 ^ i % 256 := by
    have equal := List.map_inj_left.mp digits i (by simpa using below)
    simpa using congrArg UInt8.toNat equal
  have first := octet 0 (by decide)
  have second := octet 1 (by decide)
  have third := octet 2 (by decide)
  have fourth := octet 3 (by decide)
  omega

/-- The deployment with a stand-in for SHA-256 that has no collisions at all. -/
def ctx : AppCtx := ⟨{ Deployment.primitives with sha256 := id }, Deployment.config, none⟩

/-- The surroundings of the transaction that draws the token of a number. -/
def env (number : Nat) : Env :=
  { Deployment.env 2000 1 1 with rawToken := some (numbered number) }

/-- A refresh presents the token of a number and draws the next one. -/
def refreshOf (number : Nat) : Attempt := ⟨.refresh (env (number + 1)) (numbered number).bytes, []⟩

/-- A login of the account, and refreshes that each present the latest token. -/
def marathon (refreshes : Nat) : List Attempt :=
  ⟨.login (env 0) 1, []⟩ :: (List.range refreshes).map refreshOf

/-- The database before the run. -/
def start : Db := Deployment.populated .active

/-- The family of the run. -/
def familyRow : SessionFamilyRow := newFamily (Deployment.sixteen 1).bytes 1 7776000 2000

/-- The token of a number, as it is issued. -/
def tokenOf (number : Nat) : RefreshTokenRow :=
  { firstToken (numbered number).bytes familyRow.familyId 2592000 2000 with
    generation := Int32.ofNat (number + 1) }

/-- The token of a number is the latest one of the live family. -/
structure Latest (number : Nat) (db : Db) : Prop where
  token : db.refreshTokens.find? (numbered number).bytes = some (tokenOf number)
  family : db.sessionFamilies.find? familyRow.familyId = some familyRow
  earlier : ∀ token ∈ db.refreshTokens, ∃ earlier ≤ number, token.tokenHash = (numbered earlier).bytes

/-- One more refresh. -/
theorem marathon_succ (refreshes : Nat) :
    marathon (refreshes + 1) = marathon refreshes ++ [refreshOf refreshes] := by
  unfold marathon
  rw [List.range_succ, List.map_append]
  rfl

/-- The login issues the first token. -/
theorem latest_login : Latest 0 (afterAll ctx start (marathon 0)) where
  token := by decide +kernel
  family := by decide +kernel
  earlier := by
    have rows : (afterAll ctx start (marathon 0)).refreshTokens.rows = [tokenOf 0] := by
      decide +kernel
    intro token stored
    have same : token = tokenOf 0 := by
      have member : token ∈ (afterAll ctx start (marathon 0)).refreshTokens.rows := stored
      rw [rows] at member
      exact List.mem_singleton.mp member
    exact ⟨0, Nat.le_refl 0, same ▸ rfl⟩

/-- The latest token can be refreshed. -/
theorem Latest.rotatable {number : Nat} {db : Db} (latest : Latest number db)
    (small : number + 1 < 2 ^ 32) :
    Rotatable ctx (env (number + 1)) (numbered number).bytes db (tokenOf number) familyRow
      (numbered (number + 1)) where
  stored := latest.token
  owner := latest.family
  unconsumed := rfl
  live := rfl
  inTime := (by decide : (2000 : Int) ≤ 2000 + 7776000)
  notIdle := (by decide : (2000 : Int) ≤ 2000 + 2592000)
  drawn := rfl
  fresh := by
    apply Table.find?_eq_none_iff.mpr
    intro token stored same
    obtain ⟨earlier, before, hash⟩ := latest.earlier token stored
    have equal : earlier = number + 1 := numbered_inj (by omega) small (hash.symm.trans same)
    omega

/-- The successor of the latest token is the latest one. -/
theorem Latest.refresh {number : Nat} {db : Db} (latest : Latest number db)
    (small : number + 1 < 2 ^ 32) : Latest (number + 1) (perform ctx db (refreshOf number)).2 := by
  obtain ⟨families, inserted⟩ := perform_refresh (latest.rotatable small)
  have issued : successor (ctx.crypto.sha256 (numbered (number + 1)).bytes)
      ctx.config.refreshIdleTtlS (env (number + 1)).now (tokenOf number) = tokenOf (number + 1) := by
    unfold tokenOf successor
    rw [Int32.ofNat_add (number + 1) 1]
    rfl
  rw [issued] at inserted
  refine ⟨?_, ?_, ?_⟩
  · exact (Table.find?_insert inserted _).trans (if_pos rfl)
  · exact (congrArg (fun families => families.find? familyRow.familyId) families).trans latest.family
  · intro token stored
    cases ((Table.mem_insert inserted).1 token).mp stored with
    | inl old =>
      obtain ⟨before, member, hash, -⟩ := (continues_consumed old).1
      obtain ⟨earlier, below, known⟩ := latest.earlier before member
      exact ⟨earlier, Nat.le_succ_of_le below, hash.symm.trans known⟩
    | inr new => exact ⟨number + 1, Nat.le_refl _, new ▸ rfl⟩

/-- Every refresh of the run succeeds. -/
theorem latest_run (refreshes : Nat) (small : refreshes < 2 ^ 32) :
    Latest refreshes (afterAll ctx start (marathon refreshes)) := by
  induction refreshes with
  | zero => exact latest_login
  | succ refreshes ih =>
    rw [marathon_succ, afterAll_concat]
    exact (ih (by omega)).refresh small

/-- The tokens that the run generates. -/
theorem generatedTokens_marathon (refreshes : Nat) :
    generatedTokens ctx (marathon refreshes) =
      (List.range (refreshes + 1)).map fun number => (numbered number).bytes := by
  induction refreshes with
  | zero => rfl
  | succ refreshes ih =>
    have more : List.range (refreshes + 1 + 1) = List.range (refreshes + 1) ++ [refreshes + 1] :=
      List.range_succ
    rw [marathon_succ, generatedTokens_concat, ih, more, List.map_append]
    rfl

/-- The run generates one family. -/
theorem generatedFamilies_marathon (refreshes : Nat) :
    generatedFamilies (marathon refreshes) = [familyRow.familyId] := by
  induction refreshes with
  | zero => rfl
  | succ refreshes ih =>
    rw [marathon_succ, generatedFamilies_concat, ih]
    rfl

/-- The run generates nothing twice. -/
theorem fresh_marathon (refreshes : Nat) (small : refreshes < 2 ^ 32) :
    Fresh ctx (marathon refreshes) := by
  refine ⟨?_, ?_⟩
  · rw [generatedTokens_marathon]
    refine List.Nodup.map_on (fun left leftBelow right rightBelow same => ?_) List.nodup_range
    exact numbered_inj (by have := List.mem_range.mp leftBelow; omega)
      (by have := List.mem_range.mp rightBelow; omega) same
  · rw [generatedFamilies_marathon]
    exact List.nodup_singleton _

/-- The latest token of a family that was refreshed 2147483647 times has the generation -2147483648, so
the generations of the family are not one to any count. -/
theorem generations_wrap :
    start.sessionFamilies = Table.empty ∧ Fresh ctx (marathon (2 ^ 31 - 1)) ∧
      ¬∃ count, Numbered ctx start (marathon (2 ^ 31 - 1)) familyRow.familyId count := by
  refine ⟨rfl, fresh_marathon _ (by decide), ?_⟩
  intro ⟨count, generations, _⟩
  have latest := latest_run (2 ^ 31 - 1) (by decide)
  have seen : Seen ctx start (marathon (2 ^ 31 - 1)) (tokenOf (2 ^ 31 - 1)) :=
    ⟨_, List.prefix_refl _, (Table.find?_eq_some_iff.mp latest.token).1⟩
  have counted := (generations (-2 ^ 31)).mp ⟨_, seen, rfl, by decide⟩
  omega

end PlatformService.Verif.RotationLimit
