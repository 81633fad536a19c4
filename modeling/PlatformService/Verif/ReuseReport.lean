import PlatformService.Verif.Reuse

/-!
# Reports of reuse

`ps_session_refresh` revokes the family of a consumed token and reports the reuse
whether or not the revocation went through. The report is true except when that one
statement is the first of the call to fail while the family is still live.
-/

namespace PlatformService.Verif.ReuseReport

open Lib Store Crypto Session

/-- A family is stored and revoked. -/
def Revoked (db : Db) (familyId : Bytes) : Prop :=
  ∃ family, db.sessionFamilies.find? familyId = some family ∧ family.revokedAt ≠ none

/-- If a call of `ps_session_refresh` reports reuse, the family of the token is revoked where it ends. -/
def ReportsTruly (tokenHash : Bytes) (run : (RefreshResult × Refreshed) × Conn × List Bool) : Prop :=
  run.1.1 = .reuseDetected →
    ∃ token, run.2.1.db.refreshTokens.find? tokenHash = some token ∧ Revoked run.2.1.db token.familyId

/-- Which statement of a call revokes the family of a consumed token. -/
def revocationIndex (token : RefreshTokenRow) : Nat := if nullAsZero token.consumedAt ≠ 0 then 2 else 3

/-- The presented token is consumed, its family is live, and the revocation is the first statement that
fails. -/
def RevocationFails (db : Db) (tokenHash : Bytes) (faults : List Bool) : Prop :=
  ∃ token, db.refreshTokens.find? tokenHash = some token ∧ token.consumedAt ≠ none ∧
    ¬Revoked db token.familyId ∧ faults.findIdx? id = some (revocationIndex token)

section Faults

/-- The first fault is the first one. -/
theorem findIdx?_eq_zero {faults : List Bool} :
    faults.findIdx? id = some 0 ↔ faults.headD false = true := by
  cases faults with
  | nil => simp
  | cons fault faults => cases fault <;> simp [List.findIdx?_cons]

/-- The first fault is a later one. -/
theorem findIdx?_eq_succ {faults : List Bool} {index : Nat} :
    faults.findIdx? id = some (index + 1) ↔
      faults.headD false = false ∧ faults.tail.findIdx? id = some index := by
  cases faults with
  | nil => simp
  | cons fault faults => cases fault <;> simp [List.findIdx?_cons]

end Faults

section Statements

variable {conn : Conn} {faults : List Bool}

/-- A statement on which a fault is drawn. -/
theorem statement_fault {α : Type} (run : Db → Option (α × Db)) (drawn : faults.headD false = true) :
    Sql.statement run (conn, faults) = (none, conn, faults.tail) := if_pos drawn

/-- A statement on which no fault is drawn. -/
theorem statement_run {α : Type} {run : Db → Option (α × Db)} {value : α} {after : Db}
    (sound : faults.headD false = false) (done : run conn.db = some (value, after)) :
    Sql.statement run (conn, faults) = (some value, { conn with db := after }, faults.tail) := by
  have clear : ¬faults.headD false = true := by
    rw [sound]
    decide
  unfold Sql.statement Faulty.attempt
  dsimp only
  rw [if_neg clear, done]
  rfl

/-- A query on which a fault is drawn. -/
theorem lookup_fault {α : Type} (read : Db → Option α) (drawn : faults.headD false = true) :
    (do return (← Sql.query read).join : Sql (Option α)) (conn, faults) = (none, conn, faults.tail) := by
  rw [Faulty.run_bind]
  unfold Sql.query
  rw [statement_fault _ drawn]
  rfl

/-- A query on which no fault is drawn. -/
theorem lookup_run {α : Type} (read : Db → Option α) (sound : faults.headD false = false) :
    (do return (← Sql.query read).join : Sql (Option α)) (conn, faults) =
      (read conn.db, conn, faults.tail) := by
  rw [Faulty.run_bind]
  unfold Sql.query
  rw [statement_run sound rfl]
  rfl

end Statements

section Refresh

variable {tokenHash : Bytes} {now : Int} {db : Db} {faults : List Bool}

/-- The revocation on reuse with its report. -/
def reuse (familyId : Bytes) (now : Int) (out : Refreshed) : Sql (RefreshResult × Refreshed) := do
  let _ ← SessionStore.revokeFamily familyId .reuseDetected now
  return (.reuseDetected, out)

/-- A revocation leaves its family revoked. -/
theorem revoked_revokeFamilies {familyId : Bytes} {family : SessionFamilyRow}
    (stored : db.sessionFamilies.find? familyId = some family) :
    Revoked (db.revokeFamilies (SessionStore.liveFamily familyId) now .reuseDetected) familyId := by
  have same : family.familyId = familyId := (Table.find?_eq_some_iff.mp stored).2
  by_cases live : SessionStore.liveFamily familyId family = true
  · refine ⟨{ family with revokedAt := some now, revokeCause := some .reuseDetected }, ?_, ?_⟩
    · unfold Db.revokeFamilies
      dsimp only
      rw [Table.find?_update, stored, Option.map_some, if_pos live]
    · intro unrevoked
      contradiction
  · refine ⟨family, ?_, ?_⟩
    · unfold Db.revokeFamilies
      dsimp only
      rw [Table.find?_update, stored, Option.map_some, if_neg live]
    · intro unrevoked
      apply live
      unfold SessionStore.liveFamily
      rw [same, unrevoked]
      simp

/-- The report on reuse is true unless the revocation fails on a live family. -/
theorem reports_reuse {token : RefreshTokenRow} {family : SessionFamilyRow}
    (stored : db.refreshTokens.find? tokenHash = some token)
    (owner : db.sessionFamilies.find? token.familyId = some family) (now : Int) (out : Refreshed)
    (undo : List Db) (faults : List Bool) :
    ReportsTruly tokenHash (reuse token.familyId now out (⟨db, undo⟩, faults)) ↔
      ¬(¬Revoked db token.familyId ∧ faults.headD false = true) := by
  unfold reuse SessionStore.revokeFamily Sql.execute
  rw [Faulty.run_bind, Faulty.run_bind]
  by_cases drawn : faults.headD false = true
  · rw [statement_fault _ drawn]
    constructor
    · intro truly fails
      obtain ⟨other, found, revoked⟩ := truly rfl
      have same : token = other := Option.some.inj (stored.symm.trans found)
      rw [← same] at revoked
      exact fails.1 revoked
    · intro spared _
      have revoked : Revoked db token.familyId := by
        by_contra live
        exact spared ⟨live, drawn⟩
      exact ⟨token, stored, revoked⟩
  · have sound : faults.headD false = false := Bool.eq_false_iff.mpr drawn
    rw [statement_run sound rfl]
    constructor
    · intro _ fails
      exact drawn fails.2
    · intro _ _
      exact ⟨token, stored, revoked_revokeFamilies owner⟩

/-- A call that reports something else reports truly. -/
theorem reports_of_ne {run : (RefreshResult × Refreshed) × Conn × List Bool}
    (other : run.1.1 ≠ .reuseDetected) : ReportsTruly tokenHash run :=
  fun reported => absurd reported other

/-- The revocation is not the first statement. -/
theorem revocationIndex_ne_zero (token : RefreshTokenRow) : revocationIndex token ≠ 0 := by
  unfold revocationIndex
  split
  · decide
  · decide

/-- The revocation is not the second statement. -/
theorem revocationIndex_ne_one (token : RefreshTokenRow) : revocationIndex token ≠ 1 := by
  unfold revocationIndex
  split
  · decide
  · decide

/-- A consumed token whose family is live is what the failing revocation needs. -/
theorem revocationFails_iff {token : RefreshTokenRow}
    (stored : db.refreshTokens.find? tokenHash = some token) :
    RevocationFails db tokenHash faults ↔
      token.consumedAt ≠ none ∧ ¬Revoked db token.familyId ∧
        faults.findIdx? id = some (revocationIndex token) := by
  constructor
  · intro ⟨other, found, rest⟩
    rw [Option.some.inj (stored.symm.trans found)]
    exact rest
  · exact fun rest => ⟨token, stored, rest⟩

/-- What `ps_session_refresh` does with a token that is not marked as consumed, once it has read the
token and its family. -/
def claim (crypto : Primitives) (tokenHash : Bytes) (idleTtlS now : Int) (newRaw : Option (Drawn 32))
    (token : RefreshTokenRow) (family : SessionFamilyRow) (out : Refreshed) :
    Sql (RefreshResult × Refreshed) := do
  match ← SessionStore.tryConsumeToken tokenHash now with
  | none => return (.error, out)
  | some false => reuse token.familyId now out
  | some true =>
    if nullAsZero family.revokedAt ≠ 0 ∨ family.absoluteExp < now ∨ token.idleExp < now then
      return (.invalid, out)
    match newRaw with
    | none => return (.error, out)
    | some raw =>
      let idleExp := now + idleTtlS
      if ← SessionStore.insertToken (crypto.sha256 raw.bytes) token.familyId (token.generation + 1)
          idleExp now then
        return (.ok, { out with rawRefreshToken := raw.bytes, refreshIdleExp := idleExp })
      else return (.error, out)

variable {crypto : Primitives} {idleTtlS : Int} {newRaw : Option (Drawn 32)} {undo : List Db}

/-- A token that is not stored, or not read, is reported as invalid. -/
theorem refresh_unread
    (unread : faults.headD false = true ∨ db.refreshTokens.find? tokenHash = none) :
    (refresh crypto tokenHash idleTtlS now newRaw (⟨db, undo⟩, faults)).1.1 = .invalid := by
  unfold refresh SessionStore.getToken
  rw [Faulty.run_bind]
  by_cases drawn : faults.headD false = true
  · rw [lookup_fault _ drawn]
    rfl
  · rw [lookup_run _ (Bool.eq_false_iff.mpr drawn)]
    dsimp only
    rw [unread.resolve_left drawn]
    rfl

section Stored

variable {token : RefreshTokenRow} {family : SessionFamilyRow}

/-- A stored token whose family is not read is an error. -/
theorem refresh_unowned (stored : db.refreshTokens.find? tokenHash = some token)
    (first : faults.headD false = false) (second : faults.tail.headD false = true) :
    (refresh crypto tokenHash idleTtlS now newRaw (⟨db, undo⟩, faults)).1.1 = .error := by
  unfold refresh SessionStore.getToken
  rw [Faulty.run_bind, lookup_run _ first]
  dsimp only
  rw [stored]
  dsimp only
  unfold SessionStore.getFamily
  rw [Faulty.run_bind, lookup_fault _ second]
  rfl

/-- Behind the two reads the token is reused or claimed. -/
theorem refresh_read (stored : db.refreshTokens.find? tokenHash = some token)
    (owner : db.sessionFamilies.find? token.familyId = some family)
    (first : faults.headD false = false) (second : faults.tail.headD false = false) :
    refresh crypto tokenHash idleTtlS now newRaw (⟨db, undo⟩, faults) =
      (if nullAsZero token.consumedAt ≠ 0 then
        reuse token.familyId now { userId := family.userId, familyId := token.familyId }
      else claim crypto tokenHash idleTtlS now newRaw token family
        { userId := family.userId, familyId := token.familyId }) (⟨db, undo⟩, faults.tail.tail) := by
  unfold refresh SessionStore.getToken
  rw [Faulty.run_bind, lookup_run _ first]
  dsimp only
  rw [stored]
  dsimp only
  unfold SessionStore.getFamily
  rw [Faulty.run_bind, lookup_run _ second]
  dsimp only
  rw [owner]
  dsimp only
  by_cases marked : nullAsZero token.consumedAt ≠ 0
  · rw [if_pos marked, if_pos marked]
    rfl
  · rw [if_neg marked, if_neg marked]
    rfl

/-- A claim that succeeds reports no reuse. -/
theorem reports_claimed (consumption : token.consumedAt = none)
    (stored : db.refreshTokens.find? tokenHash = some token) (out : Refreshed)
    (sound : faults.headD false = false) :
    ReportsTruly tokenHash
      (claim crypto tokenHash idleTtlS now newRaw token family out (⟨db, undo⟩, faults)) := by
  apply reports_of_ne
  unfold claim SessionStore.tryConsumeToken
  rw [Faulty.run_bind, statement_run sound rfl]
  dsimp only
  rw [decide_eq_true ((count_openToken_pos stored).mpr consumption)]
  dsimp only
  split
  · intro wrong
    contradiction
  · cases newRaw with
    | none =>
      intro wrong
      contradiction
    | some raw =>
      dsimp only
      rw [Faulty.run_bind]
      split
      · intro wrong
        contradiction
      · intro wrong
        contradiction

/-- A claim of a consumed token reports reuse truly unless the revocation is the first to fail on a live
family. -/
theorem reports_unclaimed (consumption : token.consumedAt ≠ none)
    (stored : db.refreshTokens.find? tokenHash = some token)
    (owner : db.sessionFamilies.find? token.familyId = some family) (out : Refreshed)
    (sound : faults.headD false = false) :
    ReportsTruly tokenHash
        (claim crypto tokenHash idleTtlS now newRaw token family out (⟨db, undo⟩, faults)) ↔
      ¬(¬Revoked db token.familyId ∧ faults.tail.headD false = true) := by
  have unclaimed : ¬0 < db.refreshTokens.count (SessionStore.openToken tokenHash) := fun positive =>
    consumption ((count_openToken_pos stored).mp positive)
  have untouched : db.consumeRefreshTokens (SessionStore.openToken tokenHash) now = db :=
    Db.consumeRefreshTokens_eq_self fun other member => by
      by_contra selected
      exact unclaimed (Table.count_pos_iff.mpr ⟨other, member, by simpa using selected⟩)
  unfold claim SessionStore.tryConsumeToken
  rw [Faulty.run_bind, statement_run sound rfl]
  dsimp only
  rw [decide_eq_false unclaimed, untouched]
  exact reports_reuse stored owner now out undo faults.tail

/-- The report on a token that is not marked as consumed. -/
theorem reports_claim (stored : db.refreshTokens.find? tokenHash = some token)
    (owner : db.sessionFamilies.find? token.familyId = some family) (out : Refreshed) :
    ReportsTruly tokenHash
        (claim crypto tokenHash idleTtlS now newRaw token family out (⟨db, undo⟩, faults)) ↔
      ¬(token.consumedAt ≠ none ∧ ¬Revoked db token.familyId ∧ faults.findIdx? id = some 1) := by
  by_cases drawn : faults.headD false = true
  · have early : faults.findIdx? id = some 0 := findIdx?_eq_zero.mpr drawn
    apply iff_of_true
    · apply reports_of_ne
      unfold claim SessionStore.tryConsumeToken
      rw [Faulty.run_bind, statement_fault _ drawn]
      intro wrong
      contradiction
    · rw [early]
      exact fun fails => absurd (Option.some.inj fails.2.2) (by decide)
  rw [Bool.not_eq_true] at drawn
  rw [findIdx?_eq_succ, findIdx?_eq_zero]
  by_cases consumption : token.consumedAt = none
  · exact iff_of_true (reports_claimed consumption stored out drawn) fun fails => fails.1 consumption
  · refine (reports_unclaimed consumption stored owner out drawn).trans (not_congr ⟨fun fails => ?_,
      fun fails => ?_⟩)
    · exact ⟨consumption, fails.1, drawn, fails.2⟩
    · exact ⟨fails.2.1, fails.2.2.2⟩

end Stored

/-- `ps_session_refresh` reports reuse truly if and only if it is not the revocation of a live family
that is its first statement to fail. -/
theorem reuse_reported_truly_iff (crypto : Primitives) (tokenHash : Bytes) (idleTtlS now : Int)
    (newRaw : Option (Drawn 32)) (db : Db) (undo : List Db) (faults : List Bool) :
    ReportsTruly tokenHash (refresh crypto tokenHash idleTtlS now newRaw (⟨db, undo⟩, faults)) ↔
      ¬RevocationFails db tokenHash faults := by
  have silent {result : RefreshResult} (other : result ≠ .reuseDetected)
      (same : (refresh crypto tokenHash idleTtlS now newRaw (⟨db, undo⟩, faults)).1.1 = result) :
      ReportsTruly tokenHash (refresh crypto tokenHash idleTtlS now newRaw (⟨db, undo⟩, faults)) :=
    reports_of_ne (same ▸ other)
  cases stored : db.refreshTokens.find? tokenHash with
  | none =>
    apply iff_of_true (silent (by decide) (refresh_unread (Or.inr stored)))
    intro ⟨token, found, _⟩
    rw [stored] at found
    contradiction
  | some token =>
    rw [revocationFails_iff stored]
    -- the statement that reads the token
    by_cases first : faults.headD false = true
    · apply iff_of_true (silent (by decide) (refresh_unread (Or.inl first)))
      rw [findIdx?_eq_zero.mpr first]
      exact fun fails => revocationIndex_ne_zero token (Option.some.inj fails.2.2).symm
    rw [Bool.not_eq_true] at first
    -- the statement that reads the family
    by_cases second : faults.tail.headD false = true
    · apply iff_of_true (silent (by decide) (refresh_unowned stored first second))
      rw [findIdx?_eq_succ.mpr ⟨first, findIdx?_eq_zero.mpr second⟩]
      exact fun fails => revocationIndex_ne_one token (Option.some.inj fails.2.2).symm
    rw [Bool.not_eq_true] at second
    obtain ⟨family, member, same⟩ := db.tokenFamilies token (Table.find?_eq_some_iff.mp stored).1
    have owner : db.sessionFamilies.find? token.familyId = some family :=
      Table.find?_eq_some_iff.mpr ⟨member, same⟩
    rw [refresh_read stored owner first second]
    by_cases marked : nullAsZero token.consumedAt ≠ 0
    · have consumed : token.consumedAt ≠ none := by
        intro unmarked
        rw [unmarked] at marked
        exact marked rfl
      have index : revocationIndex token = 2 := if_pos marked
      rw [if_pos marked, index, findIdx?_eq_succ, findIdx?_eq_succ, findIdx?_eq_zero]
      refine (reports_reuse stored owner now _ undo _).trans (not_congr ⟨fun fails => ?_,
        fun fails => ?_⟩)
      · exact ⟨consumed, fails.1, first, second, fails.2⟩
      · exact ⟨fails.2.1, fails.2.2.2.2⟩
    · have index : revocationIndex token = 3 := if_neg marked
      rw [if_neg marked, index, findIdx?_eq_succ, findIdx?_eq_succ]
      refine (reports_claim stored owner _).trans (not_congr ⟨fun fails => ?_, fun fails => ?_⟩)
      · exact ⟨fails.1, fails.2.1, first, second, fails.2.2⟩
      · exact ⟨fails.1, fails.2.1, fails.2.2.2.2⟩

/-- The database after a login and a rotation: the first token is consumed and its family is live. -/
def rotatedDb : Db :=
  afterAll Deployment.ctx (Deployment.database .active) (Rotation.replayRun.take 2)

/-- The hash of the consumed token. -/
def consumedHash : Bytes := Deployment.crypto.sha256 (Deployment.rawToken 1).bytes

/-- The replay of a consumed token is reported as reuse although its revocation failed and the family is
still live. -/
theorem reuse_reported_without_revocation :
    ¬∀ crypto tokenHash idleTtlS now newRaw db undo faults,
      ReportsTruly tokenHash (refresh crypto tokenHash idleTtlS now newRaw (⟨db, undo⟩, faults)) := by
  intro all
  have truly := all Deployment.crypto consumedHash 3600 4000 (some (Deployment.rawToken 3)) rotatedDb
    [rotatedDb] [false, false, true]
  have reported : (refresh Deployment.crypto consumedHash 3600 4000 (some (Deployment.rawToken 3))
      (⟨rotatedDb, [rotatedDb]⟩, [false, false, true])).1.1 = .reuseDetected := by decide +kernel
  obtain ⟨token, stored, family, owner, revoked⟩ := truly reported
  have live : ∀ family ∈ (refresh Deployment.crypto consumedHash 3600 4000
      (some (Deployment.rawToken 3)) (⟨rotatedDb, [rotatedDb]⟩,
        [false, false, true])).2.1.db.sessionFamilies.rows, family.revokedAt = none := by decide +kernel
  exact revoked (live family (Table.find?_eq_some_iff.mp owner).1)

end Refresh

end PlatformService.Verif.ReuseReport
