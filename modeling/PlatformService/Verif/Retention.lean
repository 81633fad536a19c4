import PlatformService.Verif.HandlerRuns
import PlatformService.Verif.SessionEffects

/-!
# What a sweep must retain

`Retains` compares a content with what sweeps at one time have left of it: from
that time on, requests see the same users and locks, the same verification tokens
that have not expired, and the same live families with the same tokens. Every
statement of login, refresh and verification keeps this, and so does every batch of
a sweep, because each of its conditions selects only what has expired already.
-/

namespace PlatformService.Verif.Retention

open Lib Store Maintenance Api

/-- A family that is neither expired nor revoked. -/
def live (now : Int) (family : SessionFamilyRow) : Bool :=
  decide (now ≤ family.absoluteExp) && decide (nullAsZero family.revokedAt = 0)

/-- The live family of an id. -/
def seenFamily (now : Int) (db : Db) (familyId : Bytes) : Option SessionFamilyRow :=
  (db.sessionFamilies.find? familyId).filter (live now)

/-- The refresh token of a hash, consumed or not, while its family is live. -/
def seenToken (now : Int) (db : Db) (tokenHash : Bytes) : Option RefreshTokenRow :=
  (db.refreshTokens.find? tokenHash).filter fun token => (seenFamily now db token.familyId).isSome

/-- The verification token of a hash, consumed or not, until it expires. -/
def seenLink (now : Int) (db : Db) (tokenHash : Bytes) : Option VerificationTokenRow :=
  (db.emailVerificationTokens.find? tokenHash).filter fun token => now ≤ token.expiresAt

/-- A user without a lock that is over, and without the time of the last change, which nobody reads. -/
def seenUser (now : Int) (user : UserRow) : UserRow :=
  { user with lockedUntil := user.lockedUntil.filter fun time => now ≤ time, updatedAt := 0 }

/-- Of the full content, the swept one retains what can be seen at a time or later. -/
structure Retains (now : Int) (full swept : Db) : Prop where
  users : swept.users.rows.map (seenUser now) = full.users.rows.map (seenUser now)
  userRoles : swept.userRoles = full.userRoles
  links : ∀ tokenHash, seenLink now swept tokenHash = seenLink now full tokenHash
  families : ∀ familyId, seenFamily now swept familyId = seenFamily now full familyId
  tokens : ∀ tokenHash, seenToken now swept tokenHash = seenToken now full tokenHash
  /-- No id of a family is stored that the full content lacks. -/
  fewerFamilies : ∀ family ∈ swept.sessionFamilies, ∃ old ∈ full.sessionFamilies,
    old.familyId = family.familyId
  /-- No hash of a refresh token is stored that the full content lacks. -/
  fewerTokens : ∀ token ∈ swept.refreshTokens, ∃ old ∈ full.refreshTokens,
    old.tokenHash = token.tokenHash

variable {now : Int} {full swept : Db}

/-- A content retains itself. -/
theorem Retains.refl (now : Int) (db : Db) : Retains now db db :=
  ⟨rfl, rfl, fun _ => rfl, fun _ => rfl, fun _ => rfl, fun family stored => ⟨family, stored, rfl⟩,
    fun token stored => ⟨token, stored, rfl⟩⟩

/-- What is retained of something retained is retained. -/
theorem Retains.trans {db : Db} (first : Retains now full swept) (second : Retains now swept db) :
    Retains now full db where
  users := second.users.trans first.users
  userRoles := second.userRoles.trans first.userRoles
  links tokenHash := (second.links tokenHash).trans (first.links tokenHash)
  families familyId := (second.families familyId).trans (first.families familyId)
  tokens tokenHash := (second.tokens tokenHash).trans (first.tokens tokenHash)
  fewerFamilies family stored := by
    obtain ⟨middle, member, same⟩ := second.fewerFamilies family stored
    obtain ⟨old, known, id⟩ := first.fewerFamilies middle member
    exact ⟨old, known, id.trans same⟩
  fewerTokens token stored := by
    obtain ⟨middle, member, same⟩ := second.fewerTokens token stored
    obtain ⟨old, known, hash⟩ := first.fewerTokens middle member
    exact ⟨old, known, hash.trans same⟩

section Rows

/-- A token of a live family is seen. -/
theorem seenToken_eq_some {db : Db} {tokenHash : Bytes} {token : RefreshTokenRow} :
    seenToken now db tokenHash = some token ↔
      db.refreshTokens.find? tokenHash = some token ∧
        ∃ family, seenFamily now db token.familyId = some family := by
  rw [seenToken, Option.filter_eq_some_iff, Option.isSome_iff_exists]

/-- A live family is seen. -/
theorem seenFamily_eq_some {db : Db} {familyId : Bytes} {family : SessionFamilyRow} :
    seenFamily now db familyId = some family ↔
      db.sessionFamilies.find? familyId = some family ∧ now ≤ family.absoluteExp ∧
        nullAsZero family.revokedAt = 0 := by
  rw [seenFamily, Option.filter_eq_some_iff, live, Bool.and_eq_true, decide_eq_true_eq,
    decide_eq_true_eq]

/-- A token that has not expired is seen. -/
theorem seenLink_eq_some {db : Db} {tokenHash : Bytes} {token : VerificationTokenRow} :
    seenLink now db tokenHash = some token ↔
      db.emailVerificationTokens.find? tokenHash = some token ∧ now ≤ token.expiresAt := by
  rw [seenLink, Option.filter_eq_some_iff, decide_eq_true_eq]

/-- A user is found in both contents, or in neither. -/
theorem Retains.find (h : Retains now full swept) {matching : UserRow → Bool}
    (reads : ∀ user, matching (seenUser now user) = matching user) :
    (swept.users.rows.find? matching).map (seenUser now) =
      (full.users.rows.find? matching).map (seenUser now) := by
  have visible : ∀ rows : List UserRow, (rows.find? matching).map (seenUser now) =
      (rows.map (seenUser now)).find? matching := by
    intro rows
    rw [List.find?_map]
    congr 2
    funext user
    exact (reads user).symm
  rw [visible, visible, h.users]

/-- A user is stored in both contents, or in neither. -/
theorem Retains.owner_iff (h : Retains now full swept) (userId : Int) :
    (∃ user ∈ swept.users, user.userId = userId) ↔ ∃ user ∈ full.users, user.userId = userId := by
  have ids : ∀ rows : List UserRow, (∃ user ∈ rows, user.userId = userId) ↔
      userId ∈ (rows.map (seenUser now)).map UserRow.userId := by
    intro rows
    simp [seenUser]
  exact (ids _).trans (h.users ▸ (ids _).symm)

/-- A user has the same roles in both contents. -/
theorem Retains.rolesOf (h : Retains now full swept) (userId : Int) :
    swept.rolesOf userId = full.rolesOf userId := by
  unfold Db.rolesOf
  rw [h.userRoles]

end Rows

section Statements

/-- `UPDATE users` of one row keeps what is retained, if what it sets does not depend on what is
not seen. -/
theorem Retains.updateUsers (h : Retains now full swept) (userId : Int) (change : Db.UserChange)
    (reads : ∀ user, seenUser now (change.apply user) =
      seenUser now (change.apply (seenUser now user))) :
    Retains now (full.updateUsers (fun user => user.userId = userId) change)
      (swept.updateUsers (fun user => user.userId = userId) change) := by
  have visible : ∀ rows : List UserRow,
      (rows.map fun user => if user.userId = userId then change.apply user else user).map
          (seenUser now) =
        ((rows.map (seenUser now)).map fun user =>
          if user.userId = userId then change.apply user else user).map (seenUser now) := by
    intro rows
    rw [List.map_map, List.map_map, List.map_map]
    apply List.map_congr_left
    intro user _
    have own : (seenUser now user).userId = user.userId := rfl
    have twice : seenUser now (seenUser now user) = seenUser now user := by
      unfold seenUser
      dsimp only
      rw [Option.filter_filter]
      simp
    simp only [Function.comp_apply, own]
    by_cases selected : user.userId = userId
    · rw [if_pos selected, if_pos selected]
      exact reads user
    · rw [if_neg selected, if_neg selected]
      exact twice.symm
  refine ⟨?_, h.userRoles, h.links, h.families, h.tokens, h.fewerFamilies, h.fewerTokens⟩
  have rows := visible swept.users.rows
  rw [h.users, ← visible full.users.rows] at rows
  simpa [Db.updateUsers, Table.update] using rows

/-- An audit row of its own on each side keeps what is retained. -/
theorem Retains.insertAudit (h : Retains now full swept) (entry entry' : AuditEntry) :
    Retains now (full.insertAudit entry) (swept.insertAudit entry') :=
  ⟨h.users, h.userRoles, h.links, h.families, h.tokens, h.fewerFamilies, h.fewerTokens⟩

/-- What is seen of a row that changes, when the change keeps whether it is seen. -/
theorem filter_map_of_keeps {R : Type} {seen : R → Bool} {change : R → R}
    (keeps : ∀ row, seen (change row) = seen row) (row : Option R) :
    (row.map change).filter seen = (row.filter seen).map change := by
  cases row with
  | none => rfl
  | some row =>
    cases visible : seen row with
    | true => simp [Option.filter, keeps, visible]
    | false => simp [Option.filter, keeps, visible]

/-- What is seen of a row that changes, when what is not seen stays so. -/
theorem filter_map_of_hides {R : Type} {seen : R → Bool} {change : R → R}
    (hides : ∀ row, seen row = false → seen (change row) = false) (row : Option R) :
    (row.map change).filter seen = ((row.filter seen).map change).filter seen := by
  cases row with
  | none => rfl
  | some row =>
    cases visible : seen row with
    | true => simp [Option.filter, visible]
    | false => simp [Option.filter, visible, hides row visible]

/-- Consuming verification tokens keeps what is retained. -/
theorem Retains.consumeLinks (h : Retains now full swept) (selected : VerificationTokenRow → Bool)
    (time : Int) : Retains now (full.consumeVerificationTokens selected time)
      (swept.consumeVerificationTokens selected time) := by
  have visible : ∀ (db : Db) (tokenHash : Bytes),
      seenLink now (db.consumeVerificationTokens selected time) tokenHash =
        (seenLink now db tokenHash).map fun token =>
          if selected token then { token with consumedAt := some time } else token := by
    intro db tokenHash
    unfold seenLink Db.consumeVerificationTokens
    dsimp only
    rw [Table.find?_update]
    apply filter_map_of_keeps
    intro token
    split
    · rfl
    · rfl
  refine ⟨h.users, h.userRoles, fun tokenHash => ?_, h.families, h.tokens, h.fewerFamilies,
    h.fewerTokens⟩
  rw [visible, visible, h.links]

/-- A revoked family is not live, and a dead one stays dead. -/
theorem live_revoked {selected : SessionFamilyRow → Bool}
    (onlyLive : ∀ family, selected family = true → family.revokedAt = none) {time : Int}
    {cause : RevokeCause} {family : SessionFamilyRow} (dead : live now family = false) :
    live now (if selected family then
      { family with revokedAt := some time, revokeCause := some cause } else family) = false := by
  by_cases chosen : selected family = true
  · have unrevoked := onlyLive family chosen
    have expired : ¬now ≤ family.absoluteExp := by
      intro unexpired
      simp [live, unexpired, unrevoked, nullAsZero] at dead
    rw [if_pos chosen]
    simp [live, expired]
  · rw [if_neg chosen]
    exact dead

/-- The tokens that are seen depend on the families that are seen. -/
theorem seenToken_congr {db db' : Db} (stored : db'.refreshTokens = db.refreshTokens)
    (tokenHash : Bytes) (hides : ∀ familyId, seenFamily now db familyId = none →
      seenFamily now db' familyId = none) :
    seenToken now db' tokenHash = (seenToken now db tokenHash).filter fun token =>
      (seenFamily now db' token.familyId).isSome := by
  unfold seenToken
  rw [stored, Option.filter_filter]
  congr 1
  funext token
  cases seen : seenFamily now db token.familyId with
  | none => rw [hides token.familyId seen]; rfl
  | some family => rw [Option.isSome_some, Bool.true_and]

/-- Revoking families keeps what is retained. -/
theorem Retains.revokeFamilies (h : Retains now full swept) {selected : SessionFamilyRow → Bool}
    (onlyLive : ∀ family, selected family = true → family.revokedAt = none) (time : Int)
    (cause : RevokeCause) :
    Retains now (full.revokeFamilies selected time cause) (swept.revokeFamilies selected time cause) := by
  have visible : ∀ (db : Db) (familyId : Bytes),
      seenFamily now (db.revokeFamilies selected time cause) familyId =
        ((seenFamily now db familyId).map fun family => if selected family then
          { family with revokedAt := some time, revokeCause := some cause } else family).filter
            (live now) := by
    intro db familyId
    unfold seenFamily Db.revokeFamilies
    dsimp only
    rw [Table.find?_update]
    exact filter_map_of_hides (fun family dead => live_revoked onlyLive dead) _
  have families : ∀ familyId, seenFamily now (swept.revokeFamilies selected time cause) familyId =
      seenFamily now (full.revokeFamilies selected time cause) familyId := by
    intro familyId
    rw [visible, visible, h.families]
  have hides : ∀ (db : Db) (familyId : Bytes), seenFamily now db familyId = none →
      seenFamily now (db.revokeFamilies selected time cause) familyId = none := by
    intro db familyId unseen
    rw [visible, unseen]
    rfl
  refine ⟨h.users, h.userRoles, h.links, families, fun tokenHash => ?_, ?_, h.fewerTokens⟩
  · have tokens : ∀ db : Db, seenToken now (db.revokeFamilies selected time cause) tokenHash =
        (seenToken now db tokenHash).filter fun token =>
          (seenFamily now (db.revokeFamilies selected time cause) token.familyId).isSome := by
      intro db
      apply seenToken_congr
      · rfl
      · exact hides db
    rw [tokens, tokens, h.tokens]
    congr 1
    funext token
    rw [families]
  · intro family stored
    have kept : ∀ (row : SessionFamilyRow), (if selected row then
        { row with revokedAt := some time, revokeCause := some cause } else row).familyId =
          row.familyId := by
      intro row
      split
      · rfl
      · rfl
    obtain ⟨old, member, row⟩ := Db.mem_revokeFamilies.mp stored
    obtain ⟨known, knownStored, same⟩ := h.fewerFamilies old member
    refine ⟨_, Db.mem_revokeFamilies.mpr ⟨known, knownStored, rfl⟩, ?_⟩
    rw [row, kept, kept]
    exact same

/-- Consuming refresh tokens keeps what is retained. -/
theorem Retains.consumeTokens (h : Retains now full swept) (selected : RefreshTokenRow → Bool)
    (time : Int) : Retains now (full.consumeRefreshTokens selected time)
      (swept.consumeRefreshTokens selected time) := by
  have kept : ∀ (row : RefreshTokenRow),
      (if selected row then { row with consumedAt := some time } else row).familyId = row.familyId ∧
      (if selected row then { row with consumedAt := some time } else row).tokenHash =
        row.tokenHash := by
    intro row
    split
    · exact ⟨rfl, rfl⟩
    · exact ⟨rfl, rfl⟩
  have visible : ∀ (db : Db) (tokenHash : Bytes),
      seenToken now (db.consumeRefreshTokens selected time) tokenHash =
        (seenToken now db tokenHash).map fun token =>
          if selected token then { token with consumedAt := some time } else token := by
    intro db tokenHash
    unfold seenToken Db.consumeRefreshTokens
    dsimp only
    rw [Table.find?_update]
    apply filter_map_of_keeps
    intro token
    rw [(kept token).1]
  refine ⟨h.users, h.userRoles, h.links, h.families, fun tokenHash => ?_, h.fewerFamilies, ?_⟩
  · rw [visible, visible, h.tokens]
  · intro token stored
    obtain ⟨old, member, row⟩ := Db.mem_consumeRefreshTokens.mp stored
    obtain ⟨known, knownStored, same⟩ := h.fewerTokens old member
    refine ⟨_, Db.mem_consumeRefreshTokens.mpr ⟨known, knownStored, rfl⟩, ?_⟩
    rw [row, (kept old).2, (kept known).2]
    exact same

/-- A family with a new id, inserted on both sides. -/
theorem Retains.insertFamily (h : Retains now full swept) {row : SessionFamilyRow} {left right : Db}
    (done : full.insertFamily row = some left) (done' : swept.insertFamily row = some right) :
    Retains now left right := by
  have tables : ∀ {db after : Db}, db.insertFamily row = some after →
      after.users = db.users ∧ after.userRoles = db.userRoles ∧
        after.emailVerificationTokens = db.emailVerificationTokens := by
    intro db after inserted
    unfold Db.insertFamily at inserted
    split at inserted
    · split at inserted
      · contradiction
      · cases inserted
        exact ⟨rfl, rfl, rfl⟩
    · contradiction
  have visible : ∀ {db after : Db}, db.insertFamily row = some after → ∀ familyId,
      seenFamily now after familyId =
        if row.familyId = familyId then (some row).filter (live now)
        else seenFamily now db familyId := by
    intro db after inserted familyId
    unfold seenFamily
    rw [Table.find?_insert (Db.insertFamily_eq_some inserted).1]
    by_cases own : row.familyId = familyId
    · rw [if_pos own, if_pos own]
    · rw [if_neg own, if_neg own]
  have tokens : ∀ {db after : Db}, db.insertFamily row = some after → ∀ tokenHash,
      seenToken now after tokenHash = seenToken now db tokenHash := by
    intro db after inserted tokenHash
    obtain ⟨family, _, same⟩ := Db.insertFamily_eq_some inserted
    unfold seenToken
    rw [same]
    cases found : db.refreshTokens.find? tokenHash with
    | none => rfl
    | some token =>
      -- the family of a stored token is stored, so it is not the new one
      obtain ⟨owner, stored, own⟩ := db.tokenFamilies token (Table.find?_eq_some_iff.mp found).1
      have other : ¬row.familyId = token.familyId := fun new =>
        (Table.mem_insert family).2 owner stored (own.trans new.symm)
      rw [Option.filter_some, Option.filter_some, visible inserted, if_neg other]
  obtain ⟨family, _, same⟩ := Db.insertFamily_eq_some done
  obtain ⟨family', _, same'⟩ := Db.insertFamily_eq_some done'
  obtain ⟨users, userRoles, links⟩ := tables done
  obtain ⟨users', userRoles', links'⟩ := tables done'
  refine ⟨?_, ?_, fun tokenHash => ?_, fun familyId => ?_, fun tokenHash => ?_, ?_, ?_⟩
  · rw [users, users', h.users]
  · rw [userRoles, userRoles', h.userRoles]
  · have kept := h.links tokenHash
    unfold seenLink at kept ⊢
    rw [links, links', kept]
  · rw [visible done, visible done', h.families]
  · rw [tokens done, tokens done', h.tokens]
  · intro other stored
    cases ((Table.mem_insert family').1 other).mp stored with
    | inl old =>
      obtain ⟨known, knownStored, id⟩ := h.fewerFamilies other old
      exact ⟨known, ((Table.mem_insert family).1 known).mpr (Or.inl knownStored), id⟩
    | inr new => exact ⟨row, ((Table.mem_insert family).1 row).mpr (Or.inr rfl), by rw [new]⟩
  · rw [same, same']
    exact h.fewerTokens

/-- A refresh token with a new hash, inserted on both sides. -/
theorem Retains.insertToken (h : Retains now full swept) {row : RefreshTokenRow} {left right : Db}
    (done : full.insertRefreshToken row = some left)
    (done' : swept.insertRefreshToken row = some right) : Retains now left right := by
  have tables : ∀ {db after : Db}, db.insertRefreshToken row = some after →
      after.users = db.users ∧ after.userRoles = db.userRoles ∧
        after.emailVerificationTokens = db.emailVerificationTokens ∧
          after.sessionFamilies = db.sessionFamilies := by
    intro db after inserted
    unfold Db.insertRefreshToken at inserted
    split at inserted
    · split at inserted
      · contradiction
      · cases inserted
        exact ⟨rfl, rfl, rfl, rfl⟩
    · contradiction
  have families : ∀ {db after : Db}, db.insertRefreshToken row = some after → ∀ familyId,
      seenFamily now after familyId = seenFamily now db familyId := by
    intro db after inserted familyId
    unfold seenFamily
    rw [(tables inserted).2.2.2]
  have visible : ∀ {db after : Db}, db.insertRefreshToken row = some after → ∀ tokenHash,
      seenToken now after tokenHash = if row.tokenHash = tokenHash
        then (some row).filter fun token => (seenFamily now db token.familyId).isSome
        else seenToken now db tokenHash := by
    intro db after inserted tokenHash
    have seen : (fun token : RefreshTokenRow => (seenFamily now after token.familyId).isSome) =
        fun token => (seenFamily now db token.familyId).isSome := by
      funext token
      rw [families inserted]
    unfold seenToken
    rw [Table.find?_insert (Db.insertRefreshToken_eq_some inserted).1, seen]
    by_cases own : row.tokenHash = tokenHash
    · rw [if_pos own, if_pos own]
    · rw [if_neg own, if_neg own]
  have token := (Db.insertRefreshToken_eq_some done).1
  have token' := (Db.insertRefreshToken_eq_some done').1
  obtain ⟨users, userRoles, links, stored⟩ := tables done
  obtain ⟨users', userRoles', links', stored'⟩ := tables done'
  refine ⟨?_, ?_, fun tokenHash => ?_, fun familyId => ?_, fun tokenHash => ?_, ?_, ?_⟩
  · rw [users, users', h.users]
  · rw [userRoles, userRoles', h.userRoles]
  · have kept := h.links tokenHash
    unfold seenLink at kept ⊢
    rw [links, links', kept]
  · rw [families done, families done', h.families]
  · rw [visible done, visible done', h.tokens]
    simp only [h.families]
  · rw [stored, stored']
    exact h.fewerFamilies
  · intro other member
    cases ((Table.mem_insert token').1 other).mp member with
    | inl old =>
      obtain ⟨known, knownStored, hash⟩ := h.fewerTokens other old
      exact ⟨known, ((Table.mem_insert token).1 known).mpr (Or.inl knownStored), hash⟩
    | inr new => exact ⟨row, ((Table.mem_insert token).1 row).mpr (Or.inr rfl), by rw [new]⟩

end Statements

section Sweeps

/-- No revocation has a time that reads as NULL. -/
def RevocationsRead (db : Db) : Prop := ∀ family ∈ db.sessionFamilies, family.revokedAt ≠ some 0

/-- Dropping rows that are not seen changes nothing that is. -/
theorem filter_filter_of_unseen {R : Type} {seen dropped : R → Bool} {row : Option R}
    (unseen : ∀ stored, row = some stored → dropped stored = true → seen stored = false) :
    (row.filter fun stored => !dropped stored).filter seen = row.filter seen := by
  cases row with
  | none => rfl
  | some stored =>
    cases gone : dropped stored with
    | true => simp [Option.filter, gone, unseen stored rfl gone]
    | false => simp [Option.filter, gone]

/-- A row chosen by its key is a row that was chosen. -/
theorem chosen_of_key {K R : Type} [DecidableEq K] {key : R → K} {table : Table K R key}
    {scan : Scan} {limit : Nat} {condition : R → Bool} {row : R} (stored : row ∈ table)
    (selected : key row ∈ (scan.chosen limit table.rows condition).map key) :
    condition row = true := by
  obtain ⟨doomed, chosen, same⟩ := List.mem_map.mp selected
  obtain ⟨member, holds⟩ := Scan.of_mem_chosen chosen
  rw [Table.eq_of_key member stored same] at holds
  exact holds

/-- Deleting expired verification tokens removes nothing that can be seen. -/
theorem retains_deleteLinks {db : Db} {selected : VerificationTokenRow → Bool}
    (expired : ∀ token ∈ db.emailVerificationTokens, selected token = true →
      token.expiresAt < now) : Retains now db (db.deleteVerificationTokens selected) := by
  refine { Retains.refl now db with links := fun tokenHash => ?_ }
  unfold seenLink Db.deleteVerificationTokens
  dsimp only
  rw [Table.find?_delete]
  apply filter_filter_of_unseen
  intro token found gone
  have ended := expired token (Table.find?_eq_some_iff.mp found).1 gone
  exact decide_eq_false (by omega)

/-- Deleting tokens of dead families removes nothing that can be seen. -/
theorem retains_deleteTokens {db : Db} {selected : RefreshTokenRow → Bool}
    (dead : ∀ token ∈ db.refreshTokens, selected token = true →
      seenFamily now db token.familyId = none) : Retains now db (db.deleteRefreshTokens selected) := by
  refine { Retains.refl now db with
    tokens := fun tokenHash => ?_
    fewerTokens := fun token stored => ⟨token, (Table.mem_delete.mp stored).1, rfl⟩ }
  unfold seenToken Db.deleteRefreshTokens
  dsimp only
  rw [Table.find?_delete]
  apply filter_filter_of_unseen
  intro token found gone
  have unseen := dead token (Table.find?_eq_some_iff.mp found).1 gone
  have same : seenFamily now (db.deleteRefreshTokens selected) token.familyId = none := unseen
  exact Option.isSome_eq_false_iff.mpr (Option.isNone_iff_eq_none.mpr same)

/-- Deleting dead families with their tokens removes nothing that can be seen. -/
theorem retains_deleteFamilies {db : Db} {selected : SessionFamilyRow → Bool}
    (dead : ∀ family ∈ db.sessionFamilies, selected family = true → live now family = false) :
    Retains now db (db.deleteFamilies selected) := by
  have families : ∀ familyId,
      seenFamily now (db.deleteFamilies selected) familyId = seenFamily now db familyId := by
    intro familyId
    unfold seenFamily Db.deleteFamilies
    dsimp only
    rw [Table.find?_delete]
    apply filter_filter_of_unseen
    intro family found gone
    exact dead family (Table.find?_eq_some_iff.mp found).1 gone
  refine { Retains.refl now db with
    families := families
    tokens := fun tokenHash => ?_
    fewerFamilies := fun family stored => ⟨family, (Table.mem_delete.mp stored).1, rfl⟩
    fewerTokens := fun token stored => ⟨token, (Db.mem_deleteFamilies.mp stored).1, rfl⟩ }
  unfold seenToken
  have seen : (fun token : RefreshTokenRow =>
      (seenFamily now (db.deleteFamilies selected) token.familyId).isSome) =
        fun token => (seenFamily now db token.familyId).isSome := by
    funext token
    rw [families]
  rw [seen]
  unfold Db.deleteFamilies
  dsimp only
  rw [Table.find?_delete]
  apply filter_filter_of_unseen
  intro token found gone
  -- the family of a dropped token is dropped itself, and so is not live
  obtain ⟨family, stored, both⟩ := List.any_eq_true.mp gone
  rw [Bool.and_eq_true, decide_eq_true_eq] at both
  have unseen : seenFamily now db token.familyId = none := by
    unfold seenFamily
    rw [← both.1, Table.find?_of_mem stored, Option.filter_some, dead family stored both.2]
    rfl
  exact Option.isSome_eq_false_iff.mpr (Option.isNone_iff_eq_none.mpr unseen)

/-- Clearing locks that are over changes nothing that can be seen. -/
theorem retains_clearLocks {db : Db} {selected : UserRow → Bool} {change : Db.UserChange}
    (ended : ∀ user ∈ db.users, selected user = true →
      seenUser now (change.apply user) = seenUser now user) :
    Retains now db (db.updateUsers selected change) := by
  refine { Retains.refl now db with users := ?_ }
  unfold Db.updateUsers Table.update
  dsimp only
  rw [List.map_map]
  apply List.map_congr_left
  intro user stored
  rw [Function.comp_apply]
  by_cases chosen : selected user = true
  · rw [if_pos chosen]
    exact ended user stored chosen
  · rw [if_neg chosen]

/-- A batch of a sweep removes nothing that can be seen at its time or later. -/
theorem retains_batch (settings : Settings) (scan : Scan) (now : Int) (target : Target) {db : Db}
    (reads : RevocationsRead db) : Retains now db (batch settings scan now target db).2 := by
  cases target with
  | emailVerificationTokens =>
    apply retains_deleteLinks
    intro token stored selected
    have condition := chosen_of_key stored (of_decide_eq_true selected)
    have old := of_decide_eq_true condition
    have day : 0 < secondsPerDay := by decide
    omega
  | refreshTokens =>
    apply retains_deleteTokens
    intro token stored selected
    have condition := chosen_of_key stored (of_decide_eq_true selected)
    obtain ⟨family, owner, expired⟩ := List.any_eq_true.mp condition
    rw [Bool.and_eq_true, decide_eq_true_eq, decide_eq_true_eq] at expired
    have late : ¬now ≤ family.absoluteExp := by omega
    unfold seenFamily
    rw [← expired.1, Table.find?_of_mem owner, Option.filter_some, live, decide_eq_false late,
      Bool.false_and]
    rfl
  | sessionFamilies =>
    apply retains_deleteFamilies
    intro family stored selected
    have ended := chosen_of_key stored (of_decide_eq_true selected)
    rw [Bool.or_eq_true, decide_eq_true_eq] at ended
    cases ended with
    | inl expired =>
      have late : ¬now ≤ family.absoluteExp := by omega
      rw [live, decide_eq_false late, Bool.false_and]
    | inr revoked =>
      obtain ⟨time, given, _⟩ := (Option.any_eq_true _ _).mp revoked
      have nonzero : ¬nullAsZero family.revokedAt = 0 := by
        intro zero
        rw [given] at zero
        have null : time = 0 := zero
        rw [null] at given
        exact reads family stored given
      rw [live, decide_eq_false nonzero, Bool.and_false]
  | devOutbox => exact { Retains.refl now db with }
  | auditLog => exact { Retains.refl now db with }
  | expiredLockouts =>
    apply retains_clearLocks
    intro user stored selected
    have ended := chosen_of_key stored (of_decide_eq_true selected)
    obtain ⟨time, given, before⟩ := (Option.any_eq_true _ _).mp ended
    have past : ¬now ≤ time := by
      have earlier := of_decide_eq_true before
      omega
    unfold seenUser
    dsimp only
    rw [given, Option.filter_some, decide_eq_false past]
    rfl

/-- What a step of a sweep leads to: it stays the sweep, and removes nothing that can be seen. -/
theorem sweep_step_retains (ctx : AppCtx) (settings : Settings) (now : Int)
    (choices : List (Scan × Bool)) (targets : List Target) {db : Db} (reads : RevocationsRead db)
    {reliable : Prop} :
    Sql.Leaves reliable (Activity.step ctx (.sweep settings now choices targets)) db
      fun next after => (∃ choices' targets', next = .sweep settings now choices' targets') ∧
        Retains now db after ∧ RevocationsRead after := by
  apply Sql.Guarantees.leaves
  cases targets with
  | nil => exact Sql.guarantees_pure ⟨⟨_, _, rfl⟩, Retains.refl now db, reads⟩
  | cons target targets =>
    apply Sql.guarantees_bind (Sql.guarantees_statement _ _)
    · intro remaining after reached
      exact Sql.guarantees_pure ⟨⟨_, _, rfl⟩, reached⟩
    · intro _
      exact Sql.guarantees_pure ⟨Retains.refl now db, reads⟩
    · intro changed after done
      have left : after = (batch settings (choices.headD (Scan.inOrder, false)).1 now target db).2 :=
        (congrArg Prod.snd (Option.some.inj done)).symm
      rw [left]
      refine Sql.guarantees_pure ⟨retains_batch settings _ now target reads, ?_⟩
      intro family stored
      exact reads family ((batch_removes settings _ now target db).1 family stored)

/-- A sweep, complete or stopped after any number of batches, removes nothing that can be seen at
its time or later. -/
theorem sweep_retains (ctx : AppCtx) (settings : Settings) (now : Int) (batches : Nat)
    (choices : List (Scan × Bool)) (targets : List Target) (faults : List Bool) {db : Db}
    (reads : RevocationsRead db) :
    Retains now db
      (Running.acts ctx batches db ⟨.sweep settings now choices targets, faults⟩).1 := by
  induction batches generalizing choices targets faults db with
  | zero => exact Retains.refl now db
  | succ batches ih =>
    let running : Running := ⟨.sweep settings now choices targets, faults⟩
    have spec : Sql.Leaves (running.faults = []) (running.activity.step ctx) db fun next after =>
        (∃ choices' targets', next = .sweep settings now choices' targets') ∧
          Retains now db after ∧ RevocationsRead after :=
      sweep_step_retains ctx settings now choices targets reads
    obtain ⟨⟨choices', targets', next⟩, retains, reads'⟩ := Running.act_spec spec
    unfold Running.acts
    generalize running.act ctx db = out at next retains reads' ⊢
    obtain ⟨after, activity, rest⟩ := out
    dsimp only at next
    rw [next]
    exact retains.trans (ih choices' targets' rest reads')

end Sweeps

end PlatformService.Verif.Retention
