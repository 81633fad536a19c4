import PlatformService.Platform.Maintenance

/-!
# Sweeps in batches

The loops of the maintenance sweep against the statements they stand for: one `DELETE`
or `UPDATE` without a `LIMIT`. A batch picks rows in any order, but only rows that meet
the condition, and as many as fit; so it takes them from the count of such rows and
leaves what the whole statement would leave. The total is an `int`, and counts the rows
as long as they are not more than `INT_MAX`.
-/

namespace PlatformService.Verif.Sweeping

open Lib Store Maintenance

section Selections

variable {R : Type} {rows : List R} {condition : R → Bool} {scan : Scan} {limit : Nat}

/-- The rows of a list at its positions, in order. -/
theorem map_getElem?_range (rows : List R) :
    (List.range rows.length).map (rows[·]?) = rows.map some := by
  apply List.ext_getElem
  · simp
  · intro i inside _
    have bound : i < rows.length := by simpa using inside
    simp [bound]

/-- There are as many matching positions as matching rows. -/
theorem length_matching (rows : List R) (condition : R → Bool) :
    (matching rows condition).length = rows.countP condition := by
  unfold matching
  rw [← List.countP_eq_length_filter]
  have read : (List.range rows.length).countP (fun position => rows[position]?.any condition) =
      ((List.range rows.length).map (rows[·]?)).countP (Option.any condition) := by
    rw [List.countP_map]
    rfl
  rw [read, map_getElem?_range, List.countP_map]
  rfl

/-- The answered positions are different ones. -/
theorem nodup_limit (scan : Scan) (limit : Nat) (rows : List R) (condition : R → Bool) :
    (scan.limit limit rows condition).Nodup := by
  have ordered : (scan.order (matching rows condition)).Nodup :=
    (scan.visits _).nodup_iff.mpr (List.nodup_range.filter _)
  exact ordered.sublist (List.take_sublist _ _)

/-- As many positions are answered as there are, up to the limit. -/
theorem length_limit (scan : Scan) (limit : Nat) (rows : List R) (condition : R → Bool) :
    (scan.limit limit rows condition).length = min limit (rows.countP condition) := by
  unfold Scan.limit
  rw [List.length_take, (scan.visits _).length_eq, length_matching]

/-- An answered position holds a row that meets the condition. -/
theorem getElem?_of_mem_limit {position : Nat} (answered : position ∈ scan.limit limit rows condition) :
    ∃ row, rows[position]? = some row ∧ condition row = true := by
  have visited := (scan.visits _).mem_iff.mp (List.mem_of_mem_take answered)
  have selected := (List.mem_filter.mp visited).2
  cases found : rows[position]? with
  | none =>
    rw [found] at selected
    contradiction
  | some row =>
    rw [found] at selected
    exact ⟨row, rfl, selected⟩

/-- A row is chosen for each answered position. -/
theorem length_chosen (scan : Scan) (limit : Nat) (rows : List R) (condition : R → Bool) :
    (scan.chosen limit rows condition).length = min limit (rows.countP condition) := by
  rw [← length_limit scan, Scan.chosen, List.length_filterMap_eq_countP, List.countP_eq_length]
  intro position answered
  obtain ⟨row, found, _⟩ := getElem?_of_mem_limit answered
  rw [found]
  rfl

/-- The chosen rows are different ones, if the rows are. -/
theorem nodup_chosen (different : rows.Nodup) : (scan.chosen limit rows condition).Nodup := by
  refine (nodup_limit scan limit rows condition).filterMap ?_
  intro left right row atLeft atRight
  have inside : left < rows.length := (List.getElem?_eq_some_iff.mp atLeft).1
  have same : rows[left]? = rows[right]? :=
    (Option.mem_def.mp atLeft).trans (Option.mem_def.mp atRight).symm
  exact (List.getElem?_inj inside different).mp same

/-- A stored row with the key of a chosen row is that row, if keys are unique. -/
theorem mem_chosen_iff {K : Type} [BEq K] [LawfulBEq K] {key : R → K} (unique : (rows.map key).Nodup)
    {row : R} (stored : row ∈ rows) :
    key row ∈ (scan.chosen limit rows condition).map key ↔
      row ∈ scan.chosen limit rows condition := by
  constructor
  · intro listed
    obtain ⟨other, chosen, same⟩ := List.mem_map.mp listed
    have member := (Scan.of_mem_chosen chosen).1
    have equal := List.inj_on_of_nodup_map unique member stored same
    rw [← equal]
    exact chosen
  · exact List.mem_map_of_mem

/-- The rows with the key of a chosen row are as many as the chosen rows, if keys are unique. -/
theorem countP_chosen {K : Type} [BEq K] [LawfulBEq K] {key : R → K} (unique : (rows.map key).Nodup) :
    (rows.countP fun row => decide (key row ∈ (scan.chosen limit rows condition).map key)) =
      (scan.chosen limit rows condition).length := by
  have different : rows.Nodup := unique.of_map
  have same : (rows.filter fun row => key row ∈ (scan.chosen limit rows condition).map key).Perm
      (scan.chosen limit rows condition) := by
    refine (List.perm_ext_iff_of_nodup (different.filter _) (nodup_chosen different)).mpr ?_
    intro row
    rw [List.mem_filter, decide_eq_true_eq]
    constructor
    · intro ⟨stored, listed⟩
      exact (mem_chosen_iff unique stored).mp listed
    · intro chosen
      exact ⟨(Scan.of_mem_chosen chosen).1, List.mem_map_of_mem chosen⟩
  rw [List.countP_eq_length_filter]
  exact same.length_eq

/-- A stored row with the key of a chosen row meets the condition, if keys are unique. -/
theorem meets_of_chosen {K : Type} [BEq K] [LawfulBEq K] {key : R → K} (scan : Scan) (limit : Nat)
    (condition : R → Bool) (unique : (rows.map key).Nodup) :
    ∀ row ∈ rows, decide (key row ∈ (scan.chosen limit rows condition).map key) = true →
      condition row = true := by
  intro row stored listed
  exact (Scan.of_mem_chosen ((mem_chosen_iff unique stored).mp (of_decide_eq_true listed))).2

/-- The entries at the answered positions are as many as the positions. -/
theorem countP_limit (scan : Scan) (limit : Nat) (rows : List R) (condition : R → Bool) :
    (rows.zipIdx.countP fun entry => decide (entry.2 ∈ scan.limit limit rows condition)) =
      (scan.limit limit rows condition).length := by
  have positions : (rows.zipIdx.countP fun entry =>
      decide (entry.2 ∈ scan.limit limit rows condition)) =
      (List.range rows.length).countP fun position =>
        decide (position ∈ scan.limit limit rows condition) := by
    have indices : rows.zipIdx.map Prod.snd = List.range rows.length := by
      rw [List.zipIdx_map_snd, List.range_eq_range']
    rw [← indices, List.countP_map]
    rfl
  have same : ((List.range rows.length).filter fun position =>
      decide (position ∈ scan.limit limit rows condition)).Perm
        (scan.limit limit rows condition) := by
    refine (List.perm_ext_iff_of_nodup (List.nodup_range.filter _)
      (nodup_limit scan limit rows condition)).mpr ?_
    intro position
    rw [List.mem_filter, decide_eq_true_eq, List.mem_range]
    constructor
    · exact And.right
    · intro answered
      obtain ⟨row, found, _⟩ := getElem?_of_mem_limit answered
      exact ⟨(List.getElem?_eq_some_iff.mp found).1, answered⟩
  rw [positions, List.countP_eq_length_filter]
  exact same.length_eq

/-- An entry at an answered position meets the condition. -/
theorem meets_of_limit (scan : Scan) (limit : Nat) (rows : List R) (condition : R → Bool) :
    ∀ entry ∈ rows.zipIdx, decide (entry.2 ∈ scan.limit limit rows condition) = true →
      condition entry.1 = true := by
  intro entry stored answered
  obtain ⟨row, found, meets⟩ := getElem?_of_mem_limit (of_decide_eq_true answered)
  rw [List.mem_zipIdx_iff_getElem?.mp stored] at found
  rw [Option.some.inj found]
  exact meets

/-- Dropping the rows at the answered positions takes them from the count. -/
theorem countP_dropAt (scan : Scan) (limit : Nat) (rows : List R) (condition : R → Bool) :
    (dropAt rows (scan.limit limit rows condition)).countP condition +
      (scan.limit limit rows condition).length = rows.countP condition := by
  have rest := Batches.countP_rest (meets_of_limit scan limit rows condition)
  rw [countP_limit] at rest
  have whole : rows.countP condition = rows.zipIdx.countP fun entry => condition entry.1 := by
    conv_lhs => rw [← List.zipIdx_map_fst 0 rows]
    rw [List.countP_map]
    rfl
  rw [whole, ← rest, dropAt, List.countP_map]
  simp only [decide_not]
  rfl

/-- Dropping the rows at the answered positions leaves those that do not meet the condition. -/
theorem filter_dropAt (scan : Scan) (limit : Nat) (rows : List R) (condition : R → Bool) :
    ((dropAt rows (scan.limit limit rows condition)).filter fun row => !condition row) =
      rows.filter fun row => !condition row := by
  have rest := Batches.filter_rest (meets_of_limit scan limit rows condition)
  have whole : (rows.filter fun row => !condition row) =
      (rows.zipIdx.filter fun entry => !condition entry.1).map Prod.fst := by
    conv_lhs => rw [← List.zipIdx_map_fst 0 rows]
    rw [List.filter_map]
    rfl
  rw [whole, ← rest, dropAt, List.filter_map]
  simp only [decide_not]
  rfl

end Selections

section Targets

/-- A verification token that expired more than a day ago. -/
def expiredLink (now : Int) (token : VerificationTokenRow) : Bool :=
  token.expiresAt < now - secondsPerDay

/-- A refresh token of a family past its absolute expiry. -/
def deadToken (now : Int) (db : Db) (token : RefreshTokenRow) : Bool :=
  db.sessionFamilies.rows.any fun family =>
    family.familyId = token.familyId && family.absoluteExp < now

/-- A family past its absolute expiry, or revoked more than thirty days ago. -/
def deadFamily (now : Int) (family : SessionFamilyRow) : Bool :=
  family.absoluteExp < now || family.revokedAt.any (· < now - 30 * secondsPerDay)

/-- A mail of the development outbox from more than seven days ago. -/
def oldMail (now : Int) (row : OutboxRow) : Bool := row.createdAt < now - 7 * secondsPerDay

/-- An audit entry from before the retention window. -/
def oldEntry (settings : Settings) (now : Int) (entry : AuditEntry) : Bool :=
  entry.occurredAt < now - settings.auditRetentionDays * secondsPerDay

/-- A user with a lock that is over. -/
def lockOver (now : Int) (user : UserRow) : Bool := user.lockedUntil.any (· < now)

/-- The end of a lock keeps the primary key. -/
theorem unlock_userId (now : Int) (user : UserRow) :
    { user with lockedUntil := none, updatedAt := now }.userId = user.userId := rfl

/-- The end of a lock keeps the username. -/
theorem unlock_username (now : Int) (user : UserRow) :
    { user with lockedUntil := none, updatedAt := now }.username = user.username := rfl

/-- The end of a lock keeps the normalized email. -/
theorem unlock_emailNormalized (now : Int) (user : UserRow) :
    { user with lockedUntil := none, updatedAt := now }.emailNormalized = user.emailNormalized := rfl

/-- `SET locked_until = NULL, updated_at = now` -/
def unlock (now : Int) : Db.UserChange :=
  ⟨fun user => { user with lockedUntil := none, updatedAt := now }, unlock_userId now,
    unlock_username now, unlock_emailNormalized now⟩

/-- How many rows meet the condition of a target. -/
def met (settings : Settings) (now : Int) : Target → Db → Nat
  | .emailVerificationTokens, db => db.emailVerificationTokens.rows.countP (expiredLink now)
  | .refreshTokens, db => db.refreshTokens.rows.countP (deadToken now db)
  | .sessionFamilies, db => db.sessionFamilies.rows.countP (deadFamily now)
  | .devOutbox, db => db.devOutbox.countP (oldMail now)
  | .auditLog, db => db.auditLog.countP (oldEntry settings now)
  | .expiredLockouts, db => db.users.rows.countP (lockOver now)

/-- The statement of a target without its limit: one `DELETE` with its cascade, or one `UPDATE`. -/
def sweepAtOnce (settings : Settings) (now : Int) : Target → Db → Db
  | .emailVerificationTokens, db => db.deleteVerificationTokens (expiredLink now)
  | .refreshTokens, db => db.deleteRefreshTokens (deadToken now db)
  | .sessionFamilies, db => db.deleteFamilies (deadFamily now)
  | .devOutbox, db => { db with devOutbox := db.devOutbox.filter fun row => !oldMail now row }
  | .auditLog, db => { db with auditLog := db.auditLog.filter fun row => !oldEntry settings now row }
  | .expiredLockouts, db => db.updateUsers (lockOver now) (unlock now)

/-- Contents with the same tables are the same. -/
theorem db_ext {left right : Db} (users : left.users = right.users)
    (userRoles : left.userRoles = right.userRoles)
    (links : left.emailVerificationTokens = right.emailVerificationTokens)
    (families : left.sessionFamilies = right.sessionFamilies)
    (tokens : left.refreshTokens = right.refreshTokens) (mails : left.devOutbox = right.devOutbox)
    (entries : left.auditLog = right.auditLog) : left = right := by
  cases left
  cases right
  congr

variable {K R : Type} {key : R → K}

/-- Deleting what no row meets changes nothing. -/
theorem delete_of_countP_eq_zero {table : Table K R key} {condition : R → Bool}
    (unmet : table.rows.countP condition = 0) : table.delete condition = table := by
  ext1
  exact Batches.filter_of_countP_eq_zero unmet

variable [BEq K] [LawfulBEq K]

/-- Deleting chosen rows of a table takes them from the count. -/
theorem countP_delete_chosen (table : Table K R key) (scan : Scan) (limit : Nat)
    (condition : R → Bool) :
    (table.delete fun row => decide (key row ∈
        (scan.chosen limit table.rows condition).map key)).rows.countP condition +
      (scan.chosen limit table.rows condition).length = table.rows.countP condition := by
  have rest := Batches.countP_rest (meets_of_chosen scan limit condition table.unique)
  rw [countP_chosen table.unique] at rest
  exact rest

/-- Deleting chosen rows of a table, and then all that meet the condition, deletes those. -/
theorem delete_delete_chosen (table : Table K R key) (scan : Scan) (limit : Nat)
    (condition : R → Bool) :
    (table.delete fun row => decide (key row ∈
        (scan.chosen limit table.rows condition).map key)).delete condition =
      table.delete condition := by
  ext1
  exact Batches.filter_rest (meets_of_chosen scan limit condition table.unique)

/-- Deleting chosen families, and then all dead ones, deletes the dead ones and their tokens. -/
theorem deleteFamilies_chosen (db : Db) (scan : Scan) (limit : Nat) (now : Int) :
    (db.deleteFamilies fun family => decide (family.familyId ∈
        (scan.chosen limit db.sessionFamilies.rows (deadFamily now)).map
          SessionFamilyRow.familyId)).deleteFamilies (deadFamily now) =
      db.deleteFamilies (deadFamily now) := by
  have meets := meets_of_chosen scan limit (deadFamily now) db.sessionFamilies.unique
  apply db_ext
  · rfl
  · rfl
  · rfl
  · exact delete_delete_chosen db.sessionFamilies scan limit (deadFamily now)
  · ext1
    simp only [Db.deleteFamilies, Table.delete, List.filter_filter]
    apply List.filter_congr
    intro token _
    -- a token goes with a chosen family, or with a dead one that was not chosen
    rw [Bool.eq_iff_iff]
    simp only [Bool.and_eq_true, Bool.not_eq_true', List.any_eq_false, List.mem_filter,
      Bool.and_eq_true, decide_eq_true_eq]
    constructor
    · rintro ⟨later, chosen⟩ family stored ⟨own, dead⟩
      by_cases listed : family.familyId ∈
          (scan.chosen limit db.sessionFamilies.rows (deadFamily now)).map SessionFamilyRow.familyId
      · exact chosen family stored ⟨own, listed⟩
      · exact later family ⟨stored, by simpa using listed⟩ ⟨own, dead⟩
    · intro spared
      constructor
      · rintro family ⟨stored, _⟩ ⟨own, dead⟩
        exact spared family stored ⟨own, dead⟩
      · rintro family stored ⟨own, listed⟩
        exact spared family stored ⟨own, meets family stored (decide_eq_true listed)⟩
  · rfl
  · rfl

/-- A lock that was cleared is not over. -/
theorem lockOver_unlock (now : Int) (user : UserRow) : lockOver now ((unlock now).apply user) = false :=
  rfl

/-- A batch of a sweep takes what fits of the rows that meet its condition. -/
theorem drains (settings : Settings) (scan : Scan) (now : Int) (target : Target) :
    Batches.Drains (fun db => batch settings scan now target db) settings.batchSize
      (met settings now target) (sweepAtOnce settings now target) := by
  cases target with
  | emailVerificationTokens => exact {
      taken := fun db => length_chosen scan _ _ (expiredLink now)
      rest := fun db => countP_delete_chosen db.emailVerificationTokens scan _ (expiredLink now)
      same := fun db => db_ext rfl rfl
        (delete_delete_chosen db.emailVerificationTokens scan _ (expiredLink now)) rfl rfl rfl rfl
      idle := fun db none => db_ext rfl rfl (delete_of_countP_eq_zero none) rfl rfl rfl rfl }
  | refreshTokens => exact {
      taken := fun db => length_chosen scan _ _ (deadToken now db)
      rest := fun db => countP_delete_chosen db.refreshTokens scan _ (deadToken now db)
      same := fun db => db_ext rfl rfl rfl rfl
        (delete_delete_chosen db.refreshTokens scan _ (deadToken now db)) rfl rfl
      idle := fun db none => db_ext rfl rfl rfl rfl (delete_of_countP_eq_zero none) rfl rfl }
  | sessionFamilies => exact {
      taken := fun db => length_chosen scan _ _ (deadFamily now)
      rest := fun db => countP_delete_chosen db.sessionFamilies scan _ (deadFamily now)
      same := fun db => deleteFamilies_chosen db scan settings.batchSize now
      idle := by
        intro db none
        have spared := List.countP_eq_zero.mp none
        refine db_ext rfl rfl rfl (delete_of_countP_eq_zero none) ?_ rfl rfl
        refine delete_of_countP_eq_zero (List.countP_eq_zero.mpr fun token _ => ?_)
        rw [Bool.not_eq_true, List.any_eq_false]
        intro family stored
        have alive := spared family stored
        simp [alive] }
  | devOutbox => exact {
      taken := fun db => length_limit scan _ _ (oldMail now)
      rest := fun db => countP_dropAt scan _ _ (oldMail now)
      same := fun db => db_ext rfl rfl rfl rfl rfl (filter_dropAt scan _ _ (oldMail now)) rfl
      idle := fun db none => db_ext rfl rfl rfl rfl rfl (Batches.filter_of_countP_eq_zero none) rfl }
  | auditLog => exact {
      taken := fun db => length_limit scan _ _ (oldEntry settings now)
      rest := fun db => countP_dropAt scan _ _ (oldEntry settings now)
      same := fun db => db_ext rfl rfl rfl rfl rfl rfl (filter_dropAt scan _ _ (oldEntry settings now))
      idle := fun db none => db_ext rfl rfl rfl rfl rfl rfl (Batches.filter_of_countP_eq_zero none) }
  | expiredLockouts => exact {
      taken := fun db => length_chosen scan _ _ (lockOver now)
      rest := by
        intro db
        have meets := meets_of_chosen scan settings.batchSize (lockOver now) db.users.unique
        have rest := Batches.countP_changed meets (lockOver_unlock now)
        rw [countP_chosen db.users.unique] at rest
        exact rest
      same := by
        intro db
        have meets := meets_of_chosen scan settings.batchSize (lockOver now) db.users.unique
        refine db_ext ?_ rfl rfl rfl rfl rfl rfl
        ext1
        exact Batches.map_changed meets (lockOver_unlock now)
      idle := by
        intro db none
        have spared := List.countP_eq_zero.mp none
        have unselected : ∀ user ∈ db.users, lockOver now user = false := fun user stored => by
          simpa using spared user stored
        refine db_ext ?_ rfl rfl rfl rfl rfl rfl
        show db.users.update (lockOver now) (unlock now).apply (unlock now).keepsId = db.users
        exact Table.update_eq_self unselected }

/-- The rows that do not meet the condition of a target, and the tokens of families that do not, are
where they were. -/
structure Untouched (settings : Settings) (now : Int) (target : Target) (before after : Db) : Prop where
  users : ∀ user ∈ before.users, (target = .expiredLockouts → lockOver now user = false) →
    user ∈ after.users
  userRoles : after.userRoles = before.userRoles
  links : ∀ token ∈ before.emailVerificationTokens,
    (target = .emailVerificationTokens → expiredLink now token = false) →
    token ∈ after.emailVerificationTokens
  families : ∀ family ∈ before.sessionFamilies,
    (target = .sessionFamilies → deadFamily now family = false) → family ∈ after.sessionFamilies
  tokens : ∀ token ∈ before.refreshTokens,
    (target = .refreshTokens → deadToken now before token = false) →
    (target = .sessionFamilies → ∀ family ∈ before.sessionFamilies,
      family.familyId = token.familyId → deadFamily now family = false) →
    token ∈ after.refreshTokens
  mails : ∀ mail ∈ before.devOutbox, (target = .devOutbox → oldMail now mail = false) →
    mail ∈ after.devOutbox
  entries : ∀ entry ∈ before.auditLog, (target = .auditLog → oldEntry settings now entry = false) →
    entry ∈ after.auditLog

/-- A content is untouched where it is. -/
theorem Untouched.refl (settings : Settings) (now : Int) (target : Target) (db : Db) :
    Untouched settings now target db db where
  users := fun _ stored _ => stored
  userRoles := rfl
  links := fun _ stored _ => stored
  families := fun _ stored _ => stored
  tokens := fun _ stored _ _ => stored
  mails := fun _ stored _ => stored
  entries := fun _ stored _ => stored

/-- The whole statement touches only the rows that meet its condition. -/
theorem untouched_sweepAtOnce (settings : Settings) (now : Int) (target : Target) (db : Db) :
    Untouched settings now target db (sweepAtOnce settings now target db) := by
  have still := Untouched.refl settings now target db
  cases target with
  | emailVerificationTokens => exact { still with
      links := fun token stored spared => Table.mem_delete.mpr ⟨stored, spared rfl⟩ }
  | refreshTokens => exact { still with
      tokens := fun token stored spared _ => Table.mem_delete.mpr ⟨stored, spared rfl⟩ }
  | sessionFamilies => exact { still with
      families := fun family stored spared => Table.mem_delete.mpr ⟨stored, spared rfl⟩
      tokens := fun token stored _ spared => Db.mem_deleteFamilies.mpr ⟨stored, spared rfl⟩ }
  | devOutbox => exact { still with
      mails := fun mail stored spared => List.mem_filter.mpr ⟨stored, by rw [spared rfl]; rfl⟩ }
  | auditLog => exact { still with
      entries := fun entry stored spared => List.mem_filter.mpr ⟨stored, by rw [spared rfl]; rfl⟩ }
  | expiredLockouts => exact { still with
      users := by
        intro user stored spared
        show user ∈ db.users.update (lockOver now) (unlock now).apply (unlock now).keepsId
        exact Table.mem_update.mpr ⟨user, stored, by rw [spared rfl]; rfl⟩ }

/-- With any batch size, any orders of the rows and any content, the loop ends within as many batches
as rows meet its condition and one: with the whole statement's content and the number of those rows,
or with an overflow when the `int` total cannot hold them. -/
theorem sweepLoop_eq (settings : Settings) (positive : 0 < settings.batchSize) (scans : Nat → Scan)
    (now : Int) (target : Target) (db : Db) {batches : Nat}
    (enough : met settings now target db < batches) :
    sweepLoop settings scans now target batches db =
      if met settings now target db ≤ totalMax then
        .returned (met settings now target db) (sweepAtOnce settings now target db)
      else .overflowed := by
  have loop : sweepLoop settings scans now target batches db =
      if 0 + met settings now target db ≤ totalMax then
        .returned (0 + met settings now target db) (sweepAtOnce settings now target db)
      else .overflowed :=
    Batches.loop_eq (fun turn => drains settings (scans turn) now target) positive enough
  rw [Nat.zero_add] at loop
  exact loop

/-- Sweeping in batches, of any size and in any orders, is sweeping at once: the loop ends, with the
content one statement without a limit leaves and the number of rows that met the condition, as long
as an `int` can hold it; the other rows are untouched. -/
theorem batched_sweep_eq_at_once (settings : Settings) (positive : 0 < settings.batchSize)
    (scans : Nat → Scan) (now : Int) (target : Target) (db : Db)
    (countable : met settings now target db ≤ totalMax) :
    (∃ enough, ∀ batches, enough ≤ batches → sweepLoop settings scans now target batches db =
        .returned (met settings now target db) (sweepAtOnce settings now target db)) ∧
      Untouched settings now target db (sweepAtOnce settings now target db) := by
  refine ⟨⟨met settings now target db + 1, fun batches enough => ?_⟩,
    untouched_sweepAtOnce settings now target db⟩
  rw [sweepLoop_eq settings positive scans now target db (by omega), if_pos countable]

/-- A mail from the epoch. -/
def firstMail : OutboxRow := ⟨ascii "a@example.org", [], [], 0⟩

/-- A content with as many mails as given. -/
def mailbox (mails : Nat) : Db := { Db.initial with devOutbox := List.replicate mails firstMail }

/-- A thousand rows a batch. -/
def defaultSettings : Settings := ⟨1000, 90⟩

/-- The mails of a mailbox are all old a month later. -/
theorem met_mailbox (mails : Nat) :
    met defaultSettings (30 * secondsPerDay) .devOutbox (mailbox mails) = mails := by
  have old : oldMail (30 * secondsPerDay) firstMail = true := by decide
  show (List.replicate mails firstMail).countP (oldMail (30 * secondsPerDay)) = mails
  rw [List.countP_replicate, old, if_pos rfl]

/-- Two thousand mails take two full batches and an empty one. -/
theorem batched_sweep_eq_at_once_mailbox :
    (∃ enough, ∀ batches, enough ≤ batches →
        sweepLoop defaultSettings (fun _ => Scan.inOrder) (30 * secondsPerDay) .devOutbox batches
            (mailbox 2000) =
          .returned (met defaultSettings (30 * secondsPerDay) .devOutbox (mailbox 2000))
            (sweepAtOnce defaultSettings (30 * secondsPerDay) .devOutbox (mailbox 2000))) ∧
      Untouched defaultSettings (30 * secondsPerDay) .devOutbox (mailbox 2000)
        (sweepAtOnce defaultSettings (30 * secondsPerDay) .devOutbox (mailbox 2000)) :=
  batched_sweep_eq_at_once defaultSettings (by decide) _ _ _ _ (by
    rw [met_mailbox]
    decide)

/-- With 2^31 old mails the total overflows. -/
theorem sweep_total_overflows :
    met defaultSettings (30 * secondsPerDay) .devOutbox (mailbox (2 ^ 31)) = 2 ^ 31 ∧
      ∀ batches, 2 ^ 31 < batches →
        sweepLoop defaultSettings (fun _ => Scan.inOrder) (30 * secondsPerDay) .devOutbox batches
          (mailbox (2 ^ 31)) = .overflowed := by
  have mails := met_mailbox (2 ^ 31)
  refine ⟨mails, fun batches enough => ?_⟩
  rw [sweepLoop_eq defaultSettings (by decide) _ _ _ _ (by rw [mails]; exact enough), mails,
    if_neg (by decide)]

end Targets

end PlatformService.Verif.Sweeping
