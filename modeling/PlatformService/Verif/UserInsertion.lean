import PlatformService.Verif.AccountSpecs

/-!
# Inserting a user

`ps_user_store_insert` opens a savepoint and leaves it through one exit for each of its
statements. Every exit but the last goes through the rollback; the exit of a failed
`RELEASE` does not. A run is followed statement by statement, each with the fault drawn
for it, so what decides is the position of the fault.
-/

namespace PlatformService.Verif.UserInsertion

open Lib Store UserStore

section Statements

variable {conn : Conn} {faults : List Bool}

/-- The fault at the head of what is left of a list is the fault at a position. -/
theorem headD_drop (faults : List Bool) (i : Nat) : (faults.drop i).headD false = faults.getD i false := by
  rw [List.headD_eq_head?_getD, List.head?_drop, List.getD_eq_getElem?_getD]

/-- The fault behind the first of a list. -/
theorem getD_tail (faults : List Bool) (i : Nat) : faults.tail.getD i false = faults.getD (1 + i) false := by
  rw [← headD_drop, ← headD_drop, List.drop_tail, Nat.add_comm]

/-- A statement on a connection. -/
theorem statement_run {α : Type} (run : Db → Option (α × Db)) :
    Sql.statement run (conn, faults) =
      if faults.headD false then (none, conn, faults.tail)
      else match run conn.db with
        | none => (none, conn, faults.tail)
        | some (value, db) => (some value, { conn with db := db }, faults.tail) := by
  unfold Sql.statement Faulty.attempt
  dsimp only
  by_cases drawn : faults.headD false = true
  · rw [if_pos drawn, if_pos drawn]
  · rw [if_neg drawn, if_neg drawn]
    cases run conn.db with
    | none => rfl
    | some result => rfl

/-- `SAVEPOINT` on a connection. -/
theorem savepoint_run :
    savepoint (conn, faults) =
      if faults.headD false then (false, conn, faults.tail)
      else (true, { conn with undo := conn.db :: conn.undo }, faults.tail) := by
  unfold savepoint
  rw [Faulty.run_bind]
  unfold Faulty.attempt
  dsimp only
  cases faults.headD false with
  | true => rfl
  | false => rfl

/-- `RELEASE` on a connection. -/
theorem release_run :
    release (conn, faults) =
      if faults.headD false then (false, conn, faults.tail)
      else (true, { conn with undo := conn.undo.tail }, faults.tail) := by
  unfold release
  rw [Faulty.run_bind]
  unfold Faulty.attempt
  dsimp only
  cases faults.headD false with
  | true => rfl
  | false => rfl

/-- Asking for a user on a connection: a failed statement reads as absence. -/
theorem rowExists_run (taken : UserRow → Bool) :
    rowExists taken (conn, faults) =
      (!faults.headD false && conn.db.users.rows.any taken, conn, faults.tail) := by
  unfold rowExists Sql.query
  rw [Faulty.run_bind, statement_run]
  cases faults.headD false with
  | true => rfl
  | false => rfl

end Statements

section Roles

/-- The roles of some names, where each names one. -/
def Named (names : List Bytes) (roles : List Role) : Prop := names.map roleNamed = roles.map some

/-- What granting roles does: it appends the grants. -/
theorem rows_of_grants {userId : Int} {names : List Bytes} {db after : Db}
    (grants : Grants userId names db after) :
    ∃ roles, Named names roles ∧
      after.userRoles.rows = db.userRoles.rows ++ roles.map fun role => (userId, role) := by
  induction names generalizing db with
  | nil =>
    have same : after = db := grants
    exact ⟨[], rfl, by rw [same, List.map_nil, List.append_nil]⟩
  | cons name names ih =>
    obtain ⟨role, granted, known, first, rest⟩ := grants
    obtain ⟨roles, named, rows⟩ := ih rest
    have appended := Table.rows_insert (tables_of_insertUserRole first).1
    refine ⟨role :: roles, ?_, ?_⟩
    · unfold Named at named ⊢
      rw [List.map_cons, List.map_cons, known, named]
    · rw [rows, appended, List.append_assoc]
      rfl

/-- What granting roles leaves alone. -/
theorem others_of_grants {userId : Int} {names : List Bytes} {db after : Db}
    (grants : Grants userId names db after) :
    after.users = db.users ∧ after.emailVerificationTokens = db.emailVerificationTokens ∧
      after.sessionFamilies = db.sessionFamilies ∧ after.refreshTokens = db.refreshTokens ∧
      after.devOutbox = db.devOutbox ∧ after.auditLog = db.auditLog := by
  induction names generalizing db with
  | nil =>
    have same : after = db := grants
    rw [same]
    exact ⟨rfl, rfl, rfl, rfl, rfl, rfl⟩
  | cons name names ih =>
    obtain ⟨role, granted, known, first, rest⟩ := grants
    have behind := ih rest
    unfold Db.insertUserRole at first
    split at first
    · split at first
      · contradiction
      · cases first
        exact behind
    · contradiction

/-- A role has one name. -/
theorem roleNamed_inj {left right : Bytes} {role : Role} (hl : roleNamed left = some role)
    (hr : roleNamed right = some role) : left = right := by
  unfold roleNamed at hl hr
  split at hl
  · rename_i user
    rw [← Option.some.inj hl] at hr
    split at hr
    · rename_i user'
      exact user.trans user'.symm
    · split at hr
      · contradiction
      · contradiction
  · split at hl
    · rename_i admin
      rw [← Option.some.inj hl] at hr
      split at hr
      · contradiction
      · split at hr
        · rename_i admin'
          exact admin.trans admin'.symm
        · contradiction
    · contradiction

/-- A granted role is held with the roles held before. -/
theorem mem_insertUserRole {db after : Db} {userId : Int} {role : Role}
    (done : db.insertUserRole userId role = some after) :
    (∀ grant, grant ∈ after.userRoles ↔ grant ∈ db.userRoles ∨ grant = (userId, role)) ∧
      (userId, role) ∉ db.userRoles := by
  have inserted := Table.mem_insert (tables_of_insertUserRole done).1
  exact ⟨inserted.1, fun held => inserted.2 _ held rfl⟩

/-- Roles can be granted to a stored user exactly when every name is known, names a role that the
user does not hold, and is not repeated. -/
theorem grantable_iff {userId : Int} {names : List Bytes} {db : Db}
    (owned : ∃ user ∈ db.users, user.userId = userId) :
    (∃ after, Grants userId names db after) ↔
      (∀ name ∈ names, ∃ role, roleNamed name = some role ∧ (userId, role) ∉ db.userRoles) ∧
        names.Nodup := by
  induction names generalizing db with
  | nil => exact ⟨fun _ => ⟨by simp, List.nodup_nil⟩, fun _ => ⟨db, rfl⟩⟩
  | cons name names ih =>
    rw [List.forall_mem_cons, List.nodup_cons]
    constructor
    · intro ⟨after, role, granted, known, first, rest⟩
      have held := mem_insertUserRole first
      have still : ∃ user ∈ granted.users, user.userId = userId := by
        rw [(Db.insertUserRole_eq_some first).1]
        exact owned
      have others := (ih still).mp ⟨after, rest⟩
      refine ⟨⟨⟨role, known, held.2⟩, fun other stored => ?_⟩, fun repeated => ?_, others.2⟩
      · obtain ⟨next, named, fresh⟩ := others.1 other stored
        exact ⟨next, named, fun before => fresh ((held.1 _).mpr (Or.inl before))⟩
      · obtain ⟨next, named, fresh⟩ := others.1 name repeated
        have same : next = role := Option.some.inj (named.symm.trans known)
        rw [same] at fresh
        exact fresh ((held.1 _).mpr (Or.inr rfl))
    · intro ⟨⟨⟨role, known, fresh⟩, others⟩, single, distinct⟩
      obtain ⟨granted, first⟩ := Db.insertUserRole_isSome owned fresh
      have held := mem_insertUserRole first
      have still : ∃ user ∈ granted.users, user.userId = userId := by
        rw [(Db.insertUserRole_eq_some first).1]
        exact owned
      have onward : ∀ other ∈ names, ∃ role, roleNamed other = some role ∧
          (userId, role) ∉ granted.userRoles := by
        intro other stored
        obtain ⟨next, named, unheld⟩ := others other stored
        refine ⟨next, named, fun now => ?_⟩
        cases (held.1 _).mp now with
        | inl before => exact unheld before
        | inr same =>
          rw [(Prod.mk.inj same).2] at named
          rw [roleNamed_inj named known] at stored
          exact single stored
      obtain ⟨after, rest⟩ := (ih still).mpr ⟨onward, distinct⟩
      exact ⟨after, role, granted, known, first, rest⟩

/-- The loop inserts the first role, and the others when the row is inserted. -/
theorem insertRoles_cons (userId : Int) (name : Bytes) (names : List Bytes) :
    insertRoles userId (name :: names) = (Sql.statement fun db =>
      match roleNamed name with
      | none => some (false, db)
      | some role => (db.insertUserRole userId role).map fun after => (true, after)) >>= fun inserted =>
        match inserted with
        | some true => insertRoles userId names
        | _ => pure false := rfl

/-- The role loop draws one fault for each name; it ends well when no fault is drawn and every role
can be granted, and never touches what is restored. -/
theorem insertRoles_run (userId : Int) (names : List Bytes) (db : Db) (undo : List Db)
    (faults : List Bool) :
    (∃ after, insertRoles userId names (⟨db, undo⟩, faults) =
        (true, ⟨after, undo⟩, faults.drop names.length) ∧ Grants userId names db after ∧
        ∀ i < names.length, faults.getD i false = false) ∨
    (∃ after rest, insertRoles userId names (⟨db, undo⟩, faults) = (false, ⟨after, undo⟩, rest) ∧
        ¬((∃ granted, Grants userId names db granted) ∧ ∀ i < names.length, faults.getD i false = false)) := by
  induction names generalizing db faults with
  | nil => exact Or.inl ⟨db, rfl, rfl, by simp⟩
  | cons name names ih =>
    have loop := insertRoles_cons userId name names
    have first : faults.headD false = faults.getD 0 false := headD_drop faults 0
    rw [loop, Faulty.run_bind, statement_run]
    by_cases drawn : faults.headD false = true
    · rw [if_pos drawn]
      refine Or.inr ⟨db, faults.tail, rfl, fun able => ?_⟩
      have undrawn := able.2 0 (Nat.succ_pos _)
      rw [← first, drawn] at undrawn
      contradiction
    rw [if_neg drawn]
    cases known : roleNamed name with
    | none =>
      refine Or.inr ⟨db, faults.tail, rfl, fun able => ?_⟩
      obtain ⟨granted, grants⟩ := able.1
      obtain ⟨role, _, named, _⟩ := grants
      rw [known] at named
      contradiction
    | some role =>
      cases granted : db.insertUserRole userId role with
      | none =>
        refine Or.inr ⟨db, faults.tail, by simp only [granted, Option.map_none]; rfl, fun able => ?_⟩
        obtain ⟨after, grants⟩ := able.1
        obtain ⟨other, next, named, inserted, _⟩ := grants
        rw [known] at named
        rw [← Option.some.inj named, granted] at inserted
        contradiction
      | some next =>
        have shifted : ∀ i, faults.tail.getD i false = faults.getD (i + 1) false := by
          intro i
          rw [getD_tail, Nat.add_comm]
        simp only [granted, Option.map_some]
        cases ih next faults.tail with
        | inl done =>
          obtain ⟨after, run, rest, clear⟩ := done
          refine Or.inl ⟨after, ?_, ⟨role, next, known, granted, rest⟩, ?_⟩
          · rw [run, List.drop_tail]
            rfl
          · intro i inside
            cases i with
            | zero => rw [← first]; exact Bool.eq_false_iff.mpr drawn
            | succ i =>
              rw [← shifted]
              exact clear i (by rw [List.length_cons] at inside; omega)
        | inr failed =>
          obtain ⟨after, left, run, unable⟩ := failed
          refine Or.inr ⟨after, left, run, fun able => unable ⟨?_, fun i inside => ?_⟩⟩
          · obtain ⟨final, grants⟩ := able.1
            obtain ⟨other, met, named, inserted, rest⟩ := grants
            rw [known] at named
            rw [← Option.some.inj named, granted] at inserted
            rw [← Option.some.inj inserted] at rest
            exact ⟨final, rest⟩
          · rw [shifted]
            exact able.2 (i + 1) (by rw [List.length_cons]; omega)

end Roles

section Insertion

/-- A content that has gained one user with the roles of some names, and nothing else. -/
structure Gains (row : UserRow) (roleNames : List Bytes) (now : Int) (db : Db) (userId : Int)
    (after : Db) : Prop where
  users : after.users.rows = db.users.rows ++ [{ row with userId, createdAt := now, updatedAt := now }]
  roles : ∃ roles, Named roleNames roles ∧
    after.userRoles.rows = db.userRoles.rows ++ roles.map fun role => (userId, role)
  others : after.emailVerificationTokens = db.emailVerificationTokens ∧
    after.sessionFamilies = db.sessionFamilies ∧ after.refreshTokens = db.refreshTokens ∧
    after.devOutbox = db.devOutbox ∧ after.auditLog = db.auditLog

/-- An insertion that closed its savepoint and left all of the user or nothing. -/
def AllOrNothing (row : UserRow) (roleNames : List Bytes) (now : Int) (before : Conn)
    (result : InsertResult) (after : Conn) : Prop :=
  after.undo = before.undo ∧
    match result with
    | .ok userId => Gains row roleNames now before.db userId after.db
    | _ => after.db = before.db

/-- An insertion that nothing stops but the failure of its `RELEASE`: the username and the address
are new, the roles are known and not repeated, and no fault is drawn for a statement that must not
fail before the `RELEASE`. A fault drawn for one of the two lookups reads as absence. -/
structure ReleaseFails (db : Db) (row : UserRow) (roleNames : List Bytes) (faults : List Bool) :
    Prop where
  freshUsername : ¬∃ user ∈ db.users.rows, nocase user.username = nocase row.username
  freshEmail : ¬∃ user ∈ db.users.rows, user.emailNormalized = row.emailNormalized
  known : ∀ name ∈ roleNames, ∃ role, roleNamed name = some role
  distinct : roleNames.Nodup
  savepoint : faults.getD 0 false = false
  inserted : faults.getD 3 false = false
  granted : ∀ i < roleNames.length, faults.getD (4 + i) false = false
  released : faults.getD (4 + roleNames.length) false = true

/-- An insertion into `users` succeeds exactly for a new username and a new address. -/
theorem insertUser_isSome_iff {db : Db} {row : UserRow} :
    (∃ done, db.insertUser row = some done) ↔
      (¬∃ user ∈ db.users.rows, nocase user.username = nocase row.username) ∧
        ¬∃ user ∈ db.users.rows, user.emailNormalized = row.emailNormalized := by
  unfold Db.insertUser
  by_cases name : ∃ user ∈ db.users.rows, nocase user.username = nocase row.username
  · rw [dif_pos name]
    simp [name]
  · rw [dif_neg name]
    by_cases mail : ∃ user ∈ db.users.rows, user.emailNormalized = row.emailNormalized
    · rw [dif_pos mail]
      simp [mail]
    · rw [dif_neg mail]
      exact ⟨fun _ => ⟨name, mail⟩, fun _ => ⟨_, rfl⟩⟩

/-- What an insertion into `users` leaves. -/
theorem rows_of_insertUser {db after : Db} {row : UserRow} {userId : Int}
    (done : db.insertUser row = some (userId, after)) :
    after.users.rows = db.users.rows ++ [{ row with userId }] ∧ after.userRoles = db.userRoles ∧
      after.emailVerificationTokens = db.emailVerificationTokens ∧
      after.sessionFamilies = db.sessionFamilies ∧ after.refreshTokens = db.refreshTokens ∧
      after.devOutbox = db.devOutbox ∧ after.auditLog = db.auditLog ∧
      userId ∉ db.users.rows.map UserRow.userId := by
  have unused := db.nextUserId_unused
  unfold Db.insertUser at done
  split at done
  · contradiction
  split at done
  · contradiction
  cases done
  exact ⟨rfl, rfl, rfl, rfl, rfl, rfl, rfl, unused⟩

/-- A new user can be granted exactly known roles that are not repeated. -/
theorem grantable_new_iff {db added : Db} {row : UserRow} {userId : Int} (names : List Bytes)
    (done : db.insertUser row = some (userId, added)) :
    (∃ after, Grants userId names added after) ↔
      (∀ name ∈ names, ∃ role, roleNamed name = some role) ∧ names.Nodup := by
  have rows := rows_of_insertUser done
  have owned : ∃ user ∈ added.users, user.userId = userId := by
    refine ⟨{ row with userId }, ?_, rfl⟩
    rw [Table.mem_def, rows.1]
    exact List.mem_append_right _ (List.mem_singleton.mpr rfl)
  have unheld : ∀ role, (userId, role) ∉ added.userRoles := by
    intro role held
    rw [rows.2.1] at held
    obtain ⟨user, stored, same⟩ := db.roleOwners _ held
    exact rows.2.2.2.2.2.2.2 (List.mem_map.mpr ⟨user, stored, same⟩)
  rw [grantable_iff owned]
  constructor
  · intro ⟨known, distinct⟩
    exact ⟨fun name stored => (known name stored).imp fun role named => named.1, distinct⟩
  · intro ⟨known, distinct⟩
    exact ⟨fun name stored => (known name stored).imp fun role named => ⟨named, unheld role⟩, distinct⟩

/-- What an insertion with its roles gains. -/
theorem gains_of_grants {db added after : Db} {row : UserRow} {roleNames : List Bytes} {now userId : Int}
    (done : db.insertUser { row with createdAt := now, updatedAt := now } = some (userId, added))
    (grants : Grants userId roleNames added after) : Gains row roleNames now db userId after := by
  have rows := rows_of_insertUser done
  have others := others_of_grants grants
  obtain ⟨roles, named, granted⟩ := rows_of_grants grants
  refine ⟨?_, ⟨roles, named, ?_⟩, ?_⟩
  · rw [others.1, rows.1]
  · rw [granted, rows.2.1]
  · rw [others.2.1, others.2.2.1, others.2.2.2.1, others.2.2.2.2.1, others.2.2.2.2.2]
    exact ⟨rows.2.2.1, rows.2.2.2.1, rows.2.2.2.2.1, rows.2.2.2.2.2.1, rows.2.2.2.2.2.2.1⟩

/-- Whether the rest of an insertion ends well that began on some connection. -/
def Ends (row : UserRow) (roleNames : List Bytes) (now : Int) (before : Conn)
    (rest : Sql InsertResult) (state : Conn × List Bool) : Prop :=
  AllOrNothing row roleNames now before (rest state).1 (rest state).2.1

variable {row : UserRow} {roleNames : List Bytes} {now : Int} {db seen : Db} {undo : List Db}
  {faults : List Bool}

/-- An exit through the rollback ends well. -/
theorem ends_refused {result : InsertResult} (fails : ∀ userId, result ≠ .ok userId) :
    Ends row roleNames now ⟨db, undo⟩ (rollbackInsert >>= fun _ => pure result)
      (⟨seen, db :: undo⟩, faults) := by
  have run : (rollbackInsert >>= fun _ => pure result : Sql InsertResult) (⟨seen, db :: undo⟩, faults) =
      (result, ⟨db, undo⟩, faults) := rfl
  unfold Ends AllOrNothing
  rw [run]
  cases result with
  | ok userId => exact absurd rfl (fails userId)
  | duplicateUsername => exact ⟨rfl, rfl⟩
  | duplicateEmail => exact ⟨rfl, rfl⟩
  | error => exact ⟨rfl, rfl⟩

/-- The exit behind the role loop ends well exactly when the savepoint is released. -/
theorem ends_released_iff {userId : Int} (undo : List Db) (faults : List Bool)
    (gains : Gains row roleNames now db userId seen) :
    Ends row roleNames now ⟨db, undo⟩
        (release >>= fun done => if done then pure (.ok userId) else pure .error)
        (⟨seen, db :: undo⟩, faults) ↔ faults.headD false = false := by
  unfold Ends
  rw [Faulty.run_bind, release_run]
  by_cases drawn : faults.headD false = true
  · rw [if_pos drawn, drawn]
    constructor
    · intro ended
      have closed : db :: undo = undo := ended.1
      exact absurd closed (List.cons_ne_self db undo)
    · intro impossible
      contradiction
  · rw [if_neg drawn]
    exact ⟨fun _ => Bool.eq_false_iff.mpr drawn, fun _ => ⟨rfl, gains⟩⟩

/-- The part of an insertion behind its two lookups. -/
theorem ends_insertion_iff
    (freshUsername : ¬∃ user ∈ db.users.rows, nocase user.username = nocase row.username)
    (freshEmail : ¬∃ user ∈ db.users.rows, user.emailNormalized = row.emailNormalized) :
    Ends row roleNames now ⟨db, undo⟩
      (Sql.statement (fun db => db.insertUser { row with createdAt := now, updatedAt := now }) >>=
        fun inserted => match inserted with
          | none => rollbackInsert >>= fun _ => pure .error
          | some userId => insertRoles userId roleNames >>= fun granted =>
            if granted then release >>= fun done => if done then pure (.ok userId) else pure .error
            else rollbackInsert >>= fun _ => pure .error)
      (⟨db, db :: undo⟩, faults) ↔
      ¬(faults.getD 0 false = false ∧ (∀ name ∈ roleNames, ∃ role, roleNamed name = some role) ∧
        roleNames.Nodup ∧ (∀ i < roleNames.length, faults.getD (1 + i) false = false) ∧
        faults.getD (1 + roleNames.length) false = true) := by
  have first : faults.headD false = faults.getD 0 false := headD_drop faults 0
  unfold Ends
  rw [Faulty.run_bind, statement_run]
  by_cases drawn : faults.headD false = true
  · rw [if_pos drawn]
    refine iff_of_true (ends_refused (by simp)) fun ⟨clear, _⟩ => ?_
    rw [← first, drawn] at clear
    contradiction
  rw [if_neg drawn]
  have undrawn : faults.getD 0 false = false := by
    rw [← first]
    exact Bool.eq_false_iff.mpr drawn
  have possible : ∃ done, db.insertUser { row with createdAt := now, updatedAt := now } = some done :=
    insertUser_isSome_iff.mpr ⟨freshUsername, freshEmail⟩
  obtain ⟨⟨userId, added⟩, stored⟩ := possible
  have grantable := grantable_new_iff roleNames stored
  simp only [stored]
  rw [Faulty.run_bind]
  cases insertRoles_run userId roleNames added (db :: undo) faults.tail with
  | inl granted =>
    obtain ⟨after, run, grants, clear⟩ := granted
    have fits := grantable.mp ⟨after, grants⟩
    have released := ends_released_iff undo (faults.tail.drop roleNames.length)
      (gains_of_grants stored grants)
    rw [headD_drop, getD_tail] at released
    rw [run]
    refine released.trans ⟨fun passes fails => ?_, fun holds => ?_⟩
    · rw [fails.2.2.2.2] at passes
      contradiction
    · by_contra fails
      refine holds ⟨undrawn, fits.1, fits.2, fun i inside => ?_, Bool.eq_true_of_not_eq_false fails⟩
      rw [← getD_tail]
      exact clear i inside
  | inr refused =>
    obtain ⟨after, left, run, unable⟩ := refused
    rw [run]
    refine iff_of_true (ends_refused (by simp)) fun ⟨_, known, distinct, clear, _⟩ => unable ⟨?_, ?_⟩
    · exact grantable.mpr ⟨known, distinct⟩
    · intro i inside
      rw [getD_tail]
      exact clear i inside

/-- Insertion leaves all of a user or nothing, and its savepoint closed, exactly when it does not
end at a failed `RELEASE`. -/
theorem insert_all_or_nothing_iff (row : UserRow) (roleNames : List Bytes) (now : Int) (conn : Conn)
    (faults : List Bool) :
    AllOrNothing row roleNames now conn (UserStore.insert row roleNames now (conn, faults)).1
        (UserStore.insert row roleNames now (conn, faults)).2.1 ↔
      ¬ReleaseFails conn.db row roleNames faults := by
  have first : faults.headD false = faults.getD 0 false := headD_drop faults 0
  obtain ⟨db, undo⟩ := conn
  unfold UserStore.insert
  rw [Faulty.run_bind, savepoint_run]
  by_cases drawn : faults.headD false = true
  · rw [if_pos drawn]
    refine iff_of_true ⟨rfl, rfl⟩ fun fails => ?_
    have clear := fails.savepoint
    rw [← first, drawn] at clear
    contradiction
  rw [if_neg drawn]
  dsimp only
  rw [if_neg (by simp), Faulty.run_bind, rowExists_run]
  dsimp only
  by_cases taken : (!faults.tail.headD false &&
      db.users.rows.any fun user => decide (nocase user.username = nocase row.username)) = true
  · rw [if_pos taken]
    refine iff_of_true (ends_refused (by simp)) fun fails => fails.freshUsername ?_
    simpa using (Bool.and_eq_true_iff.mp taken).2
  rw [if_neg taken, Faulty.run_bind, rowExists_run]
  dsimp only
  by_cases takenEmail : (!faults.tail.tail.headD false &&
      db.users.rows.any fun user => decide (user.emailNormalized = row.emailNormalized)) = true
  · rw [if_pos takenEmail]
    refine iff_of_true (ends_refused (by simp)) fun fails => fails.freshEmail ?_
    simpa using (Bool.and_eq_true_iff.mp takenEmail).2
  rw [if_neg takenEmail]
  have shifted : ∀ i, faults.tail.tail.tail.getD i false = faults.getD (3 + i) false := by
    intro i
    rw [getD_tail, getD_tail, getD_tail]
    congr 1
    omega
  have undrawn : faults.getD 0 false = false := by
    rw [← first]
    exact Bool.eq_false_iff.mpr drawn
  by_cases fresh : (¬∃ user ∈ db.users.rows, nocase user.username = nocase row.username) ∧
      ¬∃ user ∈ db.users.rows, user.emailNormalized = row.emailNormalized
  · apply (ends_insertion_iff fresh.1 fresh.2).trans
    rw [not_iff_not, shifted, shifted]
    constructor
    · intro ⟨inserted, known, distinct, granted, released⟩
      refine ⟨fresh.1, fresh.2, known, distinct, undrawn, inserted, fun i inside => ?_, ?_⟩
      · have clear := granted i inside
        rw [shifted, ← Nat.add_assoc] at clear
        exact clear
      · rw [← Nat.add_assoc] at released
        exact released
    · intro fails
      refine ⟨fails.inserted, fails.known, fails.distinct, fun i inside => ?_, ?_⟩
      · rw [shifted, ← Nat.add_assoc]
        exact fails.granted i inside
      · rw [← Nat.add_assoc]
        exact fails.released
  · have refused : db.insertUser { row with createdAt := now, updatedAt := now } = none := by
      rw [← Option.not_isSome_iff_eq_none]
      intro possible
      have done := Option.isSome_iff_exists.mp possible
      have both := insertUser_isSome_iff.mp done
      exact fresh both
    rw [Faulty.run_bind, statement_run]
    refine iff_of_true ?_ fun fails => fresh ⟨fails.freshUsername, fails.freshEmail⟩
    simp only [refused]
    by_cases lost : faults.tail.tail.tail.headD false = true
    · rw [if_pos lost]
      exact ends_refused (by simp)
    · rw [if_neg lost]
      exact ends_refused (by simp)

/-- A row for the runs below. -/
def sampleRow : UserRow where
  userId := 0
  username := ascii "ada"
  email := ascii "ada@example.org"
  emailNormalized := ascii "ada@example.org"
  passwordHash := []
  passwordSalt := []
  kdfIters := 1
  status := .active
  failedLogins := 0
  lockedUntil := none
  createdAt := 0
  updatedAt := 0

/-- The faults of a run in which the sixth statement fails, and no other. -/
def sixthFails : List Bool := [false, false, false, false, false, true]

/-- Where only the `RELEASE` fails, the new user stays visible behind an open savepoint. -/
theorem insert_leaves_savepoint_open :
    let out := UserStore.insert sampleRow [ascii "USER"] 5 (Conn.of Db.initial, sixthFails)
    out.1 = .error ∧ out.2.1.undo.length = 1 ∧
      out.2.1.db.users.rows = [{ sampleRow with userId := 1, createdAt := 5, updatedAt := 5 }] ∧
      ¬AllOrNothing sampleRow [ascii "USER"] 5 (Conn.of Db.initial) out.1 out.2.1 := by
  have run : (UserStore.insert sampleRow [ascii "USER"] 5 (Conn.of Db.initial, sixthFails)).1 = .error ∧
      (UserStore.insert sampleRow [ascii "USER"] 5 (Conn.of Db.initial, sixthFails)).2.1.undo.length = 1 ∧
      (UserStore.insert sampleRow [ascii "USER"] 5 (Conn.of Db.initial, sixthFails)).2.1.db.users.rows =
        [{ sampleRow with userId := 1, createdAt := 5, updatedAt := 5 }] := by
    decide +kernel
  refine ⟨run.1, run.2.1, run.2.2, fun settled => ?_⟩
  have closed := congrArg List.length settled.1
  rw [run.2.1] at closed
  contradiction

end Insertion

end PlatformService.Verif.UserInsertion
