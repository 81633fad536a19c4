import PlatformService.Api.Server
import PlatformService.Auth.Bootstrap
import PlatformService.Verif.AccountChanges
import PlatformService.Verif.Deployment

/-!
# Who there is, and with which roles

The life of the service is a sequence of events: requests arrive, their handlers
take turns in any order with the maintenance thread, and now and then the service
restarts, which ends the handlers at work and runs `ps_bootstrap_admin` alone.
`RosterChange` states what an event may do to the users and their roles, and
`roster_of_life` that every event of every life does no more.
-/

namespace PlatformService.Verif.Roster

open Lib Store Api Maintenance

/-- A start of the service: the settings read, the salt drawn and the time. -/
structure Boot where
  settings : Bootstrap.Settings
  salt : Option (Crypto.Drawn 16)
  now : Int
  faults : List Bool := []

/-- What happens in the life of the service. -/
inductive LifeEvent where
  | request (arrival : Arrival)
  | turn (handler : Nat)
  | maintenance (settings : Maintenance.Settings) (now : Int) (choices : List (Scan × Bool))
      (faults : List Bool)
  | restart (boot : Boot)

/-- What `ps_bootstrap_admin` commits. -/
def boots (ctx : AppCtx) (boot : Boot) (db : Db) : Db :=
  (Bootstrap.admin ctx.crypto ctx.config ctx.passwordDenylist boot.settings boot.salt boot.now
    (Conn.of db, boot.faults)).2.1.committed

/-- The service after an event of its life. -/
def next (ctx : AppCtx) (server : Server) : LifeEvent → Server
  | .request arrival => server.next ctx (.arrives arrival)
  | .turn handler => server.step ctx handler
  | .maintenance settings now choices faults =>
    { server with
      handlers := server.handlers ++ [⟨.sweep settings now choices Target.all, faults⟩] }
  | .restart boot => ⟨boots ctx boot server.db, []⟩

/-- The service after some events of its life. -/
def life (ctx : AppCtx) (start : Db) (events : List LifeEvent) : Server :=
  events.foldl (next ctx) ⟨start, []⟩

/-- One more event. -/
theorem life_concat (ctx : AppCtx) (start : Db) (events : List LifeEvent) (event : LifeEvent) :
    life ctx start (events ++ [event]) = next ctx (life ctx start events) event := by
  unfold life
  rw [List.foldl_append, List.foldl_cons, List.foldl_nil]

/-- A user holds ADMIN. -/
def IsAdmin (db : Db) (userId : Int) : Prop := (userId, Role.admin) ∈ db.userRoles

/-- Every user has a role. -/
def EveryoneHasRole (db : Db) : Prop := ∀ user ∈ db.users, db.rolesOf user.userId ≠ []

/-- A user that was not there before. -/
def Joins (db after : Db) (user : UserRow) : Prop :=
  user ∈ after.users ∧ ∀ other ∈ db.users, other.userId ≠ user.userId

/-- How a user may join in an event: by a registration, or as the first administrator. -/
def MayJoin (server : Server) (user : UserRow) (roles : List Role) : LifeEvent → Prop
  | .turn handler => (∃ env input faults,
      server.handlers[handler]? = some ⟨.register env input .write, faults⟩) ∧
        user.status = .pendingVerification ∧ roles = [.user]
  | .restart _ => (∀ userId, ¬IsAdmin server.db userId) ∧ user.status = .active ∧
      roles = [.user, .admin]
  | _ => False

/-- What an event may do to the users and their roles. -/
structure RosterChange (server : Server) (event : LifeEvent) (after : Db) : Prop where
  /-- Everyone stays, with the same roles. -/
  stays : ∀ user ∈ server.db.users, (∃ same ∈ after.users, same.userId = user.userId) ∧
    after.rolesOf user.userId = server.db.rolesOf user.userId
  /-- At most one user joins. -/
  alone : ∀ first second, Joins server.db after first → Joins server.db after second →
    first = second
  /-- A user joins as it may. -/
  joins : ∀ user, Joins server.db after user →
    MayJoin server user (after.rolesOf user.userId) event
  /-- ADMIN is held by the same users, unless the first administrator joins. -/
  admins : (∀ userId, IsAdmin after userId ↔ IsAdmin server.db userId) ∨
    ∃ boot user, event = .restart boot ∧ (∀ userId, ¬IsAdmin server.db userId) ∧
      Joins server.db after user ∧ ∀ userId, IsAdmin after userId ↔ userId = user.userId
  /-- A start with an administrator changes nothing. -/
  idle : ∀ boot userId, event = .restart boot → IsAdmin server.db userId → after = server.db

section Joining

/-- One user joins with some roles. -/
structure Adds (db after : Db) (user : UserRow) (roles : List Role) : Prop where
  users : after.users.rows = db.users.rows ++ [user]
  grants : after.userRoles.rows = db.userRoles.rows ++ roles.map fun role => (user.userId, role)
  fresh : ∀ other ∈ db.users, other.userId ≠ user.userId

variable {db after : Db} {user : UserRow} {roles : List Role}

/-- The new user is the one that joins. -/
theorem Adds.joins_iff (h : Adds db after user roles) (other : UserRow) :
    Joins db after other ↔ other = user := by
  have rows : ∀ row, row ∈ after.users ↔ row ∈ db.users ∨ row = user := by
    intro row
    rw [Table.mem_def, h.users, List.mem_append, List.mem_singleton, Table.mem_def]
  constructor
  · intro joins
    cases (rows other).mp joins.1 with
    | inl old => exact absurd rfl (joins.2 other old)
    | inr new => exact new
  · intro same
    rw [same]
    exact ⟨(rows user).mpr (Or.inr rfl), h.fresh⟩

/-- Everyone else keeps the same roles. -/
theorem Adds.rolesOf_other (h : Adds db after user roles) {userId : Int}
    (other : userId ≠ user.userId) : after.rolesOf userId = db.rolesOf userId := by
  have none : (roles.map fun role => (user.userId, role)).filter
      (fun grant => decide (grant.1 = userId)) = [] := by
    rw [List.filter_eq_nil_iff]
    intro grant granted
    obtain ⟨role, _, rfl⟩ := List.mem_map.mp granted
    simpa using Ne.symm other
  rw [Db.rolesOf, h.grants, List.filter_append, none, List.append_nil, Db.rolesOf]

/-- The new user has the new roles. -/
theorem Adds.rolesOf_own (h : Adds db after user roles) : after.rolesOf user.userId = roles := by
  have before : db.userRoles.rows.filter (fun grant => decide (grant.1 = user.userId)) = [] := by
    rw [List.filter_eq_nil_iff]
    intro grant granted same
    obtain ⟨owner, stored, own⟩ := db.roleOwners grant granted
    exact h.fresh owner stored (own.trans (of_decide_eq_true same))
  have all : (roles.map fun role => (user.userId, role)).filter
      (fun grant => decide (grant.1 = user.userId)) = roles.map fun role => (user.userId, role) := by
    rw [List.filter_eq_self]
    intro grant granted
    obtain ⟨role, _, rfl⟩ := List.mem_map.mp granted
    exact decide_eq_true rfl
  rw [Db.rolesOf, h.grants, List.filter_append, before, all, List.nil_append, List.map_map]
  exact List.map_id _

/-- ADMIN is held by who held it, and by the new user if it is among the new roles. -/
theorem Adds.isAdmin_iff (h : Adds db after user roles) (userId : Int) :
    IsAdmin after userId ↔ IsAdmin db userId ∨ userId = user.userId ∧ Role.admin ∈ roles := by
  unfold IsAdmin
  rw [Table.mem_def, h.grants, List.mem_append, Table.mem_def]
  apply or_congr Iff.rfl
  constructor
  · intro granted
    obtain ⟨role, member, same⟩ := List.mem_map.mp granted
    rw [Prod.mk.injEq] at same
    rw [← same.2]
    exact ⟨same.1.symm, member⟩
  · intro granted
    rw [granted.1]
    exact List.mem_map.mpr ⟨.admin, granted.2, rfl⟩

/-- Everyone stays. -/
theorem Adds.stays (h : Adds db after user roles) {other : UserRow} (stored : other ∈ db.users) :
    (∃ same ∈ after.users, same.userId = other.userId) ∧
      after.rolesOf other.userId = db.rolesOf other.userId := by
  refine ⟨⟨other, ?_, rfl⟩, h.rolesOf_other (h.fresh other stored)⟩
  rw [Table.mem_def, h.users]
  exact List.mem_append_left _ stored

/-- A user that joins with a role leaves nobody without one. -/
theorem Adds.everyoneHasRole (h : Adds db after user roles) (granted : roles ≠ [])
    (rooted : EveryoneHasRole db) : EveryoneHasRole after := by
  intro other stored
  rw [Table.mem_def, h.users, List.mem_append, List.mem_singleton] at stored
  cases stored with
  | inl old =>
    rw [h.rolesOf_other (h.fresh other old)]
    exact rooted other old
  | inr new =>
    rw [new, h.rolesOf_own]
    exact granted

/-- What `ps_user_store_insert` grants, as rows. -/
theorem rows_of_grants {userId : Int} {names : List Bytes} {roles : List Role} {db after : Db}
    (h : Grants userId names db after) (known : names.map UserStore.roleNamed = roles.map some) :
    after.userRoles.rows = db.userRoles.rows ++ roles.map fun role => (userId, role) := by
  induction names generalizing db roles with
  | nil =>
    have same : after = db := h
    rw [List.map_nil, eq_comm, List.map_eq_nil_iff] at known
    rw [same, known, List.map_nil, List.append_nil]
  | cons name names ih =>
    obtain ⟨role, granted, named, grants, rest⟩ := h
    cases roles with
    | nil => contradiction
    | cons first roles =>
      rw [List.map_cons, List.map_cons, List.cons.injEq, named] at known
      have rows := Table.rows_insert (tables_of_insertUserRole grants).1
      rw [ih rest known.2, rows, ← Option.some.inj known.1, List.append_assoc]
      rfl

/-- `ps_user_store_insert` adds a user with its roles. -/
theorem adds_of_addsUser {row : UserRow} {names : List Bytes} {roles : List Role} {now userId : Int}
    {db after : Db} (h : AddsUser row names now db userId after)
    (known : names.map UserStore.roleNamed = roles.map some) :
    Adds db after { row with userId, createdAt := now, updatedAt := now } roles where
  users := Table.rows_insert h.inserts
  grants := by
    obtain ⟨added, inserted, grants⟩ := h
    rw [rows_of_grants grants known, (tables_of_insertUser inserted).1]
  fresh := (Table.mem_insert h.inserts).2

end Joining

section Bootstrapping

variable {reliable : Prop}

/-- What a start leaves: one administrator more if there was none, or nothing new. -/
inductive Boots (db : Db) : Db → Prop where
  /-- Nothing new. -/
  | idle : Boots db db
  /-- The first administrator. -/
  | first (after : Db) (user : UserRow) (vacant : ∀ userId, ¬IsAdmin db userId)
    (active : user.status = .active) (adds : Adds db after user [.user, .admin]) : Boots db after

/-- The roles that the first administrator is given. -/
theorem administrator_roles :
    [ascii "USER", ascii "ADMIN"].map UserStore.roleNamed = [Role.user, Role.admin].map some := by
  decide

/-- The role that registration gives. -/
theorem registered_roles : [ascii "USER"].map UserStore.roleNamed = [Role.user].map some := by
  decide

/-- The transaction of `ps_bootstrap_admin` adds an administrator or nothing. -/
theorem bootstrap_write_spec (row : UserRow) (now : Int) (db : Db) :
    Sql.Leaves reliable (Bootstrap.write row now) db (Sql.AllOrNothing db fun _ after =>
      ∃ userId, Adds db after { row with userId, createdAt := now, updatedAt := now }
        [.user, .admin]) := by
  apply Sql.leaves_of_inside
  apply Sql.inside_bind (insert_spec _ _ _ _)
  intro result added adds
  cases result with
  | duplicateUsername => exact Sql.guarantees_giveUp
  | duplicateEmail => exact Sql.guarantees_giveUp
  | error => exact Sql.guarantees_giveUp
  | ok userId =>
    have joined := adds_of_addsUser (adds userId rfl) administrator_roles
    exact audited_spec ⟨userId, joined.users, joined.grants, joined.fresh⟩

/-- What the credentials lead to is a row with status ACTIVE. -/
theorem active_of_credentials {crypto : Crypto.Primitives} {config : Config}
    {denylist : Option (List Bytes)} {settings : Bootstrap.Settings}
    {salt : Option (Crypto.Drawn 16)} {row : UserRow}
    (accepted : Bootstrap.credentials crypto config denylist settings salt = .ok row) :
    row.status = .active := by
  simp only [Bootstrap.credentials, bind, Except.bind, pure, Except.pure, throw,
    throwThe, MonadExceptOf.throw] at accepted
  split at accepted
  · contradiction
  split at accepted
  · split at accepted
    · split at accepted
      · contradiction
      split at accepted
      · rw [← Except.ok.inj accepted]
        rfl
      · contradiction
    · contradiction
  · contradiction

/-- `ps_bootstrap_admin` adds an administrator where there is none, or changes nothing. -/
theorem bootstrap_spec (crypto : Crypto.Primitives) (config : Config)
    (denylist : Option (List Bytes)) (settings : Bootstrap.Settings)
    (salt : Option (Crypto.Drawn 16)) (now : Int) (db : Db) :
    Sql.Leaves reliable (Bootstrap.admin crypto config denylist settings salt now) db
      fun _ after => Boots db after := by
  have counted : Sql.Guarantees reliable Bootstrap.countAdmins db fun answer seen => seen = db ∧
      ∀ count, answer = some count →
        count = db.userRoles.count fun grant => grant.2 = .admin := by
    unfold Bootstrap.countAdmins Sql.query
    apply Sql.statement_spec
    · intro _
      exact ⟨rfl, fun _ impossible => by contradiction⟩
    · intro value after done
      cases done
      exact ⟨rfl, fun _ same => (Option.some.inj same).symm⟩
  apply counted.andThen
  intro answer seen reached
  rw [reached.1]
  cases answer with
  | none => exact Faulty.ensures_pure Boots.idle
  | some count =>
    dsimp only
    by_cases present : 0 < count
    · rw [if_pos present]
      exact Faulty.ensures_pure Boots.idle
    · rw [if_neg present]
      have vacant (userId : Int) : ¬IsAdmin db userId := by
        intro held
        apply present
        rw [reached.2 count rfl]
        exact Table.count_pos_iff.mpr ⟨_, held, rfl⟩
      cases accepted : Bootstrap.credentials crypto config denylist settings salt with
      | error result => exact Faulty.ensures_pure Boots.idle
      | ok row =>
        apply Sql.Leaves.andThen
        · refine (bootstrap_write_spec row now db).mono fun result after left => ?_
          cases result with
          | error reason =>
            have same : after = db := left
            rw [same]
            exact Boots.idle
          | ok _ =>
            obtain ⟨userId, adds⟩ := left
            have active : row.status = .active := active_of_credentials accepted
            exact Boots.first after { row with userId, createdAt := now, updatedAt := now } vacant
              active adds
        · intro result
          cases result with
          | ok _ => exact ⟨_, rfl⟩
          | error _ => exact ⟨_, rfl⟩

end Bootstrapping

section Life

variable {ctx : AppCtx}

/-- The users and their roles. -/
def roster (db : Db) : List Int × Table (Int × Role) (Int × Role) id :=
  (db.users.rows.map UserRow.userId, db.userRoles)

/-- What keeps the accounts keeps the users and their roles. -/
theorem roster_of_accounts {db after : Db} (same : accounts after = accounts db) :
    roster after = roster db :=
  congrArg (fun view => (view.1, view.2.1)) same

/-- With the same ids, a user is there after exactly if it was before. -/
theorem exists_user_iff {db after : Db} (same : roster after = roster db) (userId : Int) :
    (∃ user ∈ after.users, user.userId = userId) ↔ ∃ user ∈ db.users, user.userId = userId := by
  have ids : after.users.rows.map UserRow.userId = db.users.rows.map UserRow.userId :=
    congrArg Prod.fst same
  have listed := congrArg (userId ∈ ·) ids
  simp only [List.mem_map, eq_iff_iff] at listed
  exact listed

/-- With the same grants, the roles are the same. -/
theorem rolesOf_congr {db after : Db} (same : roster after = roster db) (userId : Int) :
    after.rolesOf userId = db.rolesOf userId := by
  have grants : after.userRoles = db.userRoles := congrArg Prod.snd same
  rw [Db.rolesOf, grants, Db.rolesOf]

/-- An event that keeps the users and their roles. -/
theorem RosterChange.of_same {server : Server} {event : LifeEvent} {after : Db}
    (same : roster after = roster server.db)
    (idle : ∀ boot, event = .restart boot → after = server.db) :
    RosterChange server event after := by
  have nobody (user : UserRow) (joins : Joins server.db after user) : False := by
    obtain ⟨other, stored, own⟩ := (exists_user_iff same user.userId).mp ⟨user, joins.1, rfl⟩
    exact joins.2 other stored own
  exact {
    stays := fun user stored =>
      ⟨(exists_user_iff same user.userId).mpr ⟨user, stored, rfl⟩, rolesOf_congr same user.userId⟩
    alone := fun first _ joins _ => (nobody first joins).elim
    joins := fun user joins => (nobody user joins).elim
    admins := Or.inl fun userId => by
      rw [IsAdmin, ← Db.mem_rolesOf, rolesOf_congr same, Db.mem_rolesOf, IsAdmin]
    idle := fun boot _ restarts _ => idle boot restarts }

/-- An event in which one user joins. -/
theorem RosterChange.of_adds {server : Server} {event : LifeEvent} {after : Db} {user : UserRow}
    {roles : List Role} (adds : Adds server.db after user roles)
    (may : MayJoin server user roles event) : RosterChange server event after where
  stays _ stored := adds.stays stored
  alone first second joinsFirst joinsSecond :=
    ((adds.joins_iff first).mp joinsFirst).trans ((adds.joins_iff second).mp joinsSecond).symm
  joins other joins := by
    rw [(adds.joins_iff other).mp joins, adds.rolesOf_own]
    exact may
  admins := by
    cases event with
    | turn handler =>
      refine Or.inl fun userId => ?_
      rw [adds.isAdmin_iff, may.2.2]
      simp
    | restart boot =>
      refine Or.inr ⟨boot, user, rfl, may.1, (adds.joins_iff user).mpr rfl, fun userId => ?_⟩
      rw [adds.isAdmin_iff, may.2.2]
      simp [may.1 userId]
    | request arrival => exact may.elim
    | maintenance settings now choices faults => exact may.elim
  idle boot userId restarts held := by
    rw [restarts] at may
    exact absurd held (may.1 userId)

/-- A registration adds a pending user with the role USER. -/
theorem adds_of_registerEffect {env : Env} {input : Register.Input} {db after : Db}
    {rawToken : Bytes} (effect : RegisterEffect ctx env input db rawToken after) :
    ∃ user, user.status = .pendingVerification ∧ Adds db after user [.user] := by
  obtain ⟨_, userId, added, issued, adds, inserted, rfl⟩ := effect
  have joined := adds_of_addsUser adds registered_roles
  have users := (Db.insertVerificationToken_eq_some inserted).2.1
  have grants : issued.userRoles = added.userRoles := userRoles_insertVerificationToken inserted
  refine ⟨{ Register.newRow input with userId, createdAt := env.now, updatedAt := env.now }, rfl, ?_,
    ?_, joined.fresh⟩
  · exact (congrArg Table.rows users).trans joined.users
  · exact (congrArg Table.rows grants).trans joined.grants

/-- A turn of a handler changes the users and their roles as it may. -/
theorem rosterChange_turn (server : Server) (handler : Nat) :
    RosterChange server (.turn handler) (server.step ctx handler).db := by
  unfold Server.step
  cases found : server.handlers[handler]? with
  | none => exact RosterChange.of_same rfl fun _ impossible => by contradiction
  | some running =>
    have change : AccountChange ctx server.db running.activity (running.act ctx server.db).1 :=
      Running.act_spec (activity_accountChange ctx running.activity server.db)
    have kept {after : Db} (same : roster after = roster server.db) :
        RosterChange server (.turn handler) after :=
      RosterChange.of_same same fun _ impossible => by contradiction
    dsimp only
    generalize (running.act ctx server.db).1 = after at change
    obtain ⟨activity, faults⟩ := running
    dsimp only at change
    cases change with
    | kept activity after same => exact kept (roster_of_accounts same)
    | registered env input rawToken after effect =>
      obtain ⟨user, pending, adds⟩ := adds_of_registerEffect effect
      exact RosterChange.of_adds adds ⟨⟨env, input, faults, found⟩, pending, rfl⟩
    | verified env tokenHash token =>
      have ids : (verifiedDb env tokenHash token.userId server.db).users.rows.map UserRow.userId =
          server.db.users.rows.map UserRow.userId :=
        Db.map_updateUsers _ _ _ UserRow.userId fun _ => rfl
      exact kept (Prod.ext ids rfl)
    | resent env email user rawToken after effect =>
      obtain ⟨_, issued, inserted, rfl⟩ := effect
      have users := (Db.insertVerificationToken_eq_some inserted).2.1
      have grants := userRoles_insertVerificationToken inserted
      exact kept (Prod.ext (congrArg (fun table => table.rows.map UserRow.userId) users) grants)
    | swept settings now choices targets selected expired => exact kept rfl

/-- An arriving request changes neither the users nor their roles: its handler only begins, or only
reads. -/
theorem rosterChange_request (server : Server) (arrival : Arrival) :
    RosterChange server (.request arrival) (server.next ctx (.arrives arrival)).db := by
  have same : roster (server.next ctx (.arrives arrival)).db = roster server.db := by
    unfold Server.next
    dsimp only
    cases arrival.dispatched ctx with
    | error result => rfl
    | ok handler =>
      dsimp only
      generalize arrival.begins ctx handler = call
      have reads {α : Type} {command : Sql α} (kept : Sql.Keeps accounts command) :
          roster (command (Conn.of server.db, arrival.faults)).2.1.committed = roster server.db :=
        roster_of_accounts (kept.committed False server.db arrival.faults (by simp)).1
      cases call with
      | activity activity => rfl
      | answered result => rfl
      | getUser env claims targetUserId =>
        apply reads
        apply Sql.keeps_bind _ fun _ => Sql.keeps_pure _
        apply Sql.keeps_bind (Sql.keeps_lookup _)
        intro found
        cases found with
        | none => exact Sql.keeps_pure _
        | some user =>
          apply Sql.keeps_ite (Sql.keeps_pure _)
          exact Sql.keeps_bind (accounts_audit _) fun _ => Sql.keeps_pure _
      | countUsers =>
        apply reads
        apply Sql.keeps_bind _ fun _ => Sql.keeps_pure _
        apply Sql.keeps_bind (Sql.keeps_query _)
        intro counted
        cases counted with
        | none => exact Sql.keeps_pure _
        | some count => exact Sql.keeps_pure _
      | listUsers env claims page =>
        apply reads
        apply Sql.keeps_bind _ fun _ => Sql.keeps_pure _
        apply Sql.keeps_bind (Sql.keeps_query _)
        intro listed
        cases listed with
        | none => exact Sql.keeps_pure _
        | some rows => exact Sql.keeps_bind (accounts_audit _) fun _ => Sql.keeps_pure _
  exact RosterChange.of_same same fun _ impossible => by contradiction

/-- A restart changes the users and their roles as it may. -/
theorem rosterChange_restart (server : Server) (boot : Boot) :
    RosterChange server (.restart boot) (boots ctx boot server.db) := by
  have spec : Sql.Leaves False (Bootstrap.admin ctx.crypto ctx.config ctx.passwordDenylist
      boot.settings boot.salt boot.now) server.db fun _ after => Boots server.db after :=
    bootstrap_spec ctx.crypto ctx.config ctx.passwordDenylist boot.settings boot.salt boot.now
      server.db
  have booted : Boots server.db (boots ctx boot server.db) := (spec boot.faults (by simp)).1
  generalize boots ctx boot server.db = after at booted
  cases booted with
  | idle => exact RosterChange.of_same rfl fun _ _ => rfl
  | first after user vacant active adds => exact RosterChange.of_adds adds ⟨vacant, active, rfl⟩

/-- An event changes the users and their roles as it may. -/
theorem rosterChange_next (ctx : AppCtx) (server : Server) (event : LifeEvent) :
    RosterChange server event (next ctx server event).db := by
  cases event with
  | request arrival => exact rosterChange_request server arrival
  | turn handler => exact rosterChange_turn server handler
  | maintenance settings now choices faults =>
    exact RosterChange.of_same rfl fun _ impossible => by contradiction
  | restart boot => exact rosterChange_restart server boot

/-- A change that is allowed leaves nobody without a role. -/
theorem RosterChange.everyoneHasRole {server : Server} {event : LifeEvent} {after : Db}
    (h : RosterChange server event after) (rooted : EveryoneHasRole server.db) :
    EveryoneHasRole after := by
  intro user stored
  by_cases old : ∃ other ∈ server.db.users, other.userId = user.userId
  · obtain ⟨other, member, same⟩ := old
    rw [← same, (h.stays other member).2]
    exact rooted other member
  · have may := h.joins user ⟨stored, fun other member same => old ⟨other, member, same⟩⟩
    cases event with
    | turn handler =>
      rw [may.2.2]
      simp
    | restart boot =>
      rw [may.2.2]
      simp
    | request arrival => exact may.elim
    | maintenance settings now choices faults => exact may.elim

/-- In every life of the service usernames and addresses stay unique and everyone has a role, and every
event changes the users and their roles only as it may. -/
theorem roster_of_life (ctx : AppCtx) (start : Db) (rooted : EveryoneHasRole start)
    (events : List LifeEvent) :
    (((life ctx start events).db.users.rows.map fun user => nocase user.username).Nodup ∧
      ((life ctx start events).db.users.rows.map UserRow.emailNormalized).Nodup ∧
      EveryoneHasRole (life ctx start events).db) ∧
    ∀ before event rest, events = before ++ event :: rest →
      RosterChange (life ctx start before) event (life ctx start (before ++ [event])).db := by
  have hasRole : EveryoneHasRole (life ctx start events).db := by
    induction events using List.reverseRecOn with
    | nil => exact rooted
    | append_singleton events event ih =>
      rw [life_concat]
      exact (rosterChange_next ctx _ event).everyoneHasRole ih
  refine ⟨⟨Db.usernames _, Db.emails _, hasRole⟩, fun before event rest _ => ?_⟩
  rw [life_concat]
  exact rosterChange_next ctx _ event

end Life

/-- A start with credentials for an administrator. -/
def firstBoot : Boot where
  settings := ⟨ascii "root", ascii "root@example.org", ascii "correct horse"⟩
  salt := some (Deployment.sixteen 34)
  now := 1000

/-- A registration that asks for more than it may get. -/
def greedyRegistration : Arrival where
  now := 2000
  routeId := RouteId.register.number
  request := { Deployment.post "/v1/auth/register" "" with
    body := some [ascii "\x7b\"username\":\"mallory\",", ascii "\"email\":\"m@example.org\",",
      ascii "\"password\":\"new horse staple\",", ascii "\"roles\":[\"USER\",\"ADMIN\"],",
      ascii "\"status\":\"ACTIVE\",", ascii "\"userId\":1\x7d"].flatten }
  params := []
  env := Deployment.env 2000 1 1

/-- After the first start, a greedy registration and another start there is one administrator, and a
pending user with the role USER. -/
theorem roster_of_first_life :
    let events := [.restart firstBoot, .request greedyRegistration, .turn 0, .restart firstBoot]
    let db := (life Deployment.ctx Db.initial events).db
    db.users.rows.map UserRow.status = [.active, .pendingVerification] ∧
      db.userRoles.rows = [(1, .user), (1, .admin), (2, .user)] ∧ EveryoneHasRole db := by
  refine ⟨by decide +kernel, by decide +kernel, ?_⟩
  have rooted : EveryoneHasRole Db.initial := fun user stored => absurd stored (Table.not_mem_empty user)
  exact (roster_of_life Deployment.ctx Db.initial rooted _).1.2.2

end PlatformService.Verif.Roster
