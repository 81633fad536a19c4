import PlatformService.Lib.Relate
import PlatformService.Verif.Authorization

/-!
# Email addresses are for their owners

Two databases are alike for a user if they differ at most in the email columns of the
other users. The routes that read users run statement by statement on two such
databases with the same answers, and leave databases that are alike again, down to
the audit rows: a row is found in both or in neither, what an administrator sees of
another user has no email, and a page is cut by row numbers alone.
-/

namespace PlatformService.Verif.EmailPrivacy

open Lib Store Api

/-- A row as far as a user may see it: the addresses of others are blanked. -/
def visible (userId : Int) (user : UserRow) : UserRow :=
  if user.userId = userId then user else { user with email := [], emailNormalized := [] }

/-- Two databases that differ at most in the addresses of other users. -/
structure Alike (userId : Int) (left right : Db) : Prop where
  users : left.users.rows.map (visible userId) = right.users.rows.map (visible userId)
  userRoles : left.userRoles = right.userRoles
  emailVerificationTokens : left.emailVerificationTokens = right.emailVerificationTokens
  sessionFamilies : left.sessionFamilies = right.sessionFamilies
  refreshTokens : left.refreshTokens = right.refreshTokens
  devOutbox : left.devOutbox = right.devOutbox
  auditLog : left.auditLog = right.auditLog

/-- Two connections in autocommit mode on databases that are alike. -/
def AlikeConns (userId : Int) (left right : Conn) : Prop :=
  left.undo = [] ∧ right.undo = [] ∧ Alike userId left.db right.db

/-- Two runs with the same answer that leave databases that are alike. -/
def SameAnswer {α : Type} (userId : Int) (answer answer' : α) (left right : Conn) : Prop :=
  answer = answer' ∧ AlikeConns userId left right

section Rows

variable {userId : Int}

/-- The row number is visible. -/
@[simp]
theorem userId_visible (user : UserRow) : (visible userId user).userId = user.userId := by
  unfold visible
  split
  · rfl
  · rfl

/-- The name is visible. -/
@[simp]
theorem username_visible (user : UserRow) : (visible userId user).username = user.username := by
  unfold visible
  split
  · rfl
  · rfl

/-- A row is found in both databases or in neither, and what is visible of it is the same. -/
theorem Alike.find {left right : Db} (alike : Alike userId left right) (target : Int) :
    (left.users.find? target).map (visible userId) =
      (right.users.find? target).map (visible userId) := by
  have blind : (fun user : UserRow => decide (user.userId = target)) =
      (fun user => decide (user.userId = target)) ∘ visible userId := by
    funext user
    rw [Function.comp_apply, userId_visible]
  unfold Table.find?
  rw [blind, ← List.find?_map, ← List.find?_map, alike.users]

/-- A user's own row is the same in both databases. -/
theorem Alike.find_own {left right : Db} (alike : Alike userId left right) :
    left.users.find? userId = right.users.find? userId := by
  have whole : ∀ db : Db, (db.users.find? userId).map (visible userId) = db.users.find? userId := by
    intro db
    cases found : db.users.find? userId with
    | none => rfl
    | some user =>
      have own : user.userId = userId := (Table.find?_eq_some_iff.mp found).2
      unfold visible
      rw [Option.map_some, if_pos own]
  rw [← whole left, ← whole right]
  exact alike.find userId

/-- A page is cut by row numbers, and holds no address. -/
theorem Alike.page {left right : Db} (alike : Alike userId left right) (afterId : Int) (limit : Nat) :
    (((left.users.rows.filter fun user => afterId < user.userId).mergeSort
        fun first second => first.userId ≤ second.userId).take limit).map
          (fun user => (⟨user.userId, cString user.username⟩ : UserStore.BriefRow)) =
      (((right.users.rows.filter fun user => afterId < user.userId).mergeSort
        fun first second => first.userId ≤ second.userId).take limit).map
          fun user => ⟨user.userId, cString user.username⟩ := by
  have cut : ∀ rows : List UserRow,
      (((rows.filter fun user => afterId < user.userId).mergeSort
        fun first second => first.userId ≤ second.userId).take limit).map
          (fun user => (⟨user.userId, cString user.username⟩ : UserStore.BriefRow)) =
      ((((rows.map (visible userId)).filter fun user => afterId < user.userId).mergeSort
        fun first second => first.userId ≤ second.userId).take limit).map
          fun user => ⟨user.userId, cString user.username⟩ := by
    intro rows
    have brief : (fun user : UserRow => (⟨user.userId, cString user.username⟩ : UserStore.BriefRow)) =
        (fun user => ⟨user.userId, cString user.username⟩) ∘ visible userId := by
      funext user
      rw [Function.comp_apply, userId_visible, username_visible]
    have following : (fun user : UserRow => decide (afterId < user.userId)) =
        (fun user => decide (afterId < user.userId)) ∘ visible userId := by
      funext user
      rw [Function.comp_apply, userId_visible]
    conv_lhs => rw [brief, ← List.map_map, following]
    rw [List.map_take, List.filter_map]
    congr 2
    apply List.map_mergeSort
    intro first _ second _
    rw [userId_visible, userId_visible]
  rw [cut left.users.rows, cut right.users.rows, alike.users]

end Rows

section Handlers

variable {α β : Type} {userId : Int}

/-- A query whose answer is the same as far as it is visible. -/
theorem query_relates {read : Db → α} (shown : α → β)
    (same : ∀ left right, Alike userId left right → shown (read left) = shown (read right)) :
    Faulty.Relates False (AlikeConns userId) (Sql.query read) (Sql.query read)
      fun answer answer' left right =>
        answer.map shown = answer'.map shown ∧ AlikeConns userId left right := by
  unfold Sql.query Sql.statement
  apply Faulty.relates_attempt
  · intro _ left right alike
    exact ⟨rfl, alike⟩
  · intro left right alike
    exact ⟨congrArg some (same left.db right.db alike.2.2), alike⟩

/-- Databases that are alike are so with one more audit row. -/
theorem Alike.insertAudit {left right : Db} (alike : Alike userId left right) (entry : AuditEntry) :
    Alike userId (left.insertAudit entry) (right.insertAudit entry) := by
  refine ⟨alike.users, alike.userRoles, alike.emailVerificationTokens, alike.sessionFamilies,
    alike.refreshTokens, alike.devOutbox, ?_⟩
  have logs := alike.auditLog
  unfold Db.insertAudit
  dsimp only
  rw [logs]

/-- An audit row is written to both databases, or to neither. -/
theorem audit_relates (entry : AuditEntry) :
    Faulty.Relates False (AlikeConns userId) (AuditStore.write entry) (AuditStore.write entry)
      (SameAnswer userId) := by
  have written : Faulty.Relates False (AlikeConns userId)
      (Sql.statement fun db => some ((), db.insertAudit entry))
      (Sql.statement fun db => some ((), db.insertAudit entry)) (SameAnswer userId) := by
    unfold Sql.statement
    apply Faulty.relates_attempt
    · intro _ left right alike
      exact ⟨rfl, alike⟩
    · intro left right alike
      exact ⟨rfl, alike.1, alike.2.1, alike.2.2.insertAudit entry⟩
  apply Faulty.relates_bind written
  intro answer answer'
  apply Faulty.relates_pure
  intro left right same
  exact ⟨congrArg Option.isSome same.1, same.2⟩

/-- Two runs that return the same answer. -/
theorem return_relates (answer : α) :
    Faulty.Relates False (AlikeConns userId) (pure answer) (pure answer) (SameAnswer userId) :=
  Faulty.relates_pure fun _ _ alike => ⟨rfl, alike⟩

/-- An audit row whose failure is ignored, and an answer. -/
theorem audited_relates (entry : AuditEntry) (answer : α) :
    Faulty.Relates False (AlikeConns userId)
      (do let _ ← AuditStore.write entry; return answer)
      (do let _ ← AuditStore.write entry; return answer) (SameAnswer userId) := by
  apply Faulty.relates_bind (audit_relates entry)
  intro _ _
  apply Faulty.relates_pure
  intro left right same
  exact ⟨rfl, same.2⟩

/-- A lookup, and what follows it wherever the rows it found are the same as far as is visible. -/
theorem lookup_relates {read : Db → α} (shown : α → β) {next : Option α → Sql HandlerResult}
    (same : ∀ left right, Alike userId left right → shown (read left) = shown (read right))
    (continues : ∀ answer answer', answer.map shown = answer'.map shown →
      Faulty.Relates False (AlikeConns userId) (next answer) (next answer') (SameAnswer userId)) :
    Faulty.Relates False (AlikeConns userId) (Sql.query read >>= next) (Sql.query read >>= next)
      (SameAnswer userId) := by
  apply Faulty.relates_bind (query_relates shown same)
  intro answer answer' left right faults none related
  exact continues answer answer' related.1 left right faults none related.2

/-- What an administrator sees of a row is visible. -/
theorem writeAdmin_visible (user : UserRow) :
    Users.writeAdmin (visible userId user) = Users.writeAdmin user := by
  unfold Users.writeAdmin
  rw [userId_visible, username_visible]

/-- `ps_user_handle_get_user` -/
theorem getUser_relates (env : Env) (claims : Claims) (target : Int) :
    Faulty.Relates False (AlikeConns claims.userId) (Users.getUser env claims target)
      (Users.getUser env claims target) (SameAnswer claims.userId) := by
  unfold Users.getUser UserStore.getById
  rw [bind_assoc]
  by_cases own : claims.userId = target
  · apply lookup_relates id
    · intro left right alike
      rw [← own]
      exact alike.find_own
    · intro answer answer' same
      rw [Option.map_id_fun, id, id] at same
      rw [same, pure_bind]
      cases answer'.join with
      | none => exact return_relates _
      | some user =>
        dsimp only
        rw [if_pos own]
        exact return_relates _
  · apply lookup_relates (Option.map (visible claims.userId))
    · intro left right alike
      exact alike.find target
    · intro answer answer' same
      have rows : answer.join.map (visible claims.userId) = answer'.join.map (visible claims.userId) := by
        rw [← Option.join_map_eq_map_join, ← Option.join_map_eq_map_join, same]
      rw [pure_bind, pure_bind]
      cases found : answer.join with
      | none =>
        rw [found] at rows
        have none' : answer'.join = none := Option.map_eq_none_iff.mp rows.symm
        rw [none']
        exact return_relates _
      | some user =>
        rw [found, Option.map_some] at rows
        obtain ⟨user', found', same'⟩ := Option.map_eq_some_iff.mp rows.symm
        rw [found']
        dsimp only
        rw [if_neg own, if_neg own, ← writeAdmin_visible user, ← same', writeAdmin_visible]
        exact audited_relates _ _

/-- `ps_admin_handle_count_users` -/
theorem countUsers_relates :
    Faulty.Relates False (AlikeConns userId) Admin.countUsers Admin.countUsers
      (SameAnswer userId) := by
  apply lookup_relates id
  · intro left right alike
    have sizes := congrArg List.length alike.users
    rwa [List.length_map, List.length_map] at sizes
  · intro answer answer' same
    rw [Option.map_id_fun, id, id] at same
    rw [same]
    cases answer' with
    | none => exact return_relates _
    | some count => exact return_relates _

/-- `ps_admin_handle_list_users` -/
theorem listUsers_relates (env : Env) (claims : Claims) (page : Admin.Page) :
    Faulty.Relates False (AlikeConns userId) (Admin.listUsers env claims page)
      (Admin.listUsers env claims page) (SameAnswer userId) := by
  apply lookup_relates id
  · intro left right alike
    exact alike.page page.afterId page.limit
  · intro answer answer' same
    rw [Option.map_id_fun, id, id] at same
    rw [same]
    cases answer' with
    | none => exact return_relates _
    | some rows => exact audited_relates _ _

end Handlers

section Routes

variable {userId : Int}

/-- The routes that read users. -/
def readsUsers : RouteId → Bool
  | .getUser | .adminCountUsers | .adminListUsers => true
  | _ => false

/-- The answer to a call is the answer of the SQL it makes. -/
theorem returned_relates {command : Sql HandlerResult}
    (related : Faulty.Relates False (AlikeConns userId) command command (SameAnswer userId)) :
    Faulty.Relates False (AlikeConns userId) (do return some (← command))
      (do return some (← command)) (SameAnswer userId) := by
  apply Faulty.relates_bind related
  intro result result'
  apply Faulty.relates_pure
  intro left right same
  exact ⟨congrArg some same.1, same.2⟩

/-- The policy of a route is found under its number. -/
theorem policy_of_route {route : RouteId} (reads : readsUsers route = true) :
    ∃ policy, Rbac.policyForRoute route.number = some policy ∧ policy.routeId = route ∧
      policy.kind ≠ .anyone := by
  cases route with
  | getUser => exact ⟨⟨.getUser, .selfOrRole, Rbac.roleAdmin⟩, by decide, rfl, by decide⟩
  | adminCountUsers => exact ⟨⟨.adminCountUsers, .role, Rbac.roleAdmin⟩, by decide, rfl, by decide⟩
  | adminListUsers => exact ⟨⟨.adminListUsers, .role, Rbac.roleAdmin⟩, by decide, rfl, by decide⟩
  | _ => contradiction

/-- A request to one of these routes, with a token of a user, is answered alike. -/
theorem answer_relates {ctx : AppCtx} {arrival : Arrival} {claims : Claims} {route : RouteId}
    (verified : authenticateBearer ctx arrival.request arrival.now = some claims)
    (routed : arrival.routeId = route.number) (reads : readsUsers route = true) :
    Faulty.Relates False (AlikeConns claims.userId) (arrival.answer ctx) (arrival.answer ctx)
      (SameAnswer claims.userId) := by
  unfold Arrival.answer
  cases dispatched : arrival.dispatched ctx with
  | error result => exact return_relates _
  | ok handler =>
    obtain ⟨row, listed, named, restricted⟩ := policy_of_route reads
    obtain ⟨policy, found, reached⟩ := Authorization.dispatch_eq_ok dispatched
    rw [routed, listed] at found
    cases found
    obtain ⟨holder, target, authenticated, called, _⟩ := reached restricted
    rw [verified] at authenticated
    cases authenticated
    rw [named] at called
    dsimp only
    rw [called]
    cases route with
    | getUser => exact returned_relates (getUser_relates arrival.env claims target)
    | adminCountUsers => exact returned_relates countUsers_relates
    | adminListUsers =>
      dsimp only [Arrival.begins, handlerOf, Handler.start]
      cases Admin.page arrival.request.query with
      | error result => exact return_relates _
      | ok page => exact returned_relates (listUsers_relates arrival.env claims page)
    | _ => contradiction

end Routes

/-- Email addresses are disclosed only to their owner. -/
theorem emails_only_to_owner {ctx : AppCtx} {arrival : Arrival} {claims : Claims} {route : RouteId}
    (verified : authenticateBearer ctx arrival.request arrival.now = some claims)
    (routed : arrival.routeId = route.number) (reads : readsUsers route = true) {left right : Db}
    (alike : Alike claims.userId left right) :
    let answered (db : Db) := arrival.answer ctx (Conn.of db, arrival.faults)
    (answered left).1 = (answered right).1 ∧
      (answered left).2.1.committed.auditLog = (answered right).2.1.committed.auditLog := by
  have related := answer_relates verified routed reads (Conn.of left) (Conn.of right) arrival.faults
    False.elim ⟨rfl, rfl, alike⟩
  obtain ⟨⟨same, closed, closed', after⟩, _⟩ := related
  refine ⟨same, ?_⟩
  unfold Conn.committed
  rw [closed, closed']
  exact after.auditLog

/-- The payload of an access token of the first user, with both roles. -/
def payload : Bytes :=
  [ascii "\x7b\"iss\":\"platformservice\",", ascii "\"sub\":\"1\",",
    ascii "\"aud\":\"platformservice-api\",", ascii "\"exp\":1900,\"iat\":1000,", ascii "\"nbf\":1000,",
    ascii "\"jti\":\"01010101", ascii "010101010101010101010101\",", ascii "\"family_id\":\"01010101",
    ascii "010101010101010101010101\",", ascii "\"roles\":[\"USER\",\"ADMIN\"]\x7d"].flatten

/-- The access token. -/
def token : Bytes :=
  Jwt.headerB64 ++ [46] ++ Base64url.encode payload ++ [46] ++
    Base64url.encode Authorization.Sample.signature

/-- The sample database with a second user, of some address. -/
def secondUser (email : String) : Db :=
  ((Authorization.Sample.database.insertUser
    { Deployment.alice .active with
      username := ascii "bob"
      email := ascii email
      emailNormalized := ascii email }).map Prod.snd).getD Authorization.Sample.database

/-- A request of the first user for the record of the second. -/
def readSecond : Arrival :=
  { Authorization.Sample.count with
    routeId := RouteId.getUser.number
    request := { Deployment.post "/v1/users/+02" "" with
      method := ascii "GET"
      headers := [⟨ascii "Authorization", ascii "Bearer " ++ token⟩] }
    params := [⟨ascii "userId", ascii "+02"⟩] }

/-- An administrator reads the record of another user, and sees no address in it. -/
theorem administrator_sees_no_email :
    ((readSecond.answer Authorization.Sample.ctx
        (Conn.of (secondUser "bob@example.org"), [])).1.map HandlerResult.status) = some 200 ∧
      (readSecond.answer Authorization.Sample.ctx (Conn.of (secondUser "bob@example.org"), [])).1 =
        (readSecond.answer Authorization.Sample.ctx (Conn.of (secondUser "b@example.net"), [])).1 := by
  refine ⟨by decide +kernel, ?_⟩
  have verified : (authenticateBearer Authorization.Sample.ctx readSecond.request
      readSecond.now).map Claims.userId = some 1 := by decide +kernel
  have routed : readSecond.routeId = RouteId.getUser.number := rfl
  obtain ⟨claims, authenticated, first⟩ := Option.map_eq_some_iff.mp verified
  have alike : Alike claims.userId (secondUser "bob@example.org") (secondUser "b@example.net") := by
    rw [first]
    exact ⟨by decide +kernel, by decide +kernel, by decide +kernel, by decide +kernel,
      by decide +kernel, by decide +kernel, by decide +kernel⟩
  exact (emails_only_to_owner authenticated routed rfl alike).1

end PlatformService.Verif.EmailPrivacy
