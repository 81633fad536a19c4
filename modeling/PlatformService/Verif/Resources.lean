import PlatformService.Api.Resources
import PlatformService.Verif.Deployment

/-!
# What handlers lease, they return

Every handler is balanced: by the rules below each of its paths gives back its connection
and its KDF slot. So what its runs take and give is in order, and threads that run
handlers side by side share the pool and the semaphore like a stock that is lent.
-/

namespace PlatformService.Verif.Resources

open Api Lib Lib.Leasing Store

/-! ## One handler -/

section Rules

variable {α β : Type} {held : Held Nat} {ends : β → Held Nat → Prop}

/-- A program that has no connection may take one. -/
theorem acquires {next : Nat → Leased β} (free : held.item = none)
    (rest : ∀ conn, (next conn).Balanced { held with item := some conn } ends) :
    (acquireConn >>= next).Balanced held ends := ⟨free, rest⟩

/-- SQL on the connection held answers anything. -/
theorem issues {conn : Nat} {command : Sql α} {next : α → Leased β} (has : held.item = some conn)
    (rest : ∀ value, (next value).Balanced held ends) :
    (onConn conn command >>= next).Balanced held ends := ⟨has, rest⟩

/-- An allocation succeeds or fails. -/
theorem allocates {next : Bool → Leased β} (rest : ∀ success, (next success).Balanced held ends) :
    (allocated >>= next).Balanced held ends := rest

/-- A program that has no slot may try to take one. -/
theorem triesSlot {next : Bool → Leased β} (free : held.permit = false)
    (granted : (next true).Balanced { held with permit := true } ends)
    (refused : (next false).Balanced held ends) :
    (tryAcquireSlot >>= next).Balanced held ends := ⟨free, granted, refused⟩

/-- A program gives back the slot it has. -/
theorem returnsSlot {next : Unit → Leased β} (has : held.permit = true)
    (rest : (next ()).Balanced { held with permit := false } ends) :
    (releaseSlot >>= next).Balanced held ends := ⟨has, rest⟩

/-- A program that changes nothing of what is held, before another. -/
theorem neutral_bind {program : Leased α} {next : α → Leased β}
    (neutral : program.Balanced held fun _ after => after = held)
    (rest : ∀ value, (next value).Balanced held ends) : (program >>= next).Balanced held ends := by
  refine balanced_bind.mpr (neutral.mono fun value after same => ?_)
  rw [same]
  exact rest value

/-- An answer, where nothing is held. -/
theorem answers {result : β} : (pure result : Leased β).Balanced Held.nothing EmptyHanded := rfl

/-- The last release, and an answer. -/
theorem closes {conn : Nat} {result : β} :
    (releaseConn conn >>= fun _ => (pure result : Leased β)).Balanced ⟨some conn, false⟩
      EmptyHanded := ⟨rfl, rfl⟩

/-- A `COMMIT` that may be refused. -/
theorem commits {conn : Nat} {refused : β} {rest : Leased β}
    (ending : rest.Balanced ⟨some conn, false⟩ EmptyHanded) :
    (onConn conn Sql.commit >>= fun committed =>
      if (!committed) = true then releaseConn conn >>= fun _ => pure refused
      else rest).Balanced ⟨some conn, false⟩ EmptyHanded := by
  refine issues rfl fun committed => ?_
  split
  · exact closes
  · exact ending

/-- Parsing a body leases nothing. -/
theorem neutral_parsedBody (body : Bytes) :
    (parsedBody body).Balanced held fun _ after => after = held := by
  refine allocates fun success => ?_
  split
  · exact rfl
  · exact rfl

/-- Reading a token leases nothing. -/
theorem neutral_presentedToken (ctx : AppCtx) (body : Bytes) (key : String)
    (malformed : HandlerResult) :
    (presentedToken ctx body key malformed).Balanced held fun _ after => after = held := by
  refine neutral_bind (neutral_parsedBody body) fun parsed => ?_
  cases parsed with
  | error refusal => exact rfl
  | ok object =>
    dsimp only
    split
    · refine allocates fun success => ?_
      split
      · exact rfl
      split
      · split
        · exact rfl
        · exact rfl
      · exact rfl
    · exact rfl

end Rules

variable (ctx : AppCtx) (env : Env) (claims : Claims) (body : Bytes)

/-- Telling the owner of an address keeps the connection. -/
theorem neutral_notifyDuplicate (conn : Nat) (emailNormalized : Bytes) :
    (Register.notifyDuplicate conn env emailNormalized).Balanced ⟨some conn, false⟩
      fun _ after => after = ⟨some conn, false⟩ := by
  refine issues rfl fun found => ?_
  refine issues rfl fun audited => ?_
  split
  · exact issues rfl fun _ => rfl
  · exact rfl

/-- A registration that uses the database. -/
theorem balanced_register_admitted (input : Register.Input) :
    (Register.handleAdmitted ctx env input).Balanced Held.nothing EmptyHanded := by
  refine acquires rfl fun conn => ?_
  refine issues rfl fun begun => ?_
  split
  · exact closes
  refine issues rfl fun inserted => ?_
  cases inserted with
  | duplicateUsername => exact issues rfl fun _ => closes
  | duplicateEmail =>
    refine issues rfl fun _ => ?_
    exact neutral_bind (neutral_notifyDuplicate env conn _) fun _ => closes
  | error => exact issues rfl fun _ => closes
  | ok userId =>
    refine issues rfl fun inserted => ?_
    cases inserted with
    | none => exact issues rfl fun _ => closes
    | some rawToken =>
      refine issues rfl fun audited => ?_
      split
      · exact issues rfl fun _ => closes
      exact commits (issues rfl fun _ => closes)

/-- Registration. -/
theorem balanced_register :
    (Register.handle ctx env body).Balanced Held.nothing EmptyHanded := by
  unfold Register.handle
  dsimp only
  split
  · exact answers
  refine neutral_bind (neutral_parsedBody body) fun parsed => ?_
  cases parsed with
  | error refusal => exact answers
  | ok object =>
    dsimp only
    split
    · split
      · split
        · split
          · split
            · refine allocates fun success => ?_
              split
              · exact answers
              split
              · exact answers
              refine triesSlot rfl ?_ answers
              refine returnsSlot rfl ?_
              split
              · exact balanced_register_admitted ctx env _
              · exact answers
            · exact answers
          · exact answers
        · exact answers
      · exact answers
    · exact answers

/-- Verification. -/
theorem balanced_verify : (Verify.handle ctx env body).Balanced Held.nothing EmptyHanded := by
  refine neutral_bind (neutral_presentedToken ctx body _ _) fun presented => ?_
  cases presented with
  | error refusal => exact answers
  | ok tokenHash =>
    refine acquires rfl fun conn => ?_
    refine issues rfl fun found => ?_
    split
    · refine issues rfl fun begun => ?_
      split
      · exact closes
      refine issues rfl fun written => ?_
      cases written with
      | error _ => exact issues rfl fun _ => closes
      | ok _ => exact commits closes
    · exact issues rfl fun _ => closes

/-- A resend that issues a token. -/
theorem balanced_resend_pending (conn : Nat) (user : UserRow) :
    (Resend.handlePending ctx env conn user).Balanced ⟨some conn, false⟩ EmptyHanded := by
  refine issues rfl fun begun => ?_
  split
  · exact closes
  refine issues rfl fun written => ?_
  cases written with
  | error _ => exact issues rfl fun _ => closes
  | ok rawToken => exact commits (issues rfl fun _ => closes)

/-- The audit row of a refused resend keeps the connection. -/
theorem neutral_auditRefusal (conn : Nat) (userId : Option Int) (reason : String) :
    (Resend.auditRefusal conn env userId reason).Balanced ⟨some conn, false⟩
      fun _ after => after = ⟨some conn, false⟩ :=
  issues rfl fun _ => rfl

/-- A resend that uses the database. -/
theorem balanced_resend_admitted (emailNormalized : Bytes) :
    (Resend.handleAdmitted ctx env emailNormalized).Balanced Held.nothing EmptyHanded := by
  refine acquires rfl fun conn => ?_
  refine issues rfl fun found => ?_
  split
  · split
    · exact neutral_bind (neutral_auditRefusal env conn _ _) fun _ => closes
    refine issues rfl fun recentMinute => ?_
    split
    · refine issues rfl fun recentDay => ?_
      split
      · split
        · exact neutral_bind (neutral_auditRefusal env conn _ _) fun _ => closes
        · exact balanced_resend_pending ctx env conn _
      · exact closes
    · exact closes
  · exact neutral_bind (neutral_auditRefusal env conn _ _) fun _ => closes

/-- Resending. -/
theorem balanced_resend : (Resend.handle ctx env body).Balanced Held.nothing EmptyHanded := by
  refine neutral_bind (neutral_parsedBody body) fun parsed => ?_
  cases parsed with
  | error refusal => exact answers
  | ok object =>
    dsimp only
    split
    · split
      · exact balanced_resend_admitted ctx env _
      · exact answers
    · exact answers

/-- A refused login. -/
theorem balanced_login_refused (conn : Nat) (found : Option UserRow) (passwordOk : Bool) :
    (Login.handleRefused ctx env conn found passwordOk).Balanced ⟨some conn, false⟩
      EmptyHanded := by
  refine issues rfl fun begun => ?_
  split
  · exact closes
  refine issues rfl fun written => ?_
  cases written with
  | error _ => exact issues rfl fun _ => closes
  | ok _ => exact commits closes

/-- An accepted login. -/
theorem balanced_login_accepted (conn : Nat) (user : UserRow) :
    (Login.handleAccepted ctx env conn user).Balanced ⟨some conn, false⟩ EmptyHanded := by
  refine issues rfl fun begun => ?_
  split
  · exact closes
  refine issues rfl fun written => ?_
  cases written with
  | error _ => exact issues rfl fun _ => closes
  | ok session => exact commits (issues rfl fun _ => closes)

/-- A login with its KDF slot. -/
theorem balanced_login_admitted (input : Login.Input) :
    (Login.handleAdmitted ctx env input).Balanced ⟨none, true⟩ EmptyHanded := by
  refine acquires rfl fun conn => ?_
  refine issues rfl fun found => ?_
  refine returnsSlot rfl ?_
  split
  · exact balanced_login_refused ctx env conn _ _
  · exact balanced_login_accepted ctx env conn _

/-- Login. -/
theorem balanced_login : (Login.handle ctx env body).Balanced Held.nothing EmptyHanded := by
  unfold Login.handle
  dsimp only
  split
  · exact answers
  refine neutral_bind (neutral_parsedBody body) fun parsed => ?_
  cases parsed with
  | error refusal => exact answers
  | ok object =>
    dsimp only
    split
    · split
      · split
        · exact answers
        · exact triesSlot rfl (balanced_login_admitted ctx env _) answers
      · exact answers
    · exact answers

/-- Refresh. -/
theorem balanced_refresh : (Refresh.handle ctx env body).Balanced Held.nothing EmptyHanded := by
  refine neutral_bind (neutral_presentedToken ctx body _ _) fun presented => ?_
  cases presented with
  | error refusal => exact answers
  | ok tokenHash =>
    refine acquires rfl fun conn => ?_
    refine issues rfl fun begun => ?_
    split
    · exact closes
    refine issues rfl fun outcome => ?_
    obtain ⟨result, refreshed⟩ := outcome
    dsimp only
    split
    · exact issues rfl fun _ => closes
    refine issues rfl fun audited => ?_
    split
    · exact issues rfl fun _ => closes
    refine commits ?_
    split
    · exact closes
    · exact issues rfl fun _ => closes

/-- Logout. -/
theorem balanced_logout :
    (Logout.handle ctx env claims body).Balanced Held.nothing EmptyHanded := by
  refine neutral_bind (neutral_presentedToken ctx body _ _) fun presented => ?_
  cases presented with
  | error refusal => exact answers
  | ok tokenHash =>
    refine acquires rfl fun conn => ?_
    refine issues rfl fun token => ?_
    split
    · refine issues rfl fun family => ?_
      split
      · split
        · exact closes
        refine issues rfl fun begun => ?_
        split
        · exact closes
        refine issues rfl fun written => ?_
        cases written with
        | error _ => exact issues rfl fun _ => closes
        | ok _ => exact commits closes
      · exact closes
    · exact closes

/-- A password change whose current password was right. -/
theorem balanced_password_verified (conn : Nat) (newHash : Password.Hash) (survivor : Bytes) :
    (PasswordChange.handleVerified env claims conn newHash survivor).Balanced ⟨some conn, false⟩
      EmptyHanded := by
  refine issues rfl fun begun => ?_
  split
  · exact closes
  refine issues rfl fun written => ?_
  cases written with
  | error _ => exact issues rfl fun _ => closes
  | ok _ => exact commits closes

/-- A password change that uses the database. -/
theorem balanced_password_admitted (input : PasswordChange.Input) :
    (PasswordChange.handleAdmitted ctx env claims input).Balanced Held.nothing EmptyHanded := by
  refine acquires rfl fun conn => ?_
  refine issues rfl fun found => ?_
  split
  · exact closes
  refine triesSlot rfl ?_ closes
  refine returnsSlot rfl ?_
  split
  · exact issues rfl fun _ => closes
  split
  · split
    · exact balanced_password_verified env claims conn _ _
    · exact closes
  · exact closes

/-- Password change. -/
theorem balanced_password :
    (PasswordChange.handle ctx env claims body).Balanced Held.nothing EmptyHanded := by
  refine neutral_bind (neutral_parsedBody body) fun parsed => ?_
  cases parsed with
  | error refusal => exact answers
  | ok object =>
    dsimp only
    split
    · refine allocates fun success => ?_
      split
      · exact answers
      split
      · exact answers
      · exact balanced_password_admitted ctx env claims _
    · exact answers

/-- Reading a user. -/
theorem balanced_users (targetUserId : Int) :
    (Users.handle env claims targetUserId).Balanced Held.nothing EmptyHanded := by
  refine acquires rfl fun conn => ?_
  refine issues rfl fun found => ?_
  split
  · by_cases own : claims.userId = targetUserId
    · rw [if_neg (not_not_intro own)]
      exact closes
    · rw [if_pos own]
      exact issues rfl fun _ => closes
  · exact closes

/-- Counting users. -/
theorem balanced_count : Admin.handleCount.Balanced Held.nothing EmptyHanded := by
  refine acquires rfl fun conn => ?_
  refine issues rfl fun counted => ⟨rfl, ?_⟩
  split
  · exact answers
  · exact answers

/-- Listing users. -/
theorem balanced_list (query : Option Bytes) :
    (Admin.handleList env claims query).Balanced Held.nothing EmptyHanded := by
  unfold Admin.handleList
  split
  · exact answers
  · refine acquires rfl fun conn => ?_
    refine issues rfl fun rows => ?_
    split
    · exact issues rfl fun _ => closes
    · exact closes

/-- Every handler. -/
theorem balanced_handle (draining : Bool) (request : Http.Request) (handler : Handler) :
    (handler.handle ctx env draining request).Balanced Held.nothing EmptyHanded := by
  cases handler with
  | healthz => exact answers
  | readyz =>
    cases draining with
    | false => exact answers
    | true => exact answers
  | register => exact balanced_register ctx env _
  | verify => exact balanced_verify ctx env _
  | resendVerification => exact balanced_resend ctx env _
  | login => exact balanced_login ctx env _
  | refresh => exact balanced_refresh ctx env _
  | logout claims => exact balanced_logout ctx env claims _
  | passwordChange claims => exact balanced_password ctx env claims _
  | getUser claims targetUserId => exact balanced_users env claims targetUserId
  | countUsers claims => exact balanced_count
  | listUsers claims => exact balanced_list env claims _

/-! ## Handlers side by side -/

/-- The connections on the stack of a pool. -/
def stacked (dbPool : DbPool) : Multiset Nat := dbPool.freeStack.take dbPool.freeCount

/-- The pool and the semaphore as a stock. -/
def inStock (shared : Shared) : Stock Nat := (stacked shared.dbPool, shared.kdfSemaphore.value)

/-- A pool of a size whose stack has room for all its connections. -/
structure Intact (size : Nat) (shared : Shared) : Prop where
  sized : shared.dbPool.size = size
  room : shared.dbPool.freeStack.length = size
  count : shared.dbPool.freeCount ≤ size

/-- What is on the stack is counted. -/
theorem Intact.card {size : Nat} {shared : Shared} (intact : Intact size shared) :
    (inStock shared).1.card = shared.dbPool.freeCount := by
  show (shared.dbPool.freeStack.take shared.dbPool.freeCount).length = _
  rw [List.length_take, intact.room]
  exact Nat.min_eq_left intact.count

/-- Acquiring takes a connection off the stack. -/
theorem acquire_spec {dbPool after : DbPool} {conn : Nat}
    (acquired : dbPool.acquire = some (conn, after)) :
    0 < dbPool.freeCount ∧ after = { dbPool with freeCount := dbPool.freeCount - 1 } ∧
      stacked dbPool = {conn} + stacked after := by
  unfold DbPool.acquire at acquired
  split at acquired
  · cases acquired
  · next some =>
    obtain ⟨top, at_top, same⟩ := Option.map_eq_some_iff.mp acquired
    injection same with isConn isAfter
    refine ⟨by omega, isAfter.symm, ?_⟩
    have split : dbPool.freeStack.take (dbPool.freeCount - 1 + 1) =
        dbPool.freeStack.take (dbPool.freeCount - 1) ++ [conn] := by
      rw [List.take_add_one, at_top, isConn]
      rfl
    rw [Nat.sub_add_cancel (by omega)] at split
    unfold stacked
    rw [← isAfter, split, add_comm]
    rfl

/-- Releasing puts a connection on the stack. -/
theorem release_spec {dbPool after : DbPool} {conn : Nat}
    (released : dbPool.release conn = some after)
    (room : dbPool.freeStack.length = dbPool.size) :
    dbPool.freeCount < dbPool.size ∧
      after = { dbPool with
        freeStack := dbPool.freeStack.set dbPool.freeCount conn
        freeCount := dbPool.freeCount + 1 } ∧
      stacked after = {conn} + stacked dbPool := by
  unfold DbPool.release at released
  split at released
  · next inside =>
    injection released with isAfter
    refine ⟨inside, isAfter.symm, ?_⟩
    have top : (dbPool.freeStack.set dbPool.freeCount conn)[dbPool.freeCount]? = some conn :=
      List.getElem?_set_self (by omega)
    have split : (dbPool.freeStack.set dbPool.freeCount conn).take (dbPool.freeCount + 1) =
        dbPool.freeStack.take dbPool.freeCount ++ [conn] := by
      rw [List.take_add_one, top, List.take_set_of_le (Nat.le_refl _)]
      rfl
    unfold stacked
    rw [← isAfter, split, add_comm]
    rfl
  · cases released

/-- The pool and the semaphore serve like a stock. -/
theorem serves_inStock {size : Nat} (shared : Shared) (lease : Lease Nat) (after : Shared)
    (intact : Intact size shared) (served : shared.Serves lease after) :
    Serves (inStock shared) lease (inStock after) ∧ Intact size after := by
  obtain ⟨sized, room, count⟩ := intact
  cases lease with
  | took conn =>
    obtain ⟨dbPool, acquired, isAfter⟩ := served
    obtain ⟨some, changed, off⟩ := acquire_spec acquired
    rw [isAfter]
    refine ⟨?_, ?_⟩
    · show inStock shared = ({conn}, 0) + inStock { shared with dbPool }
      unfold inStock
      rw [off, Prod.mk_add_mk, zero_add]
    · rw [changed]
      exact ⟨sized, room, Nat.le_trans (Nat.sub_le _ _) count⟩
  | gave conn =>
    obtain ⟨dbPool, released, isAfter⟩ := served
    obtain ⟨inside, changed, on⟩ := release_spec released (room.trans sized.symm)
    rw [isAfter]
    refine ⟨?_, ?_⟩
    · show inStock { shared with dbPool } = ({conn}, 0) + inStock shared
      unfold inStock
      rw [on, Prod.mk_add_mk, zero_add]
    · rw [changed]
      exact ⟨sized, (List.length_set ..).trans room, by rw [← sized]; exact inside⟩
  | tookPermit =>
    obtain ⟨semaphore, granted, isAfter⟩ := served
    rw [isAfter]
    refine ⟨?_, sized, room, count⟩
    unfold KdfSemaphore.tryAcquire at granted
    split at granted
    · cases granted
    · next some =>
      injection granted with taken
      show inStock shared = (0, 1) + inStock { shared with kdfSemaphore := semaphore }
      unfold inStock
      rw [← taken, Prod.mk_add_mk, zero_add, Nat.add_sub_cancel' (by omega)]
  | refusedPermit =>
    rw [served.2]
    exact ⟨rfl, sized, room, count⟩
  | gavePermit =>
    have isAfter : after = { shared with kdfSemaphore := shared.kdfSemaphore.release } := served
    rw [isAfter]
    refine ⟨?_, sized, room, count⟩
    show ((_, shared.kdfSemaphore.value + 1) : Stock Nat) = (0, 1) + inStock shared
    unfold inStock
    rw [Prod.mk_add_mk, zero_add, Nat.add_comm]
  | silent =>
    have isAfter : after = shared := served
    rw [isAfter]
    exact ⟨rfl, sized, room, count⟩

/-- A new pool has all its connections on its stack. -/
theorem stacked_create (size : Nat) : stacked (DbPool.create size) = Multiset.range size := by
  unfold stacked DbPool.create
  rw [List.take_of_length_le (by rw [List.length_range])]
  rfl

/-- A thread holds a connection that it took more often than it gave it back. -/
def HoldsConn {n : Nat} (threads : Threads n) (thread : Fin n) (conn : Nat) : Prop :=
  ∃ client, threads.client thread = some client ∧
    client.leases.count (.gave conn) < client.leases.count (.took conn)

/-- What is required of threads over as many connections: each has one holder at most, the stack has
room for those that are returned and one for each that is asked for, and is full when no handler runs. -/
structure InBalance (n : Nat) (kdfSemaphore : KdfSemaphore) (threads : Threads n) : Prop where
  one_holder : ∀ one two conn, HoldsConn threads one conn → HoldsConn threads two conn → one = two
  not_stacked : ∀ thread conn, HoldsConn threads thread conn → conn ∉ stacked threads.shared.dbPool
  count_le : threads.shared.dbPool.freeCount ≤ n
  acquire : ∀ thread next leases, threads.client thread = some ⟨.acquire next, leases⟩ →
    threads.shared.dbPool.freeCount ≠ 0 ∧ threads.shared.dbPool.acquire ≠ none
  release : ∀ thread conn next leases, threads.client thread = some ⟨.release conn next, leases⟩ →
    threads.shared.dbPool.release conn ≠ none
  restored : (∀ thread client, threads.client thread = some client →
      ∃ result, client.program = .done result) →
    threads.shared.dbPool.freeCount = n ∧ threads.shared.kdfSemaphore = kdfSemaphore

/-- What threads hold follows from what is lent to them. -/
theorem inBalance_of_sound {n : Nat} {kdfSemaphore : KdfSemaphore} {threads : Threads n}
    {holds : Fin n → Held Nat} (intact : Intact n threads.shared)
    (sound : threads.Sound inStock (Multiset.range n, kdfSemaphore.value) holds) :
    InBalance n kdfSemaphore threads := by
  have distinct : ((Multiset.range n, kdfSemaphore.value) : Stock Nat).1.Nodup :=
    Multiset.nodup_range n
  have total : ((Multiset.range n, kdfSemaphore.value) : Stock Nat).1.card = n :=
    Multiset.card_range n
  have held : ∀ {thread conn}, HoldsConn threads thread conn → (holds thread).item = some conn := by
    rintro thread conn ⟨client, runs, out⟩
    have kept := sound.keeps thread
    rw [runs] at kept
    exact (kept.2.out_iff conn).mp out
  refine ⟨fun one two conn first second => ?_, fun thread conn holding => ?_, intact.count,
    fun thread next leases runs => ?_, fun thread conn next leases runs => ?_, fun finished => ?_⟩
  · exact sound.lent.one_holder distinct (held first) (held second)
  · exact sound.lent.not_mem distinct (held holding)
  · have kept := sound.keeps thread
    rw [runs] at kept
    have enough : Fintype.card (Fin n) ≤ (Multiset.range n).card := by
      rw [Fintype.card_fin, Multiset.card_range]
    have some := sound.lent.card_pos enough kept.1.1
    rw [intact.card] at some
    refine ⟨by omega, ?_⟩
    unfold DbPool.acquire
    have count := intact.count
    have room := intact.room
    rw [if_neg (by omega), List.getElem?_eq_getElem (by omega)]
    exact Option.some_ne_none _
  · have kept := sound.keeps thread
    rw [runs] at kept
    have notFull := sound.lent.card_lt kept.1.1
    rw [intact.card, total] at notFull
    unfold DbPool.release
    rw [if_pos (by rw [intact.sized]; exact notFull)]
    exact Option.some_ne_none _
  · have nothing : ∀ thread, holds thread = Held.nothing := by
      intro thread
      have kept := sound.keeps thread
      cases runs : threads.client thread with
      | none =>
        rw [runs] at kept
        exact kept
      | some client =>
        obtain ⟨result, done⟩ := finished thread client runs
        rw [runs] at kept
        have ended := kept.1
        rw [done] at ended
        exact ended
    have whole := sound.lent.restored nothing
    have full : stacked threads.shared.dbPool = Multiset.range n := congrArg Prod.fst whole
    have value : threads.shared.kdfSemaphore.value = kdfSemaphore.value := congrArg Prod.snd whole
    refine ⟨?_, ?_⟩
    · rw [← intact.card]
      show (stacked threads.shared.dbPool).card = n
      rw [full, Multiset.card_range]
    · cases kdfSemaphore
      cases same : threads.shared.kdfSemaphore
      rw [same] at value
      exact congrArg KdfSemaphore.mk value

/-- Threads are in balance in every run. -/
theorem inBalance_of_reachable {n : Nat} {kdfSemaphore : KdfSemaphore} {threads : Threads n}
    (reached : Relation.ReflTransGen Threads.Step (Threads.initial n n kdfSemaphore) threads) :
    InBalance n kdfSemaphore threads := by
  have balanced : ∀ program, IsHandler program → program.Balanced Held.nothing EmptyHanded := by
    rintro program ⟨ctx, env, draining, request, handler, rfl⟩
    exact balanced_handle ctx env draining request handler
  have begins : Intact n (Threads.initial n n kdfSemaphore).shared :=
    ⟨rfl, List.length_range, Nat.le_refl n⟩
  obtain ⟨intact, holds, sound⟩ := Shop.sound_of_reachable balanced serves_inStock
    (fun _ => rfl) begins reached
  have start : inStock (Threads.initial n n kdfSemaphore).shared =
      (Multiset.range n, kdfSemaphore.value) := by
    unfold inStock
    rw [show (Threads.initial n n kdfSemaphore).shared.dbPool = DbPool.create n from rfl,
      stacked_create]
    rfl
  rw [start] at sound
  exact inBalance_of_sound intact sound

/-- Every run of a handler takes one connection and one slot at a time and gives back what it took,
as often as it took it by the time it answers; so as many handlers as there are connections share
the pool and the semaphore in balance, whatever SQL and allocations do. -/
theorem handlers_return_what_they_lease :
    (∀ (ctx : AppCtx) (env : Env) (draining : Bool) (request : Http.Request) (handler : Handler)
      (leases : List (Lease Nat)) (after : Leased HandlerResult),
      Steps (handler.handle ctx env draining request) leases after →
        Orderly leases ∧ ∀ result, after = .done result → Returned leases) ∧
    ∀ (n : Nat) (kdfSemaphore : KdfSemaphore) (threads : Threads n),
      Relation.ReflTransGen Threads.Step (Threads.initial n n kdfSemaphore) threads →
        InBalance n kdfSemaphore threads := by
  refine ⟨fun ctx env draining request handler leases after steps => ?_,
    fun n kdfSemaphore threads reached => inBalance_of_reachable reached⟩
  obtain ⟨held, still, accounts⟩ := (balanced_handle ctx env draining request handler).steps steps
  refine ⟨accounts.orderly, fun result finished => ?_⟩
  rw [finished] at still
  have nothing : held = Held.nothing := still
  rw [nothing] at accounts
  exact accounts.returned

/-- A login of nobody. -/
def attempted : Leased HandlerResult :=
  Handler.handle Deployment.ctx (Deployment.env 1000 1 1) false
    (Deployment.post "/v1/auth/login" "\x7b\"username\":\"eve\",\"password\":\"x\"\x7d") .login

/-- A count of the users. -/
def counted : Leased HandlerResult :=
  Handler.handle Deployment.ctx (Deployment.env 1000 1 1) false
    (Deployment.post "/v1/admin/users/count" "") (.countUsers noClaims)

/-- A login of nobody that cannot begin its transaction, alone, and beside a count of the users, where
each holds a connection and the login the only slot. -/
theorem handlers_return_what_they_lease_login :
    Returned [Lease.silent, .tookPermit, .took 0, .silent, .gavePermit, .silent, .gave 0] ∧
      ∃ threads : Threads 2, HoldsConn threads 0 0 ∧ HoldsConn threads 1 1 ∧
        threads.shared.kdfSemaphore = ⟨0⟩ ∧ InBalance 2 ⟨1⟩ threads := by
  have asked : Steps attempted [.silent, .tookPermit, .took 0] _ :=
    .more (.more (.more (.none attempted) (.allocate _ true)) (.permit _)) (.acquire _ 0)
  have steps : Steps attempted [.silent, .tookPermit, .took 0, .silent, .gavePermit, .silent, .gave 0]
      (.done internalErrorResult) :=
    .more (.more (.more (.more asked (.use 0 _ _ none)) (.returnPermit _)) (.use 0 _ _ false))
      (.release 0 _)
  have opens (threads : Threads 2) (who : Fin 2) (program : Leased HandlerResult)
      (idle : threads.client who = none) (kind : IsHandler program) :
      threads.Step { threads with client := Function.update threads.client who (some ⟨program, []⟩) } :=
    .opened idle kind
  have leases (threads : Threads 2) (who : Fin 2) {program after : Leased HandlerResult}
      {before : List (Lease Nat)} {lease : Lease Nat} {shared : Shared}
      (running : threads.client who = some ⟨program, before⟩) (step : program.Step lease after)
      (served : threads.shared.Serves lease shared) :
      threads.Step
        ⟨shared, Function.update threads.client who (some ⟨after, before ++ [lease]⟩)⟩ :=
    .leased running step served
  have beside : ∃ threads : Threads 2, Relation.ReflTransGen Threads.Step
      (Threads.initial 2 2 ⟨1⟩) threads ∧ HoldsConn threads 0 0 ∧ HoldsConn threads 1 1 ∧
        threads.shared.kdfSemaphore = ⟨0⟩ := by
    refine ⟨_, .tail (.tail (.tail (.tail (.tail (.tail .refl
      (opens _ 0 attempted rfl ⟨_, _, _, _, _, rfl⟩))
      (leases _ 0 rfl (.allocate _ true) rfl))
      (leases _ 0 rfl (.permit _) ⟨⟨0⟩, rfl, rfl⟩))
      (opens _ 1 counted rfl ⟨_, _, _, _, _, rfl⟩))
      (leases _ 1 rfl (.acquire _ 1) ⟨_, rfl, rfl⟩))
      (leases _ 0 rfl (.acquire _ 0) ⟨_, rfl, rfl⟩), ?_, ?_, rfl⟩
    · exact ⟨_, rfl, (by decide : [Lease.silent, .tookPermit, .took 0].count (.gave 0) <
        [Lease.silent, .tookPermit, .took 0].count (.took 0))⟩
    · exact ⟨_, rfl, (by decide : [Lease.took 1].count (.gave 1) < [Lease.took 1].count (.took 1))⟩
  obtain ⟨threads, reached, login, count, slots⟩ := beside
  exact ⟨(handlers_return_what_they_lease.1 _ _ _ _ _ _ _ steps).2 _ rfl, threads, login, count, slots,
    handlers_return_what_they_lease.2 2 ⟨1⟩ _ reached⟩

end PlatformService.Verif.Resources
