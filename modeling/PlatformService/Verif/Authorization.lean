import PlatformService.Api.Server
import PlatformService.Verif.Atomicity
import PlatformService.Verif.ClaimsRoundTrip
import PlatformService.Verif.Deployment

/-!
# On what grounds handlers run

Whatever requests arrive and however their handlers interleave, a handler that is not
public runs on an access token that this service built: its user logged in or
refreshed a session before, the token is in its time, and the roles in it are the
roles the user held when it was built. The only assumption on the outside world is
that nobody else makes tokens with a matching HMAC; the clock is taken to read times
that a double holds exactly.
-/

namespace PlatformService.Verif.Authorization

open Lib Store Crypto Session Api SessionStore Issuance ClaimsRoundTrip

/-- A time whose claims a double holds exactly. -/
def InClockRange (ctx : AppCtx) (now : Int) : Prop :=
  now.natAbs ≤ 2 ^ 53 ∧ (now + ctx.config.accessTokenTtlS).natAbs ≤ 2 ^ 53

/-- The user for whom an activity is about to build an access token, and the time of its handler. -/
def entitled : Activity → Option (Int × Int)
  | .login env _ (.readRoles userId _) => some (userId, env.now)
  | .refresh env _ (.readRoles refreshed) => some (refreshed.userId, env.now)
  | _ => none

/-- The access token that a handler builds in its next step. -/
def builds (ctx : AppCtx) (db : Db) : Running → Option Bytes
  | ⟨.login env _ (.readRoles userId session), faults⟩ =>
    (UserStore.getRoles userId (Conn.of db, faults)).1.bind fun held =>
      buildAccessToken ctx userId session.familyId (rolesMask held) env.now env.jti
  | ⟨.refresh env _ (.readRoles refreshed), faults⟩ =>
    (UserStore.getRoles refreshed.userId (Conn.of db, faults)).1.bind fun held =>
      buildAccessToken ctx refreshed.userId refreshed.familyId (rolesMask held) env.now env.jti
  | _ => none

/-- The next step of a handler commits a login or a refresh for a user, at the time of the handler:
the session's family is opened, or its token is rotated. -/
inductive Commits (ctx : AppCtx) (db : Db) (running : Running) : Int → Int → Prop where
  | login (env : Env) (input : Login.Input) (user : UserRow) (session : Created)
    (accepted : running.activity = .login env input (.write (.accept user)))
    (effect : LoginEffect ctx env user.userId db session (running.act ctx db).1) :
    Commits ctx db running user.userId env.now
  | refresh (env : Env) (tokenHash : Bytes) (refreshed : Refreshed)
    (presented : running.activity = .refresh env tokenHash .write)
    (rotates : Rotates ctx env tokenHash db refreshed (running.act ctx db).1) :
    Commits ctx db running refreshed.userId env.now

section Steps

variable {ctx : AppCtx} {db : Db} {running : Running} {userId now : Int}

/-- A step does not change the surroundings. -/
theorem surroundings_act (running : Running) :
    surroundings (running.act ctx db).2.activity = surroundings running.activity := by
  obtain ⟨activity, faults⟩ := running
  cases activity with
  | operator userId time done =>
    cases done with
    | true => rfl
    | false => rfl
  | _ => rfl

/-- The time for which a token is about to be built is that of the surroundings. -/
theorem surroundings_of_entitled {activity : Activity} (due : entitled activity = some (userId, now)) :
    ∃ env, surroundings activity = some env ∧ env.now = now := by
  unfold entitled at due
  split at due
  · cases due
    exact ⟨_, rfl, rfl⟩
  · cases due
    exact ⟨_, rfl, rfl⟩
  · contradiction

/-- What begins is not about to build a token. -/
theorem entitled_of_firstPhase {activity : Activity} (first : FirstPhase activity) :
    entitled activity = none := by
  cases first with
  | _ => rfl

/-- A step of a login that comes to the roles has committed the login. -/
theorem commits_of_login {env : Env} {input : Login.Input} {phase : Login.Phase} {faults : List Bool}
    (due : entitled (Running.act ctx db ⟨.login env input phase, faults⟩).2.activity =
      some (userId, now)) :
    Commits ctx db ⟨.login env input phase, faults⟩ userId now := by
  cases phase with
  | lookup =>
    obtain ⟨next, stands, _, found, decided, _⟩ := act_login (login_lookup_leaves db)
    rw [stands, decided] at due
    contradiction
  | write decision =>
    cases decision with
    | refuse found passwordOk =>
      obtain ⟨next, stands, _, result, answered, _⟩ :=
        act_login (login_refuse_leaves found passwordOk db)
      rw [stands, answered] at due
      contradiction
    | accept user =>
      obtain ⟨next, stands, left⟩ := act_login (login_accept_leaves user db)
      cases left with
      | inl failed =>
        rw [stands, failed.1] at due
        contradiction
      | inr opened =>
        obtain ⟨session, reached, effect⟩ := opened
        rw [stands, reached] at due
        cases due
        exact Commits.login env input user session rfl effect
  | readRoles userId session =>
    obtain ⟨next, stands, _, roles, answered⟩ := act_login (login_readRoles_leaves userId session db)
    rw [stands, answered] at due
    contradiction
  | done result => contradiction

/-- A step of a refresh that comes to the roles has committed the refresh. -/
theorem commits_of_refresh {env : Env} {tokenHash : Bytes} {phase : Refresh.Phase}
    {faults : List Bool}
    (due : entitled (Running.act ctx db ⟨.refresh env tokenHash phase, faults⟩).2.activity =
      some (userId, now)) :
    Commits ctx db ⟨.refresh env tokenHash phase, faults⟩ userId now := by
  cases phase with
  | write =>
    obtain ⟨next, stands, left⟩ := act_refresh (refresh_write_leaves db)
    cases left with
    | inl refusal =>
      obtain ⟨result, answered, _⟩ := refusal
      rw [stands, answered] at due
      contradiction
    | inr rotated =>
      obtain ⟨refreshed, reached, rotates⟩ := rotated
      rw [stands, reached] at due
      cases due
      exact Commits.refresh env tokenHash refreshed rfl rotates
  | readRoles refreshed =>
    obtain ⟨next, stands, _, roles, answered⟩ := act_refresh (refresh_readRoles_leaves refreshed db)
    rw [stands, answered] at due
    contradiction
  | done result => contradiction

/-- A step after which a token is about to be built has committed a login or a refresh. -/
theorem commits_of_entitled (due : entitled (running.act ctx db).2.activity = some (userId, now)) :
    Commits ctx db running userId now := by
  obtain ⟨activity, faults⟩ := running
  cases activity with
  | login env input phase => exact commits_of_login due
  | refresh env tokenHash phase => exact commits_of_refresh due
  | operator other time done =>
    cases done with
    | true => contradiction
    | false => contradiction
  | _ => contradiction

end Steps

section Tokens

variable {ctx : AppCtx}

/-- The bit of a role, found by its name. -/
theorem roleBit_roleName (role : Role) : Claims.roleBit (roleName role) = some (2 ^ Claims.roleIndex role) := by
  cases role with
  | user => decide
  | admin => decide

/-- The mask of some roles is the mask so far with the bits of their names. -/
theorem testBit_roles (held : List Role) (role : Role) (mask : Nat) :
    ((held.map roleName).foldl (fun roles name => roles ||| (Claims.roleBit name).getD 0) mask).testBit
        (Claims.roleIndex role) = (mask.testBit (Claims.roleIndex role) || decide (role ∈ held)) := by
  induction held generalizing mask with
  | nil => simp
  | cons first held ih =>
    have distinct : decide (Claims.roleIndex first = Claims.roleIndex role) = decide (role = first) := by
      cases first with
      | user =>
        cases role with
        | user => rfl
        | admin => rfl
      | admin =>
        cases role with
        | user => rfl
        | admin => rfl
    rw [List.map_cons, List.foldl_cons, ih, roleBit_roleName, Option.getD_some, Nat.testBit_or,
      Nat.testBit_two_pow, distinct, Bool.or_assoc, ← Bool.decide_or]
    simp only [List.mem_cons]

/-- A role in the mask is among the roles. -/
theorem mem_of_rolesMask {held : List Role} {role : Role}
    (masked : rolesMask held &&& 2 ^ Claims.roleIndex role ≠ 0) : role ∈ held := by
  have bit : (rolesMask held).testBit (Claims.roleIndex role) = true := by
    by_contra clear
    apply masked
    rw [Nat.and_two_pow, Bool.not_eq_true _ |>.mp clear]
    simp
  unfold rolesMask Claims.rolesFromNames at bit
  rw [testBit_roles, Nat.zero_testBit, Bool.false_or, decide_eq_true_eq] at bit
  exact List.mem_of_mem_take bit

/-- The mask of some roles has known bits only. -/
theorem rolesMask_lt (held : List Role) : rolesMask held < 4 := by
  have bounded (names : List Role) (mask : Nat) (known : mask < 2 ^ 2) :
      (names.map roleName).foldl (fun roles name => roles ||| (Claims.roleBit name).getD 0) mask <
        2 ^ 2 := by
    induction names generalizing mask with
    | nil => exact known
    | cons first names ih =>
      rw [List.map_cons, List.foldl_cons]
      apply ih
      apply Nat.or_lt_two_pow known
      rw [roleBit_roleName]
      cases first with
      | user => decide
      | admin => decide
  exact bounded (held.take 8) 0 (by decide)

/-- Hexadecimal text has no NUL. -/
theorem zero_not_mem_hexEncodeLower (data : Bytes) : (0 : UInt8) ∉ hexEncodeLower data := by
  have digit : ∀ value < 16, hexDigitLower value ≠ 0 := by decide
  intro stored
  obtain ⟨byte, _, written⟩ := List.mem_flatMap.mp stored
  have size := byte.toNat_lt
  simp only [List.mem_cons, List.not_mem_nil, or_false] at written
  cases written with
  | inl high => exact digit _ (by omega) high.symm
  | inr low => exact digit _ (by omega) low.symm

/-- The claims of an access token, and that nothing is lost of them. -/
theorem exact_of_buildAccessToken {userId : Int} {familyId token : Bytes} {held : List Role} {now : Int}
    {jti : Option (Drawn 16)} (inRange : InClockRange ctx now)
    (built : buildAccessToken ctx userId familyId (rolesMask held) now jti = some token) :
    ∃ claims, Exact claims ∧
      Jwt.encode ctx.crypto claims ctx.config.jwtIssuer ctx.config.jwtAudience
        (cString ctx.config.jwtSecret) = some token ∧
      claims.userId = userId ∧ claims.roles = rolesMask held ∧ claims.nbf = now ∧
      claims.exp = now + ctx.config.accessTokenTtlS := by
  cases jti with
  | none => contradiction
  | some drawn =>
    rw [buildAccessToken_some] at built
    refine ⟨_, ?_, built, rfl, rfl, rfl, rfl⟩
    exact ⟨rolesMask_lt held, inRange.1, inRange.1, inRange.2, zero_not_mem_hexEncodeLower _,
      zero_not_mem_hexEncodeLower _⟩

/-- The token that a step builds is for the roles that the user holds then. -/
theorem buildAccessToken_of_builds {db : Db} {running : Running} {token : Bytes}
    (built : builds ctx db running = some token) :
    ∃ userId now familyId jti, entitled running.activity = some (userId, now) ∧
      buildAccessToken ctx userId familyId (rolesMask (db.rolesOf userId)) now jti = some token := by
  have read {userId now : Int} {familyId : Bytes} {jti : Option (Drawn 16)} {faults : List Bool}
      (found : ((UserStore.getRoles userId (Conn.of db, faults)).1.bind fun held =>
        buildAccessToken ctx userId familyId (rolesMask held) now jti) = some token) :
      buildAccessToken ctx userId familyId (rolesMask (db.rolesOf userId)) now jti = some token := by
    rw [Atomicity.getRoles_eq] at found
    dsimp only at found
    split at found
    · contradiction
    · exact found
  unfold builds at built
  split at built
  · exact ⟨_, _, _, _, rfl, read built⟩
  · exact ⟨_, _, _, _, rfl, read built⟩
  · contradiction

/-- A token whose last segment is the HMAC of the text before it, under the secret of the service. -/
def HmacMatches (ctx : AppCtx) (token : Bytes) : Prop :=
  ∃ header payload signature, Jwt.segments token = some (header, payload, signature) ∧
    Base64url.decode signature =
      some (ctx.crypto.hmacSha256 (cString ctx.config.jwtSecret) (header ++ [46] ++ payload))

/-- A request is authenticated by a token with a matching HMAC that is accepted at the time. -/
theorem verified_of_authenticateBearer {request : Http.Request} {now : Int} {claims : Claims}
    (authenticated : authenticateBearer ctx request now = some claims) :
    ∃ token, bearerToken request = some token ∧ HmacMatches ctx token ∧
      Jwt.verify ctx.crypto token ctx.config.jwtIssuer ctx.config.jwtAudience
        (cString ctx.config.jwtSecret) now jwtClockSkewS = .ok claims := by
  unfold authenticateBearer at authenticated
  cases presented : bearerToken request with
  | none =>
    rw [presented] at authenticated
    contradiction
  | some token =>
    rw [presented] at authenticated
    dsimp only at authenticated
    split at authenticated
    · rename_i accepted verified
      cases authenticated
      obtain ⟨payload, shape, _⟩ := Tokens.verify_eq_ok_iff.mp verified
      refine ⟨token, rfl, ?_, verified⟩
      rw [shape]
      exact ⟨_, _, _, Tokens.segments_tokenFor _ _ _, Base64url.decode_encode _⟩
    · contradiction

end Tokens

section Runs

variable {ctx : AppCtx} {start : Db}

/-- Among some events a handler committed a login or a refresh for a user, at the time it had read. -/
def Committed (ctx : AppCtx) (start : Db) (events : List Event) (index : Nat) (userId now : Int) :
    Prop :=
  ∃ earlier later running, events = earlier ++ .steps index :: later ∧
    (Server.run ctx start earlier).handlers[index]? = some running ∧
    Commits ctx (Server.run ctx start earlier).db running userId now

/-- Among some events a handler built an access token, in a step that some of them precede. -/
def BuiltAfter (ctx : AppCtx) (start : Db) (events earlier : List Event) (index : Nat)
    (token : Bytes) : Prop :=
  ∃ later running, events = earlier ++ .steps index :: later ∧
    (Server.run ctx start earlier).handlers[index]? = some running ∧
    builds ctx (Server.run ctx start earlier).db running = some token

/-- Tokens with a matching HMAC arise only from `ps_jwt_encode` of the service: every one that is
presented in a run was built before in the run. -/
def Genuine (ctx : AppCtx) (start : Db) (events : List Event) : Prop :=
  ∀ before arrival rest token, events = before ++ .arrives arrival :: rest →
    bearerToken arrival.request = some token → HmacMatches ctx token →
      ∃ earlier index, BuiltAfter ctx start before earlier index token

/-- The clock reads times in range whenever a handler begins. -/
def ClockInRange (ctx : AppCtx) (events : List Event) : Prop :=
  ∀ arrival, .arrives arrival ∈ events → InClockRange ctx arrival.env.now

/-- What is committed stays in the past. -/
theorem Committed.concat {events : List Event} {index : Nat} {userId now : Int}
    (committed : Committed ctx start events index userId now) (event : Event) :
    Committed ctx start (events ++ [event]) index userId now := by
  obtain ⟨earlier, later, running, rfl, present, commits⟩ := committed
  exact ⟨earlier, later ++ [event], running, by simp, present, commits⟩

/-- What is known of the handlers at work: they read the clock in range, and those about to build an
access token have committed a login or a refresh. -/
structure Traced (ctx : AppCtx) (start : Db) (events : List Event) : Prop where
  clock : ∀ (index : Nat) (running : Running),
    (Server.run ctx start events).handlers[index]? = some running →
      ∃ env, surroundings running.activity = some env ∧ InClockRange ctx env.now
  committed : ∀ (index : Nat) (running : Running) (userId now : Int),
    (Server.run ctx start events).handlers[index]? = some running →
      entitled running.activity = some (userId, now) → Committed ctx start events index userId now

/-- An event keeps what is known of the handlers. -/
theorem Traced.next {events : List Event} {event : Event} (traced : Traced ctx start events)
    (clock : ∀ arrival, event = .arrives arrival → InClockRange ctx arrival.env.now) :
    Traced ctx start (events ++ [event]) := by
  constructor
  · intro index running present
    rw [Server.run_concat] at present
    rcases Server.handlers_next present with old | began | stepped
    · exact traced.clock index running old
    · obtain ⟨arrival, handler, rfl, begun⟩ := began
      exact ⟨arrival.env, (firstPhase_start begun).2, clock arrival rfl⟩
    · obtain ⟨earlier, rfl, found, rfl⟩ := stepped
      rw [surroundings_act]
      exact traced.clock index earlier found
  · intro index running userId now present due
    rw [Server.run_concat] at present
    rcases Server.handlers_next present with old | began | stepped
    · exact (traced.committed index running userId now old due).concat event
    · obtain ⟨arrival, handler, rfl, begun⟩ := began
      rw [entitled_of_firstPhase (firstPhase_start begun).1] at due
      contradiction
    · obtain ⟨earlier, rfl, found, rfl⟩ := stepped
      exact ⟨events, [], earlier, rfl, found, commits_of_entitled due⟩

/-- What is known of the handlers holds after every run. -/
theorem traced_run {events : List Event} (clock : ClockInRange ctx events) :
    Traced ctx start events := by
  induction events using List.reverseRecOn with
  | nil =>
    constructor
    · intro index running present
      contradiction
    · intro index running userId now present
      contradiction
  | append_singleton events event ih =>
    apply (ih fun arrival member => clock arrival (List.mem_append_left _ member)).next
    intro arrival same
    exact clock arrival (by simp [same])

/-- Everything `ps_routes_dispatch` has checked when it calls a handler. -/
theorem dispatch_eq_ok {now routeId : Int} {request : Http.Request}
    {params : List Http.RouteParam} {handler : Handler}
    (reached : dispatch ctx now routeId request params = .ok handler) :
    ∃ policy, Rbac.policyForRoute routeId = some policy ∧
      (policy.kind ≠ .anyone → ∃ claims target,
        authenticateBearer ctx request now = some claims ∧
        handler = handlerOf policy.routeId claims target ∧
        (policy.kind = .selfOrRole → pathUserId params = some target) ∧
        (policy.kind = .role ∨ policy.kind = .selfOrRole →
          Rbac.check policy claims target = true)) := by
  unfold dispatch at reached
  simp only [bind, Except.bind, pure, Except.pure, throw, throwThe, MonadExceptOf.throw] at reached
  cases found : Rbac.policyForRoute routeId with
  | none =>
    rw [found] at reached
    contradiction
  | some policy =>
    rw [found] at reached
    refine ⟨policy, rfl, ?_⟩
    intro restricted
    dsimp only at reached
    rw [if_neg restricted] at reached
    cases authenticated : authenticateBearer ctx request now with
    | none =>
      rw [authenticated] at reached
      contradiction
    | some claims =>
      rw [authenticated] at reached
      dsimp only at reached
      by_cases self : policy.kind = .selfOrRole
      · rw [if_neg (not_not.mpr self)] at reached
        cases parsed : pathUserId params with
        | none =>
          rw [parsed] at reached
          contradiction
        | some target =>
          rw [parsed] at reached
          dsimp only at reached
          split at reached
          · contradiction
          · rename_i passed
            cases reached
            refine ⟨claims, target, rfl, rfl, fun _ => rfl, ?_⟩
            intro checked
            simpa [checked] using passed
      · rw [if_pos self] at reached
        split at reached
        · contradiction
        · rename_i passed
          cases reached
          refine ⟨claims, 0, rfl, rfl, fun same => absurd same self, ?_⟩
          intro checked
          simpa [checked] using passed

/-- One of some roles is the one that a policy requires. -/
def Holds (policy : Rbac.RoutePolicy) (roles : List Role) : Prop :=
  ∃ role ∈ roles, policy.requiredRole = 2 ^ Claims.roleIndex role

/-- The grounds on which the handler of a request runs, after some events: the presented token was
built in a step of a login or a refresh that had been committed for the user of the claims, it is in its
time, the user held the required role at that step, and the id in the path is the one acted on. -/
structure Grounds (ctx : AppCtx) (start : Db) (before : List Event) (arrival : Arrival)
    (policy : Rbac.RoutePolicy) (handler : Handler) (claims : Claims) (target issuedAt : Int)
    (earlier : List Event) (index : Nat) : Prop where
  calls : handler = handlerOf policy.routeId claims target
  token : ∃ token, bearerToken arrival.request = some token ∧
    BuiltAfter ctx start before earlier index token
  committed : Committed ctx start earlier index claims.userId issuedAt
  window : issuedAt - 60 ≤ arrival.now ∧ arrival.now ≤ issuedAt + ctx.config.accessTokenTtlS + 60
  role : policy.kind = .role → Holds policy ((Server.run ctx start earlier).db.rolesOf claims.userId)
  selfOrRole : policy.kind = .selfOrRole →
    (target = claims.userId ∨
      Holds policy ((Server.run ctx start earlier).db.rolesOf claims.userId)) ∧
    pathUserId arrival.params = some target ∧
    arrival.begins ctx handler = .getUser arrival.env claims target

/-- The row of a route that asks for a role names one. -/
theorem requiredRole_eq {routeId : Int} {policy : Rbac.RoutePolicy}
    (found : Rbac.policyForRoute routeId = some policy)
    (asks : policy.kind = .role ∨ policy.kind = .selfOrRole) :
    policy.requiredRole = 2 ^ Claims.roleIndex .admin := by
  have rows : ∀ policy ∈ Rbac.policies, policy.kind = .role ∨ policy.kind = .selfOrRole →
      policy.requiredRole = 2 ^ Claims.roleIndex .admin := by decide
  exact rows policy (List.mem_of_find?_eq_some found) asks

/-- Only the read of a user asks for the user or a role. -/
theorem routeId_of_selfOrRole {routeId : Int} {policy : Rbac.RoutePolicy}
    (found : Rbac.policyForRoute routeId = some policy) (self : policy.kind = .selfOrRole) :
    policy.routeId = .getUser := by
  have rows : ∀ policy ∈ Rbac.policies, policy.kind = .selfOrRole → policy.routeId = .getUser := by
    decide
  exact rows policy (List.mem_of_find?_eq_some found) self

/-- A mask that passes for a policy is of roles that hold what it requires. -/
theorem holds_of_mask {routeId : Int} {policy : Rbac.RoutePolicy} {held : List Role}
    (found : Rbac.policyForRoute routeId = some policy)
    (asks : policy.kind = .role ∨ policy.kind = .selfOrRole)
    (masked : rolesMask held &&& policy.requiredRole ≠ 0) : Holds policy held := by
  have required := requiredRole_eq found asks
  rw [required] at masked
  exact ⟨.admin, mem_of_rolesMask masked, required⟩

/-- In every run, a handler that is not public runs only on a token that the service built for a user
whose login or refresh it had committed, within the token's time, with the roles the user held then and
on the id that the path names; and no handler runs for a route without a policy. -/
theorem handlers_run_authorized (ctx : AppCtx) (start : Db) (events : List Event)
    (genuine : Genuine ctx start events) (clock : ClockInRange ctx events) :
    ∀ before arrival rest handler, events = before ++ .arrives arrival :: rest →
      arrival.dispatched ctx = .ok handler →
        ∃ policy, Rbac.policyForRoute arrival.routeId = some policy ∧
          (policy.kind ≠ .anyone → ∃ claims target issuedAt earlier index,
            Grounds ctx start before arrival policy handler claims target issuedAt earlier index) := by
  intro before arrival rest handler split reached
  obtain ⟨policy, found, checks⟩ := dispatch_eq_ok reached
  refine ⟨policy, found, ?_⟩
  intro restricted
  obtain ⟨claims, target, authenticated, called, parsed, passed⟩ := checks restricted
  obtain ⟨token, presented, matching, verified⟩ := verified_of_authenticateBearer authenticated
  obtain ⟨earlier, index, built⟩ := genuine before arrival rest token split presented matching
  obtain ⟨later, running, past, present, made⟩ := built
  obtain ⟨userId, issuedAt, familyId, jti, due, signed⟩ := buildAccessToken_of_builds made
  have traced : Traced ctx start earlier := by
    apply traced_run
    intro earlierArrival member
    apply clock
    rw [split, past]
    simp [member]
  obtain ⟨env, drawn, inRange⟩ := traced.clock index running present
  obtain ⟨same, sameEnv, readAt⟩ := surroundings_of_entitled due
  rw [drawn] at sameEnv
  cases sameEnv
  rw [readAt] at inRange
  obtain ⟨encoded, lossless, issued, ofUser, masked, begins, ends⟩ :=
    exact_of_buildAccessToken inRange signed
  obtain ⟨rfl, notEarly, inTime⟩ := verify_issued lossless issued verified
  have holds (asks : policy.kind = .role ∨ policy.kind = .selfOrRole)
      (bits : claims.roles &&& policy.requiredRole ≠ 0) :
      Holds policy ((Server.run ctx start earlier).db.rolesOf claims.userId) := by
    rw [masked] at bits
    rw [ofUser]
    exact holds_of_mask found asks bits
  refine ⟨claims, target, issuedAt, earlier, index, called, ⟨token, presented, ⟨later, running, past,
    present, made⟩⟩, ?_, ?_, ?_, ?_⟩
  · rw [ofUser]
    exact traced.committed index running userId issuedAt present due
  · rw [begins] at notEarly
    rw [ends] at inTime
    exact ⟨notEarly, inTime⟩
  · intro role
    have bits := passed (Or.inl role)
    unfold Rbac.check at bits
    rw [role] at bits
    exact holds (Or.inl role) (by simpa using bits)
  · intro self
    have allowed := passed (Or.inr self)
    unfold Rbac.check at allowed
    rw [self] at allowed
    simp only [Bool.or_eq_true, decide_eq_true_eq] at allowed
    refine ⟨?_, parsed self, ?_⟩
    · cases allowed with
      | inl own => exact Or.inl own.symm
      | inr bits => exact Or.inr (holds (Or.inr self) bits)
    · rw [called, routeId_of_selfOrRole found self]
      rfl

end Runs

namespace Sample

/-- The payload of an access token of the account, with both roles. -/
def payload : Bytes :=
  ascii ("\x7b\"iss\":\"platformservice\",\"sub\":\"1\",\"aud\":\"platformservice-api\"," ++
    "\"exp\":1900,\"iat\":1000,\"nbf\":1000,\"jti\":\"01010101010101010101010101010101\"," ++
    "\"family_id\":\"01010101010101010101010101010101\",\"roles\":[\"USER\",\"ADMIN\"]\x7d")

/-- The text that is signed. -/
def signed : Bytes := Jwt.headerB64 ++ [46] ++ Base64url.encode payload

/-- HMAC-SHA256 of the text under the secret of the deployment. -/
def signature : Bytes :=
  Deployment.hex "320e5f5a73f6c934eedab27c9e35a61add1cf18619939080a8be59813859bd84"

/-- The access token. -/
def token : Bytes := signed ++ [46] ++ Base64url.encode signature

/-- The functions of the deployment, with HMAC-SHA256 on the one text that is signed. -/
def crypto : Primitives :=
  { Deployment.crypto with
    hmacSha256 := fun _ _ => signature
    length_hmacSha256 := fun _ _ => rfl }

/-- The context of the deployment. -/
def ctx : AppCtx := { Deployment.ctx with crypto }

/-- The database of the deployment, with the account as an administrator. -/
def database : Db :=
  ((Deployment.database .active).insertUserRole 1 .admin).getD (Deployment.database .active)

/-- A login of the account. -/
def login : Arrival where
  now := 1000
  routeId := RouteId.login.number
  request := Deployment.post "/v1/auth/login"
    "\x7b\"username\":\"alice\",\"password\":\"correct horse\"\x7d"
  params := []
  env := Deployment.env 1000 1 1

/-- A request for the number of users, with the access token. -/
def count : Arrival where
  now := 1500
  routeId := RouteId.adminCountUsers.number
  request := { Deployment.post "/v1/admin/users/count" "" with
    method := ascii "GET"
    headers := [⟨ascii "Authorization", ascii "Bearer " ++ token⟩] }
  params := []
  env := Deployment.env 1500 2 2

/-- The login and its steps, up to the one that builds the token. -/
def committed : List Event := [.arrives login, .steps 0, .steps 0]

/-- The login and its steps. -/
def before : List Event := committed ++ [.steps 0]

/-- The claims that the token carries. -/
def carried : Claims where
  userId := 1
  roles := 3
  iat := 1000
  nbf := 1000
  exp := 1900
  jti := hexEncodeLower (Deployment.sixteen 1).bytes
  familyId := hexEncodeLower (Deployment.sixteen 1).bytes

/-- The payload is what the claims are written as. -/
theorem payload_eq : payload =
    (Claims.write carried Deployment.config.jwtIssuer Deployment.config.jwtAudience).getD [] :=
  ascii_eq_of_spelled (by decide +kernel)

/-- A token of the payload is verified while it is valid. -/
theorem authenticated {request : Http.Request} {presented : Bytes}
    (headers : request.headers = [⟨ascii "Authorization", ascii "Bearer " ++ presented⟩])
    (issued : presented = Tokens.tokenFor crypto (cString ctx.config.jwtSecret)
      ((Claims.write carried Deployment.config.jwtIssuer Deployment.config.jwtAudience).getD [])) :
    bearerToken request = some presented ∧ authenticateBearer ctx request 1500 = some carried := by
  have issuable : Issuable carried := by
    constructor <;> decide
  obtain ⟨payload, written, parsed, verdict⟩ := parse_write_claims issuable
    Deployment.config.jwtIssuer Deployment.config.jwtAudience
  rw [written] at issued
  have accepted : Claims.parse payload Deployment.config.jwtIssuer Deployment.config.jwtAudience 1500
      jwtClockSkewS = .ok carried := by
    rw [verdict, if_neg (by decide), if_neg (by decide)]
  have verified : Jwt.verify ctx.crypto presented ctx.config.jwtIssuer ctx.config.jwtAudience
      (cString ctx.config.jwtSecret) 1500 jwtClockSkewS = .ok carried :=
    Tokens.verify_eq_ok_iff.mpr ⟨payload, issued, encode_payload_ne_nil parsed, accepted⟩
  have bearer : bearerToken request = some presented := by
    have scheme : (ascii "Bearer ").length = 7 := by decide
    have long : ¬((ascii "Bearer " ++ presented).length ≤ 7 ∨
        (ascii "Bearer " ++ presented).take 7 ≠ ascii "Bearer ") := by
      rw [List.take_left' scheme, List.length_append, scheme, issued]
      simp [Tokens.tokenFor]
    have named : Http.ciEqual (ascii "Authorization") "Authorization" = true := by decide
    unfold bearerToken Http.Request.header
    rw [headers]
    simp only [List.find?_cons, named]
    rw [if_neg long, List.drop_left' scheme]
  refine ⟨bearer, ?_⟩
  unfold authenticateBearer
  rw [bearer]
  dsimp only
  rw [verified]

/-- The last of these steps builds the token. -/
theorem builtAfter : BuiltAfter ctx database before committed 0 token := by
  have made : (((Server.run ctx database committed).handlers[0]?).bind fun running =>
      builds ctx (Server.run ctx database committed).db running) = some token := by
    unfold token signed
    rw [payload_eq]
    simp only [ctx, crypto, database, Deployment.ctx, Deployment.crypto_eq, Deployment.database_eq]
    decide +kernel
  obtain ⟨running, present, built⟩ := Option.bind_eq_some_iff.mp made
  exact ⟨[], running, rfl, present, built⟩

/-- The token that the request presents was built in the run. -/
theorem genuine : Genuine ctx database (before ++ [.arrives count]) := by
  intro before arrival rest presented split bearer _
  have anonymous : bearerToken login.request = none := by decide +kernel
  have authenticated : bearerToken count.request = some token :=
    (authenticated rfl (congrArg (Tokens.tokenFor crypto _) payload_eq)).1
  match before with
  | [] =>
    cases split
    cases anonymous.symm.trans bearer
  | [_] => cases split
  | [_, _] => cases split
  | [_, _, _] => cases split
  | [_, _, _, _] =>
    cases split
    have same : token = presented := Option.some.inj (authenticated.symm.trans bearer)
    rw [← same]
    exact ⟨committed, 0, builtAfter⟩
  | _ :: _ :: _ :: _ :: _ :: before =>
    have short := congrArg List.length split
    simp [Sample.before, committed] at short

/-- The clock reads small times. -/
theorem clockInRange : ClockInRange ctx (before ++ [.arrives count]) := by
  intro arrival member
  simp only [before, committed, List.cons_append, List.nil_append, List.mem_cons, List.not_mem_nil,
    or_false, Event.arrives.injEq, reduceCtorEq, false_or] at member
  cases member with
  | inl same =>
    rw [same]
    exact ⟨by decide, by decide⟩
  | inr same =>
    rw [same]
    exact ⟨by decide, by decide⟩

end Sample

/-- An administrator who has logged in counts the users, on the grounds that the login gives. -/
theorem administrator_runs_authorized :
    ∃ policy handler claims target issuedAt earlier index,
      Sample.count.dispatched Sample.ctx = .ok handler ∧ policy.kind = .role ∧
        Grounds Sample.ctx Sample.database Sample.before Sample.count policy handler claims target
          issuedAt earlier index := by
  have admitted : authenticateBearer Sample.ctx Sample.count.request Sample.count.now =
      some Sample.carried :=
    (Sample.authenticated rfl (congrArg (Tokens.tokenFor Sample.crypto _) Sample.payload_eq)).2
  have reached : (Sample.count.dispatched Sample.ctx).toOption.isSome := by
    unfold Arrival.dispatched dispatch
    rw [admitted]
    decide +kernel
  cases dispatched : Sample.count.dispatched Sample.ctx with
  | error result =>
    rw [dispatched] at reached
    exact absurd reached Bool.false_ne_true
  | ok handler =>
    obtain ⟨policy, found, grounds⟩ := handlers_run_authorized Sample.ctx Sample.database _ Sample.genuine
      Sample.clockInRange Sample.before Sample.count [] handler rfl dispatched
    have row : Rbac.policyForRoute Sample.count.routeId =
        some ⟨.adminCountUsers, .role, Rbac.roleAdmin⟩ := by decide
    rw [row] at found
    cases found
    obtain ⟨claims, target, issuedAt, earlier, index, grounds⟩ := grounds (by decide)
    exact ⟨_, handler, claims, target, issuedAt, earlier, index, rfl, rfl, grounds⟩

end PlatformService.Verif.Authorization
