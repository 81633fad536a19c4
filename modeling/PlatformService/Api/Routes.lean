import PlatformService.Api.System
import PlatformService.Api.Users
import PlatformService.Http.Request
import PlatformService.Http.Router

/-!
# Routes and their policies

`routes.c`, `rbac.c` and `ps_auth_authenticate_bearer`. `dispatch` decides which handler
a matched request reaches and with which claims; a `Handler` is what it calls, and
`Handler.start` runs what the handler does before it uses the database. The whole of
a handler, on the connection it takes from the pool, is `Call.run`.
-/

namespace PlatformService.Api

open Lib Json Store

/-- The `PS_ROUTE_ID_…` constants. -/
inductive RouteId where
  | healthz
  | readyz
  | register
  | verify
  | resendVerification
  | login
  | refresh
  | logout
  | passwordChange
  | getUser
  | adminCountUsers
  | adminListUsers
  deriving DecidableEq, Repr

/-- The number of a route. -/
def RouteId.number : RouteId → Int
  | healthz => 1
  | readyz => 2
  | register => 3
  | verify => 4
  | resendVerification => 5
  | login => 6
  | refresh => 7
  | logout => 8
  | passwordChange => 9
  | getUser => 10
  | adminCountUsers => 11
  | adminListUsers => 12

/-- `ps_routes_register` -/
def routesRegister : List Http.RouteEntry :=
  let route (method pattern : String) (id : RouteId) : Http.RouteEntry :=
    ⟨ascii method, ascii pattern, id.number⟩
  [route "GET" "/healthz" .healthz, route "GET" "/readyz" .readyz,
    route "POST" "/v1/auth/register" .register, route "POST" "/v1/auth/verify" .verify,
    route "POST" "/v1/auth/resend-verification" .resendVerification,
    route "POST" "/v1/auth/login" .login, route "POST" "/v1/auth/refresh" .refresh,
    route "POST" "/v1/auth/logout" .logout, route "POST" "/v1/auth/password" .passwordChange,
    route "GET" "/v1/users/\x7buserId\x7d" .getUser,
    route "GET" "/v1/admin/users/count" .adminCountUsers,
    route "GET" "/v1/admin/users" .adminListUsers]

namespace Rbac

/-- `ps_policy_kind_t` -/
inductive PolicyKind where
  /-- `PS_POLICY_PUBLIC` -/
  | anyone
  | authenticated
  | role
  | selfOrRole
  deriving DecidableEq, Repr

/-- `ps_route_policy_t` without the columns for display. -/
structure RoutePolicy where
  routeId : RouteId
  kind : PolicyKind
  requiredRole : Nat
  deriving DecidableEq, Repr

/-- `PS_JWT_ROLE_ADMIN` -/
def roleAdmin : Nat := 2 ^ Claims.roleIndex .admin

/-- `PS_RBAC_POLICIES` -/
def policies : List RoutePolicy :=
  [⟨.healthz, .anyone, 0⟩, ⟨.readyz, .anyone, 0⟩, ⟨.register, .anyone, 0⟩, ⟨.verify, .anyone, 0⟩,
    ⟨.resendVerification, .anyone, 0⟩, ⟨.login, .anyone, 0⟩, ⟨.refresh, .anyone, 0⟩,
    ⟨.logout, .authenticated, 0⟩, ⟨.passwordChange, .authenticated, 0⟩,
    ⟨.getUser, .selfOrRole, roleAdmin⟩, ⟨.adminCountUsers, .role, roleAdmin⟩,
    ⟨.adminListUsers, .role, roleAdmin⟩]

/-- `ps_rbac_policy_for_route` -/
def policyForRoute (routeId : Int) : Option RoutePolicy :=
  policies.find? fun policy => policy.routeId.number = routeId

/-- `ps_rbac_check` -/
def check (policy : RoutePolicy) (claims : Claims) (targetUserId : Int) : Bool :=
  match policy.kind with
  | .anyone => true
  | .authenticated => true
  | .role => claims.roles &&& policy.requiredRole ≠ 0
  | .selfOrRole => claims.userId = targetUserId || claims.roles &&& policy.requiredRole ≠ 0

end Rbac

/-- `PS_JWT_CLOCK_SKEW_S` -/
def jwtClockSkewS : Int := 60

/-- The token behind `Bearer ` in the `Authorization` header. -/
def bearerToken (request : Http.Request) : Option Bytes :=
  match request.header "Authorization" with
  | none => none
  | some header =>
    if header.value.length ≤ 7 ∨ header.value.take 7 ≠ ascii "Bearer " then none
    else some (header.value.drop 7)

/-- `ps_auth_authenticate_bearer` -/
def authenticateBearer (ctx : AppCtx) (request : Http.Request) (now : Int) : Option Claims :=
  match bearerToken request with
  | none => none
  | some token =>
    match Jwt.verify ctx.crypto token ctx.config.jwtIssuer ctx.config.jwtAudience
        (cString ctx.config.jwtSecret) now jwtClockSkewS with
    | .ok claims => some claims
    | _ => none

/-- The handlers, with what `ps_routes_dispatch` hands to them. -/
inductive Handler where
  | healthz
  | readyz
  | register
  | verify
  | resendVerification
  | login
  | refresh
  | logout (claims : Claims)
  | passwordChange (claims : Claims)
  | getUser (claims : Claims) (targetUserId : Int)
  | countUsers (claims : Claims)
  | listUsers (claims : Claims)
  deriving DecidableEq, Repr

/-- The `switch` of `ps_routes_dispatch`. -/
def handlerOf (routeId : RouteId) (claims : Claims) (targetUserId : Int) : Handler :=
  match routeId with
  | .healthz => .healthz
  | .readyz => .readyz
  | .register => .register
  | .verify => .verify
  | .resendVerification => .resendVerification
  | .login => .login
  | .refresh => .refresh
  | .logout => .logout claims
  | .passwordChange => .passwordChange claims
  | .getUser => .getUser claims targetUserId
  | .adminCountUsers => .countUsers claims
  | .adminListUsers => .listUsers claims

/-- The zeroed `ps_jwt_claims_t` of a public route. -/
def noClaims : Claims := ⟨0, 0, 0, 0, 0, [], []⟩

/-- `parse_path_user_id` of the parameter `userId` -/
def pathUserId (params : List Http.RouteParam) : Option Int :=
  (Http.paramsGet params "userId").bind fun param => Admin.parseInt64 param.value

/-- `ps_routes_dispatch` up to the call of a handler. -/
def dispatch (ctx : AppCtx) (now : Int) (routeId : Int) (request : Http.Request)
    (params : List Http.RouteParam) : Except HandlerResult Handler := do
  let some policy := Rbac.policyForRoute routeId
    | throw (errorResult 401 "UNAUTHORIZED" "no access token provided")
  let claims ←
    if policy.kind = .anyone then pure noClaims
    else match authenticateBearer ctx request now with
      | none => throw (errorResult 401 "UNAUTHORIZED" "missing or invalid access token")
      | some claims => pure claims
  let targetUserId ←
    if policy.kind ≠ .selfOrRole then pure 0
    else match pathUserId params with
      | none => throw (errorResult 400 "BAD_REQUEST" "userId is invalid")
      | some userId => pure userId
  if (policy.kind = .role ∨ policy.kind = .selfOrRole) ∧
      !Rbac.check policy claims targetUserId then
    throw (errorResult 403 "FORBIDDEN" "insufficient permissions")
  return handlerOf policy.routeId claims targetUserId

/-- A handler at its first use of the database, or its answer. -/
inductive Call where
  | answered (result : HandlerResult)
  | activity (activity : Activity)
  | getUser (env : Env) (claims : Claims) (targetUserId : Int)
  | countUsers
  | listUsers (env : Env) (claims : Claims) (page : Admin.Page)

/-- The call of a handler that has admitted its request, or its refusal. -/
def Call.admitted {α : Type} (admission : Except HandlerResult α) (begin : α → Call) : Call :=
  match admission with
  | .error result => .answered result
  | .ok input => begin input

/-- `status_body` -/
def statusBody (status : Int) (text : String) : HandlerResult :=
  { status, body := some (jsonObject [("status", jsonText text)]), noStore := false }

/-- What a handler does before it uses the database. -/
def Handler.start (ctx : AppCtx) (env : Env) (draining : Bool) (request : Http.Request) :
    Handler → Call
  | .healthz => .answered (statusBody 200 "ok")
  | .readyz => .answered (if draining then statusBody 503 "draining" else statusBody 200 "ok")
  | .register => .admitted (Register.admission ctx env (request.body.getD [])) fun input =>
      .activity (.register env input .write)
  | .verify => .admitted (Verify.admission ctx (request.body.getD [])) fun tokenHash =>
      .activity (.verify env tokenHash .lookup)
  | .resendVerification => .admitted (Resend.admission (request.body.getD [])) fun email =>
      .activity (.resend env email .lookup)
  | .login => .admitted (Login.admission ctx env (request.body.getD [])) fun input =>
      .activity (.login env input .lookup)
  | .refresh => .admitted (Refresh.admission ctx (request.body.getD [])) fun tokenHash =>
      .activity (.refresh env tokenHash .write)
  | .logout claims => .admitted (Logout.admission ctx (request.body.getD [])) fun tokenHash =>
      .activity (.logout env claims tokenHash .findToken)
  | .passwordChange claims =>
    .admitted (PasswordChange.admission ctx (request.body.getD [])) fun input =>
      .activity (.passwordChange env claims input .lookup)
  | .getUser claims targetUserId => .getUser env claims targetUserId
  | .countUsers _ => .countUsers
  | .listUsers claims => .admitted (Admin.page request.query) fun page => .listUsers env claims page

/-- The answer of an activity that is over. -/
def Activity.answer : Activity → Option HandlerResult
  | .register _ _ (.done result) => some result
  | .verify _ _ (.done result) => some result
  | .resend _ _ (.done result) => some result
  | .login _ _ (.done result) => some result
  | .refresh _ _ (.done result) => some result
  | .logout _ _ _ (.done result) => some result
  | .passwordChange _ _ _ (.done result) => some result
  | _ => none

/-- Some steps of an activity on one connection. -/
def Activity.run (ctx : AppCtx) : (turns : Nat) → Activity → Sql Activity
  | 0, activity => return activity
  | turns + 1, activity => do Activity.run ctx turns (← activity.step ctx)

/-- The longest way through a handler: a resend that sends a token. -/
def Activity.turns : Nat := 5

/-- A handler from its first use of the database to its answer, on one connection. -/
def Call.run (ctx : AppCtx) : Call → Sql (Option HandlerResult)
  | .answered result => return some result
  | .activity begun => return (← Activity.run ctx Activity.turns begun).answer
  | .getUser env claims targetUserId => return some (← Users.getUser env claims targetUserId)
  | .countUsers => return some (← Admin.countUsers)
  | .listUsers env claims page => return some (← Admin.listUsers env claims page)

end PlatformService.Api
