import PlatformService.Http.Router
import PlatformService.Http.Slices

/-!
# The router on positions

`match_path` walks over a pattern and a path with one cursor in each, and its captures
point into both. This is `router.c` with its cursors, and `ps_router_add`, which builds
the tables the router is asked about.
-/

namespace PlatformService.Http

/-- `PS_ROUTER_MAX_ROUTES` -/
def maxRoutes : Nat := 32

/-- `PS_ROUTE_METHOD_MAX` -/
def methodMax : Nat := 8

/-- `PS_ROUTE_PATTERN_MAX` -/
def patternMax : Nat := 128

/-- `ps_router_add` with an error buffer of `errlen` octets, none where it is zero: the table after
it, or the text in the buffer. -/
def routerAdd (routes : List RouteEntry) (method pattern : Bytes) (routeId : Int) (errlen : Nat) :
    Except Bytes (List RouteEntry) :=
  let method := cString method
  let pattern := cString pattern
  if errlen = 0 then .error []
  else if maxRoutes ≤ routes.length then
    .error (boundedCopy errlen (ascii "router is full (max 32 routes)"))
  else if method.length = 0 ∨ methodMax ≤ method.length then
    .error (boundedCopy errlen (ascii "invalid method '" ++ method ++ ascii "'"))
  else if pattern.length = 0 ∨ patternMax ≤ pattern.length ∨ pattern.head? ≠ some 47 then
    .error (boundedCopy errlen (ascii "invalid route pattern '" ++ pattern ++ ascii "'"))
  else .ok (routes ++ [⟨method, pattern, routeId⟩])

/-- The tables that calls of `ps_router_add` build from the one `ps_router_init` leaves. -/
inductive Registered : List RouteEntry → Prop where
  | init : Registered []
  | add {routes after : List RouteEntry} {method pattern : Bytes} {routeId : Int} {errlen : Nat}
      (before : Registered routes) (added : routerAdd routes method pattern routeId errlen = .ok after) :
      Registered after

/-- `ps_route_param_t`: a name in the pattern and a value in the path. -/
structure ParamSlices where
  name : Slice
  value : Slice
  deriving DecidableEq, Repr

/-- The texts of a capture. -/
def ParamSlices.read (param : ParamSlices) (pattern path : Bytes) : RouteParam :=
  ⟨param.name.read pattern, param.value.read path⟩

/-- What the inner loops of `match_path` run over. -/
def inSegment (c : UInt8) : Bool := c ≠ 47

/-- A scan does not go back. -/
theorem le_scan (passes : UInt8 → Bool) (data : Bytes) (start limit : Nat) :
    start ≤ scan passes data start limit := Nat.le_add_right _ _

/-- The loop of `match_path` with its cursors `pp` and `qp` and the captures so far. -/
def matchLoop (pattern path : Bytes) (pp qp : Nat) (params : List ParamSlices) :
    Option (List ParamSlices) :=
  if decide (pattern.length ≤ pp) ≠ decide (path.length ≤ qp) then none
  else if pattern.length ≤ pp then some params
  else if pattern[pp]? ≠ some 47 ∨ path[qp]? ≠ some 47 then none
  else
    let patSegStart := pp + 1
    let patSegEnd := scan inSegment pattern patSegStart pattern.length
    let patSegLen := patSegEnd - patSegStart
    let pathSegStart := qp + 1
    let pathSegEnd := scan inSegment path pathSegStart path.length
    let pathSegLen := pathSegEnd - pathSegStart
    if 2 ≤ patSegLen ∧ pattern[patSegStart]? = some 123 ∧
        pattern[patSegStart + patSegLen - 1]? = some 125 then
      if pathSegLen = 0 then none
      else if maxParams ≤ params.length then none
      else
        matchLoop pattern path patSegEnd pathSegEnd
          (params ++ [⟨⟨patSegStart + 1, patSegLen - 2⟩, ⟨pathSegStart, pathSegLen⟩⟩])
    else if patSegLen ≠ pathSegLen ∨
        Slice.read ⟨patSegStart, patSegLen⟩ pattern ≠ Slice.read ⟨pathSegStart, patSegLen⟩ path then
      none
    else matchLoop pattern path patSegEnd pathSegEnd params
termination_by pattern.length - pp
decreasing_by
  all_goals
    have forward := le_scan inSegment pattern (pp + 1) pattern.length
    omega

/-- The loop of `ps_router_match` on the routes left, given whether the path has matched before. -/
def routerMatchLoop (method path : Bytes) (pathMatchedSomeMethod : Bool) :
    List RouteEntry → RouteMatch
  | [] => if pathMatchedSomeMethod then .methodNotAllowed else .notFound
  | route :: routes =>
    match matchLoop route.pattern path 0 0 [] with
    | none => routerMatchLoop method path pathMatchedSomeMethod routes
    | some localParams =>
      if route.method = method then
        .matched route.routeId (localParams.map (·.read route.pattern path))
      else routerMatchLoop method path true routes

/-- `ps_router_match` with its captures read from their positions. -/
def routerMatchCursors (routes : List RouteEntry) (method path : Bytes) : RouteMatch :=
  routerMatchLoop method path false routes

end PlatformService.Http
