import PlatformService.Lib.Bytes

/-!
# The router

`router.c`: patterns and paths are matched segment by segment, and a pattern
segment in braces captures one nonempty segment.
-/

namespace PlatformService.Http

/-- `ps_route_param_t` -/
structure RouteParam where
  name : Bytes
  value : Bytes
  deriving DecidableEq, Repr

/-- `ps_route_entry_t` -/
structure RouteEntry where
  method : Bytes
  pattern : Bytes
  routeId : Int
  deriving DecidableEq, Repr

/-- `PS_ROUTE_MAX_PARAMS` -/
def maxParams : Nat := 4

/-- The segments of a text that is empty or starts with a slash. -/
def segments : Bytes → Option (List Bytes)
  | [] => some []
  | c :: rest => if c = 47 then some (rest.splitOn 47) else none

/-- A pattern segment in braces. -/
def isCapture (segment : Bytes) : Bool :=
  2 ≤ segment.length && segment.head? = some 123 && segment.getLast? = some 125

/-- The loop of `match_path` over the segments, with the parameters captured so far. -/
def matchSegments : (pattern path : List Bytes) → List RouteParam → Option (List RouteParam)
  | [], [], params => some params
  | expected :: pattern, segment :: path, params =>
    if isCapture expected then
      if segment = [] then none
      else if maxParams ≤ params.length then none
      else matchSegments pattern path (params ++ [⟨expected.tail.dropLast, segment⟩])
    else if expected = segment then matchSegments pattern path params
    else none
  | _, _, _ => none

/-- `match_path` -/
def matchPath (pattern path : Bytes) : Option (List RouteParam) := do
  matchSegments (← segments pattern) (← segments path) []

/-- `ps_route_match_result_t` with the route and its parameters. -/
inductive RouteMatch where
  | matched (routeId : Int) (params : List RouteParam)
  | notFound
  | methodNotAllowed
  deriving DecidableEq, Repr

/-- `ps_router_match` on the routes left, given whether the path has matched before. -/
def routerMatchFrom (method path : Bytes) (pathMatched : Bool) : List RouteEntry → RouteMatch
  | [] => if pathMatched then .methodNotAllowed else .notFound
  | route :: routes =>
    match matchPath route.pattern path with
    | none => routerMatchFrom method path pathMatched routes
    | some params =>
      if route.method = method then .matched route.routeId params
      else routerMatchFrom method path true routes

/-- `ps_router_match` -/
def routerMatch (routes : List RouteEntry) (method path : Bytes) : RouteMatch :=
  routerMatchFrom method path false routes

/-- `ps_route_params_get` -/
def paramsGet (params : List RouteParam) (name : String) : Option RouteParam :=
  params.find? fun param => param.name = ascii name

end PlatformService.Http
