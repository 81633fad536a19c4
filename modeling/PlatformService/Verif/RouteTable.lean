import PlatformService.Api.Routes

/-!
# The table of routes

No path matches two patterns of the table that `ps_routes_register` fills, so it does not matter in which
order the routes are registered; and whatever is matched has its policy, and the parameter that the
policy needs.
-/

namespace PlatformService.Verif.RouteTable

open Lib Http Api

section Patterns

/-- Two patterns that some path may match both: segment by segment they are the same, or one of them
captures. -/
def compatible : (left right : List Bytes) → Bool
  | [], [] => true
  | expected :: left, other :: right =>
    (isCapture expected || isCapture other || expected = other) && compatible left right
  | _, _ => false

/-- Patterns that match one path are compatible. -/
theorem compatible_of_matches {path : List Bytes} :
    ∀ {left right : List Bytes} {params params' result result' : List RouteParam},
      matchSegments left path params = some result → matchSegments right path params' = some result' →
        compatible left right = true := by
  induction path with
  | nil =>
    intro left right params params' result result' first second
    cases left with
    | nil =>
      cases right with
      | nil => rfl
      | cons other right => contradiction
    | cons expected left => contradiction
  | cons segment path ih =>
    intro left right params params' result result' first second
    cases left with
    | nil => contradiction
    | cons expected left =>
      cases right with
      | nil => contradiction
      | cons other right =>
        have later {pattern : List Bytes} {head : Bytes} {before after : List RouteParam}
            (matched : matchSegments (head :: pattern) (segment :: path) before = some after) :
            (isCapture head = true ∨ head = segment) ∧
              ∃ taken, matchSegments pattern path taken = some after := by
          unfold matchSegments at matched
          split at matched
          · rename_i captures
            split at matched
            · contradiction
            split at matched
            · contradiction
            exact ⟨Or.inl captures, _, matched⟩
          · split at matched
            · rename_i same
              exact ⟨Or.inr same, _, matched⟩
            · contradiction
        obtain ⟨here, taken, rest⟩ := later first
        obtain ⟨there, taken', rest'⟩ := later second
        have tail := ih rest rest'
        unfold compatible
        rw [tail, Bool.and_true, Bool.or_eq_true, Bool.or_eq_true, decide_eq_true_eq]
        rcases here with captures | same
        · exact Or.inl (Or.inl captures)
        · rcases there with captures | same'
          · exact Or.inl (Or.inr captures)
          · exact Or.inr (same.trans same'.symm)

/-- What a pattern captures under which names, and that nothing empty is captured. -/
theorem names_of_matchSegments {path : List Bytes} :
    ∀ {pattern : List Bytes} {params result : List RouteParam},
      matchSegments pattern path params = some result →
        result.map RouteParam.name = params.map RouteParam.name ++
          (pattern.filter isCapture).map (fun expected => expected.tail.dropLast) ∧
        ((∀ param ∈ params, param.value ≠ []) → ∀ param ∈ result, param.value ≠ []) := by
  induction path with
  | nil =>
    intro pattern params result matched
    cases pattern with
    | nil =>
      have same : params = result := Option.some.inj matched
      rw [same]
      exact ⟨(List.append_nil _).symm, id⟩
    | cons expected pattern => contradiction
  | cons segment path ih =>
    intro pattern params result matched
    cases pattern with
    | nil => contradiction
    | cons expected pattern =>
      unfold matchSegments at matched
      by_cases captures : isCapture expected = true
      · rw [if_pos captures] at matched
        split at matched
        · contradiction
        rename_i filled
        split at matched
        · contradiction
        obtain ⟨names, values⟩ := ih matched
        refine ⟨?_, fun before => values fun param member => ?_⟩
        · rw [names, List.filter_cons_of_pos captures]
          simp
        · rcases List.mem_append.mp member with old | new
          · exact before param old
          · rw [List.mem_singleton.mp new]
            exact filled
      · rw [if_neg captures] at matched
        split at matched
        · rw [List.filter_cons_of_neg captures]
          exact ih matched
        · contradiction

end Patterns

section Tables

/-- No path matches both routes. -/
def Apart (left right : RouteEntry) : Prop :=
  ∀ path, matchPath left.pattern path = none ∨ matchPath right.pattern path = none

/-- Being apart does not depend on the order. -/
theorem Apart.symm {left right : RouteEntry} (apart : Apart left right) : Apart right left :=
  fun path => (apart path).symm

/-- Whether two routes are apart by their patterns. -/
def differ (left right : RouteEntry) : Bool :=
  !((segments left.pattern).any fun first => (segments right.pattern).any (compatible first))

/-- Routes whose patterns are not compatible are apart. -/
theorem apart_of_differ {left right : RouteEntry} (different : differ left right = true) :
    Apart left right := by
  intro path
  cases first : matchPath left.pattern path with
  | none => exact Or.inl rfl
  | some params =>
    refine Or.inr ?_
    cases second : matchPath right.pattern path with
    | none => rfl
    | some params' =>
      unfold matchPath at first second
      simp only [bind, Option.bind_eq_some_iff] at first second
      obtain ⟨pattern, split, parts, cut, matched⟩ := first
      obtain ⟨pattern', split', parts', cut', matched'⟩ := second
      rw [cut] at cut'
      rw [← Option.some.inj cut'] at matched'
      have both := compatible_of_matches matched matched'
      unfold differ at different
      rw [split, split'] at different
      simp only [Option.any_some, both] at different
      contradiction

/-- Routes that are apart may be tried in any order. -/
theorem routerMatchFrom_perm {routes others : List RouteEntry} (order : routes.Perm others)
    (apart : routes.Pairwise Apart) (method path : Bytes) (matched : Bool) :
    routerMatchFrom method path matched routes = routerMatchFrom method path matched others := by
  induction order generalizing matched with
  | nil => rfl
  | cons route order ih =>
    have rest := ih (List.pairwise_cons.mp apart).2
    unfold routerMatchFrom
    cases matchPath route.pattern path with
    | none => exact rest matched
    | some params =>
      dsimp only
      rw [rest true]
  | swap left right routes =>
    have between := (List.pairwise_cons.mp apart).1 left List.mem_cons_self
    rcases between path with none | none
    · simp only [routerMatchFrom, none]
    · simp only [routerMatchFrom, none]
  | trans first second ihFirst ihSecond =>
    have kept := (first.pairwise_iff fun apart => Apart.symm apart).mp apart
    exact (ihFirst apart matched).trans (ihSecond kept matched)

/-- A match is that of some route. -/
theorem of_routerMatchFrom {routes : List RouteEntry} {method path : Bytes} {before : Bool} {routeId : Int}
    {params : List RouteParam}
    (matched : routerMatchFrom method path before routes = .matched routeId params) :
    ∃ route ∈ routes, route.routeId = routeId ∧ route.method = method ∧
      matchPath route.pattern path = some params := by
  induction routes generalizing before with
  | nil =>
    unfold routerMatchFrom at matched
    split at matched
    · contradiction
    · contradiction
  | cons route routes ih =>
    have later {flag : Bool} (rest : routerMatchFrom method path flag routes = .matched routeId params) :
        ∃ other ∈ route :: routes, other.routeId = routeId ∧ other.method = method ∧
          matchPath other.pattern path = some params := by
      obtain ⟨other, member, found⟩ := ih rest
      exact ⟨other, List.mem_cons_of_mem _ member, found⟩
    unfold routerMatchFrom at matched
    cases taken : matchPath route.pattern path with
    | none =>
      rw [taken] at matched
      exact later matched
    | some captured =>
      rw [taken] at matched
      dsimp only at matched
      split at matched
      · rename_i same
        obtain ⟨number, all⟩ := RouteMatch.matched.inj matched
        exact ⟨route, List.mem_cons_self, number, same, by rw [taken, all]⟩
      · exact later matched

/-- What the parameters of a match are named. -/
theorem names_of_matchPath {pattern path : Bytes} {params : List RouteParam}
    (matched : matchPath pattern path = some params) : ∃ parts, segments pattern = some parts ∧
      params.map RouteParam.name =
        (parts.filter isCapture).map (fun expected => expected.tail.dropLast) ∧
      ∀ param ∈ params, param.value ≠ [] := by
  unfold matchPath at matched
  simp only [bind, Option.bind_eq_some_iff] at matched
  obtain ⟨parts, split, cut, -, matched⟩ := matched
  obtain ⟨names, values⟩ := names_of_matchSegments matched
  exact ⟨parts, split, names, values fun param impossible => by contradiction⟩

end Tables

section Routes

/-- The routes of the service are apart from each other. -/
theorem apart_routesRegister : routesRegister.Pairwise Apart := by
  have different : routesRegister.Pairwise fun left right => differ left right = true := by
    decide +kernel
  exact different.imp apart_of_differ

/-- The names that the parameters of a policy's route have. -/
def needed (policy : Rbac.RoutePolicy) : List Bytes :=
  if policy.kind = .selfOrRole then [ascii "userId"] else []

/-- The names under which a route captures. -/
def captured (route : RouteEntry) : List Bytes :=
  ((segments route.pattern).getD []).filter isCapture |>.map fun expected => expected.tail.dropLast

/-- Every route has its policy, and captures what the policy needs. -/
theorem policy_of_route : ∀ route ∈ routesRegister,
    ∃ policy ∈ Rbac.policies, Rbac.policyForRoute route.routeId = some policy ∧
      policy.routeId.number = route.routeId ∧ captured route = needed policy := by
  decide +kernel

/-- In whatever order the routes are registered, no path matches the patterns of two, and every request
is matched the same; and what is matched has a policy, with just the parameter that the policy needs,
which is not empty. -/
theorem routes_in_any_order {routes : List RouteEntry} (order : routes.Perm routesRegister)
    (method path : Bytes) :
    routes.Pairwise Apart ∧
      routerMatch routes method path = routerMatch routesRegister method path ∧
      ∀ routeId params, routerMatch routes method path = .matched routeId params →
        ∃ policy, Rbac.policyForRoute routeId = some policy ∧ policy.routeId.number = routeId ∧
          params.map RouteParam.name = needed policy ∧ ∀ param ∈ params, param.value ≠ [] := by
  have same : routerMatch routes method path = routerMatch routesRegister method path :=
    (routerMatchFrom_perm order.symm apart_routesRegister method path false).symm
  have apart : routes.Pairwise Apart :=
    (order.pairwise_iff fun apart => Apart.symm apart).mpr apart_routesRegister
  refine ⟨apart, same, fun routeId params matched => ?_⟩
  rw [same] at matched
  obtain ⟨route, member, number, -, taken⟩ := of_routerMatchFrom matched
  obtain ⟨policy, -, found, own, captures⟩ := policy_of_route route member
  obtain ⟨parts, split, names, values⟩ := names_of_matchPath taken
  refine ⟨policy, by rw [← number]; exact found, own.trans number, ?_, values⟩
  rw [names, ← captures, captured, split]
  rfl

/-- The routes from the last one to the first. -/
theorem routes_in_reverse_order :
    routesRegister.reverse.Pairwise Apart ∧
      routerMatch routesRegister.reverse (ascii "GET") (ascii "/v1/users/7") =
        routerMatch routesRegister (ascii "GET") (ascii "/v1/users/7") ∧
      ∀ routeId params,
        routerMatch routesRegister.reverse (ascii "GET") (ascii "/v1/users/7") =
            .matched routeId params →
          ∃ policy, Rbac.policyForRoute routeId = some policy ∧ policy.routeId.number = routeId ∧
            params.map RouteParam.name = needed policy ∧ ∀ param ∈ params, param.value ≠ [] :=
  routes_in_any_order (List.reverse_perm routesRegister) (ascii "GET") (ascii "/v1/users/7")

end Routes

end PlatformService.Verif.RouteTable
