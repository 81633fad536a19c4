import PlatformService.Api.Routes

/-!
# The service as its requests arrive

A `Server` is the database with the handlers at work on it. A request that reaches
`ps_routes_dispatch` begins the handler it is admitted to, and the handler goes on in
steps of its own; between any two steps other connections (a sweep, the operator's
prompt) may do anything to the content. A run starts with no handler at work.
-/

namespace PlatformService.Api

open Lib Store

/-- The database and the handlers that have begun on it. -/
structure Server where
  db : Db
  handlers : List Running

/-- A request as `ps_routes_dispatch` gets it, the time that is read there, and what its handler
draws from its surroundings. -/
structure Arrival where
  now : Int
  routeId : Int
  request : Http.Request
  params : List Http.RouteParam
  env : Env
  draining : Bool := false
  faults : List Bool := []

/-- The handler that a request is admitted to. -/
def Arrival.dispatched (ctx : AppCtx) (arrival : Arrival) : Except HandlerResult Handler :=
  dispatch ctx arrival.now arrival.routeId arrival.request arrival.params

/-- What the handler of a request does before it uses the database. -/
def Arrival.begins (ctx : AppCtx) (arrival : Arrival) (handler : Handler) : Call :=
  handler.start ctx arrival.env arrival.draining arrival.request

/-- `ps_routes_dispatch`: the answer to a request, on a connection of its own. -/
def Arrival.answer (ctx : AppCtx) (arrival : Arrival) : Sql (Option HandlerResult) :=
  match arrival.dispatched ctx with
  | .error result => pure (some result)
  | .ok handler => (arrival.begins ctx handler).run ctx

/-- What happens to the service. -/
inductive Event where
  | arrives (arrival : Arrival)
  | steps (handler : Nat)
  | outside (change : Db → Db)

/-- The service when a handler has begun. A handler that only reads answers at once, with its audit
row. -/
def Server.begin (ctx : AppCtx) (server : Server) (faults : List Bool) : Call → Server
  | .activity begun => { server with handlers := server.handlers ++ [⟨begun, faults⟩] }
  | call => { server with db := (call.run ctx (Conn.of server.db, faults)).2.1.committed }

/-- The service when a handler has taken a step. -/
def Server.step (ctx : AppCtx) (server : Server) (handler : Nat) : Server :=
  match server.handlers[handler]? with
  | none => server
  | some running =>
    let (db, next) := running.act ctx server.db
    { db, handlers := server.handlers.set handler next }

/-- The service after an event. -/
def Server.next (ctx : AppCtx) (server : Server) : Event → Server
  | .arrives arrival =>
    match arrival.dispatched ctx with
    | .error _ => server
    | .ok handler => server.begin ctx arrival.faults (arrival.begins ctx handler)
  | .steps handler => server.step ctx handler
  | .outside change => { server with db := change server.db }

/-- The service after some events. -/
def Server.run (ctx : AppCtx) (start : Db) (events : List Event) : Server :=
  events.foldl (Server.next ctx) ⟨start, []⟩

/-- One more event. -/
theorem Server.run_concat (ctx : AppCtx) (start : Db) (events : List Event) (event : Event) :
    Server.run ctx start (events ++ [event]) = (Server.run ctx start events).next ctx event := by
  unfold Server.run
  rw [List.foldl_append, List.foldl_cons, List.foldl_nil]

/-- A handler at work after a call began was at work before it, or is what began. -/
theorem Server.handlers_begin {ctx : AppCtx} {server : Server} {faults : List Bool} {call : Call}
    {index : Nat} {running : Running}
    (present : (server.begin ctx faults call).handlers[index]? = some running) :
    server.handlers[index]? = some running ∨ call = .activity running.activity := by
  cases call with
  | activity begun =>
    unfold Server.begin at present
    dsimp only at present
    by_cases old : index < server.handlers.length
    · rw [List.getElem?_append_left old] at present
      exact Or.inl present
    · rw [List.getElem?_append_right (by omega), List.getElem?_singleton] at present
      split at present
      · cases present
        exact Or.inr rfl
      · contradiction
  | _ => exact Or.inl present

/-- A handler at work after a step was at work before it, or is the one that took the step. -/
theorem Server.handlers_step {ctx : AppCtx} {server : Server} {moved index : Nat} {running : Running}
    (present : (server.step ctx moved).handlers[index]? = some running) :
    server.handlers[index]? = some running ∨
      ∃ earlier, moved = index ∧ server.handlers[index]? = some earlier ∧
        running = (earlier.act ctx server.db).2 := by
  unfold Server.step at present
  cases found : server.handlers[moved]? with
  | none =>
    rw [found] at present
    exact Or.inl present
  | some earlier =>
    rw [found] at present
    dsimp only at present
    by_cases same : moved = index
    · subst same
      obtain ⟨bound, _⟩ := List.getElem?_eq_some_iff.mp found
      rw [List.getElem?_set_self bound] at present
      cases present
      exact Or.inr ⟨earlier, rfl, found, rfl⟩
    · rw [List.getElem?_set_ne same] at present
      exact Or.inl present

/-- A handler at work after an event was at work before it, began with it, or took a step in it. -/
theorem Server.handlers_next {ctx : AppCtx} {server : Server} {event : Event} {index : Nat}
    {running : Running} (present : (server.next ctx event).handlers[index]? = some running) :
    server.handlers[index]? = some running ∨
      (∃ arrival handler, event = .arrives arrival ∧
        arrival.begins ctx handler = .activity running.activity) ∨
      ∃ earlier, event = .steps index ∧ server.handlers[index]? = some earlier ∧
        running = (earlier.act ctx server.db).2 := by
  cases event with
  | outside change => exact Or.inl present
  | steps moved =>
    cases Server.handlers_step present with
    | inl old => exact Or.inl old
    | inr stepped =>
      obtain ⟨earlier, same, found, after⟩ := stepped
      exact Or.inr (Or.inr ⟨earlier, congrArg Event.steps same, found, after⟩)
  | arrives arrival =>
    dsimp only [Server.next] at present
    cases dispatched : arrival.dispatched ctx with
    | error result =>
      rw [dispatched] at present
      exact Or.inl present
    | ok handler =>
      rw [dispatched] at present
      cases Server.handlers_begin present with
      | inl old => exact Or.inl old
      | inr begun => exact Or.inr (Or.inl ⟨arrival, handler, rfl, begun⟩)

end PlatformService.Api
