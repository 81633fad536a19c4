import PlatformService.Platform.Threadpool

/-!
# Serving and shutting down

`server.c`, the listener of `net.c` and `main` from `sigwait` on: the acceptor thread, the workers of
the pool and the main thread. A step of a thread is one system call, one turn under the lock of the pool
or one access to what the threads share, and the operating system answers it in any way that it may. A
thread that waits stays where it is. A step that uses what has been freed or wiped is a fault.
-/

namespace PlatformService.Shutdown

open Threadpool

/-- What `poll` reports of the listening socket. -/
inductive Poll where
  /-- `EINTR` -/
  | interrupted
  | failed
  /-- `POLLERR`, `POLLHUP` or `POLLNVAL` -/
  | broken
  /-- `POLLIN` -/
  | readable
  | nothing
  deriving DecidableEq, Repr

/-- What `accept4` returns. -/
inductive Accept where
  /-- `EAGAIN`, `EWOULDBLOCK`, `ECONNABORTED`, `EINTR` or `EPROTO` -/
  | again
  | failed
  | connection
  deriving DecidableEq, Repr

/-- What a worker does for the connection that it serves. -/
inductive Serving where
  /-- It reads, parses or writes. -/
  | waits
  /-- It calls `dispatch`, whose handlers use the services and the secrets. -/
  | dispatches
  /-- It has called `dispatch` for the last time, and then it closes the connection. -/
  | ends
  deriving DecidableEq, Repr

/-- What the operating system answers in a step. -/
structure Os where
  poll : Poll
  accept : Accept
  /-- `malloc` returns memory. -/
  memory : Bool
  /-- `sigwait` returns a signal. -/
  signal : Bool
  /-- The eventfd takes the write. -/
  wake : Bool
  /-- `pthread_timedjoin_np` fails, as it does past its deadline. -/
  expired : Bool
  /-- What comes of the connection of a worker, by what its peer sends. -/
  serving : Serving

/-- Everything goes well. -/
def Os.fine : Os := ⟨.readable, .connection, true, true, true, false, .ends⟩

/-- Where the acceptor thread is in `ps_server_run`. Connections are numbered in the order in which
`accept4` returns them. -/
inductive Acceptor where
  /-- `ps_listener_accept` is about to load `stopping`. -/
  | entering
  | polling
  /-- `poll` has reported a connection and no shutdown. -/
  | readable
  | accepted (conn : Nat)
  /-- The job is filled, and `server->pool` is read next. -/
  | filled (conn : Nat)
  /-- `ps_threadpool_submit` is called, with a pool or with `NULL`. -/
  | submitting (conn : Nat) (pool : Bool)
  | returned
  deriving DecidableEq, Repr

/-- Where the main thread is: what it does next. From the joins on it knows whether the workers have
drained in time. -/
inductive Main where
  /-- `sigwait` -/
  | waiting
  /-- `server->draining = true` -/
  | marking
  /-- `l->stopping = 1` -/
  | stopping
  /-- the write to `shutdown_fd` -/
  | waking
  /-- `ps_threadpool_shutdown` -/
  | closing
  /-- the join of a worker in `ps_threadpool_destroy_timed`, and behind the last one its `free` -/
  | joining (worker : Nat)
  /-- `server->pool = NULL` -/
  | clearing
  /-- the join of the acceptor thread -/
  | awaiting (drained : Bool)
  /-- `ps_listener_close`, and the join of the maintenance thread, which shares nothing with the others -/
  | unlistening (drained : Bool)
  /-- the rate limiter, the KDF semaphore, the denylist and the database pool -/
  | freeing (drained : Bool)
  /-- `ps_config_free` -/
  | wiping (drained : Bool)
  /-- `ps_log_shutdown` -/
  | leaving (drained : Bool)
  | exited (drained : Bool)
  deriving DecidableEq, Repr

/-- What the threads share, and where they are. -/
structure State (n : Nat) where
  acceptor : Acceptor
  main : Main
  /-- `sigwait` returned a signal. -/
  signalled : Bool
  draining : Bool
  stopping : Bool
  /-- `shutdown_fd` is readable. -/
  woken : Bool
  /-- `server->pool` is not `NULL`. -/
  pool : Bool
  /-- What `server->pool` pointed to is freed. -/
  freed : Bool
  system : System Nat n
  /-- The connection that a worker serves calls no handler any more: its last response is written, or it
  is closed. -/
  finishing : Fin n → Bool
  /-- The descriptors of the listener are open. -/
  listening : Bool
  /-- What the handlers use through `app_ctx` is there. -/
  services : Bool
  /-- The secrets of the configuration are there. -/
  secrets : Bool
  /-- the number of the next connection -/
  next : Nat
  /-- the connections that were closed, in order -/
  closed : List Nat

/-- A use of what is gone, or a sum that overflows. -/
inductive Fault where
  /-- The acceptor calls `ps_threadpool_submit` without a pool. -/
  | pool
  /-- The acceptor uses closed descriptors. -/
  | listener
  /-- A worker uses a freed pool. -/
  | worker
  /-- A worker calls a handler without the services or the secrets. -/
  | straggler
  | overflow
  deriving DecidableEq, Repr

variable {n : Nat}

/-- The acceptor closes a connection and enters `ps_listener_accept` again. -/
def State.drop (state : State n) (conn : Nat) : State n :=
  { state with acceptor := .entering, closed := state.closed ++ [conn] }

/-- A step of `ps_server_run`, with `ps_listener_accept`. -/
def acceptorStep (state : State n) (os : Os) : Except Fault (State n) :=
  match state.acceptor with
  | .returned => .ok state
  | .entering => .ok { state with acceptor := if state.stopping then .returned else .polling }
  | .polling =>
    if !state.listening then .error .listener
    else if os.poll = .interrupted then .ok state
    else if os.poll = .failed ∨ state.woken ∨ os.poll = .broken then
      .ok { state with acceptor := .returned }
    else if os.poll = .readable then .ok { state with acceptor := .readable }
    else .ok state
  | .readable =>
    if !state.listening then .error .listener
    else
      match os.accept with
      | .again => .ok { state with acceptor := .polling }
      | .failed => .ok { state with acceptor := .returned }
      | .connection => .ok { state with acceptor := .accepted state.next, next := state.next + 1 }
  | .accepted conn =>
    if os.memory then .ok { state with acceptor := .filled conn } else .ok (state.drop conn)
  | .filled conn => .ok { state with acceptor := .submitting conn state.pool }
  | .submitting conn pool =>
    if !pool || state.freed then .error .pool
    else
      match state.system.step (.submit conn) with
      | none => .error .overflow
      | some (.refused _, system) => .ok ({ state with system }.drop conn)
      | some (_, system) => .ok { state with system, acceptor := .entering }

/-- A step of `worker_main`, whose jobs are `conn_job_fn`. -/
def workerStep (state : State n) (worker : Fin n) (os : Os) : Except Fault (State n) :=
  match state.system.workers worker with
  | .exited => .ok state
  | .running conn =>
    match os.serving with
    | .waits => .ok state
    | .dispatches =>
      if state.finishing worker then .ok state
      else if !state.services || !state.secrets then .error .straggler
      else .ok state
    | .ends =>
      if state.finishing worker then
        .ok { state with
          system := state.system.move worker .ready
          closed := state.closed ++ [conn] }
      else .ok { state with finishing := Function.update state.finishing worker true }
  | .ready =>
    if state.freed then .error .worker
    else
      match state.system.step (.work worker) with
      | none => .error .overflow
      | some (_, system) =>
        .ok { state with system, finishing := Function.update state.finishing worker false }

/-- A step of `main`, with `ps_server_shutdown`. -/
def mainStep (state : State n) (os : Os) : Except Fault (State n) :=
  match state.main with
  | .waiting => .ok { state with main := .marking, signalled := os.signal }
  | .marking => .ok { state with main := .stopping, draining := true }
  | .stopping => .ok { state with main := .waking, stopping := true }
  | .waking => .ok { state with main := .closing, woken := os.wake }
  | .closing =>
    .ok { state with
      main := .joining 0
      system := { state.system with pool := Threadpool.shutdown state.system.pool true } }
  | .joining worker =>
    if inside : worker < n then
      if os.expired then .ok { state with main := .awaiting false }
      else if state.system.workers ⟨worker, inside⟩ = .exited then
        .ok { state with main := .joining (worker + 1) }
      else .ok state
    else .ok { state with main := .clearing, freed := true }
  | .clearing => .ok { state with main := .awaiting true, pool := false }
  | .awaiting drained =>
    if state.acceptor = .returned then .ok { state with main := .unlistening drained }
    else .ok state
  | .unlistening drained => .ok { state with main := .freeing drained, listening := false }
  | .freeing drained =>
    -- without a signal everything is freed whether or not the workers have drained
    if drained || !state.signalled then
      .ok { state with main := .wiping drained, services := false }
    else .ok { state with main := .wiping drained }
  | .wiping drained => .ok { state with main := .leaving drained, secrets := false }
  | .leaving drained => .ok { state with main := .exited drained }
  | .exited _ => .ok state

/-- Whose turn it is. -/
inductive Thread (n : Nat) where
  | main
  | acceptor
  | worker (worker : Fin n)
  deriving DecidableEq, Repr

/-- The process is gone. -/
def Main.gone : Main → Bool
  | .exited _ => true
  | _ => false

/-- A step of a thread. Nothing runs when `main` has returned. -/
def State.step (state : State n) (thread : Thread n) (os : Os) : Except Fault (State n) :=
  if state.main.gone then .ok state
  else
    match thread with
    | .main => mainStep state os
    | .acceptor => acceptorStep state os
    | .worker worker => workerStep state worker os

/-- The steps of a schedule: where they end, and the fault that they end in. -/
def State.run (state : State n) : List (Thread n × Os) → State n × Option Fault
  | [] => (state, none)
  | (thread, os) :: schedule =>
    match state.step thread os with
    | .ok next => next.run schedule
    | .error fault => (state, some fault)

/-- The server when its acceptor thread has been created: the pool and its queue are empty. -/
def State.initial (n capacity : Nat) : State n where
  acceptor := .entering
  main := .waiting
  signalled := false
  draining := false
  stopping := false
  woken := false
  pool := true
  freed := false
  system := System.initial 0 capacity
  finishing _ := false
  listening := true
  services := true
  secrets := true
  next := 0
  closed := []

end PlatformService.Shutdown
