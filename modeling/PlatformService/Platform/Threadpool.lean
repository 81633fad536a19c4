import Mathlib.Logic.Function.Basic
import PlatformService.Lib.Ring

/-!
# The worker pool

`threadpool.c`. What runs under the lock of the pool is one step: a submission, a turn
of a worker that takes a job, waits or exits, and a shutdown. A step that C leaves
undefined (an `int` that overflows, an access outside the ring) has no result. The
events that the steps report are what a test of the pool can observe, and the jobs
that a shutdown drops.
-/

namespace PlatformService.Threadpool

/-- `INT_MAX` -/
def intMax : Nat := 2 ^ 31 - 1

/-- A sum of type `int`; overflow is undefined. -/
def addInt (left right : Nat) : Option Nat :=
  if left + right ≤ intMax then some (left + right) else none

/-- `struct ps_threadpool` under its lock. -/
structure Pool (Job : Type) where
  ring : List Job
  capacity : Nat
  /-- index of the next job to pop -/
  head : Nat
  /-- jobs currently queued -/
  count : Nat
  shuttingDown : Bool
  deriving DecidableEq, Repr

variable {Job : Type}

/-- `ps_threadpool_submit` -/
def submit (pool : Pool Job) (job : Job) : Option (Bool × Pool Job) :=
  if pool.shuttingDown ∨ pool.count = pool.capacity then some (false, pool)
  else do
    let sum ← addInt pool.head pool.count
    let tail := sum % pool.capacity
    let _ ← pool.ring[tail]?
    some (true, { pool with ring := pool.ring.set tail job, count := pool.count + 1 })

/-- What a worker finds when it holds the lock. -/
inductive Found (Job : Type) where
  | job (job : Job)
  | nothing
  | ended
  deriving DecidableEq, Repr

/-- One turn of the loop of `worker_main` up to the call of the job. -/
def workerTurn (pool : Pool Job) : Option (Found Job × Pool Job) :=
  if pool.count = 0 ∧ !pool.shuttingDown then some (.nothing, pool)
  else if pool.count = 0 ∧ pool.shuttingDown then some (.ended, pool)
  else do
    let job ← pool.ring[pool.head]?
    let sum ← addInt pool.head 1
    some (.job job, { pool with head := sum % pool.capacity, count := pool.count - 1 })

/-- `ps_threadpool_shutdown` -/
def shutdown (pool : Pool Job) (drain : Bool) : Pool Job :=
  if drain then { pool with shuttingDown := true }
  else { pool with shuttingDown := true, count := 0, head := 0 }

/-- The jobs in the ring from `head` on. -/
def Pool.queued (pool : Pool Job) : List Job :=
  Lib.Ring.window pool.ring pool.head pool.count

/-- Where a worker is. -/
inductive Worker (Job : Type) where
  /-- It is about to take the lock, or waits for a job. -/
  | ready
  | running (job : Job)
  | exited
  deriving DecidableEq, Repr

/-- The pool and its workers. -/
structure System (Job : Type) (n : Nat) where
  pool : Pool Job
  workers : Fin n → Worker Job

/-- Whose turn it is. -/
inductive Action (Job : Type) (n : Nat) where
  | submit (job : Job)
  | work (worker : Fin n)
  | shutdown (drain : Bool)
  deriving DecidableEq, Repr

/-- What a step did. -/
inductive Event (Job : Type) (n : Nat) where
  | accepted (job : Job)
  | refused (job : Job)
  | started (worker : Fin n) (job : Job)
  | finished (worker : Fin n) (job : Job)
  | waited (worker : Fin n)
  | exited (worker : Fin n)
  /-- A shutdown, with the queued jobs that it drops. -/
  | shutDown (drain : Bool) (dropped : List Job)
  deriving DecidableEq, Repr

variable {n : Nat}

/-- The pool with one of its workers somewhere else. -/
def System.move (system : System Job n) (worker : Fin n) (place : Worker Job) : System Job n :=
  { system with workers := Function.update system.workers worker place }

/-- A step of the pool. A worker that runs a job finishes it without the lock. -/
def System.step (system : System Job n) : Action Job n → Option (Event Job n × System Job n)
  | .submit job => do
    let (accepted, pool) ← Threadpool.submit system.pool job
    some (if accepted then .accepted job else .refused job, { system with pool })
  | .work worker =>
    match system.workers worker with
    | .running job => some (.finished worker job, system.move worker .ready)
    | .exited => some (.exited worker, system)
    | .ready => do
      let (found, pool) ← workerTurn system.pool
      match found with
      | .nothing => some (.waited worker, { system with pool })
      | .ended => some (.exited worker, { system with pool }.move worker .exited)
      | .job job => some (.started worker job, { system with pool }.move worker (.running job))
  | .shutdown drain =>
    some (.shutDown drain (if drain then [] else system.pool.queued),
      { system with pool := Threadpool.shutdown system.pool drain })

/-- The steps of a schedule. -/
def System.run (system : System Job n) :
    List (Action Job n) → Option (List (Event Job n) × System Job n)
  | [] => some ([], system)
  | action :: schedule => do
    let (event, next) ← system.step action
    let (events, last) ← next.run schedule
    some (event :: events, last)

/-- A new pool, with its workers before their first turn. -/
def System.initial (zeroed : Job) (capacity : Nat) : System Job n :=
  ⟨⟨List.replicate capacity zeroed, capacity, 0, 0, false⟩, fun _ => .ready⟩

/-- `ps_threadpool_create`: it refuses a capacity below one, and `calloc` zeroes the ring. -/
def create (zeroed : Job) (queueCapacity : Int) : Option (System Job n) :=
  if queueCapacity < 1 then none else some (System.initial zeroed queueCapacity.toNat)

/-- The array `workers` of a pool and how many of its threads the pool still has. -/
structure Workers (Thread : Type) where
  workers : List Thread
  nWorkers : Nat
  /-- The pool has no more threads than the array holds. -/
  fits : nWorkers ≤ workers.length

variable {Thread : Type}

/-- The threads a pool still has. -/
def Workers.outstanding (pool : Workers Thread) : List Thread := pool.workers.take pool.nWorkers

/-- The threads that `ps_threadpool_create` has started. -/
def Workers.started (threads : List Thread) : Workers Thread :=
  ⟨threads, threads.length, Nat.le_refl _⟩

/-- The loop of `ps_threadpool_destroy` from worker `i` on: the threads it joins. -/
def destroyFrom (pool : Workers Thread) (i : Nat) : List Thread :=
  if inside : i < pool.nWorkers then
    have := pool.fits
    pool.workers[i] :: destroyFrom pool (i + 1)
  else []
termination_by pool.nWorkers - i

/-- `ps_threadpool_destroy`, by the threads it joins. -/
def destroy (pool : Workers Thread) : List Thread := destroyFrom pool 0

/-- The loop of `ps_threadpool_destroy_timed` from worker `i` on: the threads it joins, and the
worker whose join failed. `joins` says of which worker the join succeeds before the deadline. -/
def timedFrom (joins : Nat → Bool) (pool : Workers Thread) (i : Nat) :
    List Thread × Option (Fin pool.nWorkers) :=
  if inside : i < pool.nWorkers then
    have := pool.fits
    if joins i then
      let (joined, failed) := timedFrom joins pool (i + 1)
      (pool.workers[i] :: joined, failed)
    else ([], some ⟨i, inside⟩)
  else ([], none)
termination_by pool.nWorkers - i

/-- The array after `memmove(workers, &workers[i], count * sizeof workers[0])`. -/
def memmoveFront (workers : List Thread) (i count : Nat) : List Thread :=
  (workers.drop i).take count ++ workers.drop count

/-- Moving what is inside the array keeps its size. -/
theorem length_memmoveFront {workers : List Thread} {i count : Nat}
    (inside : i + count ≤ workers.length) :
    (memmoveFront workers i count).length = workers.length := by
  unfold memmoveFront
  rw [List.length_append, List.length_take, List.length_drop, List.length_drop]
  omega

/-- The pool without the workers in front of the one whose join failed. -/
def Workers.compact (pool : Workers Thread) (i : Fin pool.nWorkers) : Workers Thread where
  workers := memmoveFront pool.workers i (pool.nWorkers - i)
  nWorkers := pool.nWorkers - i
  fits := by
    have fits := pool.fits
    have inside := i.isLt
    rw [length_memmoveFront (by omega)]
    omega

/-- `ps_threadpool_destroy_timed`: the threads it joins, and the pool unless it is freed. -/
def destroyTimed (joins : Nat → Bool) (pool : Workers Thread) :
    List Thread × Option (Workers Thread) :=
  let (joined, failed) := timedFrom joins pool 0
  (joined, failed.map pool.compact)

/-- A call that gives the workers of a pool up. -/
inductive Release where
  /-- `ps_threadpool_destroy_timed`, and of which worker the join succeeds before the deadline -/
  | timed (joins : Nat → Bool)
  /-- `ps_threadpool_destroy` -/
  | untimed

/-- The threads a call joins, and the pool unless it is freed. -/
def Release.perform (pool : Workers Thread) : Release → List Thread × Option (Workers Thread)
  | .timed joins => destroyTimed joins pool
  | .untimed => (destroy pool, none)

/-- The threads that calls join, and the pool unless it is freed. A freed pool is not called. -/
def releases (pool : Workers Thread) : List Release → List Thread × Option (Workers Thread)
  | [] => ([], some pool)
  | call :: calls =>
    match call.perform pool with
    | (joined, none) => (joined, none)
    | (joined, some pool) =>
      let (later, left) := releases pool calls
      (joined ++ later, left)

end PlatformService.Threadpool
