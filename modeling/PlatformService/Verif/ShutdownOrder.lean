import Mathlib.Algebra.BigOperators.Fin
import PlatformService.Platform.Shutdown
import PlatformService.Verif.ThreadpoolQueue

/-!
# Connections across a shutdown

Whatever the threads of the server do in whatever order, and whatever the operating system answers, every
connection is held by the acceptor, queued, served by one worker or closed, and closed only once. The main
thread frees what the others use behind their last use of it, but for two places: it frees the pool while
the acceptor may still hold a connection for it, and it wipes the secrets while the workers that it has
given up may still serve one.
-/

namespace PlatformService.Verif.ShutdownOrder

open Lib Threadpool Shutdown ThreadpoolQueue

section Jobs

variable {Job : Type} {n : Nat} {system after : System Job n} {capacity : Nat}

/-- The job that a worker runs. -/
def runs : Worker Job → Multiset Job
  | .running job => {job}
  | _ => 0

@[simp]
theorem runs_running (job : Job) : runs (.running job) = {job} := rfl

@[simp]
theorem runs_ready : runs (.ready : Worker Job) = 0 := rfl

@[simp]
theorem runs_exited : runs (.exited : Worker Job) = 0 := rfl

/-- The jobs of a pool, queued or run by a worker. -/
def jobs (system : System Job n) : Multiset Job :=
  system.pool.queued + ∑ worker, runs (system.workers worker)

/-- A worker that goes elsewhere is there. -/
theorem move_self (system : System Job n) (worker : Fin n) (place : Worker Job) :
    (system.move worker place).workers worker = place := Function.update_self ..

/-- A worker that goes elsewhere changes what is run by its own job. -/
theorem runs_move (system : System Job n) (worker : Fin n) (place : Worker Job) :
    runs (system.workers worker) + ∑ other, runs ((system.move worker place).workers other) =
      runs place + ∑ other, runs (system.workers other) := by
  have others : ∀ other ∈ Finset.univ.erase worker,
      runs ((system.move worker place).workers other) = runs (system.workers other) := by
    intro other member
    have apart := Finset.ne_of_mem_erase member
    have same : (system.move worker place).workers other = system.workers other :=
      Function.update_of_ne apart ..
    rw [same]
  have before := Finset.add_sum_erase Finset.univ (fun other => runs (system.workers other))
    (Finset.mem_univ worker)
  have behind := Finset.add_sum_erase Finset.univ
    (fun other => runs ((system.move worker place).workers other)) (Finset.mem_univ worker)
  rw [← before, ← behind, Finset.sum_congr rfl others, move_self]
  exact add_left_comm _ _ _

/-- A submission is refused, or its job is queued behind the others. -/
theorem submit_jobs (sound : RingSound capacity system.pool) {job : Job} {event : Event Job n}
    (done : system.step (.submit job) = some (event, after)) :
    event = .refused job ∧ after = system ∨
      event = .accepted job ∧ system.pool.shuttingDown = false ∧ after.pool.shuttingDown = false ∧
        after.workers = system.workers ∧ RingSound capacity after.pool ∧
        jobs after = jobs system + {job} := by
  obtain ⟨⟨taken, pool⟩, submitted, rest⟩ := Option.bind_eq_some_iff.mp done
  cases submit_spec submitted with
  | inl refused =>
    obtain ⟨rfl, rfl⟩ := refused
    cases rest
    exact Or.inl ⟨rfl, rfl⟩
  | inr accepted =>
    obtain ⟨rfl, running, room, rfl⟩ := accepted
    cases rest
    obtain ⟨ring, queued⟩ := sound.push room job
    refine Or.inr ⟨rfl, running, running, rfl, ring, ?_⟩
    unfold jobs
    dsimp only at queued ⊢
    rw [queued, ← Multiset.coe_add, Multiset.coe_singleton]
    exact add_right_comm _ _ _

/-- A turn of a worker that runs nothing moves a job from the queue to it, or none. It leaves the pool
only when the queue is empty behind a shutdown. -/
theorem work_jobs (sound : RingSound capacity system.pool) {worker : Fin n} {event : Event Job n}
    (ready : system.workers worker = .ready)
    (done : system.step (.work worker) = some (event, after)) :
    RingSound capacity after.pool ∧ jobs after = jobs system ∧
      after.pool.shuttingDown = system.pool.shuttingDown ∧ after.pool.count ≤ system.pool.count ∧
      (∀ other, system.workers other = .exited → after.workers other = .exited) ∧
      ∀ other, after.workers other = .exited → system.workers other = .exited ∨
        system.pool.count = 0 ∧ system.pool.shuttingDown = true := by
  dsimp only [System.step] at done
  rw [ready] at done
  obtain ⟨⟨found, pool⟩, turned, rest⟩ := Option.bind_eq_some_iff.mp done
  have others : ∀ (other : System Job n) place, other.workers = system.workers →
      ∀ left, system.workers left = .exited → (other.move worker place).workers left = .exited := by
    intro other place same left exited
    have apart : left ≠ worker := by
      rintro rfl
      rw [ready] at exited
      contradiction
    have kept : (other.move worker place).workers left = other.workers left :=
      Function.update_of_ne apart ..
    rw [kept, same]
    exact exited
  rcases workerTurn_spec turned with waits | ended | takes
  · obtain ⟨rfl, rfl⟩ := waits
    cases rest
    exact ⟨sound, rfl, rfl, Nat.le_refl _, fun _ => id, fun _ => Or.inl⟩
  · obtain ⟨rfl, rfl, empty, shutting⟩ := ended
    cases rest
    have moved := runs_move system worker .exited
    rw [ready] at moved
    have same : ∑ other, runs ((system.move worker .exited).workers other) =
        ∑ other, runs (system.workers other) := by
      simpa only [runs_ready, runs_exited, zero_add] using moved
    refine ⟨sound, ?_, rfl, Nat.le_refl _, others system .exited rfl, fun _ _ => Or.inr ⟨empty, shutting⟩⟩
    unfold jobs
    rw [← same]
    rfl
  · obtain ⟨job, rfl, nonempty, first, same⟩ := takes
    cases rest
    obtain ⟨ring, queued⟩ := sound.pop nonempty first
    rw [← same] at ring queued
    have moved := runs_move system worker (.running job)
    rw [ready] at moved
    have grown : ∑ other, runs ((system.move worker (.running job)).workers other) =
        {job} + ∑ other, runs (system.workers other) := by
      simpa only [runs_ready, runs_running, zero_add] using moved
    have shutting : pool.shuttingDown = system.pool.shuttingDown := by rw [same]
    have fewer : pool.count ≤ system.pool.count := by
      rw [same]
      exact Nat.sub_le _ _
    refine ⟨ring, ?_, shutting, fewer, others _ _ rfl, fun other exited => Or.inl ?_⟩
    · have whole : jobs system =
          {job} + pool.queued + ∑ other, runs (system.workers other) := by
        unfold jobs
        rw [queued, ← Multiset.cons_coe, ← Multiset.singleton_add]
      rw [whole, add_comm {job} (pool.queued : Multiset Job), add_assoc, ← grown]
      rfl
    · by_cases here : other = worker
      · have busy : (System.move { system with pool } worker (.running job)).workers other =
            .running job := by
          rw [here, move_self]
        rw [busy] at exited
        contradiction
      · exact (Function.update_of_ne here ..).symm.trans exited

/-- A turn on an empty queue takes no job. -/
theorem work_idle {worker : Fin n} {event : Event Job n} (ready : system.workers worker = .ready)
    (empty : system.pool.count = 0) (done : system.step (.work worker) = some (event, after))
    {other : Fin n} {job : Job} (running : after.workers other = .running job) :
    system.workers other = .running job := by
  dsimp only [System.step] at done
  rw [ready] at done
  obtain ⟨⟨found, pool⟩, turned, rest⟩ := Option.bind_eq_some_iff.mp done
  rcases workerTurn_spec turned with waits | ended | takes
  · obtain ⟨rfl, rfl⟩ := waits
    cases rest
    exact running
  · obtain ⟨rfl, rfl, -⟩ := ended
    cases rest
    by_cases here : other = worker
    · have left : (System.move system worker .exited).workers other = .exited := by
        rw [here, move_self]
      exact absurd (left.symm.trans running) (by simp)
    · exact (Function.update_of_ne here ..).symm.trans running
  · exact absurd empty takes.choose_spec.2.1

end Jobs

section Steps

variable {n capacity : Nat} {state : State n}

/-- The connection that the acceptor holds. -/
def held : Acceptor → Multiset Nat
  | .accepted conn => {conn}
  | .filled conn => {conn}
  | .submitting conn _ => {conn}
  | _ => 0

/-- How far the main thread is. -/
def rank : Main → Nat
  | .waiting => 0
  | .marking => 1
  | .stopping => 2
  | .waking => 3
  | .closing => 4
  | .joining _ => 5
  | .clearing => 6
  | .awaiting _ => 7
  | .unlistening _ => 8
  | .freeing _ => 9
  | .wiping _ => 10
  | .leaving _ => 11
  | .exited _ => 12

/-- Whether the workers have drained in time, once the main thread knows. -/
def verdict : Main → Option Bool
  | .clearing => some true
  | .awaiting drained => some drained
  | .unlistening drained => some drained
  | .freeing drained => some drained
  | .wiping drained => some drained
  | .leaving drained => some drained
  | .exited drained => some drained
  | _ => none

/-- Behind the joins the main thread knows whether the workers have drained. -/
theorem verdict_of_rank {main : Main} (late : 6 ≤ rank main) : ∃ drained, verdict main = some drained
  := by
  cases main with
  | clearing => exact ⟨true, rfl⟩
  | awaiting drained => exact ⟨drained, rfl⟩
  | unlistening drained => exact ⟨drained, rfl⟩
  | freeing drained => exact ⟨drained, rfl⟩
  | wiping drained => exact ⟨drained, rfl⟩
  | leaving drained => exact ⟨drained, rfl⟩
  | exited drained => exact ⟨drained, rfl⟩
  | _ =>
    simp only [rank] at late
    omega

/-- The acceptor holds a connection for the pool, or may still get one. -/
def Pending (state : State n) : Prop :=
  match state.acceptor with
  | .entering => state.stopping = false
  | .polling => state.woken = false
  | .returned => False
  | _ => True

/-- Everything that a step of the acceptor can do. -/
inductive AcceptorStep (state : State n) : Except Fault (State n) → Prop where
  /-- It goes on with what it holds. -/
  | goes (place : Acceptor) (same : held place = held state.acceptor)
    (stays : state.acceptor = .returned → place = .returned)
    (unread : ∀ conn, place = .submitting conn false → state.pool = false)
    (pending : Pending { state with acceptor := place } → Pending state) :
    AcceptorStep state (.ok { state with acceptor := place })
  | accepts (here : state.acceptor = .readable) :
    AcceptorStep state
      (.ok { state with acceptor := .accepted state.next, next := state.next + 1 })
  /-- It closes the connection that it holds. -/
  | drops (conn : Nat) (here : held state.acceptor = {conn}) : AcceptorStep state (.ok (state.drop conn))
  | submits (conn : Nat) (system : System Nat n) (here : held state.acceptor = {conn})
    (alive : state.freed = false)
    (done : state.system.step (.submit conn) = some (.accepted conn, system)) :
    AcceptorStep state (.ok { state with system, acceptor := .entering })
  | unpooled (conn : Nat) (pool : Bool) (here : state.acceptor = .submitting conn pool)
    (gone : pool = false ∨ state.freed = true) : AcceptorStep state (.error .pool)
  | unlistened (here : state.acceptor ≠ .returned) (closed : state.listening = false) :
    AcceptorStep state (.error .listener)
  | overflows (conn : Nat) (undefined : state.system.step (.submit conn) = none) :
    AcceptorStep state (.error .overflow)

/-- A connection that waits is pending. -/
theorem pending_of_held {conn : Nat} (here : held state.acceptor = {conn}) : Pending state := by
  unfold Pending
  cases place : state.acceptor with
  | accepted => trivial
  | filled => trivial
  | submitting => trivial
  | readable => trivial
  | _ =>
    rw [place] at here
    exact absurd here.symm (Multiset.singleton_ne_zero conn)

/-- An acceptor that enters `ps_listener_accept` polls, or returns. -/
theorem acceptorStep_entering (os : Os) (place : state.acceptor = .entering) :
    AcceptorStep state (acceptorStep state os) := by
  unfold acceptorStep
  rw [place]
  refine .goes _ ?_ ?_ ?_ ?_
  · rw [place]
    cases state.stopping <;> rfl
  · rw [place]
    exact fun impossible => absurd impossible (by decide)
  · cases state.stopping <;> exact fun _ impossible => absurd impossible (by simp)
  · unfold Pending
    rw [place]
    cases state.stopping <;> simp

/-- An acceptor that polls is told of a connection, goes on polling, or returns. -/
theorem acceptorStep_polling (os : Os) (place : state.acceptor = .polling) :
    AcceptorStep state (acceptorStep state os) := by
  have moves : ∀ other : Acceptor, held other = 0 → (∀ conn, other ≠ .submitting conn false) →
      (Pending { state with acceptor := other } → state.woken = false) →
      AcceptorStep state (.ok { state with acceptor := other }) := by
    intro other nothing apart pending
    refine .goes other ?_ ?_ (fun conn here => absurd here (apart conn)) ?_
    · rw [place, nothing]
      rfl
    · rw [place]
      exact fun impossible => absurd impossible (by decide)
    · intro holds
      unfold Pending
      rw [place]
      exact pending holds
  have stays : AcceptorStep state (.ok state) := by
    have same := moves .polling rfl (fun _ => by simp) id
    have unchanged : { state with acceptor := .polling } = state := by rw [← place]
    rwa [unchanged] at same
  unfold acceptorStep
  rw [place]
  dsimp only
  by_cases closed : (!state.listening) = true
  · rw [if_pos closed]
    exact .unlistened (by rw [place]; decide) (by simpa using closed)
  rw [if_neg closed]
  by_cases interrupted : os.poll = .interrupted
  · rw [if_pos interrupted]
    exact stays
  rw [if_neg interrupted]
  by_cases ended : os.poll = .failed ∨ state.woken = true ∨ os.poll = .broken
  · rw [if_pos ended]
    exact moves .returned rfl (fun _ => by simp) (fun none => none.elim)
  rw [if_neg ended]
  have asleep : state.woken = false := by
    rw [← Bool.not_eq_true]
    exact fun woken => ended (Or.inr (Or.inl woken))
  by_cases reported : os.poll = .readable
  · rw [if_pos reported]
    exact moves .readable rfl (fun _ => by simp) fun _ => asleep
  · rw [if_neg reported]
    exact stays

/-- An acceptor that was told of a connection accepts it, polls again, or returns. -/
theorem acceptorStep_readable (os : Os) (place : state.acceptor = .readable) :
    AcceptorStep state (acceptorStep state os) := by
  have pending : Pending state := by
    unfold Pending
    rw [place]
    trivial
  unfold acceptorStep
  rw [place]
  dsimp only
  by_cases closed : (!state.listening) = true
  · rw [if_pos closed]
    exact .unlistened (by rw [place]; decide) (by simpa using closed)
  rw [if_neg closed]
  cases os.accept with
  | again =>
    exact .goes .polling (by rw [place]; rfl) (by rw [place]; simp) (by simp) fun _ => pending
  | failed =>
    exact .goes .returned (by rw [place]; rfl) (by rw [place]; simp) (by simp) fun _ => pending
  | connection => exact .accepts place

/-- An acceptor that submits a job drops it where it is refused. -/
theorem acceptorStep_submitting (sound : RingSound capacity state.system.pool) (os : Os) {conn : Nat}
    {pool : Bool} (place : state.acceptor = .submitting conn pool) :
    AcceptorStep state (acceptorStep state os) := by
  have here : held state.acceptor = {conn} := by rw [place]; rfl
  unfold acceptorStep
  rw [place]
  dsimp only
  by_cases gone : (!pool || state.freed) = true
  · rw [if_pos gone]
    refine .unpooled conn pool place ?_
    cases pool with
    | false => exact Or.inl rfl
    | true => exact Or.inr gone
  · rw [if_neg gone]
    have alive : state.freed = false := by
      cases freed : state.freed with
      | false => rfl
      | true => exact absurd (by rw [freed, Bool.or_true]) gone
    cases done : state.system.step (.submit conn) with
    | none => exact .overflows conn done
    | some out =>
      obtain ⟨event, system⟩ := out
      rcases submit_jobs sound done with ⟨refused, same⟩ | ⟨accepted, -⟩
      · rw [refused, same]
        exact .drops conn here
      · rw [accepted] at done ⊢
        exact .submits conn system here alive done

/-- A step of the acceptor does nothing but what `AcceptorStep` lists. -/
theorem acceptorStep_spec (sound : RingSound capacity state.system.pool) (os : Os) :
    AcceptorStep state (acceptorStep state os) := by
  cases place : state.acceptor with
  | returned =>
    have stays : AcceptorStep state (.ok { state with acceptor := state.acceptor }) :=
      .goes state.acceptor rfl id (fun _ here => by rw [place] at here; contradiction) id
    unfold acceptorStep
    rw [place]
    exact stays
  | entering => exact acceptorStep_entering os place
  | polling => exact acceptorStep_polling os place
  | readable => exact acceptorStep_readable os place
  | accepted conn =>
    have here : held state.acceptor = {conn} := by rw [place]; rfl
    unfold acceptorStep
    rw [place]
    dsimp only
    by_cases memory : os.memory = true
    · rw [if_pos memory]
      exact .goes (.filled conn) (by rw [place]; rfl) (by rw [place]; simp) (by simp)
        fun _ => pending_of_held here
    · rw [if_neg memory]
      exact .drops conn here
  | filled conn =>
    have here : held state.acceptor = {conn} := by rw [place]; rfl
    unfold acceptorStep
    rw [place]
    refine .goes (.submitting conn state.pool) (by rw [place]; rfl) (by rw [place]; simp) ?_
      fun _ => pending_of_held here
    intro other same
    exact (Acceptor.submitting.inj same).2
  | submitting conn pool => exact acceptorStep_submitting sound os place

/-- A job is queued, or served by a worker that may still call a handler. -/
def Calling (state : State n) : Prop :=
  state.system.pool.count ≠ 0 ∨ ∃ worker conn, state.system.workers worker = .running conn ∧
    state.finishing worker = false

/-- Everything that a step of a worker can do. -/
inductive WorkerStep (state : State n) (worker : Fin n) : Except Fault (State n) → Prop where
  | stays : WorkerStep state worker (.ok state)
  /-- It calls no handler for its connection any more. -/
  | finishes (conn : Nat) (running : state.system.workers worker = .running conn) :
    WorkerStep state worker
      (.ok { state with finishing := Function.update state.finishing worker true })
  /-- Its connection ends. -/
  | ends (conn : Nat) (running : state.system.workers worker = .running conn)
    (finishing : state.finishing worker = true) :
    WorkerStep state worker (.ok { state with
      system := state.system.move worker .ready
      closed := state.closed ++ [conn] })
  /-- It takes its turn under the lock of the pool. -/
  | turns (event : Event Nat n) (system : System Nat n)
    (ready : state.system.workers worker = .ready)
    (done : state.system.step (.work worker) = some (event, system)) :
    WorkerStep state worker
      (.ok { state with system, finishing := Function.update state.finishing worker false })
  | strays (conn : Nat) (running : state.system.workers worker = .running conn)
    (calling : state.finishing worker = false)
    (gone : state.services = false ∨ state.secrets = false) :
    WorkerStep state worker (.error .straggler)
  | unpooled (ready : state.system.workers worker = .ready) (gone : state.freed = true) :
    WorkerStep state worker (.error .worker)
  | overflows (undefined : state.system.step (.work worker) = none) :
    WorkerStep state worker (.error .overflow)

/-- A step of a worker that serves a connection. -/
theorem workerStep_running (os : Os) {worker : Fin n} {conn : Nat}
    (place : state.system.workers worker = .running conn) :
    WorkerStep state worker (workerStep state worker os) := by
  unfold workerStep
  rw [place]
  dsimp only
  cases os.serving with
  | waits => exact .stays
  | dispatches =>
    dsimp only
    cases finishing : state.finishing worker with
    | true => exact .stays
    | false =>
      rw [if_neg (by simp)]
      by_cases gone : (!state.services || !state.secrets) = true
      · rw [if_pos gone]
        refine .strays conn place finishing ?_
        simpa only [Bool.or_eq_true, Bool.not_eq_true'] using gone
      · rw [if_neg gone]
        exact .stays
  | ends =>
    dsimp only
    cases finishing : state.finishing worker with
    | true =>
      rw [if_pos rfl]
      exact .ends conn place finishing
    | false =>
      rw [if_neg (by simp)]
      exact .finishes conn place

/-- A step of a worker does nothing but what `WorkerStep` lists. -/
theorem workerStep_spec (state : State n) (worker : Fin n) (os : Os) :
    WorkerStep state worker (workerStep state worker os) := by
  cases place : state.system.workers worker with
  | exited =>
    unfold workerStep
    rw [place]
    exact .stays
  | running conn => exact workerStep_running os place
  | ready =>
    unfold workerStep
    rw [place]
    dsimp only
    by_cases gone : state.freed = true
    · rw [if_pos gone]
      exact .unpooled place gone
    · rw [if_neg gone]
      cases done : state.system.step (.work worker) with
      | none => exact .overflows done
      | some out => exact .turns out.1 out.2 place done

end Steps

section Invariant

variable {n capacity : Nat} {state : State n}

/-- Every connection is held, queued, served or closed, and only once. -/
structure Counted (capacity : Nat) (state : State n) : Prop where
  ring : RingSound capacity state.system.pool
  balance : held state.acceptor + jobs state.system + state.closed = Multiset.range state.next
  exits : ∀ worker, state.system.workers worker = .exited →
    state.system.pool.count = 0 ∧ state.system.pool.shuttingDown = true

/-- The main thread has joined a worker. -/
def Joined (main : Main) (worker : Nat) : Prop :=
  match main with
  | .joining count => worker < count
  | other => verdict other = some true

/-- What the threads find of each other's steps: how far the main thread is tells what it has done, and
what it has gone past. -/
structure Ordered (state : State n) : Prop where
  draining : state.draining = decide (2 ≤ rank state.main)
  stopping : state.stopping = decide (3 ≤ rank state.main)
  closing : state.system.pool.shuttingDown = decide (5 ≤ rank state.main)
  freed : state.freed = decide (verdict state.main = some true)
  listening : state.listening = decide (rank state.main < 9)
  secrets : state.secrets = decide (rank state.main < 11)
  cleared : state.pool = false → verdict state.main = some true
  unread : ∀ conn, state.acceptor = .submitting conn false → verdict state.main = some true
  services : state.services = false → decide (10 ≤ rank state.main) = true ∧
    (verdict state.main = some true ∨ state.signalled = false)
  returned : decide (8 ≤ rank state.main) = true → state.acceptor = .returned
  exited : ∀ worker : Fin n, Joined state.main worker → state.system.workers worker = .exited

/-- Where the workers have drained they have all left the pool. -/
theorem Ordered.drained (ordered : Ordered state) (done : verdict state.main = some true)
    (worker : Fin n) : state.system.workers worker = .exited := by
  apply ordered.exited
  unfold Joined
  cases place : state.main with
  | joining count =>
    rw [place] at done
    contradiction
  | _ =>
    rw [place] at done
    exact done

/-- The steps of the acceptor and of the workers keep the order: what has returned or exited stays so. -/
theorem Ordered.frame (ordered : Ordered state) {place : Acceptor} {system : System Nat n}
    (shutting : system.pool.shuttingDown = state.system.pool.shuttingDown)
    (exits : ∀ worker, state.system.workers worker = .exited → system.workers worker = .exited)
    (stays : state.acceptor = .returned → place = .returned)
    (unread : ∀ conn, place = .submitting conn false → verdict state.main = some true)
    (finishing : Fin n → Bool) (next : Nat) (closed : List Nat) :
    Ordered { state with acceptor := place, system, finishing, next, closed } :=
  { ordered with
    closing := shutting.trans ordered.closing
    unread
    returned := fun late => stays (ordered.returned late)
    exited := fun worker joined => exits worker (ordered.exited worker joined) }

/-- What a fault tells: the pool was freed before, a worker was given up before, or the queue is too
large. -/
def Explains (capacity : Nat) (state : State n) : Fault → Prop
  | .pool => state.freed = true ∧ Pending state
  | .straggler => verdict state.main = some false ∧ Calling state
  | .overflow => 2 ^ 30 < capacity
  | _ => False

/-- What a step leaves: the invariant, or a fault that is explained. -/
def Left (capacity : Nat) (state : State n) : Except Fault (State n) → Prop
  | .ok next => Counted capacity next ∧ Ordered next
  | .error fault => Explains capacity state fault

/-- The number of a connection is new. -/
theorem range_next (next : Nat) : Multiset.range (next + 1) = {next} + Multiset.range next := by
  rw [Multiset.range_succ, ← Multiset.singleton_add]

/-- A step of the acceptor keeps the invariant, or its fault is explained. -/
theorem left_acceptor (counted : Counted capacity state) (ordered : Ordered state) (os : Os) :
    Left capacity state (acceptorStep state os) := by
  have balance := counted.balance
  have step := acceptorStep_spec counted.ring os
  generalize acceptorStep state os = result at step ⊢
  cases step with
  | goes place same stays unread pending =>
    refine ⟨⟨counted.ring, ?_, counted.exits⟩, ?_⟩
    · dsimp only
      rw [same]
      exact balance
    · exact ordered.frame rfl (fun _ => id) stays
        (fun conn here => ordered.cleared (unread conn here)) _ _ _
  | accepts here =>
    refine ⟨⟨counted.ring, ?_, counted.exits⟩, ?_⟩
    · rw [here] at balance
      simp only [held, zero_add] at balance ⊢
      rw [range_next, ← balance, add_assoc]
    · exact ordered.frame rfl (fun _ => id) (by rw [here]; simp) (by simp) _ _ _
  | drops conn here =>
    refine ⟨⟨counted.ring, ?_, counted.exits⟩, ?_⟩
    · rw [here] at balance
      show held .entering + jobs state.system + ((state.closed ++ [conn] : List Nat) : Multiset Nat) =
        Multiset.range state.next
      rw [← balance, ← Multiset.coe_add, Multiset.coe_singleton]
      simp only [held, zero_add]
      rw [add_assoc, add_comm ({conn} : Multiset Nat), add_assoc]
    · refine ordered.frame rfl (fun _ => id) (fun returned => ?_) (by simp) _ _ _
      rw [returned] at here
      exact absurd here.symm (Multiset.singleton_ne_zero conn)
  | submits conn system here alive done =>
    rcases submit_jobs counted.ring done with ⟨refused, -⟩ | ⟨-, running, opens, workers, ring, more⟩
    · contradiction
    refine ⟨⟨ring, ?_, fun worker exited => ?_⟩, ?_⟩
    · dsimp only
      rw [← balance, here, more]
      simp only [held, zero_add]
      rw [add_comm ({conn} : Multiset Nat)]
    · dsimp only at exited
      rw [workers] at exited
      have shut := (counted.exits worker exited).2
      rw [running] at shut
      contradiction
    · refine ordered.frame (opens.trans running.symm) (fun worker exited => ?_) (fun returned => ?_)
        (by simp) _ _ _
      · rw [workers]
        exact exited
      · rw [returned] at here
        exact absurd here.symm (Multiset.singleton_ne_zero conn)
  | unpooled conn pool here gone =>
    have freed : state.freed = true := by
      rcases gone with none | freed
      · rw [none] at here
        rw [ordered.freed, decide_eq_true_iff]
        exact ordered.unread conn here
      · exact freed
    have held' : held state.acceptor = {conn} := by rw [here]; rfl
    exact ⟨freed, pending_of_held held'⟩
  | unlistened here closed =>
    have late := ordered.listening
    rw [closed] at late
    have passed : ¬rank state.main < 9 := of_decide_eq_false late.symm
    exact absurd (ordered.returned (decide_eq_true (by omega))) here
  | overflows conn undefined =>
    show 2 ^ 30 < capacity
    by_contra small
    obtain ⟨event, next, defined⟩ := step_defined counted.ring (by omega) (.submit conn)
    rw [undefined] at defined
    contradiction

/-- A step of a worker keeps the invariant, or its fault is explained. -/
theorem left_worker (counted : Counted capacity state) (ordered : Ordered state) (worker : Fin n)
    (os : Os) : Left capacity state (workerStep state worker os) := by
  have balance := counted.balance
  have step := workerStep_spec state worker os
  generalize workerStep state worker os = result at step ⊢
  cases step with
  | stays => exact ⟨counted, ordered⟩
  | finishes conn running =>
    exact ⟨⟨counted.ring, balance, counted.exits⟩,
      ordered.frame rfl (fun _ => id) id ordered.unread _ _ _⟩
  | ends conn running finishing =>
    have others : ∀ other, (state.system.move worker .ready).workers other = .exited ↔
        state.system.workers other = .exited := by
      intro other
      by_cases here : other = worker
      · have ready : (state.system.move worker .ready).workers worker = .ready :=
          Function.update_self ..
        rw [here, ready, running]
        simp
      · have same : (state.system.move worker .ready).workers other = state.system.workers other :=
          Function.update_of_ne here ..
        rw [same]
    have fewer : jobs state.system = jobs (state.system.move worker .ready) + {conn} := by
      have moved := runs_move state.system worker .ready
      rw [running, runs_ready, runs_running, zero_add] at moved
      unfold jobs
      rw [← moved, add_comm ({conn} : Multiset Nat), ← add_assoc]
      rfl
    refine ⟨⟨counted.ring, ?_, fun other exited => counted.exits other ((others other).mp exited)⟩, ?_⟩
    · dsimp only
      rw [← balance, fewer, ← Multiset.coe_add, Multiset.coe_singleton,
        add_comm (state.closed : Multiset Nat)]
      simp only [add_assoc]
    · have shutting : (state.system.move worker .ready).pool.shuttingDown =
          state.system.pool.shuttingDown := rfl
      exact ordered.frame shutting (fun other => (others other).mpr) id ordered.unread _ _ _
  | turns event system ready done =>
    obtain ⟨ring, same, shutting, fewer, stay, exits⟩ := work_jobs counted.ring ready done
    refine ⟨⟨ring, ?_, fun other exited => ?_⟩, ?_⟩
    · dsimp only
      rw [same]
      exact balance
    · have ended : state.system.pool.count = 0 ∧ state.system.pool.shuttingDown = true :=
        (exits other exited).elim (counted.exits other) id
      dsimp only
      rw [shutting]
      exact ⟨by omega, ended.2⟩
    · exact ordered.frame shutting stay id ordered.unread _ _ _
  | strays conn running calling gone =>
    have late : 10 ≤ rank state.main := by
      rcases gone with none | none
      · exact of_decide_eq_true (ordered.services none).1
      · have wiped := ordered.secrets
        rw [none] at wiped
        have passed : ¬rank state.main < 11 := of_decide_eq_false wiped.symm
        omega
    obtain ⟨drained, known⟩ := verdict_of_rank (show 6 ≤ rank state.main by omega)
    have given : drained = false := by
      rw [← Bool.not_eq_true]
      rintro rfl
      have exited := ordered.drained known worker
      rw [running] at exited
      contradiction
    rw [given] at known
    exact ⟨known, Or.inr ⟨worker, conn, running, calling⟩⟩
  | unpooled ready gone =>
    have done := ordered.freed
    rw [gone] at done
    have exited := ordered.drained (of_decide_eq_true done.symm) worker
    rw [ready] at exited
    contradiction
  | overflows undefined =>
    show 2 ^ 30 < capacity
    by_contra small
    obtain ⟨event, next, defined⟩ := step_defined counted.ring (by omega) (.work worker)
    rw [undefined] at defined
    contradiction

/-- A shutdown that drains keeps the jobs and the workers. -/
theorem counted_shutdown (counted : Counted capacity state) (main : Main) :
    Counted capacity { state with
      main
      system := { state.system with pool := Threadpool.shutdown state.system.pool true } } where
  ring := (counted.ring.shutdown true).1
  balance := counted.balance
  exits worker exited := ⟨(counted.exits worker exited).1, rfl⟩

/-- A step of the main thread keeps the invariant. -/
theorem left_main (counted : Counted capacity state) (ordered : Ordered state) (os : Os) :
    Left capacity state (mainStep state os) := by
  have stays : Left capacity state (.ok state) := ⟨counted, ordered⟩
  obtain ⟨ring, balance, exits⟩ := counted
  obtain ⟨draining, stopping, closing, freed, listening, secrets, cleared, unread, services, returned,
    exited⟩ := ordered
  unfold mainStep
  generalize state.main = main at *
  cases main with
  | waiting =>
    exact ⟨⟨ring, balance, exits⟩, draining, stopping, closing, freed, listening, secrets, cleared,
      unread, fun none => absurd (services none).1 (by decide), returned, exited⟩
  | marking =>
    exact ⟨⟨ring, balance, exits⟩, rfl, stopping, closing, freed, listening, secrets, cleared, unread,
      services, returned, exited⟩
  | stopping =>
    exact ⟨⟨ring, balance, exits⟩, draining, rfl, closing, freed, listening, secrets, cleared, unread,
      services, returned, exited⟩
  | waking =>
    exact ⟨⟨ring, balance, exits⟩, draining, stopping, closing, freed, listening, secrets, cleared,
      unread, services, returned, exited⟩
  | closing =>
    have nobody : ∀ worker : Fin n, ¬Joined (.joining 0) worker := fun worker => Nat.not_lt_zero worker
    exact ⟨counted_shutdown ⟨ring, balance, exits⟩ (.joining 0), draining, stopping, rfl, freed,
      listening, secrets, cleared, unread, services, returned,
      fun worker joined => absurd joined (nobody worker)⟩
  | joining count =>
    dsimp only
    by_cases inside : count < n
    · rw [dif_pos inside]
      by_cases expired : os.expired = true
      · rw [if_pos expired]
        have unknown : verdict (.joining count) ≠ some true := nofun
        have nobody : ∀ worker : Fin n, ¬Joined (.awaiting false) worker := fun _ => by
          simp [Joined, verdict]
        exact ⟨⟨ring, balance, exits⟩, draining, stopping, closing, freed, listening, secrets,
          fun none => absurd (cleared none) unknown, fun conn here => absurd (unread conn here) unknown,
          fun none => absurd (services none).1 (by decide : ¬decide (10 ≤ 5) = true), returned,
          fun worker joined => absurd joined (nobody worker)⟩
      rw [if_neg expired]
      by_cases left : state.system.workers ⟨count, inside⟩ = .exited
      · rw [if_pos left]
        have joins : ∀ worker : Fin n, Joined (.joining (count + 1)) worker →
            state.system.workers worker = .exited := by
          intro worker joined
          by_cases last : worker = ⟨count, inside⟩
          · rw [last]
            exact left
          · have apart : worker.val ≠ count := fun same => last (Fin.ext same)
            have before : worker.val < count + 1 := joined
            exact exited worker (show worker.val < count by omega)
        exact ⟨⟨ring, balance, exits⟩, draining, stopping, closing, freed, listening, secrets, cleared,
          unread, services, returned, joins⟩
      · rw [if_neg left]
        exact stays
    · rw [dif_neg inside]
      have joins : ∀ worker : Fin n, state.system.workers worker = .exited := by
        intro worker
        have bound := worker.isLt
        exact exited worker (show worker.val < count by omega)
      exact ⟨⟨ring, balance, exits⟩, draining, stopping, closing, rfl, listening, secrets, fun _ => rfl,
        fun _ _ => rfl, fun none => ⟨(services none).1, Or.inl rfl⟩, returned, fun worker _ => joins
          worker⟩
  | clearing =>
    exact ⟨⟨ring, balance, exits⟩, draining, stopping, closing, freed, listening, secrets, fun _ => rfl,
      unread, services, returned, exited⟩
  | awaiting drained =>
    dsimp only
    by_cases done : state.acceptor = .returned
    · rw [if_pos done]
      exact ⟨⟨ring, balance, exits⟩, draining, stopping, closing, freed, listening, secrets, cleared,
        unread, services, fun _ => done, exited⟩
    · rw [if_neg done]
      exact stays
  | unlistening drained =>
    exact ⟨⟨ring, balance, exits⟩, draining, stopping, closing, freed, rfl, secrets, cleared, unread,
      services, returned, exited⟩
  | freeing drained =>
    dsimp only
    by_cases frees : (drained || !state.signalled) = true
    · rw [if_pos frees]
      have either : verdict (.wiping drained) = some true ∨ state.signalled = false := by
        cases drained with
        | true => exact Or.inl rfl
        | false => exact Or.inr (by simpa using frees)
      exact ⟨⟨ring, balance, exits⟩, draining, stopping, closing, freed, listening, secrets, cleared,
        unread, fun _ => ⟨rfl, either⟩, returned, exited⟩
    · rw [if_neg frees]
      exact ⟨⟨ring, balance, exits⟩, draining, stopping, closing, freed, listening, secrets, cleared,
        unread, fun none => ⟨rfl, (services none).2⟩, returned, exited⟩
  | wiping drained =>
    exact ⟨⟨ring, balance, exits⟩, draining, stopping, closing, freed, listening, rfl, cleared, unread,
      services, returned, exited⟩
  | leaving drained =>
    exact ⟨⟨ring, balance, exits⟩, draining, stopping, closing, freed, listening, secrets, cleared,
      unread, services, returned, exited⟩
  | exited drained => exact stays

end Invariant

section Runs

variable {n capacity : Nat} {state next : State n}

/-- A step of any thread keeps the invariant, or its fault is explained. -/
theorem left_step (counted : Counted capacity state) (ordered : Ordered state) (thread : Thread n)
    (os : Os) : Left capacity state (state.step thread os) := by
  unfold State.step
  by_cases gone : state.main.gone = true
  · rw [if_pos gone]
    exact ⟨counted, ordered⟩
  · rw [if_neg gone]
    cases thread with
    | main => exact left_main counted ordered os
    | acceptor => exact left_acceptor counted ordered os
    | worker worker => exact left_worker counted ordered worker os

/-- The invariant holds at first. -/
theorem counted_initial (positive : 1 ≤ capacity) : Counted capacity (State.initial n capacity) where
  ring := ⟨rfl, List.length_replicate, positive, Nat.zero_le _⟩
  balance := by
    have empty : (System.initial 0 capacity : System Nat n).pool.queued = [] := Ring.window_zero _ _
    have idle : ∑ worker, runs ((System.initial 0 capacity : System Nat n).workers worker) = 0 :=
      Finset.sum_eq_zero fun _ _ => rfl
    show held .entering + jobs (System.initial 0 capacity : System Nat n) + (([] : List Nat) : Multiset
      Nat) =
      Multiset.range 0
    unfold jobs
    rw [empty, idle]
    rfl
  exits worker exited := by
    have ready : (State.initial n capacity).system.workers worker = .ready := rfl
    rw [ready] at exited
    contradiction

/-- The main thread has done nothing at first. -/
theorem ordered_initial : Ordered (State.initial n capacity) where
  draining := rfl
  stopping := rfl
  closing := rfl
  freed := rfl
  listening := rfl
  secrets := rfl
  cleared none := absurd none (by simp [State.initial])
  unread conn here := absurd here (by simp [State.initial])
  services none := absurd none (by simp [State.initial])
  returned late := absurd late (by decide : ¬decide (8 ≤ 0) = true)
  exited worker joined := absurd joined (by simp [State.initial, Joined, verdict])

/-- A schedule keeps the invariant, and a fault that it ends in is explained. -/
theorem run_left (counted : Counted capacity state) (ordered : Ordered state)
    (schedule : List (Thread n × Os)) :
    Counted capacity (state.run schedule).1 ∧ Ordered (state.run schedule).1 ∧
      ∀ fault ∈ (state.run schedule).2, Explains capacity (state.run schedule).1 fault := by
  induction schedule generalizing state with
  | nil => exact ⟨counted, ordered, fun _ impossible => by simp [State.run] at impossible⟩
  | cons action schedule ih =>
    have left := left_step counted ordered action.1 action.2
    unfold State.run
    cases stepped : state.step action.1 action.2 with
    | ok next =>
      rw [stepped] at left
      exact ih left.1 left.2
    | error fault =>
      rw [stepped] at left
      refine ⟨counted, ordered, fun other same => ?_⟩
      rw [Option.mem_some_iff.mp same] at left
      exact left

/-- Without a worker that is still there nothing is queued or served. -/
theorem jobs_of_exited (counted : Counted capacity state) (staffed : 0 < n)
    (exited : ∀ worker, state.system.workers worker = .exited) : jobs state.system = 0 := by
  have empty := (counted.exits ⟨0, staffed⟩ (exited ⟨0, staffed⟩)).1
  have idle : ∑ worker, runs (state.system.workers worker) = 0 :=
    Finset.sum_eq_zero fun worker _ => by rw [exited worker, runs_exited]
  unfold jobs Pool.queued
  rw [idle, empty, Ring.window_zero]
  rfl

/-- What the threads may rely on at the end of a schedule, and the fault that it ends in. -/
structure Safe (capacity : Nat) (state : State n) (fault : Option Fault) : Prop where
  /-- Every connection is held by the acceptor, queued, served by one worker or closed, and only once. -/
  balance : held state.acceptor + jobs state.system + state.closed = Multiset.range state.next
  /-- Workers that drain in time leave no connection but the one that the acceptor holds. -/
  drained : verdict state.main = some true →
    held state.acceptor + state.closed = Multiset.range state.next
  /-- Behind a shutdown that drains, every connection has been closed. -/
  settled : state.main = .exited true → state.closed = Multiset.range state.next
  /-- Readiness fails before the listener stops, and the listener stops before the pool refuses. -/
  draining : state.stopping = true → state.draining = true
  stopping : state.system.pool.shuttingDown = true → state.stopping = true
  /-- The pool, the descriptors and the services are gone behind their users only, the services of
  workers that are given up apart, where `sigwait` failed. -/
  freed : state.freed = true → ∀ worker, state.system.workers worker = .exited
  listening : state.listening = false → state.acceptor = .returned
  services : state.services = false →
    (∀ worker, state.system.workers worker = .exited) ∨ state.signalled = false
  fault : ∀ reason ∈ fault, Explains capacity state reason

/-- Whatever the threads do in whatever order and whatever the operating system answers, every connection
is closed at most once and none is lost, what the threads share goes behind its users, and a fault is one
of an acceptor that comes too late, a worker that is given up or a queue of more than 2^30 slots. -/
theorem connections_are_closed_once (staffed : 0 < n) (positive : 1 ≤ capacity)
    (schedule : List (Thread n × Os)) :
    Safe capacity ((State.initial n capacity).run schedule).1
      ((State.initial n capacity).run schedule).2 := by
  obtain ⟨counted, ordered, explained⟩ := run_left (counted_initial positive) ordered_initial schedule
  generalize (State.initial n capacity).run schedule = ended at counted ordered explained ⊢
  have drained : verdict ended.1.main = some true →
      held ended.1.acceptor + ended.1.closed = Multiset.range ended.1.next := by
    intro done
    have balance := counted.balance
    rwa [jobs_of_exited counted staffed (ordered.drained done), add_zero] at balance
  refine ⟨counted.balance, drained, fun exited => ?_, fun stops => ?_, fun refuses => ?_, fun freed => ?_,
    fun closed => ?_, fun gone => ?_, explained⟩
  · have done : verdict ended.1.main = some true := by rw [exited]; rfl
    have returned : ended.1.acceptor = .returned := by
      apply ordered.returned
      rw [exited]
      rfl
    have all := drained done
    rw [returned] at all
    simpa only [held, zero_add] using all
  · rw [ordered.stopping] at stops
    rw [ordered.draining]
    have late := of_decide_eq_true stops
    exact decide_eq_true (by omega)
  · rw [ordered.closing] at refuses
    rw [ordered.stopping]
    have late := of_decide_eq_true refuses
    exact decide_eq_true (by omega)
  · rw [ordered.freed] at freed
    exact ordered.drained (of_decide_eq_true freed)
  · rw [ordered.listening] at closed
    have late := of_decide_eq_false closed
    exact ordered.returned (decide_eq_true (by omega))
  · exact (ordered.services gone).2.imp ordered.drained id

/-- Some steps of a thread that go well. -/
def turns (count : Nat) (thread : Thread n) : List (Thread n × Os) := List.replicate count (thread, .fine)

/-- A connection is accepted and served, and then everything is taken down. -/
def wholeService : List (Thread 1 × Os) :=
  turns 6 .acceptor ++ turns 3 (.worker 0) ++ turns 5 .main ++ turns 1 (.worker 0) ++ turns 3 .main ++
    turns 1 .acceptor ++ turns 5 .main

/-- The one connection is closed when the process is gone. -/
theorem connection_is_closed_once :
    let ended := (State.initial 1 1).run wholeService
    ended.1.main = .exited true ∧ ended.1.closed = [0] ∧ Safe 1 ended.1 ended.2 :=
  ⟨by decide +kernel, by decide +kernel, connections_are_closed_once (by decide) (by decide) wholeService⟩

end Runs

section Faults

variable {n capacity : Nat} {state next : State n}

/-- Behind its shutdown of the pool the main thread leaves the acceptor, its flags and the workers
alone. -/
theorem main_late (late : 5 ≤ rank state.main) {os : Os} (done : mainStep state os = .ok next) :
    5 ≤ rank next.main ∧ next.acceptor = state.acceptor ∧ next.stopping = state.stopping ∧
      next.woken = state.woken ∧ next.system = state.system ∧ next.finishing = state.finishing := by
  unfold mainStep at done
  cases place : state.main with
  | joining count =>
    rw [place] at done
    dsimp only at done
    split at done
    · split at done
      · cases done
        exact ⟨(by decide : 5 ≤ 7), rfl, rfl, rfl, rfl, rfl⟩
      split at done
      · cases done
        exact ⟨Nat.le_refl 5, rfl, rfl, rfl, rfl, rfl⟩
      · cases done
        exact ⟨late, rfl, rfl, rfl, rfl, rfl⟩
    · cases done
      exact ⟨(by decide : 5 ≤ 6), rfl, rfl, rfl, rfl, rfl⟩
  | awaiting drained =>
    rw [place] at done
    dsimp only at done
    split at done
    · cases done
      exact ⟨(by decide : 5 ≤ 8), rfl, rfl, rfl, rfl, rfl⟩
    · cases done
      exact ⟨late, rfl, rfl, rfl, rfl, rfl⟩
  | freeing drained =>
    rw [place] at done
    dsimp only at done
    split at done
    · cases done
      exact ⟨(by decide : 5 ≤ 10), rfl, rfl, rfl, rfl, rfl⟩
    · cases done
      exact ⟨(by decide : 5 ≤ 10), rfl, rfl, rfl, rfl, rfl⟩
  | exited drained =>
    rw [place] at done
    cases done
    exact ⟨late, rfl, rfl, rfl, rfl, rfl⟩
  | clearing =>
    rw [place] at done
    cases done
    exact ⟨(by decide : 5 ≤ 7), rfl, rfl, rfl, rfl, rfl⟩
  | unlistening drained =>
    rw [place] at done
    cases done
    exact ⟨(by decide : 5 ≤ 9), rfl, rfl, rfl, rfl, rfl⟩
  | wiping drained =>
    rw [place] at done
    cases done
    exact ⟨(by decide : 5 ≤ 11), rfl, rfl, rfl, rfl, rfl⟩
  | leaving drained =>
    rw [place] at done
    cases done
    exact ⟨(by decide : 5 ≤ 12), rfl, rfl, rfl, rfl, rfl⟩
  | _ =>
    rw [place] at late
    simp only [rank] at late
    omega

/-- Behind the shutdown of the pool a step of a worker brings no handler to be called. -/
theorem calling_worker (counted : Counted capacity state) {worker : Fin n}
    (step : WorkerStep state worker (.ok next)) (calling : Calling next) : Calling state := by
  cases step with
  | stays => exact calling
  | finishes conn running =>
    refine calling.imp_right fun found => ?_
    obtain ⟨other, job, serves, calls⟩ := found
    by_cases here : other = worker
    · rw [here] at calls
      exact absurd ((Function.update_self ..).symm.trans calls) (by simp)
    · exact ⟨other, job, serves, (Function.update_of_ne here ..).symm.trans calls⟩
  | ends conn running finishing =>
    refine calling.imp_right fun found => ?_
    obtain ⟨other, job, serves, calls⟩ := found
    by_cases here : other = worker
    · rw [here] at serves
      exact absurd ((Function.update_self ..).symm.trans serves) (by simp)
    · exact ⟨other, job, (Function.update_of_ne here ..).symm.trans serves, calls⟩
  | turns event system ready turned =>
    by_cases empty : state.system.pool.count = 0
    · have fewer := (work_jobs counted.ring ready turned).2.2.2.1
      obtain ⟨other, job, serves, calls⟩ := calling.resolve_left fun filled => filled (by
        have less : system.pool.count ≤ state.system.pool.count := fewer
        show system.pool.count = 0
        omega)
      have before := work_idle ready empty turned serves
      have apart : other ≠ worker := by
        rintro rfl
        rw [ready] at before
        contradiction
      exact Or.inr ⟨other, job, before, (Function.update_of_ne apart ..).symm.trans calls⟩
    · exact Or.inl empty

/-- Behind the shutdown of the pool an acceptor that can get no connection any more stays so, and where
no handler will be called none comes to be called. -/
theorem step_late (counted : Counted capacity state) (ordered : Ordered state)
    (late : 5 ≤ rank state.main) {thread : Thread n} {os : Os}
    (done : state.step thread os = .ok next) :
    5 ≤ rank next.main ∧ (Pending next → Pending state) ∧ (Calling next → Calling state) := by
  have shutting : state.system.pool.shuttingDown = true := by
    rw [ordered.closing]
    exact decide_eq_true late
  unfold State.step at done
  split at done
  · cases done
    exact ⟨late, id, id⟩
  cases thread with
  | main =>
    obtain ⟨still, acceptor, stopping, woken, system, finishing⟩ := main_late late done
    refine ⟨still, ?_, ?_⟩
    · unfold Pending
      rw [acceptor, stopping, woken]
      exact id
    · unfold Calling
      rw [system, finishing]
      exact id
  | acceptor =>
    have step := acceptorStep_spec counted.ring os
    have same : acceptorStep state os = .ok next := done
    rw [same] at step
    cases step with
    | goes place _ _ _ pending => exact ⟨late, pending, id⟩
    | accepts here =>
      refine ⟨late, fun _ => ?_, id⟩
      unfold Pending
      rw [here]
      trivial
    | drops conn here => exact ⟨late, fun _ => pending_of_held here, id⟩
    | submits conn system here _ submitted =>
      rcases submit_jobs counted.ring submitted with ⟨refused, -⟩ | ⟨-, running, -⟩
      · contradiction
      · rw [shutting] at running
        contradiction
  | worker worker =>
    have step := workerStep_spec state worker os
    have same : workerStep state worker os = .ok next := done
    rw [same] at step
    have calling := calling_worker counted step
    cases step <;> exact ⟨late, id, calling⟩

/-- So it is at the end of every schedule from there. -/
theorem run_late (counted : Counted capacity state) (ordered : Ordered state)
    (late : 5 ≤ rank state.main) (schedule : List (Thread n × Os)) :
    (Pending (state.run schedule).1 → Pending state) ∧
      (Calling (state.run schedule).1 → Calling state) := by
  induction schedule generalizing state with
  | nil => exact ⟨id, id⟩
  | cons action schedule ih =>
    unfold State.run
    have left := left_step counted ordered action.1 action.2
    cases stepped : state.step action.1 action.2 with
    | ok next =>
      rw [stepped] at left
      obtain ⟨still, pending, calling⟩ := step_late counted ordered late stepped
      have rest := ih left.1 left.2 still
      exact ⟨fun later => pending (rest.1 later), fun later => calling (rest.2 later)⟩
    | error fault => exact ⟨id, id⟩

/-- Some schedule from a state ends in a fault. -/
def Faults (state : State n) (fault : Fault) : Prop := ∃ schedule, (state.run schedule).2 = some fault

/-- A step of the acceptor that faults. -/
theorem faults_of_acceptor_error (alive : state.main.gone = false) {os : Os} {fault : Fault}
    (done : acceptorStep state os = .error fault) : Faults state fault := by
  have step : state.step .acceptor os = .error fault := (if_neg (by simp [alive])).trans done
  refine ⟨[(.acceptor, os)], ?_⟩
  simp only [State.run, step]

/-- A step to where a fault lies ahead. -/
theorem faults_of_step {thread : Thread n} {os : Os} {fault : Fault}
    (done : state.step thread os = .ok next) (ahead : Faults next fault) : Faults state fault := by
  obtain ⟨schedule, ends⟩ := ahead
  refine ⟨(thread, os) :: schedule, ?_⟩
  simp only [State.run, done]
  exact ends

/-- A step of the acceptor to where a fault lies ahead. -/
theorem faults_of_acceptor (alive : state.main.gone = false) {os : Os} {fault : Fault}
    (done : acceptorStep state os = .ok next) (ahead : Faults next fault) : Faults state fault := by
  have step : state.step .acceptor os = .ok next := (if_neg (by simp [alive])).trans done
  exact faults_of_step step ahead

/-- A submission to a pool that is freed is a fault. -/
theorem faults_submitting (alive : state.main.gone = false) (freed : state.freed = true) {conn : Nat}
    {pool : Bool} (here : state.acceptor = .submitting conn pool) : Faults state .pool := by
  have done : acceptorStep state .fine = .error .pool := by
    unfold acceptorStep
    rw [here]
    dsimp only
    rw [freed, Bool.or_true, if_pos rfl]
  exact faults_of_acceptor_error alive done

/-- A job that is filled will be submitted. -/
theorem faults_filled (alive : state.main.gone = false) (freed : state.freed = true) {conn : Nat}
    (here : state.acceptor = .filled conn) : Faults state .pool := by
  have done : acceptorStep state .fine =
      .ok { state with acceptor := .submitting conn state.pool } := by
    unfold acceptorStep
    rw [here]
  exact faults_of_acceptor alive done (faults_submitting alive freed rfl)

/-- A connection that is accepted may be put in a job. -/
theorem faults_accepted (alive : state.main.gone = false) (freed : state.freed = true) {conn : Nat}
    (here : state.acceptor = .accepted conn) : Faults state .pool := by
  have done : acceptorStep state .fine = .ok { state with acceptor := .filled conn } := by
    unfold acceptorStep
    rw [here]
    rfl
  exact faults_of_acceptor alive done (faults_filled alive freed rfl)

/-- A connection that was reported may be accepted. -/
theorem faults_readable (alive : state.main.gone = false) (freed : state.freed = true)
    (listening : state.listening = true) (here : state.acceptor = .readable) : Faults state .pool := by
  have done : acceptorStep state .fine =
      .ok { state with acceptor := .accepted state.next, next := state.next + 1 } := by
    unfold acceptorStep
    rw [here]
    dsimp only
    rw [listening]
    rfl
  exact faults_of_acceptor alive done (faults_accepted alive freed rfl)

/-- An acceptor that may still get a connection may come to a pool that is freed. -/
theorem faults_pool (alive : state.main.gone = false) (freed : state.freed = true)
    (listening : state.listening = true) (stopping : state.stopping = true) (pending : Pending state) :
    Faults state .pool := by
  unfold Pending at pending
  cases place : state.acceptor with
  | entering =>
    rw [place] at pending
    have going : state.stopping = false := pending
    rw [stopping] at going
    contradiction
  | polling =>
    rw [place] at pending
    have asleep : state.woken = false := pending
    have done : acceptorStep state .fine = .ok { state with acceptor := .readable } := by
      unfold acceptorStep
      rw [place]
      dsimp only
      rw [listening, asleep]
      rfl
    exact faults_of_acceptor alive done (faults_readable alive freed listening rfl)
  | readable => exact faults_readable alive freed listening place
  | accepted conn => exact faults_accepted alive freed place
  | filled conn => exact faults_filled alive freed place
  | submitting conn pool => exact faults_submitting alive freed place
  | returned =>
    rw [place] at pending
    exact pending.elim

/-- A worker that may still call a handler may call it without the secrets. -/
theorem faults_running (alive : state.main.gone = false) (wiped : state.secrets = false)
    {worker : Fin n} {conn : Nat} (running : state.system.workers worker = .running conn)
    (calling : state.finishing worker = false) : Faults state .straggler := by
  have done : state.step (.worker worker) { Os.fine with serving := .dispatches } =
      .error .straggler := by
    apply (if_neg (by simp [alive])).trans
    dsimp only
    unfold workerStep
    rw [running]
    dsimp only
    rw [calling, wiped, Bool.not_false, Bool.or_true, if_neg (by simp), if_pos rfl]
  refine ⟨[(.worker worker, { Os.fine with serving := .dispatches })], ?_⟩
  simp only [State.run, done]

/-- A worker that is ready takes a job where one is queued, and may call a handler for it. -/
theorem takes_job (ring : RingSound capacity state.system.pool) (small : capacity ≤ 2 ^ 30)
    (alive : state.main.gone = false) (kept : state.freed = false)
    (filled : state.system.pool.count ≠ 0) {worker : Fin n}
    (ready : state.system.workers worker = .ready) :
    ∃ system conn, state.step (.worker worker) .fine =
        .ok { state with system, finishing := Function.update state.finishing worker false } ∧
      system.workers worker = .running conn := by
  have defined := step_defined ring small (.work worker)
  obtain ⟨event, system, done⟩ := defined
  have taken := done
  dsimp only [System.step] at taken
  rw [ready] at taken
  obtain ⟨⟨found, pool⟩, turned, rest⟩ := Option.bind_eq_some_iff.mp taken
  have stepped : state.step (.worker worker) .fine =
      .ok { state with system, finishing := Function.update state.finishing worker false } := by
    apply (if_neg (by simp [alive])).trans
    dsimp only
    unfold workerStep
    rw [ready]
    dsimp only
    rw [if_neg (by simp [kept]), done]
  rcases workerTurn_spec turned with waits | ended | ⟨conn, here, -⟩
  · unfold workerTurn at turned
    rw [if_neg fun empty => filled empty.1, if_neg fun empty => filled empty.1, waits.1] at turned
    simp [Option.bind_eq_some_iff] at turned
  · exact absurd ended.2.2.1 filled
  · rw [here] at rest
    cases rest
    exact ⟨_, conn, stepped, Function.update_self ..⟩

/-- Where a job is queued and a worker is ready, the worker may come to call a handler without the
secrets. -/
theorem faults_queued (ring : RingSound capacity state.system.pool) (small : capacity ≤ 2 ^ 30)
    (alive : state.main.gone = false) (wiped : state.secrets = false) (kept : state.freed = false)
    (filled : state.system.pool.count ≠ 0) {worker : Fin n}
    (ready : state.system.workers worker = .ready) : Faults state .straggler := by
  obtain ⟨system, conn, stepped, running⟩ := takes_job ring small alive kept filled ready
  exact faults_of_step stepped (faults_running alive wiped running (Function.update_self ..))

/-- A worker closes its connection behind its last handler, and is ready again. -/
theorem closes_connection (alive : state.main.gone = false) {worker : Fin n} {conn : Nat}
    (running : state.system.workers worker = .running conn)
    (finishing : state.finishing worker = true) :
    state.step (.worker worker) .fine = .ok { state with
      system := state.system.move worker .ready
      closed := state.closed ++ [conn] } := by
  apply (if_neg (by simp [alive])).trans
  dsimp only
  unfold workerStep
  rw [running]
  dsimp only [Os.fine]
  rw [finishing, if_pos rfl]

/-- Where the secrets are wiped and a handler may still be called, it may be called without them. -/
theorem faults_straggler (counted : Counted capacity state) (ordered : Ordered state)
    (staffed : 0 < n) (small : capacity ≤ 2 ^ 30) (alive : state.main.gone = false)
    (wiped : state.secrets = false) (calling : Calling state) : Faults state .straggler := by
  rcases calling with filled | ⟨worker, conn, running, calling⟩
  · have kept : state.freed = false := by
      rw [ordered.freed, decide_eq_false_iff_not]
      intro done
      exact filled (counted.exits ⟨0, staffed⟩ (ordered.drained done ⟨0, staffed⟩)).1
    cases place : state.system.workers ⟨0, staffed⟩ with
    | ready => exact faults_queued counted.ring small alive wiped kept filled place
    | exited => exact absurd (counted.exits _ place).1 filled
    | running conn =>
      cases finishing : state.finishing ⟨0, staffed⟩ with
      | false => exact faults_running alive wiped place finishing
      | true =>
        refine faults_of_step (closes_connection alive place finishing) ?_
        exact faults_queued counted.ring small alive wiped kept filled (move_self ..)
  · exact faults_running alive wiped running calling

/-- Where the main thread is about to free the pool, the acceptor may come to use it exactly when it still
holds a connection or may get one. Where it is about to wipe the secrets, a worker may come to use them
exactly when a job is queued, or served by a worker that may still call a handler. -/
theorem freed_under_use_iff (staffed : 0 < n) (positive : 1 ≤ capacity) (small : capacity ≤ 2 ^ 30)
    (schedule : List (Thread n × Os)) :
    let state := ((State.initial n capacity).run schedule).1
    (state.main = .joining n → (Faults state .pool ↔ Pending state)) ∧
      ∀ drained, state.main = .wiping drained → (Faults state .straggler ↔ Calling state) := by
  intro state
  obtain ⟨counted, ordered, -⟩ : Counted capacity state ∧ Ordered state ∧ _ :=
    run_left (counted_initial positive) ordered_initial schedule
  constructor
  · intro here
    have late : 5 ≤ rank state.main := by
      rw [here]
      exact Nat.le_refl 5
    constructor
    · rintro ⟨rest, fault⟩
      have explained := (run_left counted ordered rest).2.2 .pool (by rw [fault]; rfl)
      exact (run_late counted ordered late rest).1 explained.2
    · intro pending
      have alive : state.main.gone = false := by rw [here]; rfl
      have listening : state.listening = true := by rw [ordered.listening, here]; rfl
      have stopping : state.stopping = true := by rw [ordered.stopping, here]; rfl
      have freed : state.step .main .fine = .ok { state with main := .clearing, freed := true } := by
        apply (if_neg (by simp [alive])).trans
        dsimp only
        unfold mainStep
        rw [here]
        dsimp only
        rw [dif_neg (Nat.lt_irrefl n)]
      exact faults_of_step freed (faults_pool rfl rfl listening stopping pending)
  · intro drained here
    have late : 5 ≤ rank state.main := by
      rw [here]
      exact (by decide : 5 ≤ 10)
    constructor
    · rintro ⟨rest, fault⟩
      have explained := (run_left counted ordered rest).2.2 .straggler (by rw [fault]; rfl)
      exact (run_late counted ordered late rest).2 explained.2
    · intro calling
      have alive : state.main.gone = false := by rw [here]; rfl
      have left := left_step counted ordered .main .fine
      have wiped : state.step .main .fine =
          .ok { state with main := .leaving drained, secrets := false } := by
        apply (if_neg (by simp [alive])).trans
        dsimp only
        unfold mainStep
        rw [here]
      rw [wiped] at left
      exact faults_of_step wiped (faults_straggler left.1 left.2 staffed small rfl rfl calling)

/-- The acceptor has been told of a connection when the pool is about to be freed. -/
def lateConnection : List (Thread 1 × Os) :=
  turns 2 .acceptor ++ turns 5 .main ++ turns 1 (.worker 0) ++ turns 1 .main

/-- The only worker has been given up with the connection that it serves. -/
def givenUp : List (Thread 1 × Os) :=
  turns 6 .acceptor ++ turns 1 (.worker 0) ++ turns 5 .main ++
    [(.main, { Os.fine with expired := true })] ++ turns 1 .acceptor ++ turns 3 .main

/-- The late connection may be submitted to the pool that is freed, and the worker that is given up may
call a handler without the secrets. -/
theorem freed_under_use_of_late_connection :
    Faults ((State.initial 1 1).run lateConnection).1 .pool ∧
      Faults ((State.initial 1 1).run givenUp).1 .straggler := by
  constructor
  · have here : ((State.initial 1 1).run lateConnection).1.main = .joining 1 := by decide +kernel
    have place : ((State.initial 1 1).run lateConnection).1.acceptor = .readable := by decide +kernel
    apply ((freed_under_use_iff (by decide) (by decide) (by decide) lateConnection).1 here).mpr
    unfold Pending
    rw [place]
    trivial
  · have here : ((State.initial 1 1).run givenUp).1.main = .wiping false := by decide +kernel
    have serves : ((State.initial 1 1).run givenUp).1.system.workers 0 = .running 0 := by
      decide +kernel
    have calls : ((State.initial 1 1).run givenUp).1.finishing 0 = false := by decide +kernel
    exact ((freed_under_use_iff (by decide) (by decide) (by decide) givenUp).2 false here).mpr
      (Or.inr ⟨0, 0, serves, calls⟩)

end Faults

end PlatformService.Verif.ShutdownOrder
