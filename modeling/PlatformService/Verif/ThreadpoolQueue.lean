import PlatformService.Platform.Threadpool

/-!
# The queue of the worker pool

Along every schedule the jobs that have left the queue, in their order, and the jobs
in the ring from `head` on are together the accepted jobs: each is started once,
dropped by a shutdown that does not drain, or still queued. The index of a new job is
a sum of two `int`s, and it stays in range on every schedule exactly when the ring has
at most 2^30 slots.
-/

namespace PlatformService.Verif.ThreadpoolQueue

open Lib Threadpool

variable {Job : Type} {n : Nat}

/-- The job that an event accepts. -/
def accepts : Event Job n → List Job
  | .accepted job => [job]
  | _ => []

/-- The job that an event starts. -/
def starts : Event Job n → List Job
  | .started _ job => [job]
  | _ => []

/-- The jobs that leave the queue in an event, started or dropped. -/
def leaves : Event Job n → List Job
  | .started _ job => [job]
  | .shutDown _ dropped => dropped
  | _ => []

/-- Whether an event is a shutdown. -/
def isShutDown : Event Job n → Bool
  | .shutDown _ _ => true
  | _ => false

/-- The jobs that were accepted, in order. -/
def accepted (events : List (Event Job n)) : List Job := events.flatMap accepts

/-- The jobs that were started, in order. -/
def started (events : List (Event Job n)) : List Job := events.flatMap starts

/-- The jobs that left the queue, in order. -/
def leaving (events : List (Event Job n)) : List Job := events.flatMap leaves

/-- Everything a step can do. -/
inductive Step (system : System Job n) : Event Job n → System Job n → Prop where
  /-- A job is written behind the queue. -/
  | accepted (job : Job) (running : system.pool.shuttingDown = false)
    (room : system.pool.count ≠ system.pool.capacity) :
    Step system (.accepted job)
      { system with
        pool := { system.pool with
          ring := system.pool.ring.set
            ((system.pool.head + system.pool.count) % system.pool.capacity) job
          count := system.pool.count + 1 } }
  /-- A worker takes the job at the head. -/
  | started (worker : Fin n) (job : Job) (ready : system.workers worker = .ready)
    (nonempty : system.pool.count ≠ 0) (first : system.pool.ring[system.pool.head]? = some job) :
    Step system (.started worker job)
      (System.move { system with
        pool := { system.pool with
          head := (system.pool.head + 1) % system.pool.capacity
          count := system.pool.count - 1 } } worker (.running job))
  /-- A shutdown. -/
  | shutDown (drain : Bool) :
    Step system (.shutDown drain (if drain then [] else system.pool.queued))
      { system with pool := shutdown system.pool drain }
  /-- The queue is left alone; a worker exits only from an empty queue after a shutdown. -/
  | quiet (event : Event Job n) (next : System Job n) (nothing : accepts event = [])
    (unstarted : starts event = []) (stays : leaves event = [])
    (other : isShutDown event = false) (same : next.pool = system.pool)
    (exits : ∀ worker, next.workers worker = .exited → system.workers worker = .exited ∨
      system.pool.count = 0 ∧ system.pool.shuttingDown = true) :
    Step system event next

/-- A submission is refused, or writes its job behind the queue. -/
theorem submit_spec {pool after : Pool Job} {job : Job} {taken : Bool}
    (done : submit pool job = some (taken, after)) :
    taken = false ∧ after = pool ∨
      taken = true ∧ pool.shuttingDown = false ∧ pool.count ≠ pool.capacity ∧
        after = { pool with
          ring := pool.ring.set ((pool.head + pool.count) % pool.capacity) job
          count := pool.count + 1 } := by
  unfold submit at done
  split at done
  · cases done
    exact Or.inl ⟨rfl, rfl⟩
  · rename_i admitted
    rw [not_or, Bool.not_eq_true] at admitted
    simp only [Option.bind_eq_bind, Option.bind_eq_some_iff, Option.some.injEq, Prod.mk.injEq] at done
    obtain ⟨sum, added, slot, inside, same, rfl⟩ := done
    unfold addInt at added
    split at added
    · cases added
      exact Or.inr ⟨same.symm, admitted.1, admitted.2, rfl⟩
    · contradiction

/-- A worker waits at an empty queue, leaves it after a shutdown, or takes the job at the head. -/
theorem workerTurn_spec {pool after : Pool Job} {found : Found Job}
    (done : workerTurn pool = some (found, after)) :
    found = .nothing ∧ after = pool ∨
      found = .ended ∧ after = pool ∧ pool.count = 0 ∧ pool.shuttingDown = true ∨
        ∃ job, found = .job job ∧ pool.count ≠ 0 ∧ pool.ring[pool.head]? = some job ∧
          after = { pool with
            head := (pool.head + 1) % pool.capacity
            count := pool.count - 1 } := by
  unfold workerTurn at done
  split at done
  · cases done
    exact Or.inl ⟨rfl, rfl⟩
  split at done
  · rename_i ended
    cases done
    exact Or.inr (Or.inl ⟨rfl, rfl, ended⟩)
  · rename_i waits ended
    simp only [Option.bind_eq_bind, Option.bind_eq_some_iff, Option.some.injEq, Prod.mk.injEq] at done
    obtain ⟨job, first, sum, added, same, rfl⟩ := done
    have nonempty : pool.count ≠ 0 := by
      intro empty
      cases shutting : pool.shuttingDown with
      | true => exact ended ⟨empty, shutting⟩
      | false => exact waits ⟨empty, by rw [shutting]; rfl⟩
    unfold addInt at added
    split at added
    · cases added
      exact Or.inr (Or.inr ⟨job, same.symm, nonempty, first, rfl⟩)
    · contradiction

/-- A step does nothing but what `Step` lists. -/
theorem step_spec {system next : System Job n} {action : Action Job n} {event : Event Job n}
    (done : system.step action = some (event, next)) : Step system event next := by
  cases action with
  | submit job =>
    obtain ⟨⟨taken, after⟩, submitted, rest⟩ := Option.bind_eq_some_iff.mp done
    cases submit_spec submitted with
    | inl refused =>
      obtain ⟨rfl, rfl⟩ := refused
      cases rest
      exact Step.quiet _ _ rfl rfl rfl rfl rfl fun _ => Or.inl
    | inr taken =>
      obtain ⟨rfl, running, room, rfl⟩ := taken
      cases rest
      exact Step.accepted job running room
  | shutdown drain =>
    cases done
    exact Step.shutDown drain
  | work worker =>
    dsimp only [System.step] at done
    cases place : system.workers worker with
    | running job =>
      rw [place] at done
      cases done
      refine Step.quiet (.finished worker job) (system.move worker .ready) rfl rfl rfl rfl rfl ?_
      intro other exited
      by_cases same : other = worker
      · have moved : (system.move worker .ready).workers other = .ready := by
          rw [same]
          exact Function.update_self ..
        rw [moved] at exited
        contradiction
      · have waits : (system.move worker .ready).workers other = system.workers other :=
          Function.update_of_ne same ..
        rw [waits] at exited
        exact Or.inl exited
    | exited =>
      rw [place] at done
      cases done
      exact Step.quiet _ _ rfl rfl rfl rfl rfl fun _ => Or.inl
    | ready =>
      rw [place] at done
      obtain ⟨⟨found, after⟩, turned, rest⟩ := Option.bind_eq_some_iff.mp done
      rcases workerTurn_spec turned with waits | ended | takes
      · obtain ⟨rfl, rfl⟩ := waits
        cases rest
        exact Step.quiet _ _ rfl rfl rfl rfl rfl fun _ => Or.inl
      · obtain ⟨rfl, rfl, empty, shutting⟩ := ended
        cases rest
        exact Step.quiet _ _ rfl rfl rfl rfl rfl
          fun _ _ => Or.inr ⟨empty, shutting⟩
      · obtain ⟨job, rfl, nonempty, first, rfl⟩ := takes
        cases rest
        exact Step.started worker job place nonempty first

section Splits

variable {events : List (Event Job n)} {event : Event Job n}

/-- A split of a run with one more event is a split before that event, or at it. -/
theorem split_concat {before after : List (Event Job n)} {middle : Event Job n}
    (split : events ++ [event] = before ++ middle :: after) :
    (∃ rest, events = before ++ middle :: rest ∧ after = rest ++ [event]) ∨
      events = before ∧ event = middle ∧ after = [] := by
  cases after using List.reverseRecOn with
  | nil =>
    have same := List.append_inj' split rfl
    exact Or.inr ⟨same.1, List.singleton_inj.mp same.2, rfl⟩
  | append_singleton rest last =>
    have regrouped : events ++ [event] = (before ++ middle :: rest) ++ [last] := by
      rw [split, List.append_assoc, List.cons_append]
    have same := List.append_inj' regrouped rfl
    have final : event = last := List.singleton_inj.mp same.2
    exact Or.inl ⟨rest, same.1, by rw [final]⟩

/-- What was accepted, with one more event. -/
theorem accepted_concat : accepted (events ++ [event]) = accepted events ++ accepts event := by
  simp [accepted]

/-- What was started, with one more event. -/
theorem started_concat : started (events ++ [event]) = started events ++ starts event := by
  simp [started]

/-- What left the queue, with one more event. -/
theorem leaving_concat : leaving (events ++ [event]) = leaving events ++ leaves event := by
  simp [leaving]

/-- What was started has left the queue. -/
theorem started_sublist (events : List (Event Job n)) : (started events).Sublist (leaving events) := by
  induction events with
  | nil => exact List.Sublist.slnil
  | cons event events ih =>
    have one : (starts event).Sublist (leaves event) := by
      cases event with
      | started worker job => exact List.Sublist.refl _
      | _ => exact List.nil_sublist _
    unfold started leaving
    rw [List.flatMap_cons, List.flatMap_cons]
    exact one.append ih

/-- Nothing is accepted after a shutdown. -/
def Closed (events : List (Event Job n)) : Prop :=
  ∀ before drain dropped after, events = before ++ .shutDown drain dropped :: after →
    accepted after = []

/-- A shutdown without drain drops what is queued, and nothing is started after it. -/
def Dropped (events : List (Event Job n)) : Prop :=
  ∀ before dropped after, events = before ++ .shutDown false dropped :: after →
    leaving before ++ dropped = accepted before ∧ started after = []

/-- Every shutdown drains. -/
def Draining (events : List (Event Job n)) : Prop :=
  ∀ drain dropped, .shutDown drain dropped ∈ events → drain = true

/-- An event that accepts nothing, or that no shutdown precedes, is no acceptance after one. -/
theorem Closed.concat (closed : Closed events)
    (allowed : (∀ other ∈ events, isShutDown other = false) ∨ accepts event = []) :
    Closed (events ++ [event]) := by
  intro before drain dropped after split
  rcases split_concat split with earlier | last
  · obtain ⟨rest, past, rfl⟩ := earlier
    cases allowed with
    | inl unshut =>
      have impossible := unshut (.shutDown drain dropped) (by simp [past])
      contradiction
    | inr nothing =>
      rw [accepted_concat, closed before drain dropped rest past, nothing]
      rfl
  · rw [last.2.2]
    rfl

/-- An event that is no drop, and that starts nothing or follows no drop. -/
theorem Dropped.concat (dropped : Dropped events)
    (allowed : Draining events ∨ starts event = [])
    (last : ∀ jobs, event = .shutDown false jobs → leaving events ++ jobs = accepted events) :
    Dropped (events ++ [event]) := by
  intro before jobs after split
  rcases split_concat split with earlier | here
  · obtain ⟨rest, past, rfl⟩ := earlier
    cases allowed with
    | inl drains =>
      have impossible := drains false jobs (by simp [past])
      contradiction
    | inr nothing =>
      have held := dropped before jobs rest past
      rw [started_concat, held.2, nothing]
      exact ⟨held.1, rfl⟩
  · obtain ⟨rfl, same, rfl⟩ := here
    exact ⟨last jobs same, rfl⟩

/-- A run whose shutdowns drain began with one. -/
theorem Draining.init (drains : Draining (events ++ [event])) : Draining events := by
  intro drain dropped member
  exact drains drain dropped (List.mem_append_left _ member)

end Splits

/-- The ring of a pool is sound. -/
structure RingSound (capacity : Nat) (pool : Pool Job) : Prop where
  size : pool.capacity = capacity
  slots : pool.ring.length = capacity
  head : pool.head < capacity
  count : pool.count ≤ capacity

/-- What every step keeps: the ring is sound, what left the queue and what is in it was accepted, a
shutdown shows in the flag, and after a drop or an exit the queue is empty. -/
structure Invariant (capacity : Nat) (events : List (Event Job n)) (system : System Job n) : Prop where
  ring : RingSound capacity system.pool
  queue : leaving events ++ system.pool.queued = accepted events
  stopped : system.pool.shuttingDown = false → ∀ event ∈ events, isShutDown event = false
  closed : Closed events
  dropped : Dropped events
  emptied : system.pool.count ≠ 0 → Draining events
  exits : ∀ worker, system.workers worker = .exited →
    system.pool.count = 0 ∧ system.pool.shuttingDown = true
  drained : Draining events → started events = leaving events

section Steps

variable {events : List (Event Job n)} {event : Event Job n} {capacity : Nat}
  {system next : System Job n}

/-- Writing behind the queue. -/
theorem RingSound.push {pool : Pool Job} (sound : RingSound capacity pool)
    (room : pool.count ≠ pool.capacity) (job : Job) :
    let after := { pool with
      ring := pool.ring.set ((pool.head + pool.count) % pool.capacity) job
      count := pool.count + 1 }
    RingSound capacity after ∧ after.queued = pool.queued ++ [job] := by
  have size := sound.size
  have slots := sound.slots
  have count := sound.count
  refine ⟨⟨size, ?_, sound.head, ?_⟩, ?_⟩
  · rw [List.length_set]
    exact slots
  · dsimp only
    omega
  · unfold Pool.queued
    dsimp only
    rw [size, ← slots]
    exact Ring.window_push (by omega) job

/-- Taking the job at the head. -/
theorem RingSound.pop {pool : Pool Job} (sound : RingSound capacity pool) (nonempty : pool.count ≠ 0)
    {job : Job} (first : pool.ring[pool.head]? = some job) :
    let after := { pool with
      head := (pool.head + 1) % pool.capacity
      count := pool.count - 1 }
    RingSound capacity after ∧ pool.queued = job :: after.queued := by
  have size := sound.size
  have slots := sound.slots
  have head := sound.head
  have count := sound.count
  refine ⟨⟨size, slots, ?_, ?_⟩, ?_⟩
  · dsimp only
    rw [size]
    exact Nat.mod_lt _ (by omega)
  · dsimp only
    omega
  · have here : pool.ring[pool.head % pool.ring.length]? = some job := by
      rw [Nat.mod_eq_of_lt (by omega)]
      exact first
    have shorter : pool.count = pool.count - 1 + 1 := by omega
    unfold Pool.queued
    dsimp only
    rw [size, ← slots, Ring.window_mod]
    conv_lhs => rw [shorter]
    exact Ring.window_pop (by omega) here

/-- A shutdown keeps the ring, and the queue if it drains. -/
theorem RingSound.shutdown {pool : Pool Job} (sound : RingSound capacity pool) (drain : Bool) :
    RingSound capacity (Threadpool.shutdown pool drain) ∧
      (Threadpool.shutdown pool drain).queued = if drain then pool.queued else [] := by
  have head := sound.head
  cases drain with
  | true => exact ⟨⟨sound.size, sound.slots, sound.head, sound.count⟩, rfl⟩
  | false =>
    have positive : 0 < capacity := by omega
    exact ⟨⟨sound.size, sound.slots, positive, Nat.zero_le _⟩, Ring.window_zero _ _⟩

/-- An accepted submission keeps the invariant. -/
theorem Invariant.accepted (invariant : Invariant capacity events system) {job : Job}
    (running : system.pool.shuttingDown = false) (room : system.pool.count ≠ system.pool.capacity) :
    Invariant capacity (events ++ [.accepted job])
      { system with
        pool := { system.pool with
          ring := system.pool.ring.set
            ((system.pool.head + system.pool.count) % system.pool.capacity) job
          count := system.pool.count + 1 } } := by
  obtain ⟨sound, queued⟩ := invariant.ring.push room job
  have unshut := invariant.stopped running
  have drains : Draining (events ++ [.accepted job]) := by
    intro drain dropped member
    cases List.mem_append.mp member with
    | inl old =>
      have impossible := unshut _ old
      contradiction
    | inr new =>
      have impossible := List.mem_singleton.mp new
      contradiction
  constructor
  · exact sound
  · have nothing : leaves (.accepted job : Event Job n) = [] := rfl
    have one : accepts (.accepted job : Event Job n) = [job] := rfl
    rw [leaving_concat, accepted_concat, ← invariant.queue, queued, nothing, one, List.append_nil,
      List.append_assoc]
  · intro _ other member
    cases List.mem_append.mp member with
    | inl old => exact unshut other old
    | inr new =>
      rw [List.mem_singleton.mp new]
      rfl
  · exact invariant.closed.concat (Or.inl unshut)
  · apply invariant.dropped.concat (Or.inr rfl)
    intro jobs impossible
    contradiction
  · intro _
    exact drains
  · intro worker exited
    have ended := (invariant.exits worker exited).2
    rw [running] at ended
    contradiction
  · intro _
    rw [started_concat, leaving_concat, invariant.drained drains.init]
    rfl

/-- A worker that takes a job keeps the invariant. -/
theorem Invariant.started (invariant : Invariant capacity events system) {worker : Fin n} {job : Job}
    (nonempty : system.pool.count ≠ 0) (first : system.pool.ring[system.pool.head]? = some job) :
    Invariant capacity (events ++ [.started worker job])
      (System.move { system with
        pool := { system.pool with
          head := (system.pool.head + 1) % system.pool.capacity
          count := system.pool.count - 1 } } worker (.running job)) := by
  obtain ⟨sound, queued⟩ := invariant.ring.pop nonempty first
  have drains : Draining events := invariant.emptied nonempty
  constructor
  · exact sound
  · rw [leaving_concat, accepted_concat, ← invariant.queue, queued, List.append_assoc]
    exact (List.append_nil _).symm
  · intro running other member
    cases List.mem_append.mp member with
    | inl old => exact invariant.stopped running other old
    | inr new =>
      rw [List.mem_singleton.mp new]
      rfl
  · exact invariant.closed.concat (Or.inr rfl)
  · apply invariant.dropped.concat (Or.inl drains)
    intro jobs impossible
    contradiction
  · intro _ drain dropped member
    cases List.mem_append.mp member with
    | inl old => exact drains drain dropped old
    | inr new =>
      have impossible := List.mem_singleton.mp new
      contradiction
  · intro other exited
    have elsewhere : other ≠ worker := by
      rintro rfl
      have moved : Function.update system.workers other (.running job) other = .exited := exited
      rw [Function.update_self] at moved
      contradiction
    have before : Function.update system.workers worker (.running job) other = .exited := exited
    rw [Function.update_of_ne elsewhere] at before
    exact absurd (invariant.exits other before).1 nonempty
  · intro draining
    rw [started_concat, leaving_concat, invariant.drained drains]
    rfl

/-- A shutdown keeps the invariant. -/
theorem Invariant.shutDown (invariant : Invariant capacity events system) (drain : Bool) :
    Invariant capacity
      (events ++ [.shutDown drain (if drain then [] else system.pool.queued)])
      { system with pool := Threadpool.shutdown system.pool drain } := by
  obtain ⟨sound, queued⟩ := invariant.ring.shutdown drain
  have flagged : (Threadpool.shutdown system.pool drain).shuttingDown = true := by
    cases drain with
    | true => rfl
    | false => rfl
  constructor
  · exact sound
  · rw [leaving_concat, accepted_concat, ← invariant.queue, queued, List.append_assoc]
    cases drain with
    | true => exact (List.append_nil _).symm
    | false =>
      have emptied : (if false = true then system.pool.queued else []) = [] := rfl
      rw [emptied, List.append_nil]
      exact (List.append_nil _).symm
  · intro running
    rw [flagged] at running
    contradiction
  · exact invariant.closed.concat (Or.inr rfl)
  · apply invariant.dropped.concat (Or.inr rfl)
    intro jobs same
    have parts := Event.shutDown.inj same
    have undrained : drain = false := parts.1
    rw [undrained] at parts
    have everything : system.pool.queued = jobs := parts.2
    rw [← everything]
    exact invariant.queue
  · intro nonempty other dropped member
    cases drain with
    | false => exact absurd rfl nonempty
    | true =>
      cases List.mem_append.mp member with
      | inl old => exact invariant.emptied nonempty other dropped old
      | inr new =>
        cases List.mem_singleton.mp new
        rfl
  · intro worker exited
    refine ⟨?_, flagged⟩
    cases drain with
    | true => exact (invariant.exits worker exited).1
    | false => rfl
  · intro draining
    have drained : drain = true :=
      draining drain _ (List.mem_append_right _ (List.mem_singleton_self _))
    rw [started_concat, leaving_concat, invariant.drained draining.init, drained]
    rfl

/-- An event that leaves the queue alone keeps the invariant. -/
theorem Invariant.quiet (invariant : Invariant capacity events system) (nothing : accepts event = [])
    (unstarted : starts event = []) (stays : leaves event = []) (other : isShutDown event = false)
    (same : next.pool = system.pool)
    (exits : ∀ worker, next.workers worker = .exited → system.workers worker = .exited ∨
      system.pool.count = 0 ∧ system.pool.shuttingDown = true) :
    Invariant capacity (events ++ [event]) next := by
  constructor
  · rw [same]
    exact invariant.ring
  · rw [leaving_concat, accepted_concat, nothing, stays, same, List.append_nil, List.append_nil]
    exact invariant.queue
  · intro running earlier member
    rw [same] at running
    cases List.mem_append.mp member with
    | inl old => exact invariant.stopped running earlier old
    | inr new =>
      rw [List.mem_singleton.mp new]
      exact other
  · exact invariant.closed.concat (Or.inr nothing)
  · apply invariant.dropped.concat (Or.inr unstarted)
    intro jobs shut
    rw [shut] at other
    contradiction
  · intro nonempty drain dropped member
    rw [same] at nonempty
    cases List.mem_append.mp member with
    | inl old => exact invariant.emptied nonempty drain dropped old
    | inr new =>
      rw [← List.mem_singleton.mp new] at other
      contradiction
  · intro worker exited
    rw [same]
    cases exits worker exited with
    | inl before => exact invariant.exits worker before
    | inr ended => exact ended
  · intro draining
    rw [started_concat, leaving_concat, invariant.drained draining.init, unstarted, stays]

/-- A step keeps the invariant. -/
theorem Invariant.step (invariant : Invariant capacity events system)
    (step : Step system event next) : Invariant capacity (events ++ [event]) next := by
  cases step with
  | accepted job running room => exact invariant.accepted running room
  | started worker job ready nonempty first => exact invariant.started nonempty first
  | shutDown drain => exact invariant.shutDown drain
  | quiet event next nothing unstarted stays other same exits =>
    exact invariant.quiet nothing unstarted stays other same exits

/-- The invariant holds of a new pool. -/
theorem Invariant.initial (zeroed : Job) (positive : 1 ≤ capacity) :
    Invariant capacity [] (System.initial zeroed capacity : System Job n) := by
  constructor
  · exact ⟨rfl, List.length_replicate, positive, Nat.zero_le _⟩
  · exact Ring.window_zero (List.replicate capacity zeroed) 0
  · intro _ event member
    contradiction
  · intro before drain dropped after split
    cases before with
    | nil => contradiction
    | cons event rest => contradiction
  · intro before dropped after split
    cases before with
    | nil => contradiction
    | cons event rest => contradiction
  · intro _ drain dropped member
    contradiction
  · intro worker exited
    contradiction
  · intro _
    rfl

/-- A schedule with one more action. -/
theorem run_concat (system : System Job n) (schedule : List (Action Job n)) (action : Action Job n) :
    system.run (schedule ++ [action]) =
      (system.run schedule).bind fun past =>
        (past.2.step action).bind fun done => some (past.1 ++ [done.1], done.2) := by
  induction schedule generalizing system with
  | nil =>
    dsimp only [System.run, List.nil_append, Option.bind_eq_bind, Option.bind_some]
  | cons first schedule ih =>
    dsimp only [System.run, List.cons_append, Option.bind_eq_bind]
    cases system.step first with
    | none => rfl
    | some done =>
      dsimp only [Option.bind_some]
      rw [ih]
      cases done.2.run schedule with
      | none => rfl
      | some past =>
        dsimp only [Option.bind_some]
        cases past.2.step action with
        | none => rfl
        | some last => rfl

/-- A schedule keeps the invariant. -/
theorem Invariant.run {schedule : List (Action Job n)} {more : List (Event Job n)}
    (invariant : Invariant capacity events system) (done : system.run schedule = some (more, next)) :
    Invariant capacity (events ++ more) next := by
  induction schedule generalizing system events more with
  | nil =>
    cases done
    rw [List.append_nil]
    exact invariant
  | cons action schedule ih =>
    obtain ⟨⟨event, middle⟩, stepped, rest⟩ := Option.bind_eq_some_iff.mp done
    obtain ⟨⟨later, last⟩, finished, same⟩ := Option.bind_eq_some_iff.mp rest
    cases same
    have advanced := ih (invariant.step (step_spec stepped)) finished
    rwa [List.append_assoc] at advanced

end Steps

/-- What the queue of a pool promises of a run. -/
structure Correct (capacity : Nat) (events : List (Event Job n)) (system : System Job n) : Prop where
  count : system.pool.count ≤ capacity
  /-- The ring from `head` on holds what was accepted and has not left, in order. -/
  queue : leaving events ++ system.pool.queued = accepted events
  /-- No acceptance is started twice. -/
  once : (started events).Sublist (accepted events)
  closed : Closed events
  dropped : Dropped events
  drained : Draining events → (∀ worker, system.workers worker = .exited) →
    started events = accepted events

/-- What the invariant says of a pool that has a worker. -/
theorem Invariant.correct {capacity : Nat} {events : List (Event Job n)} {system : System Job n}
    (invariant : Invariant capacity events system) (staffed : 0 < n) :
    Correct capacity events system := by
  constructor
  · exact invariant.ring.count
  · exact invariant.queue
  · rw [← invariant.queue]
    exact (started_sublist events).trans (List.sublist_append_left _ _)
  · exact invariant.closed
  · exact invariant.dropped
  · intro drains exited
    have empty := (invariant.exits ⟨0, staffed⟩ (exited ⟨0, staffed⟩)).1
    have nothing : system.pool.queued = [] := by
      unfold Pool.queued
      rw [empty, Ring.window_zero]
    rw [← invariant.queue, nothing, List.append_nil]
    exact invariant.drained drains

section Defined

variable {capacity : Nat}

/-- A sum that fits. -/
theorem addInt_of_le {left right : Nat} (fits : left + right ≤ intMax) :
    addInt left right = some (left + right) := if_pos fits

/-- A submission to a sound ring is defined if the index of its slot is. -/
theorem submit_defined {pool : Pool Job} (sound : RingSound capacity pool)
    (fits : pool.head + pool.count ≤ intMax) (job : Job) :
    ∃ taken after, submit pool job = some (taken, after) := by
  have slots := sound.slots
  have size := sound.size
  unfold submit
  by_cases closed : pool.shuttingDown ∨ pool.count = pool.capacity
  · exact ⟨false, pool, if_pos closed⟩
  · have head := sound.head
    have inside : (pool.head + pool.count) % pool.capacity < pool.ring.length := by
      rw [slots, size]
      exact Nat.mod_lt _ (by omega)
    rw [if_neg closed, addInt_of_le fits]
    dsimp only [Option.bind_eq_bind, Option.bind_some]
    rw [List.getElem?_eq_getElem inside]
    exact ⟨true, _, rfl⟩

/-- A turn of a worker on a sound ring is defined. -/
theorem workerTurn_defined {pool : Pool Job} (sound : RingSound capacity pool)
    (representable : capacity ≤ intMax) : ∃ found after, workerTurn pool = some (found, after) := by
  have slots := sound.slots
  have head := sound.head
  unfold workerTurn
  by_cases waits : pool.count = 0 ∧ !pool.shuttingDown
  · exact ⟨.nothing, pool, if_pos waits⟩
  rw [if_neg waits]
  by_cases ended : pool.count = 0 ∧ pool.shuttingDown
  · exact ⟨.ended, pool, if_pos ended⟩
  have inside : pool.head < pool.ring.length := by omega
  rw [if_neg ended, List.getElem?_eq_getElem inside, addInt_of_le (by omega)]
  exact ⟨.job _, _, rfl⟩

/-- On a sound ring of at most 2^30 slots every step is defined. -/
theorem step_defined {system : System Job n} (sound : RingSound capacity system.pool)
    (small : capacity ≤ 2 ^ 30) (action : Action Job n) :
    ∃ event next, system.step action = some (event, next) := by
  have head := sound.head
  have count := sound.count
  have limit : intMax = 2 ^ 31 - 1 := rfl
  cases action with
  | submit job =>
    obtain ⟨taken, after, done⟩ := submit_defined sound (by omega) job
    dsimp only [System.step]
    rw [done]
    exact ⟨_, _, rfl⟩
  | shutdown drain => exact ⟨_, _, rfl⟩
  | work worker =>
    dsimp only [System.step]
    cases system.workers worker with
    | running job => exact ⟨_, _, rfl⟩
    | exited => exact ⟨_, _, rfl⟩
    | ready =>
      obtain ⟨found, after, done⟩ := workerTurn_defined sound (by omega)
      rw [done]
      cases found with
      | nothing => exact ⟨_, _, rfl⟩
      | ended => exact ⟨_, _, rfl⟩
      | job job => exact ⟨_, _, rfl⟩

/-- On a sound ring of at most 2^30 slots every schedule is defined. -/
theorem run_defined {events : List (Event Job n)} {system : System Job n}
    (invariant : Invariant capacity events system) (small : capacity ≤ 2 ^ 30)
    (schedule : List (Action Job n)) : ∃ more last, system.run schedule = some (more, last) := by
  induction schedule generalizing system events with
  | nil => exact ⟨[], system, rfl⟩
  | cons action schedule ih =>
    obtain ⟨event, next, stepped⟩ := step_defined invariant.ring small action
    obtain ⟨more, last, done⟩ := ih (invariant.step (step_spec stepped))
    refine ⟨event :: more, last, ?_⟩
    dsimp only [System.run]
    rw [stepped]
    dsimp only [Option.bind_eq_bind, Option.bind_some]
    rw [done]
    rfl

end Defined

section Overflow

variable {zeroed : Job} {capacity head count : Nat}

/-- Some schedule leaves a running pool with this head and count, and its workers ready. -/
def Reached (n : Nat) (zeroed : Job) (capacity head count : Nat) : Prop :=
  ∃ schedule events system,
    (System.initial zeroed capacity : System Job n).run schedule = some (events, system) ∧
      RingSound capacity system.pool ∧ system.pool.head = head ∧ system.pool.count = count ∧
        system.pool.shuttingDown = false ∧ ∀ worker, system.workers worker = .ready

/-- A new pool has its head at zero and no job. -/
theorem Reached.initial (n : Nat) (zeroed : Job) (positive : 1 ≤ capacity) :
    Reached n zeroed capacity 0 0 :=
  ⟨[], [], System.initial zeroed capacity, rfl, (Invariant.initial zeroed positive).ring, rfl, rfl, rfl,
    fun _ => rfl⟩

/-- A submission that has room, as long as the index of its slot is defined. -/
theorem Reached.submit (reached : Reached n zeroed capacity head count) (room : count < capacity)
    (fits : head + count ≤ intMax) : Reached n zeroed capacity head (count + 1) := by
  obtain ⟨schedule, events, system, done, sound, atHead, counted, running, ready⟩ := reached
  have free : system.pool.count ≠ system.pool.capacity := by
    rw [sound.size, counted]
    omega
  have closed : ¬(system.pool.shuttingDown ∨ system.pool.count = system.pool.capacity) := by
    rw [running]
    simpa using free
  have inside : (system.pool.head + system.pool.count) % system.pool.capacity <
      system.pool.ring.length := by
    rw [sound.slots, sound.size]
    exact Nat.mod_lt _ (by omega)
  have summed : addInt system.pool.head system.pool.count =
      some (system.pool.head + system.pool.count) := addInt_of_le (by omega)
  let after : Pool Job := { system.pool with
    ring := system.pool.ring.set
      ((system.pool.head + system.pool.count) % system.pool.capacity) zeroed
    count := system.pool.count + 1 }
  have stepped : system.step (.submit zeroed) =
      some (.accepted zeroed, { system with pool := after }) := by
    dsimp only [System.step, Threadpool.submit]
    rw [if_neg closed, summed]
    dsimp only [Option.bind_eq_bind, Option.bind_some]
    rw [List.getElem?_eq_getElem inside]
    rfl
  refine ⟨schedule ++ [.submit zeroed], events ++ [.accepted zeroed], { system with pool := after },
    ?_, (sound.push free zeroed).1, atHead, ?_, running, ready⟩
  · rw [run_concat, done, Option.bind_some, stepped]
    rfl
  · show system.pool.count + 1 = count + 1
    omega

/-- A worker takes the job at the head and finishes it. -/
theorem Reached.take (staffed : 0 < n) (reached : Reached n zeroed capacity head (count + 1))
    (representable : capacity ≤ intMax) :
    Reached n zeroed capacity ((head + 1) % capacity) count := by
  obtain ⟨schedule, events, system, done, sound, atHead, counted, running, ready⟩ := reached
  have bound := sound.head
  have nonempty : system.pool.count ≠ 0 := by omega
  have inside : system.pool.head < system.pool.ring.length := by
    rw [sound.slots]
    exact bound
  have summed : addInt system.pool.head 1 = some (system.pool.head + 1) := addInt_of_le (by omega)
  obtain ⟨job, first⟩ : ∃ job, system.pool.ring[system.pool.head]? = some job :=
    ⟨_, List.getElem?_eq_getElem inside⟩
  let after : Pool Job := { system.pool with
    head := (system.pool.head + 1) % system.pool.capacity
    count := system.pool.count - 1 }
  let worker : Fin n := ⟨0, staffed⟩
  have turned : workerTurn system.pool = some (.job job, after) := by
    unfold workerTurn
    rw [if_neg fun waits => nonempty waits.1, if_neg fun ended => nonempty ended.1, first, summed]
    rfl
  have taken : system.step (.work worker) = some (.started worker job,
      System.move { system with pool := after } worker (.running job)) := by
    dsimp only [System.step]
    rw [ready worker, turned]
    rfl
  have finished : (System.move { system with pool := after } worker (.running job)).step
      (.work worker) = some (.finished worker job, { system with pool := after }) := by
    have place : (System.move { system with pool := after } worker (.running job)).workers worker =
        .running job := by
      dsimp only [System.move]
      rw [Function.update_self]
    have back : Function.update (Function.update system.workers worker (.running job)) worker
        .ready = system.workers := by
      rw [Function.update_idem, ← ready worker, Function.update_eq_self]
    dsimp only [System.step]
    rw [place]
    unfold System.move
    dsimp only
    rw [back]
  refine ⟨schedule ++ [.work worker] ++ [.work worker],
    events ++ [.started worker job] ++ [.finished worker job], { system with pool := after }, ?_,
    (sound.pop nonempty first).1, ?_, ?_, running, ready⟩
  · rw [run_concat, run_concat, done, Option.bind_some, taken, Option.bind_some, Option.bind_some,
      finished]
    rfl
  · rw [← atHead, ← sound.size]
  · show system.pool.count - 1 = count
    omega

/-- The head can be brought to every slot. -/
theorem reached_head (staffed : 0 < n) (zeroed : Job) (representable : capacity ≤ intMax)
    (inside : head < capacity) : Reached n zeroed capacity head 0 := by
  induction head with
  | zero => exact Reached.initial n zeroed (by omega)
  | succ head ih =>
    have submitted := (ih (by omega)).submit (by omega) (by omega)
    have taken := submitted.take staffed representable
    rwa [Nat.mod_eq_of_lt inside] at taken

/-- From there the queue can be filled, up to the first slot whose index overflows. -/
theorem reached_count (staffed : 0 < n) (zeroed : Job) (representable : capacity ≤ intMax)
    (inside : head < capacity) (room : count ≤ capacity) (fits : head + count ≤ intMax + 1) :
    Reached n zeroed capacity head count := by
  induction count with
  | zero => exact reached_head staffed zeroed representable inside
  | succ count ih => exact (ih (by omega) (by omega)).submit (by omega) (by omega)

/-- A submission whose index overflows is undefined. -/
theorem Reached.overflow (reached : Reached n zeroed capacity head count) (room : count < capacity)
    (ended : intMax < head + count) :
    ∃ schedule, (System.initial zeroed capacity : System Job n).run schedule = none := by
  obtain ⟨schedule, events, system, done, sound, atHead, counted, running, ready⟩ := reached
  have free : system.pool.count ≠ system.pool.capacity := by
    rw [sound.size, counted]
    omega
  have closed : ¬(system.pool.shuttingDown ∨ system.pool.count = system.pool.capacity) := by
    rw [running]
    simpa using free
  have summed : addInt system.pool.head system.pool.count = none := if_neg (by omega)
  have stepped : system.step (.submit zeroed) = none := by
    dsimp only [System.step, Threadpool.submit]
    rw [if_neg closed, summed]
    rfl
  refine ⟨schedule ++ [.submit zeroed], ?_⟩
  rw [run_concat, done, Option.bind_some, stepped]
  rfl

/-- A ring of more than 2^30 slots has a schedule on which the index of a slot overflows. -/
theorem overflows (staffed : 0 < n) (zeroed : Job) (representable : capacity ≤ intMax)
    (large : 2 ^ 30 < capacity) :
    ∃ schedule, (System.initial zeroed capacity : System Job n).run schedule = none := by
  have limit : intMax = 2 ^ 31 - 1 := rfl
  have filled : Reached n zeroed capacity (capacity - 1) (2 ^ 31 - capacity + 1) :=
    reached_count staffed zeroed representable (by omega) (by omega) (by omega)
  exact filled.overflow (by omega) (by omega)

end Overflow

/-- On every schedule of a pool that `ps_threadpool_create` made the queue is correct, exactly when
its capacity is at most 2^30. -/
theorem queue_correct_iff {zeroed : Job} {queueCapacity : Int} {pool : System Job n}
    (staffed : 0 < n) (int : queueCapacity ≤ intMax) (created : create zeroed queueCapacity = some pool) :
    (∀ schedule, ∃ events system, pool.run schedule = some (events, system) ∧
      Correct queueCapacity.toNat events system) ↔ queueCapacity ≤ 2 ^ 30 := by
  unfold create at created
  split at created
  · contradiction
  rename_i positive
  have same : System.initial zeroed queueCapacity.toNat = pool := Option.some.inj created
  rw [← same]
  constructor
  · intro correct
    by_contra large
    have overflow : ∃ schedule,
        (System.initial zeroed queueCapacity.toNat : System Job n).run schedule = none :=
      overflows staffed zeroed (by omega) (by omega)
    obtain ⟨schedule, undefined⟩ := overflow
    obtain ⟨events, system, done, _⟩ := correct schedule
    rw [undefined] at done
    contradiction
  · intro small schedule
    have initial : Invariant queueCapacity.toNat []
        (System.initial zeroed queueCapacity.toNat : System Job n) :=
      Invariant.initial zeroed (by omega)
    obtain ⟨events, system, done⟩ := run_defined initial (by omega) schedule
    exact ⟨events, system, done, (initial.run done).correct staffed⟩

/-- The queue of the default depth is correct. -/
theorem queue_correct_of_default :
    create 0 (256 : Int) = some (System.initial 0 256 : System Nat 8) ∧
      ∀ schedule, ∃ events system,
        (System.initial 0 256 : System Nat 8).run schedule = some (events, system) ∧
          Correct 256 events system := by
  have created : create 0 (256 : Int) = some (System.initial 0 256 : System Nat 8) := if_neg (by decide)
  exact ⟨created, (queue_correct_iff (by decide) (by decide) created).mpr (by decide)⟩

/-- A queue of one slot more than 2^30 is not: on some schedule a submission is undefined. -/
theorem queue_not_correct_above :
    create 0 (2 ^ 30 + 1 : Int) = some (System.initial 0 (2 ^ 30 + 1) : System Nat 1) ∧
      ¬∀ schedule, ∃ events system,
        (System.initial 0 (2 ^ 30 + 1) : System Nat 1).run schedule = some (events, system) ∧
          Correct (2 ^ 30 + 1) events system := by
  refine ⟨if_neg (by decide), ?_⟩
  intro correct
  have overflow : ∃ schedule,
      (System.initial 0 (2 ^ 30 + 1) : System Nat 1).run schedule = none :=
    overflows (by decide) 0 (by decide) (by decide)
  obtain ⟨schedule, undefined⟩ := overflow
  obtain ⟨events, system, done, _⟩ := correct schedule
  rw [undefined] at done
  contradiction

end PlatformService.Verif.ThreadpoolQueue
