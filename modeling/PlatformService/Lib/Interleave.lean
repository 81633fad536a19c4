import Mathlib.Data.List.Infix
import Mathlib.Logic.Function.Basic

/-!
# Interleavings of threads

Threads act on a shared state in atomic steps; a schedule says whose turn it is. A
thread is its own local state, so that a theorem can speak of what a thread has
read. `run_invariant` derives what holds in every run from what every step keeps,
and `Along` collects a condition on the steps of a run.

Where the threads change the shared state in one step each, and that step does
what the thread would have done alone from the same state, the run leaves what
some serial schedule leaves: `shared_run_eq_serial`.
-/

namespace PlatformService.Lib

/-- A shared state and the local states of some threads. -/
structure Pool (S T ι : Type) where
  shared : S
  thread : ι → T

namespace Pool

variable {S T ι : Type} [DecidableEq ι] (act : S → T → S × T)

/-- One atomic step of a thread. -/
def step (pool : Pool S T ι) (i : ι) : Pool S T ι where
  shared := (act pool.shared (pool.thread i)).1
  thread := Function.update pool.thread i (act pool.shared (pool.thread i)).2

/-- The steps of a schedule. -/
def run (pool : Pool S T ι) (schedule : List ι) : Pool S T ι := schedule.foldl (step act) pool

variable {act}

/-- A run continues from where its first part ended. -/
theorem run_append (pool : Pool S T ι) (first second : List ι) :
    pool.run act (first ++ second) = (pool.run act first).run act second :=
  List.foldl_append

/-- The thread that steps takes its new local state. -/
@[simp]
theorem thread_step_self (pool : Pool S T ι) (i : ι) :
    (pool.step act i).thread i = (act pool.shared (pool.thread i)).2 :=
  Function.update_self ..

/-- Other threads wait. -/
theorem thread_step_of_ne (pool : Pool S T ι) {i j : ι} (other : j ≠ i) :
    (pool.step act i).thread j = pool.thread j :=
  Function.update_of_ne other ..

/-- A condition that every step of a run meets. -/
def Along (act : S → T → S × T) (condition : Pool S T ι → ι → Prop) (pool : Pool S T ι) :
    List ι → Prop
  | [] => True
  | i :: schedule => condition pool i ∧ Along act condition (pool.step act i) schedule

instance decidableAlong (condition : Pool S T ι → ι → Prop) [∀ pool i, Decidable (condition pool i)] :
    (pool : Pool S T ι) → (schedule : List ι) → Decidable (Along act condition pool schedule)
  | _, [] => isTrue trivial
  | pool, i :: schedule =>
    @instDecidableAnd _ _ _ (decidableAlong condition (pool.step act i) schedule)

/-- A condition along a run holds at each of its steps. -/
theorem Along.at_split {condition : Pool S T ι → ι → Prop} {pool : Pool S T ι}
    {before rest : List ι} {i : ι} (along : Along act condition pool (before ++ i :: rest)) :
    condition (pool.run act before) i := by
  induction before generalizing pool with
  | nil => exact along.1
  | cons j before ih => exact ih along.2

/-- A condition along a run holds along each of its beginnings. -/
theorem Along.beginning {condition : Pool S T ι → ι → Prop} {pool : Pool S T ι}
    {first second : List ι} (along : Along act condition pool (first ++ second)) :
    Along act condition pool first := by
  induction first generalizing pool with
  | nil => trivial
  | cons i first ih => exact ⟨along.1, ih along.2⟩

/-- A condition along a run holds along what follows each of its beginnings. -/
theorem Along.continuation {condition : Pool S T ι → ι → Prop} {pool : Pool S T ι}
    {first second : List ι} (along : Along act condition pool (first ++ second)) :
    Along act condition (pool.run act first) second := by
  induction first generalizing pool with
  | nil => exact along
  | cons i first ih => exact ih along.2

/-- What every step that meets the condition keeps holds at the end of a run that meets it. -/
theorem run_invariant {condition : Pool S T ι → ι → Prop} (invariant : Pool S T ι → Prop)
    (kept : ∀ pool i, invariant pool → condition pool i → invariant (pool.step act i))
    {pool : Pool S T ι} (start : invariant pool) {schedule : List ι}
    (along : Along act condition pool schedule) : invariant (pool.run act schedule) := by
  induction schedule generalizing pool with
  | nil => exact start
  | cons i schedule ih => exact ih (kept pool i start along.1) along.2

/-- What every step keeps holds at the end of every run. -/
theorem run_keeps (invariant : Pool S T ι → Prop)
    (kept : ∀ pool i, invariant pool → invariant (pool.step act i))
    {pool : Pool S T ι} (start : invariant pool) (schedule : List ι) :
    invariant (pool.run act schedule) := by
  induction schedule generalizing pool with
  | nil => exact start
  | cons i schedule ih => exact ih (kept pool i start)

/-- What an invariant and the condition of a step together imply holds along the run. -/
theorem Along.of_invariant {condition implied : Pool S T ι → ι → Prop}
    (invariant : Pool S T ι → Prop)
    (kept : ∀ pool i, invariant pool → condition pool i → invariant (pool.step act i))
    (gives : ∀ pool i, invariant pool → condition pool i → implied pool i) {pool : Pool S T ι}
    (start : invariant pool) {schedule : List ι} (along : Along act condition pool schedule) :
    Along act implied pool schedule := by
  induction schedule generalizing pool with
  | nil => trivial
  | cons i schedule ih =>
    exact ⟨gives pool i start along.1, ih (kept pool i start along.1) along.2⟩

section Serial

variable {commits past : T → Bool}

/-- The threads in the order in which a run reaches their committing steps. -/
def commitOrder (act : S → T → S × T) (commits : T → Bool) (pool : Pool S T ι) : List ι → List ι
  | [] => []
  | i :: schedule =>
    if commits (pool.thread i) then i :: commitOrder act commits (pool.step act i) schedule
    else commitOrder act commits (pool.step act i) schedule

/-- A run leaves what its committing steps do, in their order. -/
theorem shared_run (effect : ι → S → S) {pool : Pool S T ι} {schedule : List ι}
    (along : Along act (fun pool i => (pool.step act i).shared =
      if commits (pool.thread i) then effect i pool.shared else pool.shared) pool schedule) :
    (pool.run act schedule).shared =
      (commitOrder act commits pool schedule).foldl (fun shared i => effect i shared) pool.shared := by
  induction schedule generalizing pool with
  | nil => rfl
  | cons i schedule ih =>
    have rest : (pool.run act (i :: schedule)).shared = _ := ih along.2
    have here := along.1
    rw [rest, commitOrder, here]
    split
    · rfl
    · rfl

/-- A thread past its committing step stays past it. -/
theorem past_run (moves : ∀ shared t, past (act shared t).2 = (past t || commits t))
    {pool : Pool S T ι} {i : ι} (before : past (pool.thread i) = true) (schedule : List ι) :
    past ((pool.run act schedule).thread i) = true := by
  refine run_keeps (fun pool => past (pool.thread i) = true) (fun pool j here => ?_) before schedule
  by_cases same : i = j
  · rw [same] at here ⊢
    rw [thread_step_self, moves, here, Bool.true_or]
  · rw [thread_step_of_ne pool same]
    exact here

/-- A thread commits in a run exactly if the run takes it past its committing step. -/
theorem mem_commitOrder (once : ∀ t, past t = true → commits t = false)
    (moves : ∀ shared t, past (act shared t).2 = (past t || commits t)) {pool : Pool S T ι}
    {schedule : List ι} {i : ι} :
    i ∈ commitOrder act commits pool schedule ↔
      past (pool.thread i) = false ∧ past ((pool.run act schedule).thread i) = true := by
  induction schedule generalizing pool with
  | nil => simp [commitOrder, run]
  | cons j schedule ih =>
    have rest : pool.run act (j :: schedule) = (pool.step act j).run act schedule := rfl
    rw [rest, commitOrder]
    by_cases same : i = j
    · rw [← same]
      cases now : commits (pool.thread i) with
      | true =>
        have after : past ((pool.step act i).thread i) = true := by
          rw [thread_step_self, moves, now, Bool.or_true]
        have before : past (pool.thread i) = false := by
          cases already : past (pool.thread i) with
          | false => rfl
          | true => simp [once _ already] at now
        rw [if_pos rfl]
        exact iff_of_true List.mem_cons_self ⟨before, past_run moves after schedule⟩
      | false =>
        rw [if_neg (by simp), ih, thread_step_self, moves, now, Bool.or_false]
    · have waits : (pool.step act j).thread i = pool.thread i := thread_step_of_ne pool same
      rw [← waits, ← ih]
      cases commits (pool.thread j) with
      | true => simp [same]
      | false => simp

/-- No thread commits twice. -/
theorem nodup_commitOrder (once : ∀ t, past t = true → commits t = false)
    (moves : ∀ shared t, past (act shared t).2 = (past t || commits t)) (pool : Pool S T ι)
    (schedule : List ι) : (commitOrder act commits pool schedule).Nodup := by
  induction schedule generalizing pool with
  | nil => exact List.nodup_nil
  | cons i schedule ih =>
    rw [commitOrder]
    cases now : commits (pool.thread i) with
    | false => exact ih _
    | true =>
      rw [if_pos rfl]
      refine List.nodup_cons.mpr ⟨fun again => ?_, ih _⟩
      have before := ((mem_commitOrder once moves).mp again).1
      rw [thread_step_self, moves, now, Bool.or_true] at before
      contradiction

/-- The schedule in which each thread has all its turns before the next begins. -/
def serial (turns : Nat) (order : List ι) : List ι := order.flatMap (List.replicate turns)

/-- What a thread leaves when it has some turns alone. -/
def alone (act : S → T → S × T) : (turns : Nat) → S → T → S
  | 0, shared, _ => shared
  | turns + 1, shared, t => alone act turns (act shared t).1 (act shared t).2

/-- Turns of one thread leave what it leaves alone, and the other threads wait. -/
theorem run_replicate (act : S → T → S × T) (pool : Pool S T ι) (turns : Nat) (i : ι) :
    (pool.run act (List.replicate turns i)).shared = alone act turns pool.shared (pool.thread i) ∧
      ∀ j, j ≠ i → (pool.run act (List.replicate turns i)).thread j = pool.thread j := by
  induction turns generalizing pool with
  | zero => exact ⟨rfl, fun _ _ => rfl⟩
  | succ turns ih =>
    obtain ⟨shared, others⟩ := ih (pool.step act i)
    have first : pool.run act (List.replicate (turns + 1) i) =
        (pool.step act i).run act (List.replicate turns i) := rfl
    rw [first]
    refine ⟨?_, fun j other => ?_⟩
    · rw [shared, thread_step_self]
      rfl
    · rw [others j other, thread_step_of_ne pool other]

/-- A serial schedule leaves what the threads leave alone, one after the other. -/
theorem shared_run_serial (turns : Nat) {order : List ι} (distinct : order.Nodup)
    (pool : Pool S T ι) :
    (pool.run act (serial turns order)).shared =
      order.foldl (fun shared i => alone act turns shared (pool.thread i)) pool.shared := by
  induction order generalizing pool with
  | nil => rfl
  | cons i order ih =>
    obtain ⟨absent, distinct⟩ := List.nodup_cons.mp distinct
    obtain ⟨shared, others⟩ := run_replicate act pool turns i
    have split : serial turns (i :: order) = List.replicate turns i ++ serial turns order := rfl
    rw [split, run_append, ih distinct, shared, List.foldl_cons]
    refine List.foldl_ext _ _ _ fun shared j member => ?_
    rw [others j fun same => absent (same ▸ member)]

/-- If each committing step leaves what its thread would have left alone from the same state, and the
other steps leave nothing, a run leaves what a serial schedule leaves. -/
theorem shared_run_eq_serial (once : ∀ t, past t = true → commits t = false)
    (moves : ∀ shared t, past (act shared t).2 = (past t || commits t)) {turns : Nat}
    {pool : Pool S T ι} {schedule : List ι}
    (along : Along act (fun current i => (current.step act i).shared =
      if commits (current.thread i) then alone act turns current.shared (pool.thread i)
      else current.shared) pool schedule) :
    (pool.run act schedule).shared =
      (pool.run act (serial turns (commitOrder act commits pool schedule))).shared := by
  rw [shared_run_serial turns (nodup_commitOrder once moves pool schedule)]
  exact shared_run (fun i shared => alone act turns shared (pool.thread i)) along

end Serial

end Pool

end PlatformService.Lib
