import Mathlib.Data.List.Basic

/-!
# The connections and the KDF slots

`ps_db_pool_t` and `ps_kdf_semaphore_t`, shared by all handlers. Connections are numbers:
`ps_db_pool_create` opens as many as the pool is large. Each function runs under the
pool's lock, so it is one step here.
-/

namespace PlatformService

/-- `ps_db_pool_t` without its lock. -/
structure DbPool where
  size : Nat
  freeStack : List Nat
  freeCount : Nat
  deriving DecidableEq, Repr

namespace DbPool

/-- `ps_db_pool_create`: every connection is on the stack. -/
def create (size : Nat) : DbPool := ⟨size, List.range size, size⟩

/-- `ps_db_pool_acquire`; it waits while no connection is free. -/
def acquire (pool : DbPool) : Option (Nat × DbPool) :=
  if pool.freeCount = 0 then none
  else (pool.freeStack[pool.freeCount - 1]?).map fun conn =>
    (conn, { pool with freeCount := pool.freeCount - 1 })

/-- `ps_db_pool_release`; behind a full stack it would write out of bounds. -/
def release (pool : DbPool) (conn : Nat) : Option DbPool :=
  if pool.freeCount < pool.size then
    some { pool with
      freeStack := pool.freeStack.set pool.freeCount conn
      freeCount := pool.freeCount + 1 }
  else none

end DbPool

/-- `ps_kdf_semaphore_t` -/
structure KdfSemaphore where
  value : Nat
  deriving DecidableEq, Repr

namespace KdfSemaphore

/-- `ps_kdf_semaphore_create`: a capacity below one stands for the number of processors. -/
def create (capacity processors : Int) : KdfSemaphore :=
  ⟨(if capacity < 1 then if processors < 1 then 1 else processors else capacity).toNat⟩

/-- `ps_kdf_semaphore_try_acquire`: the semaphore after it, unless it is refused. -/
def tryAcquire (semaphore : KdfSemaphore) : Option KdfSemaphore :=
  if semaphore.value = 0 then none else some ⟨semaphore.value - 1⟩

/-- `ps_kdf_semaphore_release` -/
def release (semaphore : KdfSemaphore) : KdfSemaphore := ⟨semaphore.value + 1⟩

end KdfSemaphore

end PlatformService
