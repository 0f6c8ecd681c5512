import TinyRtos.Kernel.Kernel

/-!
# TinyRTOS — semaphores (`semaphore.c`)

The functions take the semaphore and the kernel and return both; the task calls
stop where `rtosk_kernel_exit_critical` returns and say with an `Exit` what
follows. The null check of the pointer is made where the pointer is, in
`System.lean`.
-/

namespace TinyRtos

/-- `rtosk_semaphore_t`. -/
structure Semaphore where
  count : UInt32
  waitingTask : Nat
  deriving DecidableEq, Repr

/-- `RTOSK_SEMAPHORE_NO_WAITER`. -/
def rtoskSemaphoreNoWaiter : Nat := 0xFFFFFFFF

def rtoskSemaphoreInit (initialCount : UInt32) : Semaphore :=
  { count := initialCount, waitingTask := rtoskSemaphoreNoWaiter }

def rtoskSemaphoreTake (sem : Semaphore) (k : Kernel) : Semaphore × Kernel × Exit :=
  let k := rtoskKernelEnterCritical k
  if 0 < sem.count then
    let sem := { sem with count := sem.count - 1 }
    (sem, rtoskKernelExitCritical k, .returns)
  else
    let sem := { sem with waitingTask := k.currentTask }
    let k := k.onTable rtoskTaskBlockCurrentOnSemaphore
    (sem, rtoskKernelExitCritical k, .yields)

def rtoskSemaphoreGive (sem : Semaphore) (k : Kernel) : Semaphore × Kernel × Exit :=
  let k := rtoskKernelEnterCritical k
  if sem.waitingTask ≠ rtoskSemaphoreNoWaiter then
    let k := k.onTable (rtoskTaskSetReady sem.waitingTask)
    let sem := { sem with waitingTask := rtoskSemaphoreNoWaiter }
    (sem, rtoskKernelExitCritical k, .yields)
  else
    let sem := { sem with count := 1 }
    (sem, rtoskKernelExitCritical k, .yields)

def rtoskSemaphoreGiveFromIsr (sem : Semaphore) (k : Kernel) : Semaphore × Kernel :=
  if sem.waitingTask ≠ rtoskSemaphoreNoWaiter then
    let k := k.onTable (rtoskTaskSetReady sem.waitingTask)
    let sem := { sem with waitingTask := rtoskSemaphoreNoWaiter }
    (sem, rtoskPortYield k)
  else
    let sem := { sem with count := 1 }
    (sem, k)

-- ---------------------------------------------------------------------------
-- Their branches
-- ---------------------------------------------------------------------------

theorem semaphoreTake_pos {sem : Semaphore} (h : 0 < sem.count) (k : Kernel) :
    rtoskSemaphoreTake sem k =
      ({ sem with count := sem.count - 1 }, k.bracket id, .returns) := by
  simp only [rtoskSemaphoreTake, if_pos h]
  rfl

theorem semaphoreTake_zero {sem : Semaphore} (h : ¬ 0 < sem.count) (k : Kernel) :
    rtoskSemaphoreTake sem k =
      ({ sem with waitingTask := k.currentTask },
        k.bracket rtoskTaskBlockCurrentOnSemaphore, .yields) := by
  simp only [rtoskSemaphoreTake, if_neg h, enterCritical_toTaskTable]
  rfl

theorem semaphoreGive_waiter {sem : Semaphore}
    (h : sem.waitingTask ≠ rtoskSemaphoreNoWaiter) (k : Kernel) :
    rtoskSemaphoreGive sem k =
      ({ sem with waitingTask := rtoskSemaphoreNoWaiter },
        k.bracket (rtoskTaskSetReady sem.waitingTask), .yields) := by
  simp only [rtoskSemaphoreGive, if_pos h]
  rfl

theorem semaphoreGive_none {sem : Semaphore}
    (h : ¬ sem.waitingTask ≠ rtoskSemaphoreNoWaiter) (k : Kernel) :
    rtoskSemaphoreGive sem k = ({ sem with count := 1 }, k.bracket id, .yields) := by
  simp only [rtoskSemaphoreGive, if_neg h]
  rfl

end TinyRtos
