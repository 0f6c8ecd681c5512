import TinyRtos.Kernel.Kernel

/-!
# TinyRTOS — mutexes (`mutex.c`)

`rtoskMutexLock` is one round of the loop of `rtosk_mutex_lock`: it returns
with the mutex, or blocks and yields, after which the loop comes round again
(`System.lean`).
-/

namespace TinyRtos

/-- `rtosk_mutex_t`. -/
structure Mutex where
  owner : Nat
  waitingTask : Nat
  deriving DecidableEq, Repr

/-- `RTOSK_MUTEX_NO_OWNER`. -/
def rtoskMutexNoOwner : Nat := 0xFFFFFFFF

/-- `RTOSK_MUTEX_NO_WAITER`. -/
def rtoskMutexNoWaiter : Nat := 0xFFFFFFFF

def rtoskMutexInit : Mutex := { owner := rtoskMutexNoOwner, waitingTask := rtoskMutexNoWaiter }

def rtoskMutexLock (mutex : Mutex) (k : Kernel) : Mutex × Kernel × Exit :=
  let k := rtoskKernelEnterCritical k
  let current := k.currentTask
  if mutex.owner = rtoskMutexNoOwner then
    let mutex := { mutex with owner := current }
    (mutex, rtoskKernelExitCritical k, .returns)
  else if mutex.owner = current then
    (mutex, rtoskKernelExitCritical k, .returns)
  else
    let mutex := { mutex with waitingTask := current }
    let k := k.onTable rtoskTaskBlockCurrentOnMutex
    (mutex, rtoskKernelExitCritical k, .yields)

def rtoskMutexUnlock (mutex : Mutex) (k : Kernel) : Mutex × Kernel × Exit :=
  let k := rtoskKernelEnterCritical k
  let current := k.currentTask
  if mutex.owner ≠ current then
    (mutex, rtoskKernelExitCritical k, .returns)
  else
    let mutex := { mutex with owner := rtoskMutexNoOwner }
    if mutex.waitingTask ≠ rtoskMutexNoWaiter then
      let k := k.onTable (rtoskTaskSetReady mutex.waitingTask)
      let mutex := { mutex with waitingTask := rtoskMutexNoWaiter }
      (mutex, rtoskKernelExitCritical k, .yields)
    else (mutex, rtoskKernelExitCritical k, .yields)

-- ---------------------------------------------------------------------------
-- Their branches
-- ---------------------------------------------------------------------------

theorem mutexLock_free {mutex : Mutex} (h : mutex.owner = rtoskMutexNoOwner) (k : Kernel) :
    rtoskMutexLock mutex k =
      ({ mutex with owner := k.currentTask }, k.bracket id, .returns) := by
  simp only [rtoskMutexLock, if_pos h, enterCritical_toTaskTable]
  rfl

theorem mutexLock_own {mutex : Mutex} {k : Kernel} (hOwned : mutex.owner ≠ rtoskMutexNoOwner)
    (h : mutex.owner = k.currentTask) :
    rtoskMutexLock mutex k = (mutex, k.bracket id, .returns) := by
  simp only [rtoskMutexLock, if_neg hOwned, enterCritical_toTaskTable, if_pos h]
  rfl

theorem mutexLock_block {mutex : Mutex} {k : Kernel} (hOwned : mutex.owner ≠ rtoskMutexNoOwner)
    (h : mutex.owner ≠ k.currentTask) :
    rtoskMutexLock mutex k =
      ({ mutex with waitingTask := k.currentTask },
        k.bracket rtoskTaskBlockCurrentOnMutex, .yields) := by
  simp only [rtoskMutexLock, if_neg hOwned, enterCritical_toTaskTable, if_neg h]
  rfl

theorem mutexUnlock_stray {mutex : Mutex} {k : Kernel} (h : mutex.owner ≠ k.currentTask) :
    rtoskMutexUnlock mutex k = (mutex, k.bracket id, .returns) := by
  simp only [rtoskMutexUnlock, enterCritical_toTaskTable, if_pos h]
  rfl

theorem mutexUnlock_waiter {mutex : Mutex} {k : Kernel} (h : mutex.owner = k.currentTask)
    (hWaiter : mutex.waitingTask ≠ rtoskMutexNoWaiter) :
    rtoskMutexUnlock mutex k =
      ({ owner := rtoskMutexNoOwner, waitingTask := rtoskMutexNoWaiter },
        k.bracket (rtoskTaskSetReady mutex.waitingTask), .yields) := by
  simp only [rtoskMutexUnlock, enterCritical_toTaskTable, if_neg (not_not.mpr h), if_pos hWaiter]
  rfl

theorem mutexUnlock_none {mutex : Mutex} {k : Kernel} (h : mutex.owner = k.currentTask)
    (hWaiter : ¬ mutex.waitingTask ≠ rtoskMutexNoWaiter) :
    rtoskMutexUnlock mutex k =
      ({ mutex with owner := rtoskMutexNoOwner }, k.bracket id, .yields) := by
  simp only [rtoskMutexUnlock, enterCritical_toTaskTable, if_neg (not_not.mpr h), if_neg hWaiter]
  rfl

end TinyRtos
