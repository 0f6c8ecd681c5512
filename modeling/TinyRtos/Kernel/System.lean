import TinyRtos.Kernel.Scheduler
import TinyRtos.Kernel.Semaphore
import TinyRtos.Kernel.Mutex
import TinyRtos.Kernel.Queue
import TinyRtos.Lib.Runs

/-!
# TinyRTOS — the running system

After SVC the kernel's state is changed by the calls of the running task, by
interrupts and by PendSV. `System` is that state, with the place of every task
in its current call (`Pc`); `System.step` is one atomic piece of it:

* `call c` — the running task begins a call and performs its (first) critical
  section; `yield` and `resume` are the rest of the call, from
  `rtosk_kernel_yield` on, and the loops of `rtosk_mutex_lock` and
  `rtosk_queue_receive` come round through them;
* `semaphoreGiveFromIsr`, `queueSendFromIsr`, `tick` — bodies of interrupt
  handlers, possible whenever PRIMASK is clear, inside PendSV too;
* `pendSv`, `scan`, `pendSvExit` — PendSV starts, makes one round of the
  scheduler's loop, and returns into the selected task.

A pending PendSV is taken before the thread goes on, as soon as PRIMASK is
clear. A `Runs.Run` of `System.step` is then any interleaving of any programs;
the idle task makes no calls.

`CallStep` says once what a critical section can do, branch by branch, and
`enter_callStep` that these are all of them; `IsrStep` likewise.
-/

namespace TinyRtos

/-- A synchronisation object. -/
inductive Obj
  | semaphore (i : Nat)
  | queue (i : Nat)
  | mutex (i : Nat)
  deriving DecidableEq, Repr

/-- `RTOSK_SEMAPHORE_NO_WAITER`, `RTOSK_QUEUE_NO_WAITER` and
`RTOSK_MUTEX_NO_WAITER`, which are one value. -/
def noWaiter : Nat := 0xFFFFFFFF

/-- A kernel call and its arguments. Objects and item pointers may be null
(`none`); a non-null item pointer is the memory it points to. -/
inductive Call
  | semaphoreInit (sem : Option Nat) (initialCount : UInt32)
  | semaphoreTake (sem : Option Nat)
  | semaphoreGive (sem : Option Nat)
  | mutexInit (mutex : Option Nat)
  | mutexLock (mutex : Option Nat)
  | mutexUnlock (mutex : Option Nat)
  | queueInit (queue : Option Nat) (buffer : Option (Nat → UInt8)) (itemSize capacity : UInt32)
  | queueSend (queue : Option Nat) (item : Option (Nat → UInt8))
  | queueReceive (queue : Option Nat) (item : Option (Nat → UInt8))
  | sleepMs (ms : UInt32)
  | yield
  | enterCritical
  | exitCritical

/-- A call with a null pointer, which returns at once. -/
def Call.isNull : Call → Bool
  | .semaphoreInit none _ | .semaphoreTake none | .semaphoreGive none | .mutexInit none
  | .mutexLock none | .mutexUnlock none | .queueInit none _ _ _ | .queueSend none _
  | .queueSend _ none | .queueReceive none _ | .queueReceive _ none => true
  | _ => false

/-- Where a task is: in its own code, in a call between its critical section
and `rtosk_kernel_yield`, or in a call after that. -/
inductive Pc
  | user
  | leaving (c : Call)
  | yielded (c : Call)

/-- Between `rtosk_kernel_exit_critical` and the `rtosk_kernel_yield` after it. -/
def Pc.isLeaving : Pc → Bool
  | .leaving _ => true
  | _ => false

/-- What a step does that histories are about. -/
inductive Event
  | took (t i : Nat)
  | gave (i : Nat) (before after : Semaphore)
  | locked (t m : Nat)
  | unlocked (t m : Nat)
  | sent (q : Nat) (bytes : List UInt8)
  | receiving (t q : Nat)
  | received (t q : Nat) (bytes : List UInt8)
  | switched (t : Nat)
  deriving DecidableEq, Repr

structure System where
  kernel : Kernel
  sems : Nat → Semaphore
  mutexes : Nat → Mutex
  queues : Nat → Queue
  pc : Nat → Pc
  scan : Option Scan

inductive Label
  | call (c : Call)
  | yield
  | resume
  | semaphoreGiveFromIsr (sem : Option Nat)
  | queueSendFromIsr (queue : Option Nat) (item : Option (Nat → UInt8))
  | tick
  | pendSv
  | scan
  | pendSvExit

/-- The step begins a call. -/
def Label.isCall : Label → Bool
  | .call _ => true
  | _ => false

/-- Whose code a step belongs to. -/
inductive Actor
  | handler
  | pendSv
  | thread
  deriving DecidableEq, Repr

def Label.actor : Label → Actor
  | .semaphoreGiveFromIsr _ | .queueSendFromIsr _ _ | .tick => .handler
  | .pendSv | .scan | .pendSvExit => .pendSv
  | .call _ | .yield | .resume => .thread

/-- The object a step initialises. -/
def Label.initialises : Label → Option Obj
  | .call (.semaphoreInit (some i) _) => some (.semaphore i)
  | .call (.mutexInit (some m)) => some (.mutex m)
  | .call (.queueInit (some q) _ _ _) => some (.queue q)
  | _ => none

/-- The calls that loop until they get what they wait for. -/
def Call.retries : Call → Bool
  | .mutexLock _ => true
  | .queueReceive .. => true
  | _ => false

/-- Where a task is after the critical section of `c`. -/
def Exit.pc (c : Call) : Exit → Pc
  | .returns => .user
  | .yields => .leaving c

namespace System

def setSemaphore (i : Nat) (sem : Semaphore) (kernel : Kernel) (s : System) : System :=
  { s with kernel := kernel, sems := Function.update s.sems i sem }

def setMutex (m : Nat) (mutex : Mutex) (kernel : Kernel) (s : System) : System :=
  { s with kernel := kernel, mutexes := Function.update s.mutexes m mutex }

def setQueue (q : Nat) (queue : Queue) (kernel : Kernel) (s : System) : System :=
  { s with kernel := kernel, queues := Function.update s.queues q queue }

def setPc (t : Nat) (pc : Pc) (s : System) : System :=
  { s with pc := Function.update s.pc t pc }

/-- The code of a call up to the end of its critical section. -/
def enter [TaskConfig] (c : Call) (s : System) : System × Exit × List Event :=
  match c with
  | .semaphoreInit (some i) n => (s.setSemaphore i (rtoskSemaphoreInit n) s.kernel, .returns, [])
  | .semaphoreTake (some i) =>
    let (sem, kernel, exit) := rtoskSemaphoreTake (s.sems i) s.kernel
    (s.setSemaphore i sem kernel, exit,
      if exit = .returns then [.took s.kernel.currentTask i] else [])
  | .semaphoreGive (some i) =>
    let (sem, kernel, exit) := rtoskSemaphoreGive (s.sems i) s.kernel
    (s.setSemaphore i sem kernel, exit, [.gave i (s.sems i) sem])
  | .mutexInit (some m) => (s.setMutex m rtoskMutexInit s.kernel, .returns, [])
  | .mutexLock (some m) =>
    let (mutex, kernel, exit) := rtoskMutexLock (s.mutexes m) s.kernel
    (s.setMutex m mutex kernel, exit,
      if exit = .returns then [.locked s.kernel.currentTask m] else [])
  | .mutexUnlock (some m) =>
    let (mutex, kernel, exit) := rtoskMutexUnlock (s.mutexes m) s.kernel
    (s.setMutex m mutex kernel, exit, [.unlocked s.kernel.currentTask m])
  | .queueInit (some q) buffer itemSize capacity =>
    (s.setQueue q (rtoskQueueInit (s.queues q) buffer itemSize capacity) s.kernel, .returns, [])
  | .queueSend (some q) (some item) =>
    let (queue, kernel, exit, sent) := rtoskQueueSend (s.queues q) item s.kernel
    (s.setQueue q queue kernel, exit,
      if sent = 1 then [.sent q (RingBuffer.item item (s.queues q).itemSize.toNat)] else [])
  | .queueReceive (some q) (some item) =>
    let (queue, kernel, exit, item) := rtoskQueueReceive (s.queues q) item s.kernel
    (s.setQueue q queue kernel, exit, .receiving s.kernel.currentTask q ::
      if exit = .returns then
        [.received s.kernel.currentTask q (RingBuffer.item item (s.queues q).itemSize.toNat)]
      else [])
  | .sleepMs ms => ({ s with kernel := rtoskKernelSleepMs ms s.kernel }, .yields, [])
  | .yield => (s, .yields, [])
  | .enterCritical => ({ s with kernel := rtoskKernelEnterCritical s.kernel }, .returns, [])
  | .exitCritical => ({ s with kernel := rtoskKernelExitCritical s.kernel }, .returns, [])
  -- a null pointer
  | _ => (s, .returns, [])

/-- Make the critical section of `c` and note where the call goes on. -/
def perform [TaskConfig] (c : Call) (s : System) : System × List Event :=
  let (s', exit, es) := s.enter c
  (s'.setPc s.kernel.currentTask (exit.pc c), es)

/-- `rtosk_semaphore_give_from_isr`. -/
def giveFromIsr (sem : Option Nat) (s : System) : System × List Event :=
  match sem with
  | none => (s, [])
  | some i =>
    let (sem, kernel) := rtoskSemaphoreGiveFromIsr (s.sems i) s.kernel
    (s.setSemaphore i sem kernel, [.gave i (s.sems i) sem])

/-- `rtosk_queue_send_from_isr`. -/
def sendFromIsr (queue : Option Nat) (item : Option (Nat → UInt8)) (s : System) :
    System × List Event :=
  match queue, item with
  | some q, some item =>
    let (queue, kernel, sent) := rtoskQueueSendFromIsr (s.queues q) item s.kernel
    (s.setQueue q queue kernel,
      if sent = 1 then [.sent q (RingBuffer.item item (s.queues q).itemSize.toNat)] else [])
  | _, _ => (s, [])

/-- The code of a user task runs: PendSV is neither active nor about to be. -/
def Thread (s : System) : Prop :=
  s.scan = none ∧ s.kernel.currentTask < s.kernel.taskCount ∧
    ¬ (s.kernel.pendSv = true ∧ s.kernel.Unmasked)

instance (s : System) : Decidable s.Thread :=
  inferInstanceAs (Decidable (_ ∧ _ ∧ ¬ (_ ∧ _)))

def step [TaskConfig] (s : System) : Label → Option (System × List Event)
  | .call c =>
    match s.pc s.kernel.currentTask with
    | .user => if s.Thread then some (s.perform c) else none
    | _ => none
  | .yield =>
    match s.pc s.kernel.currentTask with
    | .leaving c =>
      if s.Thread then
        some ({ s with kernel := rtoskKernelYield s.kernel }.setPc
          s.kernel.currentTask (.yielded c), [])
      else none
    | _ => none
  | .resume =>
    match s.pc s.kernel.currentTask with
    | .yielded c =>
      if s.Thread then
        if c.retries then some (s.perform c)
        else some (s.setPc s.kernel.currentTask .user, [])
      else none
    | _ => none
  | .semaphoreGiveFromIsr sem =>
    if s.kernel.Unmasked then some (s.giveFromIsr sem) else none
  | .queueSendFromIsr queue item =>
    if s.kernel.Unmasked then some (s.sendFromIsr queue item) else none
  | .tick =>
    if s.kernel.Unmasked then some ({ s with kernel := rtoskKernelTick s.kernel }, []) else none
  | .pendSv =>
    if s.scan = none ∧ s.kernel.pendSv = true ∧ s.kernel.Unmasked then
      let kernel := { s.kernel with pendSv := false }
      match selectNextBegin kernel.toTaskTable with
      | none => some ({ s with kernel := kernel }, [.switched kernel.currentTask])
      | some c => some ({ s with kernel := kernel, scan := some c }, [])
    else none
  | .scan =>
    match s.scan with
    | none => none
    | some c =>
      if c.offset < c.taskCount then
        some ({ s with scan := some (selectNextRound s.kernel.toTaskTable c) }, [])
      else none
  | .pendSvExit =>
    match s.scan with
    | none => none
    | some c =>
      if c.offset < c.taskCount then none
      else
        let kernel := s.kernel.onTable (selectNextEnd c)
        some ({ s with kernel := kernel, scan := none }, [.switched kernel.currentTask])

-- ---------------------------------------------------------------------------
-- The start
-- ---------------------------------------------------------------------------

/-- The system as SVC leaves it: `rtosk_kernel_start` has found a task, all
tasks are READY, none is in a call, and the objects are initialised. What main
did before is left open otherwise: the priorities, the tick count, the counts
of the semaphores, the sizes of the queues, a pending PendSV. -/
structure Started [TaskConfig] (s : System) : Prop where
  taskCount_pos : 0 < s.kernel.taskCount
  taskCount_le  : s.kernel.taskCount ≤ rtoskMaxTasks
  idleReady     : s.kernel.idleReady = true
  kernelInit    : s.kernel.kernelInit = true
  ready         : ∀ t < s.kernel.taskCount, (s.kernel.tasks t).state = .ready
  isOpen        : s.kernel.Open
  user          : ∀ t, s.pc t = .user
  scan          : s.scan = none
  sems          : ∀ i, (s.sems i).waitingTask = rtoskSemaphoreNoWaiter
  mutexes       : ∀ m, s.mutexes m = rtoskMutexInit
  queues        : ∀ q, (s.queues q).waitingTask = rtoskQueueNoWaiter ∧ (s.queues q).head = 0 ∧
    (s.queues q).tail = 0 ∧ (s.queues q).count = 0

/-- `rtosk_kernel_start` on a table with its idle task. -/
def start (table : TaskTable) (sems : Nat → Semaphore) (queues : Nat → Queue) : System where
  kernel := {
    toTaskTable := table
    systicks := 0
    kernelInit := true
    criticalNesting := 0
    criticalPrimask := 0
    primask := 0
    pendSv := false }
  sems := sems
  mutexes := fun _ => rtoskMutexInit
  queues := queues
  pc := fun _ => .user
  scan := none

/-- Create tasks of the given priorities and start the kernel. -/
def boot [TaskConfig] (priorities : List UInt32) (sems : Nat → Semaphore)
    (queues : Nat → Queue) : System :=
  start
    (rtoskTaskInitIdle 0
      (priorities.foldl (fun k priority => rtoskTaskCreate 0 priority k) TaskTable.static))
    sems queues

/-- A table on which only `rtosk_task_create` was called. -/
def Created [TaskConfig] (k : TaskTable) : Prop :=
  k.taskCount ≤ rtoskMaxTasks ∧ k.idleReady = false ∧
    ∀ t < k.taskCount, (k.tasks t).state = .ready

theorem Created.create [TaskConfig] {k : TaskTable} (h : Created k) (sp : Nat)
    (priority : UInt32) :
    Created (rtoskTaskCreate sp priority k) ∧
      (0 < rtoskMaxTasks → 0 < (rtoskTaskCreate sp priority k).taskCount) := by
  obtain ⟨hLe, hIdle, hReady⟩ := h
  unfold rtoskTaskCreate
  by_cases hFull : rtoskMaxTasks ≤ k.taskCount
  · rw [if_pos hFull]
    exact ⟨⟨hLe, hIdle, hReady⟩, fun hMax => lt_of_lt_of_le hMax hFull⟩
  · rw [if_neg hFull]
    refine ⟨⟨Nat.lt_of_not_le hFull, hIdle, fun t ht => ?_⟩, fun _ => Nat.succ_pos _⟩
    by_cases hNew : t = k.taskCount
    · simp [hNew]
    · simp only [Function.update_of_ne hNew]
      have hOld : t < k.taskCount + 1 := ht
      exact hReady t (by omega)

theorem Created.creates [TaskConfig] (priorities : List UInt32) :
    ∀ {k : TaskTable}, Created k →
      Created (priorities.foldl (fun k priority => rtoskTaskCreate 0 priority k) k) ∧
        (0 < k.taskCount →
          0 < (priorities.foldl (fun k priority => rtoskTaskCreate 0 priority k) k).taskCount) := by
  induction priorities with
  | nil => exact fun h => ⟨h, id⟩
  | cons priority rest ih =>
    intro k h
    obtain ⟨hRest, hPos⟩ := ih (h.create 0 priority).1
    refine ⟨hRest, fun hk => hPos ?_⟩
    exact (h.create 0 priority).2 (lt_of_lt_of_le hk h.1)

theorem created_static [TaskConfig] : Created TaskTable.static :=
  ⟨Nat.zero_le _, rfl, fun t ht => absurd ht (Nat.not_lt_zero t)⟩

/-- Wherever the idle task's stack is, a kernel with a task starts. -/
theorem Created.started [TaskConfig] {k : TaskTable} (h : Created k) (hPos : 0 < k.taskCount)
    (sp : Nat) {sems : Nat → Semaphore} {queues : Nat → Queue}
    (hSems : ∀ i, (sems i).waitingTask = rtoskSemaphoreNoWaiter)
    (hQueues : ∀ q, (queues q).waitingTask = rtoskQueueNoWaiter ∧ (queues q).head = 0 ∧
      (queues q).tail = 0 ∧ (queues q).count = 0) :
    Started (start (rtoskTaskInitIdle sp k) sems queues) := by
  obtain ⟨hLe, hIdle, hReady⟩ := h
  have hInit : rtoskTaskInitIdle sp k = { k with
      tasks := Function.update k.tasks rtoskIdleTaskIndex
        { sp := sp, state := .idle, wakeTick := 0, priority := 0 }
      idleReady := true } := by
    simp [rtoskTaskInitIdle, hIdle]
  rw [hInit]
  refine ⟨hPos, hLe, rfl, rfl, fun t ht => ?_, ⟨by simp [Kernel.Unmasked, start], rfl⟩,
    fun _ => rfl, rfl, hSems, fun _ => rfl, hQueues⟩
  have hUser : t ≠ rtoskIdleTaskIndex := Nat.ne_of_lt (lt_of_lt_of_le ht hLe)
  show (Function.update k.tasks rtoskIdleTaskIndex _ t).state = .ready
  rw [Function.update_of_ne hUser]
  exact hReady t ht

/-- **A booted system is started.** -/
theorem boot_started [TaskConfig] {priority : UInt32} {rest : List UInt32}
    {sems : Nat → Semaphore} {queues : Nat → Queue} (hMax : 0 < rtoskMaxTasks)
    (hSems : ∀ i, (sems i).waitingTask = rtoskSemaphoreNoWaiter)
    (hQueues : ∀ q, (queues q).waitingTask = rtoskQueueNoWaiter ∧ (queues q).head = 0 ∧
      (queues q).tail = 0 ∧ (queues q).count = 0) :
    Started (boot (priority :: rest) sems queues) := by
  obtain ⟨hFirst, hFirstPos⟩ := created_static.create 0 priority
  obtain ⟨hCreated, hPos⟩ := Created.creates rest hFirst
  exact hCreated.started (hPos (hFirstPos hMax)) 0 hSems hQueues

-- ---------------------------------------------------------------------------
-- What a step can do
-- ---------------------------------------------------------------------------

/-- The critical section of a call, branch by branch. -/
inductive CallStep [TaskConfig] (s : System) : Call → System → Exit → List Event → Prop
  | null (c : Call) (hNull : c.isNull = true) : CallStep s c s .returns []
  | semaphoreInit (i : Nat) (n : UInt32) :
      CallStep s (.semaphoreInit (some i) n)
        (s.setSemaphore i (rtoskSemaphoreInit n) s.kernel) .returns []
  | mutexInit (m : Nat) :
      CallStep s (.mutexInit (some m)) (s.setMutex m rtoskMutexInit s.kernel) .returns []
  | queueInit (q : Nat) (buffer : Option (Nat → UInt8)) (itemSize capacity : UInt32) :
      CallStep s (.queueInit (some q) buffer itemSize capacity)
        (s.setQueue q (rtoskQueueInit (s.queues q) buffer itemSize capacity) s.kernel)
        .returns []
  | takeNow (i : Nat) (hPos : 0 < (s.sems i).count) :
      CallStep s (.semaphoreTake (some i))
        (s.setSemaphore i { s.sems i with count := (s.sems i).count - 1 } (s.kernel.bracket id))
        .returns [.took s.kernel.currentTask i]
  | takeBlock (i : Nat) (hZero : ¬ 0 < (s.sems i).count) :
      CallStep s (.semaphoreTake (some i))
        (s.setSemaphore i { s.sems i with waitingTask := s.kernel.currentTask }
          (s.kernel.bracket rtoskTaskBlockCurrentOnSemaphore))
        .yields []
  | giveWake (i : Nat) (hWaiter : (s.sems i).waitingTask ≠ rtoskSemaphoreNoWaiter) :
      CallStep s (.semaphoreGive (some i))
        (s.setSemaphore i { s.sems i with waitingTask := rtoskSemaphoreNoWaiter }
          (s.kernel.bracket (rtoskTaskSetReady (s.sems i).waitingTask)))
        .yields
        [.gave i (s.sems i) { s.sems i with waitingTask := rtoskSemaphoreNoWaiter }]
  | giveStore (i : Nat) (hNone : ¬ (s.sems i).waitingTask ≠ rtoskSemaphoreNoWaiter) :
      CallStep s (.semaphoreGive (some i))
        (s.setSemaphore i { s.sems i with count := 1 } (s.kernel.bracket id)) .yields
        [.gave i (s.sems i) { s.sems i with count := 1 }]
  | lockFree (m : Nat) (hFree : (s.mutexes m).owner = rtoskMutexNoOwner) :
      CallStep s (.mutexLock (some m))
        (s.setMutex m { s.mutexes m with owner := s.kernel.currentTask } (s.kernel.bracket id))
        .returns [.locked s.kernel.currentTask m]
  | lockOwn (m : Nat) (hOwned : (s.mutexes m).owner ≠ rtoskMutexNoOwner)
      (hOwn : (s.mutexes m).owner = s.kernel.currentTask) :
      CallStep s (.mutexLock (some m)) (s.setMutex m (s.mutexes m) (s.kernel.bracket id))
        .returns [.locked s.kernel.currentTask m]
  | lockBlock (m : Nat) (hOwned : (s.mutexes m).owner ≠ rtoskMutexNoOwner)
      (hOther : (s.mutexes m).owner ≠ s.kernel.currentTask) :
      CallStep s (.mutexLock (some m))
        (s.setMutex m { s.mutexes m with waitingTask := s.kernel.currentTask }
          (s.kernel.bracket rtoskTaskBlockCurrentOnMutex))
        .yields []
  | unlockStray (m : Nat) (hOther : (s.mutexes m).owner ≠ s.kernel.currentTask) :
      CallStep s (.mutexUnlock (some m)) (s.setMutex m (s.mutexes m) (s.kernel.bracket id))
        .returns [.unlocked s.kernel.currentTask m]
  | unlockWake (m : Nat) (hOwn : (s.mutexes m).owner = s.kernel.currentTask)
      (hWaiter : (s.mutexes m).waitingTask ≠ rtoskMutexNoWaiter) :
      CallStep s (.mutexUnlock (some m))
        (s.setMutex m { owner := rtoskMutexNoOwner, waitingTask := rtoskMutexNoWaiter }
          (s.kernel.bracket (rtoskTaskSetReady (s.mutexes m).waitingTask)))
        .yields [.unlocked s.kernel.currentTask m]
  | unlockNone (m : Nat) (hOwn : (s.mutexes m).owner = s.kernel.currentTask)
      (hNone : ¬ (s.mutexes m).waitingTask ≠ rtoskMutexNoWaiter) :
      CallStep s (.mutexUnlock (some m))
        (s.setMutex m { s.mutexes m with owner := rtoskMutexNoOwner } (s.kernel.bracket id))
        .yields [.unlocked s.kernel.currentTask m]
  | sendFull (q : Nat) (item : Nat → UInt8)
      (hFull : (s.queues q).capacity ≤ (s.queues q).count) :
      CallStep s (.queueSend (some q) (some item))
        (s.setQueue q (s.queues q) (s.kernel.bracket id)) .returns []
  | sendWake (q : Nat) (item : Nat → UInt8)
      (hRoom : ¬ (s.queues q).capacity ≤ (s.queues q).count)
      (hWaiter : (s.queues q).waitingTask ≠ rtoskQueueNoWaiter) :
      CallStep s (.queueSend (some q) (some item))
        (s.setQueue q { (s.queues q).pushItem item with waitingTask := rtoskQueueNoWaiter }
          (s.kernel.bracket (rtoskTaskSetReady (s.queues q).waitingTask)))
        .yields [.sent q (RingBuffer.item item (s.queues q).itemSize.toNat)]
  | sendNone (q : Nat) (item : Nat → UInt8)
      (hRoom : ¬ (s.queues q).capacity ≤ (s.queues q).count)
      (hNone : ¬ (s.queues q).waitingTask ≠ rtoskQueueNoWaiter) :
      CallStep s (.queueSend (some q) (some item))
        (s.setQueue q ((s.queues q).pushItem item) (s.kernel.bracket id)) .yields
        [.sent q (RingBuffer.item item (s.queues q).itemSize.toNat)]
  | receiveNow (q : Nat) (item : Nat → UInt8) (hSome : 0 < (s.queues q).count) :
      CallStep s (.queueReceive (some q) (some item))
        (s.setQueue q ((s.queues q).popItem item).1 (s.kernel.bracket id)) .returns
        [.receiving s.kernel.currentTask q,
          .received s.kernel.currentTask q
            (RingBuffer.item ((s.queues q).popItem item).2 (s.queues q).itemSize.toNat)]
  | receiveBlock (q : Nat) (item : Nat → UInt8) (hEmpty : ¬ 0 < (s.queues q).count) :
      CallStep s (.queueReceive (some q) (some item))
        (s.setQueue q { s.queues q with waitingTask := s.kernel.currentTask }
          (s.kernel.bracket rtoskTaskBlockCurrentOnQueue))
        .yields [.receiving s.kernel.currentTask q]
  | sleepMs (ms : UInt32) :
      CallStep s (.sleepMs ms)
        { s with kernel :=
            s.kernel.bracket (rtoskTaskBlockCurrentUntil (s.kernel.systicks + ms)) }
        .yields []
  | yield : CallStep s .yield s .yields []
  | enterCritical :
      CallStep s .enterCritical { s with kernel := rtoskKernelEnterCritical s.kernel } .returns []
  | exitCritical :
      CallStep s .exitCritical { s with kernel := rtoskKernelExitCritical s.kernel } .returns []

/-- **`CallStep` is complete**: `enter` does nothing else. -/
theorem enter_callStep [TaskConfig] (c : Call) (s : System) :
    CallStep s c (s.enter c).1 (s.enter c).2.1 (s.enter c).2.2 := by
  match c with
  | .semaphoreInit (some i) n => exact .semaphoreInit i n
  | .semaphoreTake (some i) =>
    by_cases hPos : 0 < (s.sems i).count
    · simp only [enter, semaphoreTake_pos hPos]
      exact .takeNow i hPos
    · simp only [enter, semaphoreTake_zero hPos]
      exact .takeBlock i hPos
  | .semaphoreGive (some i) =>
    by_cases hWaiter : (s.sems i).waitingTask ≠ rtoskSemaphoreNoWaiter
    · simp only [enter, semaphoreGive_waiter hWaiter]
      exact .giveWake i hWaiter
    · simp only [enter, semaphoreGive_none hWaiter]
      exact .giveStore i hWaiter
  | .mutexInit (some m) => exact .mutexInit m
  | .mutexLock (some m) =>
    by_cases hFree : (s.mutexes m).owner = rtoskMutexNoOwner
    · simp only [enter, mutexLock_free hFree]
      exact .lockFree m hFree
    · by_cases hOwn : (s.mutexes m).owner = s.kernel.currentTask
      · simp only [enter, mutexLock_own hFree hOwn]
        exact .lockOwn m hFree hOwn
      · simp only [enter, mutexLock_block hFree hOwn]
        exact .lockBlock m hFree hOwn
  | .mutexUnlock (some m) =>
    by_cases hOwn : (s.mutexes m).owner = s.kernel.currentTask
    · by_cases hWaiter : (s.mutexes m).waitingTask ≠ rtoskMutexNoWaiter
      · simp only [enter, mutexUnlock_waiter hOwn hWaiter]
        exact .unlockWake m hOwn hWaiter
      · simp only [enter, mutexUnlock_none hOwn hWaiter]
        exact .unlockNone m hOwn hWaiter
    · simp only [enter, mutexUnlock_stray hOwn]
      exact .unlockStray m hOwn
  | .queueInit (some q) buffer itemSize capacity => exact .queueInit q buffer itemSize capacity
  | .queueSend (some q) (some item) =>
    by_cases hFull : (s.queues q).capacity ≤ (s.queues q).count
    · simp only [enter, queueSend_full hFull]
      exact .sendFull q item hFull
    · by_cases hWaiter : (s.queues q).waitingTask ≠ rtoskQueueNoWaiter
      · simp only [enter, queueSend_waiter hFull hWaiter]
        exact .sendWake q item hFull hWaiter
      · simp only [enter, queueSend_none hFull hWaiter]
        exact .sendNone q item hFull hWaiter
  | .queueReceive (some q) (some item) =>
    by_cases hSome : 0 < (s.queues q).count
    · simp only [enter, queueReceive_pos hSome]
      exact .receiveNow q item hSome
    · simp only [enter, queueReceive_zero hSome]
      exact .receiveBlock q item hSome
  | .sleepMs ms =>
    simp only [enter, rtoskKernelSleepMs_eq]
    exact .sleepMs ms
  | .yield => exact .yield
  | .enterCritical => exact .enterCritical
  | .exitCritical => exact .exitCritical
  | .semaphoreInit none _ | .semaphoreTake none | .semaphoreGive none | .mutexInit none
  | .mutexLock none | .mutexUnlock none | .queueInit none _ _ _ | .queueSend none _
  | .queueSend (some _) none | .queueReceive none _ | .queueReceive (some _) none =>
    exact .null _ rfl

/-- The body of an interrupt handler, branch by branch. -/
inductive IsrStep (s : System) : Label → System → List Event → Prop
  | giveNull : IsrStep s (.semaphoreGiveFromIsr none) s []
  | giveWake (i : Nat) (hWaiter : (s.sems i).waitingTask ≠ rtoskSemaphoreNoWaiter) :
      IsrStep s (.semaphoreGiveFromIsr (some i))
        (s.setSemaphore i { s.sems i with waitingTask := rtoskSemaphoreNoWaiter }
          (rtoskPortYield (s.kernel.onTable (rtoskTaskSetReady (s.sems i).waitingTask))))
        [.gave i (s.sems i) { s.sems i with waitingTask := rtoskSemaphoreNoWaiter }]
  | giveStore (i : Nat) (hNone : ¬ (s.sems i).waitingTask ≠ rtoskSemaphoreNoWaiter) :
      IsrStep s (.semaphoreGiveFromIsr (some i))
        (s.setSemaphore i { s.sems i with count := 1 } s.kernel)
        [.gave i (s.sems i) { s.sems i with count := 1 }]
  | sendNull (queue : Option Nat) (item : Option (Nat → UInt8)) :
      IsrStep s (.queueSendFromIsr queue item) s []
  | sendFull (q : Nat) (item : Nat → UInt8)
      (hFull : (s.queues q).capacity ≤ (s.queues q).count) :
      IsrStep s (.queueSendFromIsr (some q) (some item)) (s.setQueue q (s.queues q) s.kernel) []
  | sendWake (q : Nat) (item : Nat → UInt8)
      (hRoom : ¬ (s.queues q).capacity ≤ (s.queues q).count)
      (hWaiter : (s.queues q).waitingTask ≠ rtoskQueueNoWaiter) :
      IsrStep s (.queueSendFromIsr (some q) (some item))
        (s.setQueue q { (s.queues q).pushItem item with waitingTask := rtoskQueueNoWaiter }
          (rtoskPortYield (s.kernel.onTable (rtoskTaskSetReady (s.queues q).waitingTask))))
        [.sent q (RingBuffer.item item (s.queues q).itemSize.toNat)]
  | sendNone (q : Nat) (item : Nat → UInt8)
      (hRoom : ¬ (s.queues q).capacity ≤ (s.queues q).count)
      (hNone : ¬ (s.queues q).waitingTask ≠ rtoskQueueNoWaiter) :
      IsrStep s (.queueSendFromIsr (some q) (some item))
        (s.setQueue q ((s.queues q).pushItem item) s.kernel)
        [.sent q (RingBuffer.item item (s.queues q).itemSize.toNat)]
  | tick : IsrStep s .tick { s with kernel := rtoskKernelTick s.kernel } []

theorem giveFromIsr_isrStep (sem : Option Nat) (s : System) :
    IsrStep s (.semaphoreGiveFromIsr sem) (s.giveFromIsr sem).1 (s.giveFromIsr sem).2 := by
  cases sem with
  | none => exact .giveNull
  | some i =>
    by_cases hWaiter : (s.sems i).waitingTask ≠ rtoskSemaphoreNoWaiter
    · simp only [giveFromIsr, rtoskSemaphoreGiveFromIsr, if_pos hWaiter]
      exact .giveWake i hWaiter
    · simp only [giveFromIsr, rtoskSemaphoreGiveFromIsr, if_neg hWaiter]
      exact .giveStore i hWaiter

theorem sendFromIsr_isrStep (queue : Option Nat) (item : Option (Nat → UInt8)) (s : System) :
    IsrStep s (.queueSendFromIsr queue item) (s.sendFromIsr queue item).1
      (s.sendFromIsr queue item).2 := by
  match queue, item with
  | none, _ | some _, none => exact .sendNull _ _
  | some q, some item =>
    by_cases hFull : (s.queues q).capacity ≤ (s.queues q).count
    · simp only [sendFromIsr, rtoskQueueSendFromIsr, if_pos hFull]
      exact .sendFull q item hFull
    · by_cases hWaiter : (s.queues q).waitingTask ≠ rtoskQueueNoWaiter
      · simp only [sendFromIsr, queueSendFromIsr_waiter hFull hWaiter]
        exact .sendWake q item hFull hWaiter
      · simp only [sendFromIsr, queueSendFromIsr_none hFull hWaiter]
        exact .sendNone q item hFull hWaiter

/-- The label makes the current task perform a critical section of `c`: the
first one, or the next round of a loop. -/
def Performs (s : System) (l : Label) (c : Call) : Prop :=
  (l = .call c ∧ s.pc s.kernel.currentTask = .user) ∨
    (l = .resume ∧ s.pc s.kernel.currentTask = .yielded c ∧ c.retries = true)

theorem Performs.not_leaving {s : System} {l : Label} {c : Call} (h : Performs s l c) :
    (s.pc s.kernel.currentTask).isLeaving = false := by
  rcases h with ⟨-, hPc⟩ | ⟨-, hPc, -⟩
  · rw [hPc]
    rfl
  · rw [hPc]
    rfl

theorem Performs.initialises {s : System} {l : Label} {c : Call} (h : Performs s l c) {o : Obj}
    (hInit : l.initialises ≠ some o) : (Label.call c).initialises ≠ some o := by
  rcases h with ⟨rfl, -⟩ | ⟨-, -, hRetries⟩
  · exact hInit
  · cases c with
    | mutexLock _ | queueReceive _ _ => nofun
    | _ => cases hRetries

/-- The steps of the system. -/
inductive StepCase [TaskConfig] (s : System) : Label → System → List Event → Prop
  | perform {l : Label} {c : Call} {s' : System} {exit : Exit} {es : List Event}
      (hThread : s.Thread) (hAt : Performs s l c) (hCall : CallStep s c s' exit es) :
      StepCase s l (s'.setPc s.kernel.currentTask (exit.pc c)) es
  | yield {c : Call} (hThread : s.Thread) (hPc : s.pc s.kernel.currentTask = .leaving c) :
      StepCase s .yield
        ({ s with kernel := rtoskKernelYield s.kernel }.setPc s.kernel.currentTask (.yielded c))
        []
  | resume {c : Call} (hThread : s.Thread) (hPc : s.pc s.kernel.currentTask = .yielded c)
      (hOnce : c.retries = false) :
      StepCase s .resume (s.setPc s.kernel.currentTask .user) []
  | isr {l : Label} {s' : System} {es : List Event} (hUnmasked : s.kernel.Unmasked)
      (hIsr : IsrStep s l s' es) : StepCase s l s' es
  | pendSvEmpty (hScan : s.scan = none) (hPend : s.kernel.pendSv = true)
      (hUnmasked : s.kernel.Unmasked) (hBegin : selectNextBegin s.kernel.toTaskTable = none) :
      StepCase s .pendSv { s with kernel := { s.kernel with pendSv := false } }
        [.switched s.kernel.currentTask]
  | pendSv {c : Scan} (hScan : s.scan = none) (hPend : s.kernel.pendSv = true)
      (hUnmasked : s.kernel.Unmasked) (hBegin : selectNextBegin s.kernel.toTaskTable = some c) :
      StepCase s .pendSv { s with kernel := { s.kernel with pendSv := false }, scan := some c } []
  | scan {c : Scan} (hScan : s.scan = some c) (hMore : c.offset < c.taskCount) :
      StepCase s .scan { s with scan := some (selectNextRound s.kernel.toTaskTable c) } []
  | pendSvExit {c : Scan} (hScan : s.scan = some c) (hDone : ¬ c.offset < c.taskCount) :
      StepCase s .pendSvExit
        { s with kernel := s.kernel.onTable (selectNextEnd c), scan := none }
        [.switched (selectNextEnd c s.kernel.toTaskTable).currentTask]

/-- **`StepCase` is complete.** -/
theorem step_cases [TaskConfig] {s s' : System} {l : Label} {es : List Event}
    (h : s.step l = some (s', es)) : StepCase s l s' es := by
  cases l with
  | call c =>
    simp only [step] at h
    split at h
    · rename_i hPc
      split at h
      · rename_i hThread
        cases h
        exact .perform hThread (Or.inl ⟨rfl, hPc⟩) (enter_callStep c s)
      · cases h
    · cases h
  | yield =>
    simp only [step] at h
    split at h
    · rename_i c hPc
      split at h
      · rename_i hThread
        cases h
        exact .yield hThread hPc
      · cases h
    · cases h
  | resume =>
    simp only [step] at h
    split at h
    · rename_i c hPc
      split at h
      · rename_i hThread
        split at h
        · rename_i hRetries
          cases h
          exact .perform hThread (Or.inr ⟨rfl, hPc, hRetries⟩) (enter_callStep c s)
        · rename_i hOnce
          cases h
          exact .resume hThread hPc (Bool.eq_false_iff.mpr hOnce)
      · cases h
    · cases h
  | semaphoreGiveFromIsr sem =>
    simp only [step] at h
    split at h
    · rename_i hUnmasked
      have hIsr := giveFromIsr_isrStep sem s
      rw [Option.some.inj h] at hIsr
      exact .isr hUnmasked hIsr
    · cases h
  | queueSendFromIsr queue item =>
    simp only [step] at h
    split at h
    · rename_i hUnmasked
      have hIsr := sendFromIsr_isrStep queue item s
      rw [Option.some.inj h] at hIsr
      exact .isr hUnmasked hIsr
    · cases h
  | tick =>
    simp only [step] at h
    split at h
    · rename_i hUnmasked
      cases h
      exact .isr hUnmasked .tick
    · cases h
  | pendSv =>
    simp only [step] at h
    split at h
    · rename_i hOn
      obtain ⟨hScan, hPend, hUnmasked⟩ := hOn
      split at h
      · rename_i hBegin
        cases h
        exact .pendSvEmpty hScan hPend hUnmasked hBegin
      · rename_i c hBegin
        cases h
        exact .pendSv hScan hPend hUnmasked hBegin
    · cases h
  | scan =>
    simp only [step] at h
    split at h
    · cases h
    · rename_i c hScan
      split at h
      · rename_i hMore
        cases h
        exact .scan hScan hMore
      · cases h
  | pendSvExit =>
    simp only [step] at h
    split at h
    · cases h
    · rename_i c hScan
      split at h
      · cases h
      · rename_i hDone
        cases h
        exact .pendSvExit hScan hDone

-- ---------------------------------------------------------------------------
-- Frames
-- ---------------------------------------------------------------------------

@[simp] theorem setSemaphore_kernel (i : Nat) (sem : Semaphore) (k : Kernel) (s : System) :
    (s.setSemaphore i sem k).kernel = k := rfl
@[simp] theorem setSemaphore_pc (i : Nat) (sem : Semaphore) (k : Kernel) (s : System) :
    (s.setSemaphore i sem k).pc = s.pc := rfl
@[simp] theorem setSemaphore_scan (i : Nat) (sem : Semaphore) (k : Kernel) (s : System) :
    (s.setSemaphore i sem k).scan = s.scan := rfl
@[simp] theorem setMutex_kernel (m : Nat) (mutex : Mutex) (k : Kernel) (s : System) :
    (s.setMutex m mutex k).kernel = k := rfl
@[simp] theorem setMutex_pc (m : Nat) (mutex : Mutex) (k : Kernel) (s : System) :
    (s.setMutex m mutex k).pc = s.pc := rfl
@[simp] theorem setMutex_scan (m : Nat) (mutex : Mutex) (k : Kernel) (s : System) :
    (s.setMutex m mutex k).scan = s.scan := rfl
@[simp] theorem setQueue_kernel (q : Nat) (queue : Queue) (k : Kernel) (s : System) :
    (s.setQueue q queue k).kernel = k := rfl
@[simp] theorem setQueue_pc (q : Nat) (queue : Queue) (k : Kernel) (s : System) :
    (s.setQueue q queue k).pc = s.pc := rfl
@[simp] theorem setQueue_scan (q : Nat) (queue : Queue) (k : Kernel) (s : System) :
    (s.setQueue q queue k).scan = s.scan := rfl
@[simp] theorem setPc_kernel (t : Nat) (pc : Pc) (s : System) :
    (s.setPc t pc).kernel = s.kernel := rfl
@[simp] theorem setPc_scan (t : Nat) (pc : Pc) (s : System) : (s.setPc t pc).scan = s.scan := rfl
@[simp] theorem setPc_sems (t : Nat) (pc : Pc) (s : System) : (s.setPc t pc).sems = s.sems := rfl
@[simp] theorem setPc_mutexes (t : Nat) (pc : Pc) (s : System) :
    (s.setPc t pc).mutexes = s.mutexes := rfl
@[simp] theorem setPc_queues (t : Nat) (pc : Pc) (s : System) :
    (s.setPc t pc).queues = s.queues := rfl

/-- What was set up before the start and is left alone since, by all but the
creation of further tasks and the context switch. -/
structure SameSetup (k k' : Kernel) : Prop where
  taskCount  : k'.taskCount = k.taskCount
  idleReady  : k'.idleReady = k.idleReady
  kernelInit : k'.kernelInit = k.kernelInit
  priority   : ∀ j, (k'.tasks j).priority = (k.tasks j).priority
  sp         : ∀ j, (k'.tasks j).sp = (k.tasks j).sp

theorem SameSetup.of_table {k k' : Kernel} (hTable : k'.toTaskTable = k.toTaskTable)
    (hInit : k'.kernelInit = k.kernelInit) : SameSetup k k' :=
  ⟨by rw [hTable], by rw [hTable], hInit, fun _ => by rw [hTable], fun _ => by rw [hTable]⟩

end System

@[simp] theorem rtoskKernelTick_currentTask (k : Kernel) :
    (rtoskKernelTick k).currentTask = k.currentTask := by
  simp only [rtoskKernelTick]
  split <;> simp

@[simp] theorem rtoskKernelTick_primask (k : Kernel) :
    (rtoskKernelTick k).primask = k.primask := by
  simp only [rtoskKernelTick]
  split <;> rfl

@[simp] theorem rtoskKernelTick_criticalNesting (k : Kernel) :
    (rtoskKernelTick k).criticalNesting = k.criticalNesting := by
  simp only [rtoskKernelTick]
  split <;> rfl

theorem rtoskKernelTick_setup (k : Kernel) : System.SameSetup k (rtoskKernelTick k) := by
  simp only [rtoskKernelTick]
  split
  · exact ⟨rfl, rfl, rfl, fun _ => rfl, fun _ => rfl⟩
  · exact ⟨by simp, by simp, rfl, fun _ => by simp, fun _ => by simp⟩

/-- Before the start the tick only counts; after it, it requests a switch. -/
theorem rtoskKernelTick_pend (k : Kernel) :
    (rtoskKernelTick k).pendSv = true ∨
      (rtoskKernelTick k).toTaskTable = k.toTaskTable ∧ (rtoskKernelTick k).pendSv = k.pendSv := by
  simp only [rtoskKernelTick]
  split
  · exact Or.inr ⟨rfl, rfl⟩
  · exact Or.inl rfl

namespace System

variable {s s' : System} {c : Call} {l : Label} {exit : Exit} {es : List Event}

section Calls

variable [TaskConfig]

/-- A call switches nobody and leaves other tasks where they are. -/
theorem CallStep.frame (h : CallStep s c s' exit es) :
    s'.pc = s.pc ∧ s'.scan = s.scan ∧ s'.kernel.currentTask = s.kernel.currentTask ∧
      s'.kernel.pendSv = s.kernel.pendSv := by
  cases h <;> simp

theorem CallStep.setup (h : CallStep s c s' exit es) : SameSetup s.kernel s'.kernel := by
  cases h <;> exact ⟨by simp, by simp, by simp, fun _ => by simp, fun _ => by simp⟩

/-- Calls keep to the bracket discipline. -/
theorem CallStep.maskInv (h : CallStep s c s' exit es) (hMask : s.kernel.MaskInv) :
    s'.kernel.MaskInv := by
  cases h with
  | null | semaphoreInit | mutexInit | queueInit | yield => exact hMask
  | enterCritical => exact enterCritical_maskInv _
  | exitCritical => exact exitCritical_maskInv hMask
  | _ => exact bracket_maskInv _ _

/-- A call that yields leaves PRIMASK as it found it, if that was clear. -/
theorem CallStep.unmasked_of_yields (h : CallStep s c s' .yields es) (hOpen : s.kernel.Open) :
    s'.kernel.Unmasked := by
  cases h with
  | yield => exact hOpen.unmasked
  | _ => exact (bracket_open hOpen _).unmasked

/-- **A call that returns without yielding changes no task.** -/
theorem CallStep.table_of_returns (h : CallStep s c s' .returns es) :
    s'.kernel.toTaskTable = s.kernel.toTaskTable := by
  cases h <;> simp

end Calls

theorem IsrStep.frame (h : IsrStep s l s' es) :
    s'.pc = s.pc ∧ s'.scan = s.scan ∧ s'.kernel.currentTask = s.kernel.currentTask ∧
      s'.kernel.primask = s.kernel.primask ∧
      s'.kernel.criticalNesting = s.kernel.criticalNesting := by
  cases h <;> simp

theorem IsrStep.setup (h : IsrStep s l s' es) : SameSetup s.kernel s'.kernel := by
  cases h with
  | tick => exact rtoskKernelTick_setup s.kernel
  | giveNull | giveStore | sendNull | sendFull | sendNone => exact .of_table rfl rfl
  | giveWake | sendWake => exact ⟨by simp, by simp, by simp, fun _ => by simp, fun _ => by simp⟩

/-- **An interrupt handler that changes a task requests a switch.** -/
theorem IsrStep.pend (h : IsrStep s l s' es) :
    s'.kernel.pendSv = true ∨
      s'.kernel.toTaskTable = s.kernel.toTaskTable ∧ s'.kernel.pendSv = s.kernel.pendSv := by
  cases h with
  | tick => exact rtoskKernelTick_pend s.kernel
  | giveNull | giveStore | sendNull | sendFull | sendNone => exact Or.inr ⟨rfl, rfl⟩
  | giveWake | sendWake => exact Or.inl rfl

/-- Interrupt handlers block nobody. -/
theorem IsrStep.ready_mono (h : IsrStep s l s' es) {j : Nat}
    (hReady : (s.kernel.tasks j).state = .ready) : (s'.kernel.tasks j).state = .ready := by
  cases h with
  | tick =>
    simp only [rtoskKernelTick]
    split
    · exact hReady
    · simp only [rtoskPortYield_toTaskTable, Kernel.onTable_toTaskTable,
        rtoskTaskUpdateBlocked_tasks]
      split <;> simp [hReady]
  | giveNull | giveStore | sendNull | sendFull | sendNone => exact hReady
  | giveWake | sendWake =>
    simp only [setSemaphore_kernel, setQueue_kernel, rtoskPortYield_toTaskTable,
      Kernel.onTable_toTaskTable, rtoskTaskSetReady_state, hReady, ite_self]

/-- **No step touches the setup.** -/
theorem StepCase.setup [TaskConfig] (h : StepCase s l s' es) : SameSetup s.kernel s'.kernel := by
  cases h with
  | perform _ _ hCall => exact hCall.setup
  | isr _ hIsr => exact hIsr.setup
  | yield | resume | pendSvEmpty | pendSv | scan => exact .of_table rfl rfl
  | @pendSvExit c _ _ =>
    obtain ⟨hCount, hIdle, hTasks⟩ := selectNextEnd_keeps c s.kernel.toTaskTable
    exact ⟨hCount, hIdle, rfl, fun j => by simp [hTasks], fun j => by simp [hTasks]⟩

section PendSv

variable [TaskConfig]

/-- PendSV begins with the scan, or is through with it on an empty table. -/
theorem StepCase.of_pendSv (h : StepCase s .pendSv s' es) :
    s.scan = none ∧ s' = { s with
      kernel := { s.kernel with pendSv := false }
      scan := selectNextBegin s.kernel.toTaskTable } := by
  cases h with
  | perform _ hAt _ => rcases hAt with ⟨hLabel, -⟩ | ⟨hLabel, -⟩ <;> cases hLabel
  | isr _ hIsr => cases hIsr
  | pendSvEmpty hScan _ _ hBegin => exact ⟨hScan, by rw [hBegin, ← hScan]⟩
  | pendSv hScan _ _ hBegin => exact ⟨hScan, by rw [hBegin]⟩

theorem StepCase.of_pendSvExit (h : StepCase s .pendSvExit s' es) :
    ∃ c, s.scan = some c ∧ ¬ c.offset < c.taskCount ∧
      s' = { s with kernel := s.kernel.onTable (selectNextEnd c), scan := none } := by
  cases h with
  | perform _ hAt _ => rcases hAt with ⟨hLabel, -⟩ | ⟨hLabel, -⟩ <;> cases hLabel
  | isr _ hIsr => cases hIsr
  | pendSvExit hScan hDone => exact ⟨_, hScan, hDone, rfl⟩

/-- Only PendSV's entry and exit switch tasks. -/
theorem StepCase.of_other (h : StepCase s l s' es) (hEnter : l ≠ .pendSv)
    (hExit : l ≠ .pendSvExit) :
    s'.kernel.currentTask = s.kernel.currentTask ∧ (s'.scan = none ↔ s.scan = none) := by
  cases h with
  | perform _ _ hCall =>
    obtain ⟨-, hScan, hCur, -⟩ := hCall.frame
    exact ⟨hCur, by rw [setPc_scan, hScan]⟩
  | isr _ hIsr =>
    obtain ⟨-, hScan, hCur, -⟩ := hIsr.frame
    exact ⟨hCur, by rw [hScan]⟩
  | yield | resume => exact ⟨rfl, Iff.rfl⟩
  | scan hScan _ => exact ⟨rfl, by simp [hScan]⟩
  | pendSvEmpty | pendSv => exact absurd rfl hEnter
  | pendSvExit => exact absurd rfl hExit

end PendSv

end System

end TinyRtos
