import TinyRtos.Kernel.Waiting

/-!
# TinyRTOS — control invariants and the simulation of the waiting slots

In runs whose calls are made with interrupts unmasked:

* `Control` — a task that is not READY is in a call that blocks, and in the
  blocked state of that call; a current task that is not READY is about to be
  switched out; PRIMASK is set only inside a task's own critical sections;
* `Objects` — a registered waiter is a user task, and the resource it waits
  for is unavailable.

`Control.step_move` is the simulation: every step of such a system is a
`WaitSlots.Move` of its view `abs`, so `WaitSlots.Sound` holds along its runs
(`Registry`).
-/

namespace TinyRtos

variable [TaskConfig] {s s' : System} {l : Label} {c : Call} {exit : Exit} {es : List Event}

namespace System

/-- The control invariant. -/
structure Control (s : System) : Prop where
  dispatching : Dispatching s
  maskInv : s.kernel.MaskInv
  masked  : ¬ s.kernel.Unmasked → s.scan = none ∧ s.pc s.kernel.currentTask = .user
  place   : ∀ t < s.kernel.taskCount, (s.kernel.tasks t).state ≠ .ready →
    ∃ c, (s.pc t).call = some c ∧ c.blockedState = some (s.kernel.tasks t).state
  current : s.scan = none → s.kernel.currentTask < s.kernel.taskCount →
    (s.kernel.tasks s.kernel.currentTask).state ≠ .ready →
    (s.pc s.kernel.currentTask).isLeaving = true ∨ s.kernel.pendSv = true

/-- At the start every task is READY and in no call. -/
theorem Started.control (h : Started s) : Control s where
  dispatching := h.dispatching
  maskInv := fun _ => h.isOpen.nesting
  masked := fun hMasked => absurd h.isOpen.unmasked hMasked
  place := fun t ht hNot => absurd (h.ready t ht) hNot
  current := fun _ hUser hNot => absurd (h.ready _ hUser) hNot

/-- **The code that runs is the code of a READY task**, but for the way out of
a call. -/
theorem Control.ready_of_thread (h : Control s) (hThread : s.Thread)
    (hPc : (s.pc s.kernel.currentTask).isLeaving = false) :
    (s.kernel.tasks s.kernel.currentTask).state = .ready := by
  obtain ⟨hScan, hUser, hQuiet⟩ := hThread
  by_contra hNot
  rcases h.current hScan hUser hNot with hLeaving | hPend
  · rw [hPc] at hLeaving
    cases hLeaving
  · -- a pending switch is delayed by PRIMASK only, but then the task is in no call
    have hMasked : ¬ s.kernel.Unmasked := fun hU => hQuiet ⟨hPend, hU⟩
    obtain ⟨c, hc, -⟩ := h.place _ hUser hNot
    rw [(h.masked hMasked).2] at hc
    cases hc

/-- A call that blocks or wakes is performed with interrupts unmasked. -/
theorem Control.open_of_at (h : Control s) (hGuard : CallsUnmasked s l)
    (hAt : Performs s l c)
    (hCall : c.isCritical = false) : s.kernel.Open := by
  refine h.maskInv.isOpen ?_
  rcases hAt with ⟨rfl, -⟩ | ⟨-, hPc, -⟩
  · refine hGuard.2.resolve_left ?_
    rw [hCall]
    nofun
  · by_contra hMasked
    have := (h.masked hMasked).2
    rw [hPc] at this
    cases this

omit [TaskConfig] in
/-- Neither a call nor a further round of one initialises anything. -/
theorem isInit_of_at (hGuard : CallsUnmasked s l) (hAt : Performs s l c) :
    c.isInit = false := by
  rcases hAt with ⟨rfl, -⟩ | ⟨-, -, hRetries⟩
  · exact hGuard.1
  · cases c <;> first | rfl | cases hRetries

/-- Only a call with a section of its own ends in a yield. -/
theorem CallStep.isCritical_of_yields (h : CallStep s c s' .yields es) :
    c.isCritical = false := by
  cases h <;> rfl

-- ---------------------------------------------------------------------------
-- One step
-- ---------------------------------------------------------------------------

/-- **The control invariant is kept by critical sections.** -/
theorem Control.perform (h : Control s) (hThread : s.Thread) (hGuard : CallsUnmasked s l)
    (hAt : Performs s l c) (hCall : CallStep s c s' exit es) :
    Control (s'.setPc s.kernel.currentTask (exit.pc c)) := by
  obtain ⟨hPcs, hScan, hCur, hPend⟩ := hCall.frame
  have hReady := h.ready_of_thread hThread hAt.not_leaving
  have hUser : s.kernel.currentTask ≠ rtoskIdleTaskIndex :=
    Nat.ne_of_lt (lt_of_lt_of_le hThread.2.1 h.dispatching.taskCount_le)
  obtain ⟨a, hEffect⟩ := hCall.effect (isInit_of_at hGuard hAt) hUser
  have hPcCur : (s'.setPc s.kernel.currentTask (exit.pc c)).pc s.kernel.currentTask =
      exit.pc c := Function.update_self ..
  have hPcOther : ∀ t, t ≠ s.kernel.currentTask →
      (s'.setPc s.kernel.currentTask (exit.pc c)).pc t = s.pc t := by
    intro t ht
    exact (Function.update_of_ne ht _ _).trans (by rw [hPcs])
  refine ⟨h.dispatching.step (.perform hThread hAt hCall), hCall.maskInv h.maskInv, ?_, ?_, ?_⟩
  · intro hMasked
    refine ⟨hScan.trans hThread.1, ?_⟩
    rw [setPc_kernel, hCur, hPcCur]
    cases exit with
    | returns => rfl
    | yields =>
      have hOpen := h.open_of_at hGuard hAt hCall.isCritical_of_yields
      exact absurd (hCall.unmasked_of_yields hOpen) hMasked
  · intro t ht hNot
    rw [setPc_kernel] at ht hNot ⊢
    rw [hCall.setup.taskCount] at ht
    by_cases htCur : t = s.kernel.currentTask
    · subst htCur
      rw [hPcCur]
      cases hEffect with
      | quiet _ hState _ => exact absurd ((hState _).trans hReady) hNot
      | park hWaits _ hState _ =>
        refine ⟨c, rfl, ?_⟩
        rw [hState, if_pos rfl]
        exact Call.blockedState_of_waitsOn hWaits
      | doze hState _ =>
        refine ⟨_, rfl, ?_⟩
        rw [hState, if_pos rfl]
        rfl
      | wake _ _ _ hState _ =>
        rw [hState, hReady, ite_self] at hNot
        exact absurd rfl hNot
    · rw [hPcOther t htCur]
      have hSame : (s'.kernel.tasks t).state = (s.kernel.tasks t).state := by
        cases hEffect with
        | quiet _ hState _ => exact hState t
        | park _ _ hState _ => rw [hState, if_neg htCur]
        | doze hState _ => rw [hState, if_neg htCur]
        | wake _ _ _ hState _ =>
          rw [hState] at hNot ⊢
          split at hNot
          · exact absurd rfl hNot
          · rename_i hOther
            rw [if_neg hOther]
      rw [hSame] at hNot ⊢
      exact h.place t ht hNot
  · intro _ _ hNot
    left
    rw [setPc_kernel, hCur] at hNot ⊢
    rw [hPcCur]
    cases exit with
    | yields => rfl
    | returns =>
      rw [hCall.table_of_returns] at hNot
      exact absurd hReady hNot

/-- A handler wakes tasks and pends, and leaves the rest as it is. -/
theorem Control.isr (h : Control s) (hUnmasked : s.kernel.Unmasked) (hIsr : IsrStep s l s' es) :
    Control s' := by
  obtain ⟨hPcs, hScan, hCur, hPrimask, hNesting⟩ := hIsr.frame
  have hUnmasked' : s'.kernel.Unmasked := by
    unfold Kernel.Unmasked
    rw [hPrimask]
    exact hUnmasked
  obtain ⟨a, hEffect⟩ := hIsr.effect
  refine ⟨h.dispatching.isr hIsr, ?_, fun hMasked => absurd hUnmasked' hMasked, ?_, ?_⟩
  · intro _
    rw [hNesting]
    exact h.maskInv hUnmasked
  · intro t ht hNot
    have hBefore : (s.kernel.tasks t).state ≠ .ready := fun hReady => hNot (hIsr.ready_mono hReady)
    have hSame : (s'.kernel.tasks t).state = (s.kernel.tasks t).state := by
      cases hEffect with
      | quiet hState _ => exact hState t
      | wake _ _ hState _ | tick hState _ =>
        rw [hState] at hNot ⊢
        split at hNot
        · exact absurd rfl hNot
        · rename_i hOther
          rw [if_neg hOther]
    rw [hPcs, hSame]
    exact h.place t (hIsr.setup.taskCount ▸ ht) hBefore
  · intro hNone hLt hNot
    rw [hCur] at hLt hNot ⊢
    rw [hPcs]
    have hBefore := h.current (hScan ▸ hNone) (hIsr.setup.taskCount ▸ hLt)
      fun hReady => hNot (hIsr.ready_mono hReady)
    rcases hIsr.pend with hPend | ⟨-, hPend⟩
    · exact Or.inr hPend
    · rw [hPend]
      exact hBefore

/-- **The control invariant is kept by every step.** -/
theorem Control.step (h : Control s) (hGuard : CallsUnmasked s l)
    (hStep : StepCase s l s' es) : Control s' := by
  have hDispatching := h.dispatching.step hStep
  cases hStep with
  | perform hThread hAt hCall => exact h.perform hThread hGuard hAt hCall
  | isr hUnmasked hIsr => exact h.isr hUnmasked hIsr
  | @yield c hThread hPc =>
    refine ⟨hDispatching, h.maskInv, ?_, ?_,
      fun _ _ _ => Or.inr rfl⟩
    · intro hMasked
      have := (h.masked hMasked).2
      rw [hPc] at this
      cases this
    · intro t ht hNot
      obtain ⟨d, hd, hBlocked⟩ := h.place t ht hNot
      exact ⟨d, (call_yielded hPc _ t).trans hd, hBlocked⟩
  | @resume c hThread hPc _ =>
    have hReady := h.ready_of_thread hThread (by rw [hPc]; rfl)
    refine ⟨hDispatching, h.maskInv, fun _ => ⟨hThread.1, Function.update_self ..⟩,
      fun t ht hNot => ?_, fun _ _ hNot => absurd hReady hNot⟩
    have htCur : t ≠ s.kernel.currentTask := by
      rintro rfl
      exact hNot hReady
    simp only [setPc, Function.update_of_ne htCur]
    exact h.place t ht hNot
  | pendSvEmpty hScan _ hUnmasked hBegin =>
    obtain ⟨c, hSome, -⟩ := selectNextBegin_eq h.dispatching.taskCount_pos
    rw [hBegin] at hSome
    cases hSome
  | pendSv _ _ hUnmasked _ =>
    exact ⟨hDispatching, h.maskInv, fun hMasked => absurd hUnmasked hMasked, h.place,
      fun hNone => absurd hNone (Option.some_ne_none _)⟩
  | scan hScan _ =>
    refine ⟨hDispatching, h.maskInv, fun hMasked => ?_, h.place,
      fun hNone => absurd hNone (Option.some_ne_none _)⟩
    have := (h.masked hMasked).1
    rw [hScan] at this
    cases this
  | @pendSvExit c hScan hDone =>
    have hTable := h.dispatching.selects hScan hDone
    refine ⟨hDispatching, h.maskInv, ?_, ?_, ?_⟩
    · intro hMasked
      have := (h.masked hMasked).1
      rw [hScan] at this
      cases this
    · simp only [Kernel.onTable_toTaskTable]
      rcases hTable with ⟨b, hEnd, -⟩ | ⟨hEnd, -⟩
      · rw [hEnd]
        exact h.place
      · rw [hEnd]
        exact h.place
    · intro _ hUser hNot
      simp only [Kernel.onTable_toTaskTable] at hUser hNot
      rcases hTable with ⟨b, hEnd, hReady, -⟩ | ⟨hEnd, -⟩
      · rw [hEnd] at hNot
        exact absurd hReady.2 hNot
      · rw [hEnd] at hUser
        -- idle is no user task
        have hLe := h.dispatching.taskCount_le
        have hLt : rtoskMaxTasks < s.kernel.taskCount := hUser
        omega

-- ---------------------------------------------------------------------------
-- The resources behind the waiters
-- ---------------------------------------------------------------------------

end System

/-- A registered waiter is a user task, and there is nothing to take. -/
def Semaphore.WaitInv (taskCount : Nat) (sem : Semaphore) : Prop :=
  sem.waitingTask ≠ rtoskSemaphoreNoWaiter → sem.waitingTask < taskCount ∧ sem.count = 0

/-- A registered receiver is a user task, and the queue is empty. -/
def Queue.WaitInv (taskCount : Nat) (queue : Queue) : Prop :=
  queue.waitingTask ≠ rtoskQueueNoWaiter → queue.waitingTask < taskCount ∧ queue.count = 0

/-- The owner is a user task; so is a registered waiter, and it is not the owner. -/
def Mutex.WaitInv (taskCount : Nat) (mutex : Mutex) : Prop :=
  (mutex.owner ≠ rtoskMutexNoOwner → mutex.owner < taskCount) ∧
    (mutex.waitingTask ≠ rtoskMutexNoWaiter → mutex.waitingTask < taskCount ∧
      mutex.owner ≠ rtoskMutexNoOwner ∧ mutex.owner ≠ mutex.waitingTask)

namespace System

/-- The objects' own invariants. -/
structure Objects (s : System) : Prop where
  sems    : ∀ i, (s.sems i).WaitInv s.kernel.taskCount
  queues  : ∀ q, (s.queues q).WaitInv s.kernel.taskCount
  mutexes : ∀ m, (s.mutexes m).WaitInv s.kernel.taskCount

section

omit [TaskConfig]

/-- What is done to one semaphore has to be right for that one only. -/
theorem Objects.setSemaphore (h : Objects s) {i : Nat} {sem : Semaphore} {k : Kernel}
    (hCount : k.taskCount = s.kernel.taskCount) (hSem : sem.WaitInv s.kernel.taskCount) :
    Objects (s.setSemaphore i sem k) := by
  refine ⟨?_, ?_, ?_⟩
  · simp only [setSemaphore_kernel, hCount]
    exact (Function.forall_update_iff s.sems fun _ sem => sem.WaitInv s.kernel.taskCount).mpr
      ⟨hSem, fun j _ => h.sems j⟩
  · simp only [setSemaphore_kernel, hCount]
    exact h.queues
  · simp only [setSemaphore_kernel, hCount]
    exact h.mutexes

/-- The same for one queue. -/
theorem Objects.setQueue (h : Objects s) {q : Nat} {queue : Queue} {k : Kernel}
    (hCount : k.taskCount = s.kernel.taskCount) (hQueue : queue.WaitInv s.kernel.taskCount) :
    Objects (s.setQueue q queue k) := by
  refine ⟨?_, ?_, ?_⟩
  · simp only [setQueue_kernel, hCount]
    exact h.sems
  · simp only [setQueue_kernel, hCount]
    exact (Function.forall_update_iff s.queues
      fun _ queue => queue.WaitInv s.kernel.taskCount).mpr ⟨hQueue, fun j _ => h.queues j⟩
  · simp only [setQueue_kernel, hCount]
    exact h.mutexes

/-- The same for one mutex. -/
theorem Objects.setMutex (h : Objects s) {m : Nat} {mutex : Mutex} {k : Kernel}
    (hCount : k.taskCount = s.kernel.taskCount) (hMutex : mutex.WaitInv s.kernel.taskCount) :
    Objects (s.setMutex m mutex k) := by
  refine ⟨?_, ?_, ?_⟩
  · simp only [setMutex_kernel, hCount]
    exact h.sems
  · simp only [setMutex_kernel, hCount]
    exact h.queues
  · simp only [setMutex_kernel, hCount]
    exact (Function.forall_update_iff s.mutexes
      fun _ mutex => mutex.WaitInv s.kernel.taskCount).mpr ⟨hMutex, fun j _ => h.mutexes j⟩

/-- Only the kernel changes. -/
theorem Objects.of_kernel (h : Objects s) (hSems : s'.sems = s.sems)
    (hQueues : s'.queues = s.queues) (hMutexes : s'.mutexes = s.mutexes)
    (hCount : s'.kernel.taskCount = s.kernel.taskCount) : Objects s' := by
  refine ⟨?_, ?_, ?_⟩
  · rw [hSems, hCount]
    exact h.sems
  · rw [hQueues, hCount]
    exact h.queues
  · rw [hMutexes, hCount]
    exact h.mutexes

end

/-- At the start no one is registered. -/
theorem Started.objects (h : Started s) : Objects s where
  sems := fun i hWaiter => absurd (h.sems i) hWaiter
  queues := fun q hWaiter => absurd (h.queues q).1 hWaiter
  mutexes := fun m => by
    rw [h.mutexes m]
    exact ⟨fun hOwner => absurd rfl hOwner, fun hWaiter => absurd rfl hWaiter⟩

/-- A call registers its own task, and only after a test that fails. -/
theorem Objects.call (h : Objects s) (hUser : s.kernel.currentTask < s.kernel.taskCount)
    (hCall : CallStep s c s' exit es) : Objects s' := by
  have hCount := hCall.setup.taskCount
  cases hCall with
  | null | yield => exact h
  | sleepMs | enterCritical | exitCritical => exact h.of_kernel rfl rfl rfl hCount
  | semaphoreInit i n => exact h.setSemaphore hCount fun hWaiter => absurd rfl hWaiter
  | mutexInit m =>
    exact h.setMutex hCount
      ⟨fun hOwner => absurd rfl hOwner, fun hWaiter => absurd rfl hWaiter⟩
  | queueInit q buffer itemSize capacity =>
    refine h.setQueue hCount ?_
    unfold rtoskQueueInit
    split
    · exact h.queues q
    · split
      · exact h.queues q
      · exact fun hWaiter => absurd rfl hWaiter
  | takeNow i hPos =>
    refine h.setSemaphore hCount fun hWaiter => ?_
    have hZero := (h.sems i hWaiter).2
    rw [hZero] at hPos
    exact absurd hPos (by decide)
  | takeBlock i hZero =>
    refine h.setSemaphore hCount fun _ => ⟨hUser, ?_⟩
    exact UInt32.toNat_inj.mp (Nat.eq_zero_of_not_pos hZero)
  | giveWake i _ => exact h.setSemaphore hCount fun hWaiter => absurd rfl hWaiter
  | giveStore i hNone => exact h.setSemaphore hCount fun hWaiter => absurd hWaiter hNone
  | lockFree m hFree =>
    exact h.setMutex hCount ⟨fun _ => hUser, fun hWaiter =>
      absurd hFree ((h.mutexes m).2 hWaiter).2.1⟩
  | lockOwn m _ _ => exact h.setMutex hCount (h.mutexes m)
  | lockBlock m hOwned hOther =>
    exact h.setMutex hCount ⟨(h.mutexes m).1, fun _ => ⟨hUser, hOwned, hOther⟩⟩
  | unlockStray m _ => exact h.setMutex hCount (h.mutexes m)
  | unlockWake m _ _ =>
    exact h.setMutex hCount
      ⟨fun hOwner => absurd rfl hOwner, fun hWaiter => absurd rfl hWaiter⟩
  | unlockNone m _ hNone =>
    exact h.setMutex hCount
      ⟨fun hOwner => absurd rfl hOwner, fun hWaiter => absurd hWaiter hNone⟩
  | sendFull q _ _ => exact h.setQueue hCount (h.queues q)
  | sendWake q _ _ _ => exact h.setQueue hCount fun hWaiter => absurd rfl hWaiter
  | sendNone q _ _ hNone =>
    refine h.setQueue hCount fun hWaiter => ?_
    rw [Queue.pushItem_waitingTask] at hWaiter
    exact absurd hWaiter hNone
  | receiveNow q _ hSome =>
    refine h.setQueue hCount fun hWaiter => ?_
    rw [Queue.popItem_waitingTask] at hWaiter
    have hZero := (h.queues q hWaiter).2
    rw [hZero] at hSome
    exact absurd hSome (by decide)
  | receiveBlock q _ hEmpty =>
    refine h.setQueue hCount fun _ => ⟨hUser, ?_⟩
    exact UInt32.toNat_inj.mp (Nat.eq_zero_of_not_pos hEmpty)

omit [TaskConfig] in
/-- A handler that finds a waiter clears the slot; one that does not adds to the
resource. -/
theorem Objects.isr (h : Objects s) (hIsr : IsrStep s l s' es) : Objects s' := by
  have hCount := hIsr.setup.taskCount
  cases hIsr with
  | giveNull | sendNull => exact h
  | tick => exact h.of_kernel rfl rfl rfl hCount
  | giveWake i _ => exact h.setSemaphore hCount fun hWaiter => absurd rfl hWaiter
  | giveStore i hNone => exact h.setSemaphore hCount fun hWaiter => absurd hWaiter hNone
  | sendFull q _ _ => exact h.setQueue hCount (h.queues q)
  | sendWake q _ _ _ => exact h.setQueue hCount fun hWaiter => absurd rfl hWaiter
  | sendNone q _ _ hNone =>
    refine h.setQueue hCount fun hWaiter => ?_
    rw [Queue.pushItem_waitingTask] at hWaiter
    exact absurd hWaiter hNone

/-- **The objects' invariants are kept by every step.** -/
theorem Objects.step (h : Objects s) (hStep : StepCase s l s' es) : Objects s' := by
  cases hStep with
  | perform hThread _ hCall => exact (h.call hThread.2.1 hCall).of_kernel rfl rfl rfl rfl
  | isr _ hIsr => exact h.isr hIsr
  | yield | resume | pendSvEmpty | pendSv | scan => exact h.of_kernel rfl rfl rfl rfl
  | @pendSvExit c _ _ => exact h.of_kernel rfl rfl rfl (selectNextEnd_keeps c _).1

end System

end TinyRtos
