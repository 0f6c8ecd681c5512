import TinyRtos.Kernel.Dispatch
import TinyRtos.Lib.WaitSlots
import Mathlib.Data.Set.Function

/-!
# TinyRTOS — waiting, and the slots of the objects

Every object remembers one waiting task. Seen from there a system is a
`WaitSlots.Slots`: a READY task is active, a task that is not is waiting on the
object of the call it is in, or asleep (`abs`). `CallEffect` and `IsrEffect`
sort the critical sections and the interrupts by what they do to this view;
`Control.lean` proves the simulation from them.
-/

namespace TinyRtos

/-- The state a task blocked on the object is in. -/
def Obj.blockedState : Obj → TaskState
  | .semaphore _ => .blockedOnSemaphore
  | .queue _ => .blockedOnQueue
  | .mutex _ => .blockedOnMutex

/-- The object a call may wait for. -/
def Call.waitsOn : Call → Option Obj
  | .semaphoreTake (some i) => some (.semaphore i)
  | .queueReceive (some q) (some _) => some (.queue q)
  | .mutexLock (some m) => some (.mutex m)
  | _ => none

/-- The state a task blocked in a call is in. -/
def Call.blockedState (c : Call) : Option TaskState :=
  match c with
  | .sleepMs _ => some .blocked
  | c => c.waitsOn.map Obj.blockedState

theorem Obj.blockedState_ne_ready (o : Obj) : o.blockedState ≠ .ready := by
  cases o <;> nofun

theorem Call.blockedState_of_waitsOn {c : Call} {o : Obj} (h : c.waitsOn = some o) :
    c.blockedState = some o.blockedState := by
  cases c with
  | sleepMs => cases h
  | _ => simp only [Call.blockedState, h, Option.map_some]

/-- A sleeping task waits for no object. -/
theorem Call.waitsOn_of_blocked {c : Call} (h : c.blockedState = some .blocked) :
    c.waitsOn = none := by
  cases hWaits : c.waitsOn with
  | none => rfl
  | some o =>
    rw [Call.blockedState_of_waitsOn hWaits, Option.some.injEq] at h
    cases o <;> cases h

/-- Only a receive blocks on a queue. -/
theorem Call.waitsOn_of_blockedOnQueue {c : Call} (h : c.blockedState = some .blockedOnQueue) :
    ∃ q, c.waitsOn = some (.queue q) := by
  cases hWaits : c.waitsOn with
  | none =>
    cases c with
    | sleepMs => cases h
    | _ =>
      simp only [Call.blockedState, hWaits] at h
      cases h
  | some o =>
    rw [Call.blockedState_of_waitsOn hWaits, Option.some.injEq] at h
    cases o with
    | queue q => exact ⟨q, rfl⟩
    | semaphore _ | mutex _ => cases h

/-- The initialisers, which nothing but the start may call in these runs. -/
def Call.isInit : Call → Bool
  | .semaphoreInit .. => true
  | .mutexInit _ => true
  | .queueInit .. => true
  | _ => false

/-- `rtosk_kernel_enter_critical` and `rtosk_kernel_exit_critical`. -/
def Call.isCritical : Call → Bool
  | .enterCritical => true
  | .exitCritical => true
  | _ => false

/-- The call a task is in. -/
def Pc.call : Pc → Option Call
  | .user => none
  | .leaving c => some c
  | .yielded c => some c

/-- The object whose waiter a step may wake. -/
def Label.gives : Label → Option Obj
  | .call (.semaphoreGive (some i)) => some (.semaphore i)
  | .call (.mutexUnlock (some m)) => some (.mutex m)
  | .call (.queueSend (some q) (some _)) => some (.queue q)
  | .semaphoreGiveFromIsr (some i) => some (.semaphore i)
  | .queueSendFromIsr (some q) (some _) => some (.queue q)
  | _ => none

namespace System

/-- Calls are made with interrupts unmasked, and initialised objects are not
initialised again. A task may open critical sections of its own, but makes no
other call inside. -/
def CallsUnmasked (s : System) : Label → Prop
  | .call c => c.isInit = false ∧ (c.isCritical = true ∨ s.kernel.Unmasked)
  | _ => True

instance (s : System) (l : Label) : Decidable (CallsUnmasked s l) :=
  match l with
  | .call _ => inferInstanceAs (Decidable (_ ∧ _))
  | .yield | .resume | .semaphoreGiveFromIsr _ | .queueSendFromIsr _ _ | .tick | .pendSv
  | .scan | .pendSvExit => inferInstanceAs (Decidable True)

/-- No object is initialised again. -/
theorem CallsUnmasked.initialises {s : System} {l : Label} (h : CallsUnmasked s l) (o : Obj) :
    l.initialises ≠ some o := by
  cases l with
  | call c =>
    cases c with
    | semaphoreInit | mutexInit | queueInit => cases h.1
    | _ => nofun
  | _ => nofun

/-- The `waiting_task` of an object. -/
def waiter (s : System) : Obj → Nat
  | .semaphore i => (s.sems i).waitingTask
  | .queue q => (s.queues q).waitingTask
  | .mutex m => (s.mutexes m).waitingTask

-- ---------------------------------------------------------------------------
-- The view
-- ---------------------------------------------------------------------------

def mode (s : System) (t : Nat) : WaitSlots.Mode Obj :=
  if (s.kernel.tasks t).state = .ready then .active
  else match (s.pc t).call.bind Call.waitsOn with
    | some o => .waiting o
    | none => .asleep

def slot (s : System) (o : Obj) : Option Nat :=
  if s.waiter o = noWaiter then none else some (s.waiter o)

/-- The system as the registry of its waiters. -/
def abs (s : System) : WaitSlots.Slots Nat Obj := ⟨s.mode, s.slot⟩

variable {s s' : System} {t : Nat} {o : Obj}

theorem mode_ready (h : (s.kernel.tasks t).state = .ready) : s.mode t = .active := if_pos h

theorem mode_waiting : s.mode t = .waiting o ↔
    (s.kernel.tasks t).state ≠ .ready ∧ ∃ c, (s.pc t).call = some c ∧ c.waitsOn = some o := by
  unfold mode
  by_cases hReady : (s.kernel.tasks t).state = .ready
  · simp [hReady]
  · rw [if_neg hReady, and_iff_right hReady]
    cases hBind : (s.pc t).call.bind Call.waitsOn with
    | none =>
      rw [Option.bind_eq_none_iff] at hBind
      simp only [reduceCtorEq, false_iff, not_exists, not_and]
      intro c hc
      rw [hBind c hc]
      nofun
    | some p =>
      obtain ⟨c, hc, hWaits⟩ := Option.bind_eq_some_iff.mp hBind
      simp only [WaitSlots.Mode.waiting.injEq]
      constructor
      · rintro rfl
        exact ⟨c, hc, hWaits⟩
      · rintro ⟨d, hd, hWaits'⟩
        rw [hc, Option.some.injEq] at hd
        subst hd
        exact Option.some.inj (hWaits.symm.trans hWaits')

theorem mode_congr (hState : (s'.kernel.tasks t).state = (s.kernel.tasks t).state)
    (hCall : (s.kernel.tasks t).state ≠ .ready → (s'.pc t).call = (s.pc t).call) :
    s'.mode t = s.mode t := by
  unfold mode
  rw [hState]
  by_cases hReady : (s.kernel.tasks t).state = .ready
  · rw [if_pos hReady, if_pos hReady]
  · rw [if_neg hReady, if_neg hReady, hCall hReady]

theorem slot_eq_some : s.slot o = some t ↔ s.waiter o = t ∧ t ≠ noWaiter := by
  unfold slot
  by_cases hNone : s.waiter o = noWaiter
  · simp only [if_pos hNone, reduceCtorEq, false_iff, not_and, not_not]
    rintro rfl
    exact hNone
  · simp only [if_neg hNone, Option.some.injEq]
    constructor
    · rintro rfl
      exact ⟨rfl, hNone⟩
    · exact fun h => h.1

theorem slot_eq_none : s.slot o = none ↔ s.waiter o = noWaiter := by
  unfold slot
  split <;> simp_all

theorem waiter_setSemaphore (i : Nat) (sem : Semaphore) (k : Kernel) (s : System) :
    (s.setSemaphore i sem k).waiter =
      Function.update s.waiter (.semaphore i) sem.waitingTask := by
  funext o
  cases o with
  | semaphore j =>
    by_cases hij : j = i
    · subst hij
      simp [waiter, setSemaphore]
    · simp [waiter, setSemaphore, hij]
  | queue _ => rfl
  | mutex _ => rfl

theorem waiter_setQueue (q : Nat) (queue : Queue) (k : Kernel) (s : System) :
    (s.setQueue q queue k).waiter = Function.update s.waiter (.queue q) queue.waitingTask := by
  funext o
  cases o with
  | queue j =>
    by_cases hij : j = q
    · subst hij
      simp [waiter, setQueue]
    · simp [waiter, setQueue, hij]
  | semaphore _ => rfl
  | mutex _ => rfl

theorem waiter_setMutex (m : Nat) (mutex : Mutex) (k : Kernel) (s : System) :
    (s.setMutex m mutex k).waiter = Function.update s.waiter (.mutex m) mutex.waitingTask := by
  funext o
  cases o with
  | mutex j =>
    by_cases hij : j = m
    · subst hij
      simp [waiter, setMutex]
    · simp [waiter, setMutex, hij]
  | semaphore _ => rfl
  | queue _ => rfl

/-- One task changes its mode. -/
theorem mode_set {m : WaitSlots.Mode Obj} (hMode : s'.mode t = m)
    (hState : ∀ u, u ≠ t → (s'.kernel.tasks u).state = (s.kernel.tasks u).state)
    (hCall : ∀ u, u ≠ t → (s.kernel.tasks u).state ≠ .ready →
      (s'.pc u).call = (s.pc u).call) :
    s'.mode = Function.update s.mode t m := by
  funext u
  by_cases hu : u = t
  · subst hu
    rw [Function.update_self, hMode]
  · rw [Function.update_of_ne hu]
    exact mode_congr (hState u hu) (hCall u hu)

/-- One object changes its slot. -/
theorem slot_set {w : Nat} (hWaiter : s'.waiter = Function.update s.waiter o w) :
    s'.slot = Function.update s.slot o (if w = noWaiter then none else some w) := by
  funext p
  unfold slot
  rw [hWaiter]
  by_cases hp : p = o
  · subst hp
    simp only [Function.update_self]
  · simp only [Function.update_of_ne hp]

/-- The `rtosk_kernel_yield` at the end of a call is in the call. -/
theorem call_yielded {c : Call} (hPc : s.pc s.kernel.currentTask = .leaving c) (k : Kernel)
    (t : Nat) :
    (({ s with kernel := k }.setPc s.kernel.currentTask (.yielded c)).pc t).call =
      (s.pc t).call := by
  by_cases ht : t = s.kernel.currentTask
  · subst ht
    simp only [setPc, Function.update_self, hPc]
    rfl
  · simp only [setPc, Function.update_of_ne ht]

theorem slot_congr (hWaiter : s'.waiter = s.waiter) : s'.slot = s.slot := by
  funext o
  unfold slot
  rw [hWaiter]

theorem abs_eq (hState : ∀ t, (s'.kernel.tasks t).state = (s.kernel.tasks t).state)
    (hCall : ∀ t, (s.kernel.tasks t).state ≠ .ready → (s'.pc t).call = (s.pc t).call)
    (hWaiter : s'.waiter = s.waiter) : s'.abs = s.abs := by
  have hMode : s'.mode = s.mode := funext fun t => mode_congr (hState t) (hCall t)
  unfold abs
  rw [hMode, slot_congr hWaiter]

-- ---------------------------------------------------------------------------
-- What a critical section does to waiters
-- ---------------------------------------------------------------------------

/-- The object a call would block the current task on in this state. -/
def blocks (s : System) : Call → Option Obj
  | .semaphoreTake (some i) => if 0 < (s.sems i).count then none else some (.semaphore i)
  | .queueReceive (some q) (some _) =>
    if 0 < (s.queues q).count then none else some (.queue q)
  | .mutexLock (some m) =>
    if (s.mutexes m).owner = rtoskMutexNoOwner ∨
      (s.mutexes m).owner = s.kernel.currentTask then none else some (.mutex m)
  | _ => none

/-- The object a step blocks the current task on. -/
def parks (s : System) : Label → Option Obj
  | .call c => s.blocks c
  | .resume =>
    match s.pc s.kernel.currentTask with
    | .yielded c => if c.retries then s.blocks c else none
    | _ => none
  | _ => none

/-- The states and waiters after a critical section. -/
inductive CallEffect (s s' : System) : Call → Exit → WaitSlots.Action Nat Obj → Prop
  | quiet {c : Call} {exit : Exit} (hBlocks : s.blocks c = none)
      (hState : ∀ t, (s'.kernel.tasks t).state = (s.kernel.tasks t).state)
      (hWaiter : s'.waiter = s.waiter) : CallEffect s s' c exit .stir
  | park {c : Call} {o : Obj} (hWaits : c.waitsOn = some o) (hBlocks : s.blocks c = some o)
      (hState : ∀ t, (s'.kernel.tasks t).state =
        if t = s.kernel.currentTask then o.blockedState else (s.kernel.tasks t).state)
      (hWaiter : s'.waiter = Function.update s.waiter o s.kernel.currentTask) :
      CallEffect s s' c .yields (.park s.kernel.currentTask o)
  | doze {ms : UInt32}
      (hState : ∀ t, (s'.kernel.tasks t).state =
        if t = s.kernel.currentTask then .blocked else (s.kernel.tasks t).state)
      (hWaiter : s'.waiter = s.waiter) :
      CallEffect s s' (.sleepMs ms) .yields (.doze s.kernel.currentTask)
  | wake {c : Call} {o : Obj} (hGives : (Label.call c).gives = some o)
      (hBlocks : s.blocks c = none) (hSlot : s.waiter o ≠ noWaiter)
      (hState : ∀ t, (s'.kernel.tasks t).state =
        if t = s.waiter o ∧ s.waiter o < s.kernel.taskCount then .ready
        else (s.kernel.tasks t).state)
      (hWaiter : s'.waiter = Function.update s.waiter o noWaiter) :
      CallEffect s s' c .yields (.release o)

variable [TaskConfig] {l : Label} {c : Call} {exit : Exit} {es : List Event}

omit [TaskConfig] in
theorem update_waiter_self (s : System) (o : Obj) :
    Function.update s.waiter o (s.waiter o) = s.waiter := Function.update_eq_self ..

omit [TaskConfig] in
theorem setReady_waiter {k : Kernel}
    (hTable : k.toTaskTable = rtoskTaskSetReady (s.waiter o) s.kernel.toTaskTable) (t : Nat) :
    (k.tasks t).state =
      if t = s.waiter o ∧ s.waiter o < s.kernel.taskCount then .ready
      else (s.kernel.tasks t).state := by
  rw [hTable, rtoskTaskSetReady_state]

omit [TaskConfig] in
theorem blocks_null (hNull : c.isNull = true) : s.blocks c = none := by
  cases c with
  | semaphoreTake sem =>
    cases sem with
    | none => rfl
    | some _ => cases hNull
  | mutexLock mutex =>
    cases mutex with
    | none => rfl
    | some _ => cases hNull
  | queueReceive queue item =>
    cases queue with
    | none => rfl
    | some _ =>
      cases item with
      | none => rfl
      | some _ => cases hNull
  | _ => rfl

theorem CallStep.effect (h : CallStep s c s' exit es) (hInit : c.isInit = false)
    (hUser : s.kernel.currentTask ≠ rtoskIdleTaskIndex) : ∃ a, CallEffect s s' c exit a := by
  cases h with
  | null _ hNull => exact ⟨_, .quiet (blocks_null hNull) (fun _ => rfl) rfl⟩
  | semaphoreInit | mutexInit | queueInit => cases hInit
  | takeNow i hPos =>
    exact ⟨_, .quiet (by simp [blocks, hPos]) (fun _ => by simp)
      ((waiter_setSemaphore ..).trans (update_waiter_self s (.semaphore i)))⟩
  | takeBlock i hZero =>
    exact ⟨_, .park rfl (by simp only [blocks, if_neg hZero])
      (fun t => by simp [TaskTable.setState_state, Obj.blockedState])
      (waiter_setSemaphore ..)⟩
  | giveWake i hWaiter =>
    exact ⟨_, .wake (o := .semaphore i) rfl rfl hWaiter
      (setReady_waiter (bracket_toTaskTable ..)) (waiter_setSemaphore ..)⟩
  | giveStore i hNone =>
    exact ⟨_, .quiet rfl (fun _ => by simp)
      ((waiter_setSemaphore ..).trans (update_waiter_self s (.semaphore i)))⟩
  | lockFree m hFree =>
    exact ⟨_, .quiet (by simp [blocks, hFree]) (fun _ => by simp)
      ((waiter_setMutex ..).trans (update_waiter_self s (.mutex m)))⟩
  | lockOwn m _ hOwn =>
    exact ⟨_, .quiet (by simp [blocks, hOwn]) (fun _ => by simp)
      ((waiter_setMutex ..).trans (update_waiter_self s (.mutex m)))⟩
  | lockBlock m hOwned hOther =>
    exact ⟨_, .park rfl (by simp [blocks, hOwned, hOther])
      (fun t => by simp [TaskTable.setState_state, Obj.blockedState])
      (waiter_setMutex ..)⟩
  | unlockStray m _ =>
    exact ⟨_, .quiet rfl (fun _ => by simp)
      ((waiter_setMutex ..).trans (update_waiter_self s (.mutex m)))⟩
  | unlockWake m _ hWaiter =>
    exact ⟨_, .wake (o := .mutex m) rfl rfl hWaiter
      (setReady_waiter (bracket_toTaskTable ..)) (waiter_setMutex ..)⟩
  | unlockNone m _ _ =>
    exact ⟨_, .quiet rfl (fun _ => by simp)
      ((waiter_setMutex ..).trans (update_waiter_self s (.mutex m)))⟩
  | sendFull q item _ =>
    exact ⟨_, .quiet rfl (fun _ => by simp)
      ((waiter_setQueue ..).trans (update_waiter_self s (.queue q)))⟩
  | sendWake q item _ hWaiter =>
    exact ⟨_, .wake (o := .queue q) rfl rfl hWaiter
      (setReady_waiter (bracket_toTaskTable ..)) (waiter_setQueue ..)⟩
  | sendNone q item _ _ =>
    refine ⟨_, .quiet rfl (fun _ => by simp) ?_⟩
    rw [waiter_setQueue, Queue.pushItem_waitingTask]
    exact update_waiter_self s (.queue q)
  | receiveNow q item hSome =>
    refine ⟨_, .quiet (by simp [blocks, hSome]) (fun _ => by simp) ?_⟩
    rw [waiter_setQueue, Queue.popItem_waitingTask]
    exact update_waiter_self s (.queue q)
  | receiveBlock q item hEmpty =>
    exact ⟨_, .park rfl (by simp only [blocks, if_neg hEmpty])
      (fun t => by simp [TaskTable.setState_state, Obj.blockedState])
      (waiter_setQueue ..)⟩
  | sleepMs ms =>
    exact ⟨_, .doze (fun t => by simp [rtoskTaskBlockCurrentUntil_state hUser]) rfl⟩
  | yield => exact ⟨_, .quiet rfl (fun _ => rfl) rfl⟩
  | enterCritical | exitCritical => exact ⟨_, .quiet rfl (fun _ => by simp) rfl⟩

/-- The states and waiters after an interrupt. -/
inductive IsrEffect (s s' : System) : Label → WaitSlots.Action Nat Obj → Prop
  | quiet {l : Label} (hState : ∀ t, (s'.kernel.tasks t).state = (s.kernel.tasks t).state)
      (hWaiter : s'.waiter = s.waiter) : IsrEffect s s' l .stir
  | wake {l : Label} {o : Obj} (hGives : l.gives = some o) (hSlot : s.waiter o ≠ noWaiter)
      (hState : ∀ t, (s'.kernel.tasks t).state =
        if t = s.waiter o ∧ s.waiter o < s.kernel.taskCount then .ready
        else (s.kernel.tasks t).state)
      (hWaiter : s'.waiter = Function.update s.waiter o noWaiter) :
      IsrEffect s s' l (.release o)
  | tick (hState : ∀ t, (s'.kernel.tasks t).state =
        if t < s.kernel.taskCount ∧ Due (s.kernel.systicks + 1) (s.kernel.tasks t) then .ready
        else (s.kernel.tasks t).state)
      (hWaiter : s'.waiter = s.waiter) : IsrEffect s s' .tick .stir

omit [TaskConfig] in
theorem IsrStep.effect (h : IsrStep s l s' es) : ∃ a, IsrEffect s s' l a := by
  cases h with
  | giveNull | sendNull => exact ⟨_, .quiet (fun _ => rfl) rfl⟩
  | giveWake i hWaiter =>
    exact ⟨_, .wake (o := .semaphore i) rfl hWaiter
      (setReady_waiter rfl) (waiter_setSemaphore ..)⟩
  | giveStore i _ =>
    exact ⟨_, .quiet (fun _ => rfl)
      ((waiter_setSemaphore ..).trans (update_waiter_self s (.semaphore i)))⟩
  | sendFull q _ _ =>
    exact ⟨_, .quiet (fun _ => rfl)
      ((waiter_setQueue ..).trans (update_waiter_self s (.queue q)))⟩
  | sendWake q _ _ hWaiter =>
    exact ⟨_, .wake (o := .queue q) rfl hWaiter
      (setReady_waiter rfl) (waiter_setQueue ..)⟩
  | sendNone q _ _ _ =>
    refine ⟨_, .quiet (fun _ => rfl) ?_⟩
    rw [waiter_setQueue, Queue.pushItem_waitingTask]
    exact update_waiter_self s (.queue q)
  | tick =>
    by_cases hInit : s.kernel.kernelInit = false
    · refine ⟨_, .quiet (fun t => ?_) rfl⟩
      simp [rtoskKernelTick, hInit]
    · refine ⟨_, .tick (fun t => ?_) rfl⟩
      simp only [rtoskKernelTick, if_neg hInit, rtoskPortYield_toTaskTable,
        Kernel.onTable_toTaskTable, rtoskTaskUpdateBlocked_tasks]
      split <;> rfl

end System

end TinyRtos
