import TinyRtos.Kernel.Waiting

/-!
# TinyRTOS — critical sections, statement by statement (`kernel.c`)

`RTOSK_CRITICAL_NESTING`, `RTOSK_CRITICAL_PRIMASK` and PRIMASK are one each for
all tasks and interrupt handlers. Here a processor runs any number of them
(`Agent`, numbered as the reader likes: tasks, handlers, PendSV), and
`rtosk_kernel_enter_critical` and `rtosk_kernel_exit_critical` are taken apart
into their statements: between any two of them another agent may get the
processor, if PRIMASK is clear.

* `go` — the running agent's next statement inside a call;
* `enter`, `exit`, `call` — it begins a critical section of its own, leaves one,
  or calls the kernel;
* `work`, `setPrimask` — it does anything else: any change that leaves the three
  variables alone, and, outside critical sections, writing PRIMASK;
* `switch` — an interrupt, its return, or a context switch.

An agent notes PRIMASK and the depth (`Mark`) when it begins to enter a
critical section and when it calls the kernel, and the events of the end of the
section and of the return of the call carry the note beside what is found then.

`section_enter` connects the statements with `System.enter`: the code of a call
between its enter and its exit is `body`, on every branch.
-/

namespace TinyRtos

-- ---------------------------------------------------------------------------
-- The statements
-- ---------------------------------------------------------------------------

namespace Kernel

/-- `__disable_irq()`. -/
def disableIrq (k : Kernel) : Kernel := { k with primask := 1 }

/-- `if(RTOSK_CRITICAL_NESTING == 0) RTOSK_CRITICAL_PRIMASK = primask;` -/
def savePrimask (primask : UInt32) (k : Kernel) : Kernel :=
  if k.criticalNesting = 0 then { k with criticalPrimask := primask } else k

/-- `RTOSK_CRITICAL_NESTING++;` -/
def nest (k : Kernel) : Kernel := { k with criticalNesting := k.criticalNesting + 1 }

/-- `RTOSK_CRITICAL_NESTING--;` -/
def unnest (k : Kernel) : Kernel := { k with criticalNesting := k.criticalNesting - 1 }

end Kernel

/-- The statements of `rtosk_kernel_enter_critical` in their order. -/
theorem enterCritical_statements (k : Kernel) :
    rtoskKernelEnterCritical k = (k.disableIrq.savePrimask k.primask).nest := rfl

/-- The statements of `rtosk_kernel_exit_critical` in their order. -/
theorem exitCritical_statements (k : Kernel) :
    rtoskKernelExitCritical k =
      if k.criticalNesting = 0 then k
      else if k.unnest.criticalNesting = 0 then
        rtoskPortIrqRestore k.unnest.criticalPrimask k.unnest
      else k.unnest := rfl

-- ---------------------------------------------------------------------------
-- Calls without their brackets
-- ---------------------------------------------------------------------------

/-- The functions of the kernel's interface that tasks and handlers call. -/
inductive Api
  | call (c : Call)
  | semaphoreGiveFromIsr (sem : Option Nat)
  | queueSendFromIsr (queue : Option Nat) (item : Option (Nat → UInt8))

namespace Api

/-- The call has a critical section: its pointers are not null. -/
def hasSection : Api → Bool
  | .call (.semaphoreTake (some _)) | .call (.semaphoreGive (some _))
  | .call (.mutexLock (some _)) | .call (.mutexUnlock (some _))
  | .call (.queueSend (some _) (some _)) | .call (.queueReceive (some _) (some _))
  | .call (.sleepMs _) => true
  | _ => false

def retries : Api → Bool
  | .call c => c.retries
  | _ => false

/-- `rtosk_kernel_enter_critical` and `rtosk_kernel_exit_critical` themselves. -/
def isCritical : Api → Bool
  | .call c => c.isCritical
  | _ => false

/-- The code of a call with no critical section. -/
def straight [TaskConfig] (c : Api) (s : System) : System × Exit :=
  match c with
  | .call c => ((s.enter c).1, (s.enter c).2.1)
  | .semaphoreGiveFromIsr sem => ((s.giveFromIsr sem).1, .returns)
  | .queueSendFromIsr queue item => ((s.sendFromIsr queue item).1, .returns)

/-- The code of a call between `rtosk_kernel_enter_critical` and the
`rtosk_kernel_exit_critical` it reaches, and what follows that exit. -/
def body [TaskConfig] (c : Api) (s : System) : System × Exit :=
  match c with
  | .call (.semaphoreTake (some i)) =>
    let sem := s.sems i
    if 0 < sem.count then
      (s.setSemaphore i { sem with count := sem.count - 1 } s.kernel, .returns)
    else
      let sem := { sem with waitingTask := s.kernel.currentTask }
      (s.setSemaphore i sem (s.kernel.onTable rtoskTaskBlockCurrentOnSemaphore), .yields)
  | .call (.semaphoreGive (some i)) =>
    let sem := s.sems i
    if sem.waitingTask ≠ rtoskSemaphoreNoWaiter then
      let kernel := s.kernel.onTable (rtoskTaskSetReady sem.waitingTask)
      (s.setSemaphore i { sem with waitingTask := rtoskSemaphoreNoWaiter } kernel, .yields)
    else (s.setSemaphore i { sem with count := 1 } s.kernel, .yields)
  | .call (.mutexLock (some m)) =>
    let mutex := s.mutexes m
    let current := s.kernel.currentTask
    if mutex.owner = rtoskMutexNoOwner then
      (s.setMutex m { mutex with owner := current } s.kernel, .returns)
    else if mutex.owner = current then (s.setMutex m mutex s.kernel, .returns)
    else
      let mutex := { mutex with waitingTask := current }
      (s.setMutex m mutex (s.kernel.onTable rtoskTaskBlockCurrentOnMutex), .yields)
  | .call (.mutexUnlock (some m)) =>
    let mutex := s.mutexes m
    if mutex.owner ≠ s.kernel.currentTask then (s.setMutex m mutex s.kernel, .returns)
    else
      let mutex := { mutex with owner := rtoskMutexNoOwner }
      if mutex.waitingTask ≠ rtoskMutexNoWaiter then
        let kernel := s.kernel.onTable (rtoskTaskSetReady mutex.waitingTask)
        (s.setMutex m { mutex with waitingTask := rtoskMutexNoWaiter } kernel, .yields)
      else (s.setMutex m mutex s.kernel, .yields)
  | .call (.queueSend (some q) (some item)) =>
    let queue := s.queues q
    if queue.capacity ≤ queue.count then (s.setQueue q queue s.kernel, .returns)
    else
      let queue := queue.pushItem item
      if queue.waitingTask ≠ rtoskQueueNoWaiter then
        let (queue, kernel) := queue.wakeReceiver s.kernel
        (s.setQueue q queue kernel, .yields)
      else (s.setQueue q queue s.kernel, .yields)
  | .call (.queueReceive (some q) (some item)) =>
    let queue := s.queues q
    if 0 < queue.count then (s.setQueue q (queue.popItem item).1 s.kernel, .returns)
    else
      let queue := { queue with waitingTask := s.kernel.currentTask }
      (s.setQueue q queue (s.kernel.onTable rtoskTaskBlockCurrentOnQueue), .yields)
  | .call (.sleepMs ms) =>
    let wakeTick := s.kernel.systicks + ms
    ({ s with kernel := s.kernel.onTable (rtoskTaskBlockCurrentUntil wakeTick) }, .yields)
  | _ => (s, .returns)

end Api

namespace System

/-- A function of `kernel.c` on the system's kernel. -/
def onKernel (f : Kernel → Kernel) (s : System) : System := { s with kernel := f s.kernel }

@[simp] theorem onKernel_kernel (f : Kernel → Kernel) (s : System) :
    (s.onKernel f).kernel = f s.kernel := rfl

/-- **Every branch of a call enters once and exits once.** -/
theorem section_enter [TaskConfig] {c : Call} (h : (Api.call c).hasSection = true) (s : System) :
    (s.enter c).1 =
        ((Api.call c).body (s.onKernel rtoskKernelEnterCritical)).1.onKernel
          rtoskKernelExitCritical ∧
      (s.enter c).2.1 = ((Api.call c).body (s.onKernel rtoskKernelEnterCritical)).2 := by
  unfold onKernel
  match c with
  | .semaphoreTake (some i) =>
    simp only [enter, rtoskSemaphoreTake, Api.body]
    split
    · exact ⟨rfl, rfl⟩
    · exact ⟨rfl, rfl⟩
  | .semaphoreGive (some i) =>
    simp only [enter, rtoskSemaphoreGive, Api.body]
    split
    · exact ⟨rfl, rfl⟩
    · exact ⟨rfl, rfl⟩
  | .mutexLock (some m) =>
    simp only [enter, rtoskMutexLock, Api.body]
    split
    · exact ⟨rfl, rfl⟩
    · split
      · exact ⟨rfl, rfl⟩
      · exact ⟨rfl, rfl⟩
  | .mutexUnlock (some m) =>
    simp only [enter, rtoskMutexUnlock, Api.body]
    split
    · exact ⟨rfl, rfl⟩
    · split
      · exact ⟨rfl, rfl⟩
      · exact ⟨rfl, rfl⟩
  | .queueSend (some q) (some item) =>
    simp only [enter, rtoskQueueSend, Api.body]
    split
    · exact ⟨rfl, rfl⟩
    · split
      · exact ⟨rfl, rfl⟩
      · exact ⟨rfl, rfl⟩
  | .queueReceive (some q) (some item) =>
    simp only [enter, rtoskQueueReceive, Api.body]
    split
    · exact ⟨rfl, rfl⟩
    · exact ⟨rfl, rfl⟩
  | .sleepMs ms => exact ⟨rfl, rfl⟩

end System

-- ---------------------------------------------------------------------------
-- The processor and its agents
-- ---------------------------------------------------------------------------

/-- The three variables of critical sections. -/
structure Masking where
  primask : UInt32
  criticalNesting : UInt32
  criticalPrimask : UInt32
  deriving DecidableEq

def Kernel.masking (k : Kernel) : Masking := ⟨k.primask, k.criticalNesting, k.criticalPrimask⟩

/-- PRIMASK and the depth, noted. -/
structure Mark where
  primask : UInt32
  nesting : UInt32
  deriving DecidableEq, Repr

/-- What would be noted now. -/
def Masking.mark (v : Masking) : Mark := ⟨v.primask, v.criticalNesting⟩

namespace Critical

/-- The next statement of `rtosk_kernel_enter_critical`; `primask` is its local
variable. -/
inductive EnterAt
  | getPrimask
  | disableIrq (primask : UInt32)
  | savePrimask (primask : UInt32)
  | nest

/-- The next statement of `rtosk_kernel_exit_critical`. -/
inductive ExitAt
  | test
  | unnest
  | retest
  | irqRestore

/-- Who called `rtosk_kernel_enter_critical`: the agent's own code, or call `c`,
begun at `m`. -/
inductive EnterFrom
  | user
  | call (c : Api) (m : Mark)

/-- Who called `rtosk_kernel_exit_critical`, and what follows in the call. -/
inductive ExitFrom
  | user
  | call (c : Api) (m : Mark) (exit : Exit)

/-- Where an agent is. -/
inductive Pc
  | user
  | calling (c : Api) (m : Mark)
  | entering (stmt : EnterAt) (b : Mark) (caller : EnterFrom)
  | body (c : Api) (m : Mark)
  | exiting (stmt : ExitAt) (caller : ExitFrom)
  | leaving (c : Api) (m : Mark) (exit : Exit)
  | yielded (c : Api) (m : Mark)

/-- Where `rtosk_kernel_enter_critical` returns to. -/
def EnterFrom.pc : EnterFrom → Pc
  | .user => .user
  | .call c m => .body c m

/-- Where `rtosk_kernel_exit_critical` returns to. -/
def ExitFrom.pc : ExitFrom → Pc
  | .user => .user
  | .call c m exit => .leaving c m exit

/-- A task or an interrupt handler: the critical sections it is in, innermost
first, each with what was noted before it was entered, and where it is. -/
structure Agent where
  brackets : List Mark
  pc : Pc

/-- The agent is between the masking of an outermost enter and the unmasking of
the matching exit. -/
def Agent.Inside (g : Agent) : Prop :=
  match g.pc with
  | .entering (.savePrimask _) .. | .entering .nest .. => True
  | _ => g.brackets ≠ []

inductive Event
  | exited (before now : Mark)
  | returned (c : Api) (before now : Mark)

structure Cpu where
  sys : System
  running : Nat
  agents : Nat → Agent

inductive Label
  | work (sys : System)
  | setPrimask (masked : Bool)
  | enter
  | exit
  | call (c : Api)
  | go
  | switch (a : Nat)

namespace Cpu

/-- The agent that runs. -/
def agent (s : Cpu) : Agent := s.agents s.running

/-- PRIMASK and the depth now. -/
def now (s : Cpu) : Mark := s.sys.kernel.masking.mark

/-- The running agent has made a statement. -/
def next (sys : System) (g : Agent) (s : Cpu) : Cpu :=
  { s with sys := sys, agents := Function.update s.agents s.running g }

def jump (pc : Pc) (s : Cpu) : Cpu := s.next s.sys { s.agent with pc := pc }

/-- `rtosk_kernel_exit_critical` returns to its caller on kernel `k`. -/
def exited (k : Kernel) (caller : ExitFrom) (s : Cpu) : Cpu × List Event :=
  (s.next { s.sys with kernel := k } { brackets := s.agent.brackets.tail, pc := caller.pc },
    s.agent.brackets.head?.toList.map fun b => .exited b k.masking.mark)

/-- The next statement inside a call of the running agent. -/
def go [TaskConfig] (s : Cpu) : Option (Cpu × List Event) :=
  let k := s.sys.kernel
  let g := s.agent
  match g.pc with
  | .user => none
  | .calling c m =>
    if c.hasSection then some (s.jump (.entering .getPrimask s.now (.call c m)), [])
    else
      let (sys, exit) := c.straight s.sys
      some (s.next sys { g with pc := .leaving c m exit }, [])
  | .entering .getPrimask b caller =>
    some (s.jump (.entering (.disableIrq k.primask) b caller), [])
  | .entering (.disableIrq primask) b caller =>
    some (s.next (s.sys.onKernel Kernel.disableIrq)
      { g with pc := .entering (.savePrimask primask) b caller }, [])
  | .entering (.savePrimask primask) b caller =>
    some (s.next (s.sys.onKernel (Kernel.savePrimask primask))
      { g with pc := .entering .nest b caller }, [])
  | .entering .nest b caller =>
    some (s.next (s.sys.onKernel Kernel.nest)
      { brackets := b :: g.brackets, pc := caller.pc }, [])
  | .body c m =>
    let (sys, exit) := c.body s.sys
    some (s.next sys { g with pc := .exiting .test (.call c m exit) }, [])
  | .exiting .test caller =>
    if k.criticalNesting = 0 then some (s.exited k caller)
    else some (s.jump (.exiting .unnest caller), [])
  | .exiting .unnest caller =>
    some (s.next (s.sys.onKernel Kernel.unnest) { g with pc := .exiting .retest caller }, [])
  | .exiting .retest caller =>
    if k.criticalNesting = 0 then some (s.jump (.exiting .irqRestore caller), [])
    else some (s.exited k caller)
  | .exiting .irqRestore caller =>
    some (s.exited (rtoskPortIrqRestore k.criticalPrimask k) caller)
  | .leaving c m .returns => some (s.jump .user, [.returned c m s.now])
  | .leaving c m .yields =>
    some (s.next (s.sys.onKernel rtoskKernelYield) { g with pc := .yielded c m }, [])
  | .yielded c m =>
    if c.retries then some (s.jump (.calling c m), [])
    else some (s.jump .user, [.returned c m s.now])

def step [TaskConfig] (s : Cpu) : Label → Option (Cpu × List Event)
  | .work sys =>
    if sys.kernel.masking = s.sys.kernel.masking then some ({ s with sys := sys }, []) else none
  | .setPrimask masked =>
    match s.agent.pc, s.agent.brackets with
    | .user, [] =>
      let kernel := { s.sys.kernel with primask := if masked then 1 else 0 }
      some ({ s with sys := { s.sys with kernel := kernel } }, [])
    | _, _ => none
  | .enter =>
    match s.agent.pc with
    | .user => some (s.jump (.entering .getPrimask s.now .user), [])
    | _ => none
  | .exit =>
    match s.agent.pc, s.agent.brackets with
    | .user, _ :: _ => some (s.jump (.exiting .test .user), [])
    | _, _ => none
  | .call c =>
    match s.agent.pc with
    | .user => if c.isCritical then none else some (s.jump (.calling c s.now), [])
    | _ => none
  | .go => s.go
  | .switch a => if s.sys.kernel.Unmasked then some ({ s with running := a }, []) else none

/-- The running agent is about to make `RTOSK_CRITICAL_NESTING++`. -/
def Nests (s : Cpu) (l : Label) : Bool :=
  match l, s.agent.pc with
  | .go, .entering .nest .. => true
  | _, _ => false

/-- No critical section is entered at depth `2^32 - 1`. -/
def Below (s : Cpu) (l : Label) : Prop :=
  s.Nests l = true → s.agent.brackets.length + 1 < 2 ^ 32

instance (s : Cpu) (l : Label) : Decidable (Below s l) :=
  inferInstanceAs (Decidable (_ → _))

/-- Nobody is in a call or a critical section; PRIMASK is as main left it. -/
structure Fresh (s : Cpu) : Prop where
  agents  : ∀ a, s.agents a = ⟨[], .user⟩
  nesting : s.sys.kernel.criticalNesting = 0
  primask : s.sys.kernel.primask = 0 ∨ s.sys.kernel.primask = 1

-- ---------------------------------------------------------------------------
-- An uninterrupted round
-- ---------------------------------------------------------------------------

variable {s : Cpu}

@[simp] theorem next_agent (sys : System) (g : Agent) (s : Cpu) : (s.next sys g).agent = g :=
  Function.update_self ..
@[simp] theorem next_sys (sys : System) (g : Agent) (s : Cpu) : (s.next sys g).sys = sys := rfl
@[simp] theorem next_running (sys : System) (g : Agent) (s : Cpu) :
    (s.next sys g).running = s.running := rfl

theorem next_other {a : Nat} (h : a ≠ s.running) (sys : System) (g : Agent) :
    (s.next sys g).agents a = s.agents a :=
  Function.update_of_ne h ..

@[simp] theorem next_next (sys sys' : System) (g g' : Agent) (s : Cpu) :
    (s.next sys g).next sys' g' = s.next sys' g' := by
  simp [next]

variable [TaskConfig]

/-- The running agent gets from `s` to `s'` by its own statements alone. -/
def Goes (s s' : Cpu) : Prop := ∃ tr, Runs.Goes step .go s tr s'

theorem Goes.cons {s s₁ s₂ : Cpu} (es : List Event) (h : s.go = some (s₁, es))
    (hRest : Goes s₁ s₂) : Goes s s₂ := by
  obtain ⟨tr, hRest⟩ := hRest
  exact ⟨es ++ tr, Runs.Goes.cons h hRest⟩

/-- Enter, uninterrupted, is `rtoskKernelEnterCritical`. -/
theorem goes_enter {b : Mark} {caller : EnterFrom} {bs : List Mark} {sys : System} {s' : Cpu}
    (h : Goes (s.next (sys.onKernel rtoskKernelEnterCritical) ⟨b :: bs, caller.pc⟩) s') :
    Goes (s.next sys ⟨bs, .entering .getPrimask b caller⟩) s' := by
  have hGet : (s.next sys ⟨bs, .entering .getPrimask b caller⟩).go =
      some (s.next sys ⟨bs, .entering (.disableIrq sys.kernel.primask) b caller⟩, []) := by
    simp [go, jump]
  have hDisable : (s.next sys ⟨bs, .entering (.disableIrq sys.kernel.primask) b caller⟩).go =
      some (s.next (sys.onKernel Kernel.disableIrq)
        ⟨bs, .entering (.savePrimask sys.kernel.primask) b caller⟩, []) := by
    simp [go]
  have hSave : (s.next (sys.onKernel Kernel.disableIrq)
        ⟨bs, .entering (.savePrimask sys.kernel.primask) b caller⟩).go =
      some (s.next (sys.onKernel fun k => k.disableIrq.savePrimask sys.kernel.primask)
        ⟨bs, .entering .nest b caller⟩, []) := by
    simp [go, System.onKernel]
  have hNest : (s.next (sys.onKernel fun k => k.disableIrq.savePrimask sys.kernel.primask)
        ⟨bs, .entering .nest b caller⟩).go =
      some (s.next (sys.onKernel rtoskKernelEnterCritical) ⟨b :: bs, caller.pc⟩, []) := by
    simp [go, System.onKernel, enterCritical_statements]
  exact .cons [] hGet (.cons [] hDisable (.cons [] hSave (.cons [] hNest h)))

/-- Exit, uninterrupted, is `rtoskKernelExitCritical`. -/
theorem goes_exit {b : Mark} {caller : ExitFrom} {bs : List Mark} {sys : System} {s' : Cpu}
    (h : Goes (s.next (sys.onKernel rtoskKernelExitCritical) ⟨bs, caller.pc⟩) s') :
    Goes (s.next sys ⟨b :: bs, .exiting .test caller⟩) s' := by
  have hExited : ∀ {sys : System} {k : Kernel} {stmt : ExitAt},
      (s.next sys ⟨b :: bs, .exiting stmt caller⟩).exited k caller =
        (s.next { sys with kernel := k } ⟨bs, caller.pc⟩, [.exited b k.masking.mark]) := by
    intro sys k stmt
    simp [exited]
  by_cases hZero : sys.kernel.criticalNesting = 0
  · have hTest : (s.next sys ⟨b :: bs, .exiting .test caller⟩).go =
        some (s.next (sys.onKernel rtoskKernelExitCritical) ⟨bs, caller.pc⟩,
          [.exited b sys.kernel.masking.mark]) := by
      simp [go, hZero, hExited, System.onKernel, exitCritical_statements]
    exact .cons _ hTest h
  · have hTest : (s.next sys ⟨b :: bs, .exiting .test caller⟩).go =
        some (s.next sys ⟨b :: bs, .exiting .unnest caller⟩, []) := by
      simp [go, hZero, jump]
    have hUnnest : (s.next sys ⟨b :: bs, .exiting .unnest caller⟩).go =
        some (s.next (sys.onKernel Kernel.unnest) ⟨b :: bs, .exiting .retest caller⟩, []) := by
      simp [go]
    refine .cons [] hTest (.cons [] hUnnest ?_)
    by_cases hOuter : sys.kernel.unnest.criticalNesting = 0
    · have hRetest : (s.next (sys.onKernel Kernel.unnest) ⟨b :: bs, .exiting .retest caller⟩).go =
          some (s.next (sys.onKernel Kernel.unnest) ⟨b :: bs, .exiting .irqRestore caller⟩,
            []) := by
        simp [go, hOuter, jump]
      have hRestore :
          (s.next (sys.onKernel Kernel.unnest) ⟨b :: bs, .exiting .irqRestore caller⟩).go =
            some (s.next (sys.onKernel rtoskKernelExitCritical) ⟨bs, caller.pc⟩,
              [.exited b (rtoskKernelExitCritical sys.kernel).masking.mark]) := by
        simp [go, hZero, hOuter, hExited, System.onKernel, exitCritical_statements]
      exact .cons [] hRetest (.cons _ hRestore h)
    · have hRetest : (s.next (sys.onKernel Kernel.unnest) ⟨b :: bs, .exiting .retest caller⟩).go =
          some (s.next (sys.onKernel rtoskKernelExitCritical) ⟨bs, caller.pc⟩,
            [.exited b (rtoskKernelExitCritical sys.kernel).masking.mark]) := by
        simp [go, hZero, hOuter, hExited, System.onKernel, exitCritical_statements]
      exact .cons _ hRetest h

/-- **An uninterrupted round of a call is `System.enter`.** -/
theorem goes_round {c : Call} {m : Mark} {bs : List Mark} {sys : System}
    (hSection : (Api.call c).hasSection = true) :
    Goes (s.next sys ⟨bs, .calling (.call c) m⟩)
      (s.next (sys.enter c).1 ⟨bs, .leaving (.call c) m (sys.enter c).2.1⟩) := by
  obtain ⟨hSys, hExit⟩ := System.section_enter hSection sys
  rw [hSys, hExit]
  generalize hNote : (s.next sys ⟨bs, .calling (.call c) m⟩).now = b
  have hCalling : (s.next sys ⟨bs, .calling (.call c) m⟩).go =
      some (s.next sys ⟨bs, .entering .getPrimask b (.call (.call c) m)⟩, []) := by
    simp [go, hSection, jump, hNote]
  refine .cons [] hCalling (goes_enter ?_)
  generalize sys.onKernel rtoskKernelEnterCritical = inner
  have hBody : (s.next inner ⟨b :: bs, .body (.call c) m⟩).go =
      some (s.next ((Api.call c).body inner).1 ⟨b :: bs,
        .exiting .test (.call (.call c) m ((Api.call c).body inner).2)⟩, []) := by
    simp [go]
  exact .cons [] hBody (goes_exit ⟨[], .refl _ _⟩)

end Cpu

end Critical

end TinyRtos
