import TinyRtos.Port.Start

/-!
# TinyRTOS — the start phase (`rtosk_kernel_start`, and `main` before it)

Until SVC the code that runs is `main`, on the main stack: PSP belongs to no
task, and yet PendSV can come in. `Startup` is the machine in that phase, with
the place of `main` in its current call (`Main`). A step is one of

* `call c`, `yield` — a call of the kernel by `main` up to the end of its
  critical section, and the `rtosk_kernel_yield` after it;
* `create`, `createStep` — `rtosk_kernel_create_task`, piece by piece;
* `systickInit`, `start`, `startStep` — `rtosk_kernel_systick_init` and
  `rtosk_kernel_start`, the latter piece by piece up to the SVC;
* `tick` — SysTick, once it is enabled, between any two of these and inside
  PendSV;
* `pendSv`, `scan`, `pendSvExit` — PendSV, taken before `main` goes on;
* `work` — `main` computes.

SysTick is the only interrupt here. That of USART3, which `rtosk_osi_init`
enables, and those of the program may come in before the SVC as well; what they
give and send is not part of this phase.

Word addresses are modulo `2 ^ 30` here: PSP may hold anything.

A step that requests a switch is recorded in the history, with the number of
tasks there are (`Event.requested`). `StepCase` says once what a step can do.
-/

namespace TinyRtos

/-- What is left of `rtosk_kernel_start` after its first check: the check of
the task count, the pieces of `rtosk_task_init_idle`, `RTOSK_KERNEL_INIT = 1U`,
the SVC; or the loop of a kernel without tasks. -/
inductive StartStage
  | count
  | idle (stage : CreateStage)
  | init
  | svc
  | halted
  deriving DecidableEq, Repr

/-- Where `main` is. The phase ends when `SVC_Handler` reads the first stack
pointer. -/
inductive Main
  | user
  | leaving (c : Call)
  | creating (c : Create)
  | starting (stage : StartStage)
  | started

/-- The calls `main` may make besides those that have labels of their own. -/
def Call.duringStart : Call → Bool
  | .semaphoreInit .. | .mutexInit _ | .queueInit .. | .semaphoreGive _ | .mutexUnlock _
  | .queueSend .. | .yield => true
  | _ => false

/-- What exception entry from `main` leaves in LR: thread mode, MSP. -/
def excReturnMsp : UInt32 := 0xFFFFFFF9

/-- Eight words below an address, and eight above it. -/
def wordsBelow (a : Nat) : Nat := (a + 2 ^ 30 - 8) % 2 ^ 30

def wordsAbove (a : Nat) : Nat := (a + 8) % 2 ^ 30

structure Startup where
  sys : System
  mem : Nat → UInt32
  r4r11 : Fin 8 → UInt32
  psp : Nat
  msp : List (UInt32 × UInt32)
  systickInit : Bool
  main : Main

namespace Startup

inductive Label
  | work (r4r11 : Fin 8 → UInt32)
  | call (c : Call)
  | yield
  | create (taskFunc priority : UInt32)
  | createStep
  | systickInit
  | start
  | startStep
  | tick
  | pendSv
  | scan
  | pendSvExit

/-- A switch is requested, with so many tasks in the table. -/
inductive Event
  | requested (taskCount : Nat)
  deriving DecidableEq, Repr

/-- The file-scope variables of `task.c`. -/
def table (s : Startup) : TaskTable := s.sys.kernel.toTaskTable

def setSys (sys : System) (s : Startup) : Startup := { s with sys := sys }

def setMain (main : Main) (s : Startup) : Startup := { s with main := main }

def onTable (f : TaskTable → TaskTable) (s : Startup) : Startup :=
  s.setSys { s.sys with kernel := s.sys.kernel.onTable f }

/-- The code of `main` runs: PendSV is neither active nor about to be. -/
def Thread (s : Startup) : Prop :=
  s.sys.scan = none ∧ ¬ (s.sys.kernel.pendSv = true ∧ s.sys.kernel.Unmasked)

instance (s : Startup) : Decidable s.Thread := inferInstanceAs (Decidable (_ ∧ ¬ (_ ∧ _)))

section

variable [TaskConfig]

-- ---------------------------------------------------------------------------
-- PendSV
-- ---------------------------------------------------------------------------

/-- `PendSV_Handler` up to the call of `rtosk_scheduler_select_next`: `mrs r0,
psp` reads a PSP that no exception entry has set. -/
def enterPendSv (s : Startup) : Startup :=
  let r0 := wordsBelow s.psp
  let words := (List.finRange 8).map fun i => ((r0 + i.val) % 2 ^ 30, s.r4r11 i)
  let s := { s with
    mem := Memory.writeAll s.mem words
    msp := (s.r4r11 0, excReturnMsp) :: s.msp }
  s.onTable (rtoskTaskSaveStackPointer r0)

/-- `PendSV_Handler` after that call. LR is that of `main`, which goes on with
the registers of the selected task. -/
def leavePendSv (s : Startup) : Startup :=
  let r0 := rtoskTaskGetStackPointer s.table
  { s with
    r4r11 := fun i => s.mem ((r0 + i.val) % 2 ^ 30)
    psp := wordsAbove r0
    msp := s.msp.tail }

-- ---------------------------------------------------------------------------
-- `rtosk_kernel_start`
-- ---------------------------------------------------------------------------

/-- One piece of `rtosk_task_init_idle`. -/
def advanceIdle (img : Image) (stage : CreateStage) (s : Startup) : Startup :=
  match stage with
  | .watermark =>
    { s with
      mem := rtoskTaskWatermarkStack img rtoskIdleTaskIndex s.mem
      main := .starting (.idle .build) }
  | .build =>
    let (sp, mem) := rtoskTaskBuildStack img rtoskIdleTaskIndex img.idleTask s.mem
    ({ s with mem := mem, main := .starting (.idle .fields) } : Startup).onTable
      (TaskTable.setSp rtoskIdleTaskIndex sp)
  | .fields =>
    (s.setMain (.starting (.idle .count))).onTable fun k => { k with
      tasks := Function.update k.tasks rtoskIdleTaskIndex { k.tasks rtoskIdleTaskIndex with
        state := .idle
        wakeTick := 0
        priority := 0 } }
  | .count => (s.setMain (.starting .init)).onTable fun k => { k with idleReady := true }

/-- One piece of `rtosk_kernel_start`. -/
def advanceStart (img : Image) (stage : StartStage) (s : Startup) : Option Startup :=
  match stage with
  | .count =>
    if s.table.taskCount = 0 then some (s.setMain (.starting .halted))
    else if s.table.idleReady then some (s.setMain (.starting .init))
    else some (s.setMain (.starting (.idle .watermark)))
  | .idle stage => some (s.advanceIdle img stage)
  | .init =>
    some ((s.setSys { s.sys with kernel := { s.sys.kernel with kernelInit := true } }).setMain
      (.starting .svc))
  | .svc => some (s.setMain .started)
  | .halted => none

-- ---------------------------------------------------------------------------
-- Steps
-- ---------------------------------------------------------------------------

/-- `main` goes on after the critical section of `c`. -/
def afterCall (c : Call) : Exit → Main
  | .returns => .user
  | .yields => .leaving c

/-- One piece of a creation by `main`. -/
def advance (img : Image) (c : Create) (s : Startup) : Startup :=
  let (k, mem, rest) := c.advance img s.table s.mem
  ({ s with mem := mem, main := rest.elim .user .creating } : Startup).onTable fun _ => k

def stepMain (img : Image) (s : Startup) : Label → Option (Startup × List Event)
  | .work r4r11 => some ({ s with r4r11 := r4r11 }, [])
  | .call c =>
    match s.main with
    | .user =>
      if c.duringStart then
        let (sys, exit, _) := s.sys.enter c
        some ((s.setSys sys).setMain (afterCall c exit), [])
      else none
    | _ => none
  | .yield =>
    match s.main with
    | .leaving _ =>
      some ((s.setSys { s.sys with kernel := rtoskKernelYield s.sys.kernel }).setMain .user,
        [.requested s.table.taskCount])
    | _ => none
  | .create taskFunc priority =>
    match s.main with
    | .user =>
      if Accepts s.table taskFunc then
        some (s.setMain (.creating (Create.start s.table taskFunc priority)), [])
      else some (s, [])
    | _ => none
  | .createStep =>
    match s.main with
    | .creating c => some (s.advance img c, [])
    | _ => none
  | .systickInit =>
    match s.main with
    | .user => some ({ s with systickInit := true }, [])
    | _ => none
  | .start =>
    match s.main with
    | .user =>
      if s.sys.kernel.kernelInit then some (s, [])
      else some (s.setMain (.starting .count), [])
    | _ => none
  | .startStep =>
    match s.main with
    | .starting stage => (s.advanceStart img stage).map fun s => (s, [])
    | _ => none
  | _ => none

def stepHandler (s : Startup) : Label → Option (Startup × List Event)
  | .tick =>
    if s.systickInit then
      (s.sys.step .tick).map fun r => (s.setSys r.1,
        if s.sys.kernel.kernelInit then [.requested s.table.taskCount] else [])
    else none
  | .pendSv =>
    (s.enterPendSv.sys.step .pendSv).map fun r =>
      match r.1.scan with
      | some _ => (s.enterPendSv.setSys r.1, [])
      -- an empty table: `rtosk_scheduler_select_next` returned at once
      | none => ((s.enterPendSv.setSys r.1).leavePendSv, [])
  | .scan => (s.sys.step .scan).map fun r => (s.setSys r.1, [])
  | .pendSvExit => (s.sys.step .pendSvExit).map fun r => ((s.setSys r.1).leavePendSv, [])
  | _ => none

/-- The label is a handler's. -/
def Label.isHandler : Label → Bool
  | .tick | .pendSv | .scan | .pendSvExit => true
  | _ => false

def step (img : Image) (s : Startup) (l : Label) : Option (Startup × List Event) :=
  match s.main with
  | .started => none
  | _ => if l.isHandler then s.stepHandler l else if s.Thread then s.stepMain img l else none

-- ---------------------------------------------------------------------------
-- What a step can do
-- ---------------------------------------------------------------------------

/-- The pieces of `rtosk_kernel_start`. -/
inductive StartCase (img : Image) (s : Startup) : StartStage → Startup → Prop
  | empty (hNone : s.table.taskCount = 0) :
      StartCase img s .count (s.setMain (.starting .halted))
  | idleReady (hSome : s.table.taskCount ≠ 0) (hReady : s.table.idleReady = true) :
      StartCase img s .count (s.setMain (.starting .init))
  | idleNot (hSome : s.table.taskCount ≠ 0) (hNot : s.table.idleReady = false) :
      StartCase img s .count (s.setMain (.starting (.idle .watermark)))
  | idle (stage : CreateStage) : StartCase img s (.idle stage) (s.advanceIdle img stage)
  | init :
      StartCase img s .init
        ((s.setSys { s.sys with kernel := { s.sys.kernel with kernelInit := true } }).setMain
          (.starting .svc))
  | svc : StartCase img s .svc (s.setMain .started)

/-- The steps of the start phase. -/
inductive StepCase (img : Image) (s : Startup) : Label → Startup → List Event → Prop
  | work (r4r11 : Fin 8 → UInt32) (hThread : s.Thread) :
      StepCase img s (.work r4r11) { s with r4r11 := r4r11 } []
  | call {c : Call} {sys : System} {exit : Exit} {es : List TinyRtos.Event} (hThread : s.Thread)
      (hUser : s.main = .user) (hDuring : c.duringStart = true)
      (hCall : System.CallStep s.sys c sys exit es) :
      StepCase img s (.call c) ((s.setSys sys).setMain (afterCall c exit)) []
  | yield {c : Call} (hThread : s.Thread) (hAt : s.main = .leaving c) :
      StepCase img s .yield
        ((s.setSys { s.sys with kernel := rtoskKernelYield s.sys.kernel }).setMain .user)
        [.requested s.table.taskCount]
  | create (taskFunc priority : UInt32) (hThread : s.Thread) (hUser : s.main = .user)
      (hAccepts : Accepts s.table taskFunc) :
      StepCase img s (.create taskFunc priority)
        (s.setMain (.creating (Create.start s.table taskFunc priority))) []
  | createRefused (taskFunc priority : UInt32) (hNot : ¬ Accepts s.table taskFunc) :
      StepCase img s (.create taskFunc priority) s []
  | createStep {c : Create} (hThread : s.Thread) (hAt : s.main = .creating c) :
      StepCase img s .createStep (s.advance img c) []
  | systickInit (hUser : s.main = .user) :
      StepCase img s .systickInit { s with systickInit := true } []
  | start (hThread : s.Thread) (hUser : s.main = .user) (hInit : s.sys.kernel.kernelInit = false) :
      StepCase img s .start (s.setMain (.starting .count)) []
  | startAgain : StepCase img s .start s []
  | startStep {stage : StartStage} {s' : Startup} (hThread : s.Thread)
      (hAt : s.main = .starting stage) (hStart : StartCase img s stage s') :
      StepCase img s .startStep s' []
  | tick (hUnmasked : s.sys.kernel.Unmasked) :
      StepCase img s .tick (s.setSys { s.sys with kernel := rtoskKernelTick s.sys.kernel })
        (if s.sys.kernel.kernelInit then [.requested s.table.taskCount] else [])
  | pendSv {c : Scan} (hNone : s.sys.scan = none) (hPend : s.sys.kernel.pendSv = true)
      (hBegin : selectNextBegin s.enterPendSv.table = some c) :
      StepCase img s .pendSv (s.enterPendSv.setSys { s.enterPendSv.sys with
        kernel := { s.enterPendSv.sys.kernel with pendSv := false }, scan := some c }) []
  | pendSvEmpty (hNone : s.sys.scan = none) (hPend : s.sys.kernel.pendSv = true)
      (hBegin : selectNextBegin s.enterPendSv.table = none) :
      StepCase img s .pendSv (s.enterPendSv.setSys { s.enterPendSv.sys with
        kernel := { s.enterPendSv.sys.kernel with pendSv := false } }).leavePendSv []
  | scan {c : Scan} (hScan : s.sys.scan = some c) (hMore : c.offset < c.taskCount) :
      StepCase img s .scan
        (s.setSys { s.sys with scan := some (selectNextRound s.table c) }) []
  | pendSvExit {c : Scan} (hScan : s.sys.scan = some c) (hDone : ¬ c.offset < c.taskCount) :
      StepCase img s .pendSvExit (s.setSys { s.sys with
        kernel := s.sys.kernel.onTable (selectNextEnd c), scan := none }).leavePendSv []

variable {img : Image} {s s' : Startup} {l : Label} {es : List Event}

theorem advanceStart_cases {stage : StartStage} (h : s.advanceStart img stage = some s') :
    StartCase img s stage s' := by
  cases stage with
  | count =>
    simp only [advanceStart] at h
    split at h
    · rename_i hNone
      cases h
      exact .empty hNone
    · rename_i hSome
      split at h
      · rename_i hReady
        cases h
        exact .idleReady hSome hReady
      · rename_i hNot
        cases h
        exact .idleNot hSome (Bool.eq_false_iff.mpr hNot)
  | idle stage =>
    cases h
    exact .idle stage
  | init =>
    cases h
    exact .init
  | svc =>
    cases h
    exact .svc
  | halted => cases h

theorem stepMain_cases (hThread : s.Thread) (h : s.stepMain img l = some (s', es)) :
    StepCase img s l s' es := by
  cases l with
  | work r4r11 =>
    cases h
    exact .work r4r11 hThread
  | call c =>
    simp only [stepMain] at h
    split at h
    · rename_i hUser
      split at h
      · rename_i hDuring
        cases h
        exact .call hThread hUser hDuring (System.enter_callStep c s.sys)
      · cases h
    · cases h
  | yield =>
    simp only [stepMain] at h
    split at h
    · rename_i c hAt
      cases h
      exact .yield hThread hAt
    · cases h
  | create taskFunc priority =>
    simp only [stepMain] at h
    split at h
    · rename_i hUser
      split at h
      · rename_i hAccepts
        cases h
        exact .create taskFunc priority hThread hUser hAccepts
      · rename_i hNot
        cases h
        exact .createRefused taskFunc priority hNot
    · cases h
  | createStep =>
    simp only [stepMain] at h
    split at h
    · rename_i c hAt
      cases h
      exact .createStep hThread hAt
    · cases h
  | systickInit =>
    simp only [stepMain] at h
    split at h
    · rename_i hUser
      cases h
      exact .systickInit hUser
    · cases h
  | start =>
    simp only [stepMain] at h
    split at h
    · rename_i hUser
      split at h
      · cases h
        exact .startAgain
      · rename_i hInit
        cases h
        exact .start hThread hUser (Bool.eq_false_iff.mpr hInit)
    · cases h
  | startStep =>
    simp only [stepMain] at h
    split at h
    · rename_i stage hAt
      obtain ⟨s₁, hAdvance, hEq⟩ := Option.map_eq_some_iff.mp h
      cases hEq
      exact .startStep hThread hAt (advanceStart_cases hAdvance)
    · cases h
  | tick | pendSv | scan | pendSvExit => cases h

theorem stepHandler_cases (h : s.stepHandler l = some (s', es)) : StepCase img s l s' es := by
  cases l with
  | tick =>
    simp only [stepHandler] at h
    split at h
    · obtain ⟨⟨sys, es₁⟩, hStep, hEq⟩ := Option.map_eq_some_iff.mp h
      simp only [System.step] at hStep
      split at hStep
      · rename_i hUnmasked
        cases hStep
        cases hEq
        exact .tick hUnmasked
      · cases hStep
    · cases h
  | pendSv =>
    obtain ⟨⟨sys, es₁⟩, hStep, hEq⟩ := Option.map_eq_some_iff.mp h
    cases System.step_cases hStep with
    | perform _ hAt _ => rcases hAt with ⟨hLabel, -⟩ | ⟨hLabel, -⟩ <;> cases hLabel
    | isr _ hIsr => cases hIsr
    | pendSv hNone hPend _ hBegin =>
      cases hEq
      exact .pendSv hNone hPend hBegin
    | pendSvEmpty hNone hPend _ hBegin =>
      split at hEq
      · rename_i c hScan
        cases hScan.symm.trans hNone
      · cases hEq
        exact .pendSvEmpty hNone hPend hBegin
  | scan =>
    obtain ⟨⟨sys, es₁⟩, hStep, hEq⟩ := Option.map_eq_some_iff.mp h
    simp only [System.step] at hStep
    split at hStep
    · cases hStep
    · rename_i c hScan
      split at hStep
      · rename_i hMore
        cases hStep
        cases hEq
        exact .scan hScan hMore
      · cases hStep
  | pendSvExit =>
    obtain ⟨⟨sys, es₁⟩, hStep, hEq⟩ := Option.map_eq_some_iff.mp h
    obtain ⟨c, hScan, hDone, rfl⟩ := (System.step_cases hStep).of_pendSvExit
    cases hEq
    exact .pendSvExit hScan hDone
  | _ => cases h

/-- **`StepCase` is complete.** -/
theorem step_cases (h : s.step img l = some (s', es)) : StepCase img s l s' es := by
  unfold step at h
  split at h
  · cases h
  · split at h
    · exact stepHandler_cases h
    · split at h
      · rename_i hThread
        exact stepMain_cases hThread h
      · cases h

end

end Startup

end TinyRtos
