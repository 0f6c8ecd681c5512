import TinyRtos.Kernel.Dispatch
import TinyRtos.Port.Stack

/-!
# TinyRTOS — the machine under the kernel (`port.c`, `task.c`)

`Machine` is the running system together with what its context switch moves
around: the registers of the code that runs, PSP, the words that `push {r4, lr}`
left on the main stack, and memory. `Machine.step` refines `System.step`:

* `kernel l` — a step of the kernel. PendSV's three labels carry their assembly:
  exception entry, `stmdb`, `push` and `rtosk_task_save_stack_pointer` before
  the scan, and `rtosk_task_get_stack_pointer`, `pop`, `ldmia`, `msr psp` and
  the exception return after it;
* `work w` — the running task computes: any new register values, any writes,
  perhaps floating point. The words that interrupt handlers stack below PSP
  while a task runs are such writes too, and so is what a call copies to its
  caller's item;
* `create`, `createStep` — `rtosk_kernel_create_task` by the running task, which
  is in no critical section, so that PendSV may come in after each piece of it.

The hardware's part is that of ARMv7-M with `CCR.STKALIGN` set: entry stacks
eight words, or twenty-six if the floating point unit was used (`CONTROL.FPCA`),
at a doubleword boundary, and bit 9 of the stacked xPSR remembers a skipped
word; LR gets the EXC_RETURN for that frame, and the return unstacks whatever
frame its EXC_RETURN names.

Handlers nested in PendSV run on the main stack above the pushed pair and leave
R4–R11 as they find them, so they show as kernel steps only; nothing that they
change is read between the instructions joined in `enterPendSv`, nor between
those in `leavePendSv`.
-/

namespace TinyRtos

/-- `RTOSK_EXC_RETURN_PSP`, which `SVC_Handler` loads. -/
def rtoskExcReturnPsp : UInt32 := 0xFFFFFFFD

/-- What exception entry from a task leaves in LR: thread mode, PSP, and bit 4
clear for an extended frame. -/
def excReturn (extended : Bool) : UInt32 := if extended then 0xFFFFFFED else 0xFFFFFFFD

/-- The frame type that an EXC_RETURN names. -/
def isExtended (lr : UInt32) : Bool := lr &&& 0x10 = 0

@[simp] theorem isExtended_excReturn (extended : Bool) :
    isExtended (excReturn extended) = extended := by
  cases extended <;> decide

theorem excReturn_injective : Function.Injective excReturn := by
  intro a b h
  have hType := congrArg isExtended h
  rwa [isExtended_excReturn, isExtended_excReturn] at hType

-- ---------------------------------------------------------------------------
-- Creating tasks
-- ---------------------------------------------------------------------------

/-- The pieces of `rtosk_task_create`, in order: `rtosk_task_watermark_stack`,
`rtosk_task_build_stack` with the store to `sp`, the stores to the other fields,
`RTOSK_TASK_COUNT++`. -/
inductive CreateStage
  | watermark
  | build
  | fields
  | count
  deriving DecidableEq, Repr

/-- A call of `rtosk_task_create` past its checks: the slot `task` points to,
the arguments, and the piece that is next. -/
structure Create where
  index : Nat
  taskFunc : UInt32
  priority : UInt32
  stage : CreateStage
  deriving DecidableEq, Repr

/-- The call is past its two checks. -/
def Accepts [TaskConfig] (k : TaskTable) (taskFunc : UInt32) : Prop :=
  taskFunc ≠ 0 ∧ k.taskCount < rtoskMaxTasks

instance [TaskConfig] (k : TaskTable) (taskFunc : UInt32) : Decidable (Accepts k taskFunc) :=
  inferInstanceAs (Decidable (_ ∧ _))

section Creating

variable [TaskConfig]

def Create.start (k : TaskTable) (taskFunc priority : UInt32) : Create where
  index := k.taskCount
  taskFunc := taskFunc
  priority := priority
  stage := .watermark

/-- One piece of the call, and the call that is left. -/
def Create.advance (img : Image) (c : Create) (k : TaskTable) (mem : Nat → UInt32) :
    TaskTable × (Nat → UInt32) × Option Create :=
  match c.stage with
  | .watermark => (k, rtoskTaskWatermarkStack img c.index mem, some { c with stage := .build })
  | .build =>
    let (sp, mem) := rtoskTaskBuildStack img c.index c.taskFunc mem
    (k.setSp c.index sp, mem, some { c with stage := .fields })
  | .fields =>
    ({ k with tasks := Function.update k.tasks c.index { k.tasks c.index with
        state := .ready
        wakeTick := 0
        priority := c.priority } }, mem, some { c with stage := .count })
  | .count => ({ k with taskCount := k.taskCount + 1 }, mem, none)

/-- `rtosk_task_create` by `main`, where nothing comes in between. -/
def createTask (img : Image) (s : TaskTable × (Nat → UInt32)) (task : UInt32 × UInt32) :
    TaskTable × (Nat → UInt32) :=
  let (k, mem) := s
  let (taskFunc, priority) := task
  if taskFunc = 0 then s
  else if rtoskMaxTasks ≤ k.taskCount then s
  else
    let mem := rtoskTaskWatermarkStack img k.taskCount mem
    let (sp, mem) := rtoskTaskBuildStack img k.taskCount taskFunc mem
    (rtoskTaskCreate sp priority k, mem)

/-- `rtosk_task_init_idle`. -/
def initIdle (img : Image) (s : TaskTable × (Nat → UInt32)) : TaskTable × (Nat → UInt32) :=
  let (k, mem) := s
  if k.idleReady then s
  else
    let mem := rtoskTaskWatermarkStack img rtoskIdleTaskIndex mem
    let (sp, mem) := rtoskTaskBuildStack img rtoskIdleTaskIndex img.idleTask mem
    (rtoskTaskInitIdle sp k, mem)

/-- The four pieces in a row are the call of `main`. -/
theorem createTask_eq_advance {img : Image} {k : TaskTable} {taskFunc : UInt32}
    (hAccepts : Accepts k taskFunc) (priority : UInt32) (mem : Nat → UInt32) :
    let c := Create.start k taskFunc priority
    let r₁ := c.advance img k mem
    let r₂ := { c with stage := .build }.advance img r₁.1 r₁.2.1
    let r₃ := { c with stage := .fields }.advance img r₂.1 r₂.2.1
    let r₄ := { c with stage := .count }.advance img r₃.1 r₃.2.1
    createTask img (k, mem) (taskFunc, priority) = (r₄.1, r₄.2.1) := by
  obtain ⟨hFunc, hRoom⟩ := hAccepts
  simp only [createTask, if_neg hFunc, if_neg (Nat.not_le.mpr hRoom), Create.start,
    Create.advance, rtoskTaskCreate, TaskTable.setSp, Function.update_self,
    Function.update_idem]

end Creating

-- ---------------------------------------------------------------------------
-- The machine
-- ---------------------------------------------------------------------------

/-- The registers are those of the task that runs, as last set; `frame` is R0–R3,
R12, LR, PC and xPSR, `fpRegs` is S0–S15 and FPSCR. -/
structure Machine where
  sys : System
  mem : Nat → UInt32
  r4r11 : Fin 8 → UInt32
  frame : Fin 8 → UInt32
  fpRegs : Fin 17 → UInt32
  fpca : Bool
  psp : Nat
  msp : List (UInt32 × UInt32)
  creates : Nat → Option Create

namespace Machine

/-- What a task's own code does in one go. `fpRegs` is there if the code used the
floating point unit. -/
structure Work where
  r4r11 : Fin 8 → UInt32
  frame : Fin 8 → UInt32
  psp : Nat
  writes : List (Nat × UInt32)
  fpRegs : Option (Fin 17 → UInt32)

inductive Label
  | kernel (l : TinyRtos.Label)
  | work (w : Work)
  | create (taskFunc priority : UInt32)
  | createStep

/-- `entered` records a task's context at the entry of PendSV and the type of its
frame; `resumed` the context and the EXC_RETURN PendSV branches to. -/
inductive Event
  | entered (t : Nat) (ctx : Context) (extended : Bool)
  | resumed (t : Nat) (ctx : Context) (lr : UInt32)
  | created (t : Nat) (taskFunc : UInt32)
  deriving DecidableEq

/-- `RTOSK_CURRENT_TASK`. -/
def current (m : Machine) : Nat := m.sys.kernel.currentTask

/-- The file-scope variables of `task.c`. -/
def table (m : Machine) : TaskTable := m.sys.kernel.toTaskTable

def setSys (sys : System) (m : Machine) : Machine := { m with sys := sys }

def onTable (f : TaskTable → TaskTable) (m : Machine) : Machine :=
  m.setSys { m.sys with kernel := m.sys.kernel.onTable f }

/-- R4–R11, PSP and the frame at PSP. -/
def context (m : Machine) : Context where
  r4r11 := m.r4r11
  psp := m.psp
  frame := Memory.load m.mem m.psp 8

-- ---------------------------------------------------------------------------
-- Exceptions
-- ---------------------------------------------------------------------------

/-- xPSR as it is stacked: bit 9 says that a word was skipped. -/
def stackedXpsr (xpsr : UInt32) (skipped : Bool) : UInt32 :=
  if skipped then xpsr ||| 0x200 else xpsr &&& ~~~0x200

/-- Words of a frame. -/
def frameWords (extended : Bool) : Nat := if extended then 26 else 8

/-- Exception entry from a task, and what it leaves in LR. -/
def exceptionEntry (m : Machine) : Machine × UInt32 :=
  let frameptr := (m.psp - frameWords m.fpca) / 2 * 2
  let frame := Function.update m.frame 7 (stackedXpsr (m.frame 7) (m.psp % 2 = 1))
  let mem := Memory.store m.mem frameptr frame
  let mem := if m.fpca then Memory.store mem (frameptr + 8) m.fpRegs else mem
  ({ m with mem := mem, psp := frameptr, fpca := false }, excReturn m.fpca)

/-- Exception return to a task. -/
def exceptionReturn (lr : UInt32) (m : Machine) : Machine :=
  let frame := Memory.load m.mem m.psp 8
  { m with
    frame := frame
    fpRegs := if isExtended lr then Memory.load m.mem (m.psp + 8) 17 else m.fpRegs
    fpca := isExtended lr
    psp := (m.psp + frameWords (isExtended lr)) ||| (if frame 7 &&& 0x200 = 0 then 0 else 1) }

section Handlers

variable [TaskConfig]

/-- `SVC_Handler`. -/
def svcHandler (m : Machine) : Machine :=
  let r0 := rtoskTaskGetStackPointer m.table
  exceptionReturn rtoskExcReturnPsp { m with r4r11 := Memory.load m.mem r0 8, psp := r0 + 8 }

/-- `PendSV_Handler`, with the exception entry, up to the call of
`rtosk_scheduler_select_next`. -/
def enterPendSv (m : Machine) : Machine :=
  let (m, lr) := m.exceptionEntry
  let r0 := m.psp - 8
  let m := { m with
    mem := Memory.store m.mem r0 m.r4r11
    msp := (m.r4r11 0, lr) :: m.msp }
  m.onTable (rtoskTaskSaveStackPointer r0)

/-- `PendSV_Handler` after that call, with the exception return. -/
def leavePendSv (m : Machine) : Option (Machine × List Event) :=
  match m.msp with
  | [] => none
  | (_, lr) :: msp =>
    let r0 := rtoskTaskGetStackPointer m.table
    let m := { m with r4r11 := Memory.load m.mem r0 8, psp := r0 + 8, msp := msp }
    some (m.exceptionReturn lr, [.resumed m.current m.context lr])

/-- LR goes onto the main stack, whatever the frame. -/
theorem enterPendSv_msp (m : Machine) :
    m.enterPendSv.msp = (m.r4r11 0, excReturn m.fpca) :: m.msp := rfl

/-- PendSV returns with the pair on top of the main stack, into the context that
the current slot stands for. -/
theorem leavePendSv_eq {m m' : Machine} {es : List Event} (h : m.leavePendSv = some (m', es)) :
    ∃ r4 lr msp, m.msp = (r4, lr) :: msp ∧
      es = [.resumed m.current (savedContext m.mem (rtoskTaskGetStackPointer m.table)) lr] ∧
      m'.sys = m.sys ∧ m'.mem = m.mem ∧ m'.creates = m.creates ∧ m'.msp = msp ∧
      m'.fpca = isExtended lr := by
  unfold leavePendSv at h
  cases hMsp : m.msp with
  | nil =>
    rw [hMsp] at h
    cases h
  | cons p msp =>
    obtain ⟨r4, lr⟩ := p
    simp only [hMsp, Option.some.injEq, Prod.mk.injEq] at h
    obtain ⟨rfl, rfl⟩ := h
    exact ⟨r4, lr, msp, rfl, rfl, rfl, rfl, rfl, rfl, rfl⟩

-- ---------------------------------------------------------------------------
-- Steps
-- ---------------------------------------------------------------------------

/-- A task runs: PendSV is neither active nor about to be. -/
def Running (m : Machine) : Prop :=
  m.sys.scan = none ∧ ¬ (m.sys.kernel.pendSv = true ∧ m.sys.kernel.Unmasked)

instance (m : Machine) : Decidable m.Running := inferInstanceAs (Decidable (_ ∧ ¬ (_ ∧ _)))

/-- The running task is in the middle of creating another. -/
def Creating (m : Machine) : Prop := (m.creates m.current).isSome = true

instance (m : Machine) : Decidable m.Creating := inferInstanceAs (Decidable (_ = true))

/-- The label begins a call of the kernel. -/
def begins : TinyRtos.Label → Bool
  | .call _ => true
  | _ => false

def doWork (w : Work) (m : Machine) : Machine :=
  { m with
    mem := Memory.writeAll m.mem w.writes
    r4r11 := w.r4r11
    frame := w.frame
    fpRegs := w.fpRegs.getD m.fpRegs
    fpca := m.fpca || w.fpRegs.isSome
    psp := w.psp }

def setCreate (c : Option Create) (m : Machine) : Machine :=
  { m with creates := Function.update m.creates m.current c }

/-- One piece of a creation by the running task. -/
def advance (img : Image) (c : Create) (m : Machine) : Machine × List Event :=
  let (k, mem, rest) := c.advance img m.table m.mem
  (({ m with mem := mem } : Machine).onTable (fun _ => k) |>.setCreate rest,
    if rest = none then [.created c.index c.taskFunc] else [])

def step (img : Image) (m : Machine) : Label → Option (Machine × List Event)
  | .kernel .pendSv =>
    match m.enterPendSv.sys.step .pendSv with
    | none => none
    | some (sys, _) =>
      let entered := Event.entered m.current m.exceptionEntry.1.context m.fpca
      match sys.scan with
      | some _ => some (m.enterPendSv.setSys sys, [entered])
      -- an empty table: `rtosk_scheduler_select_next` returned at once
      | none => (m.enterPendSv.setSys sys).leavePendSv.map fun r => (r.1, entered :: r.2)
  | .kernel .pendSvExit =>
    match m.sys.step .pendSvExit with
    | none => none
    | some (sys, _) => (m.setSys sys).leavePendSv
  | .kernel l =>
    if begins l ∧ m.Creating then none
    else (m.sys.step l).map fun r => (m.setSys r.1, [])
  | .work w => if m.Running then some (m.doWork w, []) else none
  | .create taskFunc priority =>
    match m.sys.pc m.current with
    | .user =>
      if m.sys.Thread ∧ ¬ m.Creating then
        if Accepts m.table taskFunc then
          some (m.setCreate (some (Create.start m.table taskFunc priority)), [])
        else some (m, [])
      else none
    | _ => none
  | .createStep =>
    match m.creates m.current with
    | none => none
    | some c => if m.sys.Thread then some (m.advance img c) else none

-- ---------------------------------------------------------------------------
-- What a step can do
-- ---------------------------------------------------------------------------

/-- The steps of the machine. -/
inductive StepCase (img : Image) (m : Machine) : Label → Machine → List Event → Prop
  | kernel {l : TinyRtos.Label} {s : System} {es : List TinyRtos.Event} (hEnter : l ≠ .pendSv)
      (hExit : l ≠ .pendSvExit) (hFree : begins l = true → ¬ m.Creating)
      (hStep : System.StepCase m.sys l s es) : StepCase img m (.kernel l) (m.setSys s) []
  | pendSv {s : System} {es : List TinyRtos.Event} {c : Scan}
      (hStep : System.StepCase m.enterPendSv.sys .pendSv s es) (hScan : s.scan = some c) :
      StepCase img m (.kernel .pendSv) (m.enterPendSv.setSys s)
        [.entered m.current m.exceptionEntry.1.context m.fpca]
  | pendSvEmpty {s : System} {es : List TinyRtos.Event} {m' : Machine} {es' : List Event}
      (hStep : System.StepCase m.enterPendSv.sys .pendSv s es) (hScan : s.scan = none)
      (hLeave : (m.enterPendSv.setSys s).leavePendSv = some (m', es')) :
      StepCase img m (.kernel .pendSv) m'
        (.entered m.current m.exceptionEntry.1.context m.fpca :: es')
  | pendSvExit {s : System} {es : List TinyRtos.Event} {m' : Machine} {es' : List Event}
      (hStep : System.StepCase m.sys .pendSvExit s es)
      (hLeave : (m.setSys s).leavePendSv = some (m', es')) :
      StepCase img m (.kernel .pendSvExit) m' es'
  | work (w : Work) (hRunning : m.Running) : StepCase img m (.work w) (m.doWork w) []
  | createRefused (taskFunc priority : UInt32) (hNot : ¬ Accepts m.table taskFunc) :
      StepCase img m (.create taskFunc priority) m []
  | create (taskFunc priority : UInt32) (hThread : m.sys.Thread) (hFree : ¬ m.Creating)
      (hAccepts : Accepts m.table taskFunc) :
      StepCase img m (.create taskFunc priority)
        (m.setCreate (some (Create.start m.table taskFunc priority))) []
  | createStep {c : Create} (hThread : m.sys.Thread) (hAt : m.creates m.current = some c) :
      StepCase img m .createStep (m.advance img c).1 (m.advance img c).2

/-- **`StepCase` is complete.** -/
theorem step_cases {img : Image} {m m' : Machine} {l : Label} {es : List Event}
    (h : m.step img l = some (m', es)) : StepCase img m l m' es := by
  cases l with
  | kernel l =>
    by_cases hEnter : l = .pendSv
    · subst hEnter
      simp only [step] at h
      split at h
      · cases h
      · rename_i s es₁ hStep
        split at h
        · rename_i c hScan
          cases h
          exact .pendSv (System.step_cases hStep) hScan
        · rename_i hScan
          obtain ⟨⟨m₁, es₂⟩, hLeave, hEq⟩ := Option.map_eq_some_iff.mp h
          cases hEq
          exact .pendSvEmpty (System.step_cases hStep) hScan hLeave
    · by_cases hExit : l = .pendSvExit
      · subst hExit
        simp only [step] at h
        split at h
        · cases h
        · rename_i s es₁ hStep
          exact .pendSvExit (System.step_cases hStep) h
      · have hOther : m.step img (.kernel l) =
            if begins l ∧ m.Creating then none
            else (m.sys.step l).map fun r => (m.setSys r.1, []) := by
          cases l <;> first | rfl | exact absurd rfl hEnter | exact absurd rfl hExit
        rw [hOther] at h
        split at h
        · cases h
        · rename_i hFree
          obtain ⟨⟨s, es₁⟩, hStep, hEq⟩ := Option.map_eq_some_iff.mp h
          cases hEq
          exact .kernel hEnter hExit (fun hBegins hCreating => hFree ⟨hBegins, hCreating⟩)
            (System.step_cases hStep)
  | work w =>
    simp only [step] at h
    split at h
    · rename_i hRunning
      cases h
      exact .work w hRunning
    · cases h
  | create taskFunc priority =>
    simp only [step] at h
    split at h
    · split at h
      · rename_i hOn
        split at h
        · rename_i hAccepts
          cases h
          exact .create taskFunc priority hOn.1 hOn.2 hAccepts
        · rename_i hNot
          cases h
          exact .createRefused taskFunc priority hNot
      · cases h
    · cases h
  | createStep =>
    simp only [step] at h
    split at h
    · cases h
    · rename_i c hAt
      split at h
      · rename_i hThread
        have hCase : StepCase img m .createStep (m.advance img c).1 (m.advance img c).2 :=
          .createStep hThread hAt
        rw [Option.some.inj h] at hCase
        exact hCase
      · cases h

end Handlers

end Machine

end TinyRtos
