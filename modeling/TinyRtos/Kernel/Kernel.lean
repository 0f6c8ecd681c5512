import TinyRtos.Kernel.Task

/-!
# TinyRTOS — kernel services (`kernel.c`, and `port.c` without its assembly)

`Kernel` adds to the task table the file-scope variables of `kernel.c` and the
two pieces of the processor they drive: PRIMASK and the pending bit of PendSV.
The functions are the ones every later layer is built from: critical sections,
the tick, sleeping and the switch request.

A critical section is a bracket: `rtoskKernelEnterCritical` masks, the body
runs, `rtoskKernelExitCritical` unmasks if it closes the outermost bracket.
Every critical section of the kernel is a `Kernel.bracket` around a body that
works on the task table, and `bracket_open` is the one fact about masking the
other layers use: a bracket entered with interrupts enabled and no nesting
leaves both that way.
-/

namespace TinyRtos

/-- The task table, the variables of `kernel.c`, PRIMASK and PendSV's pending
bit. -/
structure Kernel extends TaskTable where
  systicks : UInt32
  kernelInit : Bool
  criticalNesting : UInt32
  criticalPrimask : UInt32
  primask : UInt32
  pendSv : Bool

namespace Kernel

/-- Run a function of `task.c` on the kernel's table. -/
def onTable (f : TaskTable → TaskTable) (k : Kernel) : Kernel :=
  { k with toTaskTable := f k.toTaskTable }

/-- PRIMASK is clear: interrupts and PendSV are taken. -/
def Unmasked (k : Kernel) : Prop := k.primask &&& 1 = 0

instance (k : Kernel) : Decidable k.Unmasked := inferInstanceAs (Decidable (_ = _))

@[simp] theorem onTable_toTaskTable (f : TaskTable → TaskTable) (k : Kernel) :
    (k.onTable f).toTaskTable = f k.toTaskTable := rfl
@[simp] theorem onTable_systicks (f : TaskTable → TaskTable) (k : Kernel) :
    (k.onTable f).systicks = k.systicks := rfl
@[simp] theorem onTable_kernelInit (f : TaskTable → TaskTable) (k : Kernel) :
    (k.onTable f).kernelInit = k.kernelInit := rfl
@[simp] theorem onTable_criticalNesting (f : TaskTable → TaskTable) (k : Kernel) :
    (k.onTable f).criticalNesting = k.criticalNesting := rfl
@[simp] theorem onTable_criticalPrimask (f : TaskTable → TaskTable) (k : Kernel) :
    (k.onTable f).criticalPrimask = k.criticalPrimask := rfl
@[simp] theorem onTable_primask (f : TaskTable → TaskTable) (k : Kernel) :
    (k.onTable f).primask = k.primask := rfl
@[simp] theorem onTable_pendSv (f : TaskTable → TaskTable) (k : Kernel) :
    (k.onTable f).pendSv = k.pendSv := rfl

end Kernel

-- ---------------------------------------------------------------------------
-- Interrupts and the switch request
-- ---------------------------------------------------------------------------

/-- `SCB->ICSR = PENDSVSET`. -/
def rtoskPortYield (k : Kernel) : Kernel := { k with pendSv := true }

/-- The saved PRIMASK, and the kernel with interrupts disabled. -/
def rtoskPortIrqSave (k : Kernel) : UInt32 × Kernel := (k.primask, { k with primask := 1 })

def rtoskPortIrqRestore (primask : UInt32) (k : Kernel) : Kernel :=
  if primask &&& 1 = 0 then { k with primask := 0 } else k

def rtoskKernelYield (k : Kernel) : Kernel := rtoskPortYield k

def rtoskKernelEnterCritical (k : Kernel) : Kernel :=
  let (primask, k) := rtoskPortIrqSave k
  let k := if k.criticalNesting = 0 then { k with criticalPrimask := primask } else k
  { k with criticalNesting := k.criticalNesting + 1 }

def rtoskKernelExitCritical (k : Kernel) : Kernel :=
  if k.criticalNesting = 0 then k
  else
    let k := { k with criticalNesting := k.criticalNesting - 1 }
    if k.criticalNesting = 0 then rtoskPortIrqRestore k.criticalPrimask k else k

-- ---------------------------------------------------------------------------
-- Sleeping and the tick
-- ---------------------------------------------------------------------------

/-- `rtosk_kernel_sleep_ms` up to its `rtosk_kernel_yield`. -/
def rtoskKernelSleepMs [TaskConfig] (ms : UInt32) (k : Kernel) : Kernel :=
  let k := rtoskKernelEnterCritical k
  let wakeTick := k.systicks + ms
  let k := k.onTable (rtoskTaskBlockCurrentUntil wakeTick)
  rtoskKernelExitCritical k

def rtoskKernelTick (k : Kernel) : Kernel :=
  let k := { k with systicks := k.systicks + 1 }
  if k.kernelInit = false then k
  else
    let k := k.onTable fun table => (rtoskTaskUpdateBlocked k.systicks table).1
    rtoskPortYield k

-- ---------------------------------------------------------------------------
-- Frames
-- ---------------------------------------------------------------------------

@[simp] theorem rtoskPortYield_toTaskTable (k : Kernel) :
    (rtoskPortYield k).toTaskTable = k.toTaskTable := rfl
@[simp] theorem rtoskPortYield_primask (k : Kernel) :
    (rtoskPortYield k).primask = k.primask := rfl
@[simp] theorem rtoskPortYield_criticalNesting (k : Kernel) :
    (rtoskPortYield k).criticalNesting = k.criticalNesting := rfl
@[simp] theorem rtoskPortYield_pendSv (k : Kernel) : (rtoskPortYield k).pendSv = true := rfl
@[simp] theorem rtoskPortYield_systicks (k : Kernel) :
    (rtoskPortYield k).systicks = k.systicks := rfl
@[simp] theorem rtoskPortYield_kernelInit (k : Kernel) :
    (rtoskPortYield k).kernelInit = k.kernelInit := rfl

@[simp] theorem rtoskPortIrqRestore_toTaskTable (p : UInt32) (k : Kernel) :
    (rtoskPortIrqRestore p k).toTaskTable = k.toTaskTable := by
  unfold rtoskPortIrqRestore
  split <;> rfl

@[simp] theorem rtoskPortIrqRestore_pendSv (p : UInt32) (k : Kernel) :
    (rtoskPortIrqRestore p k).pendSv = k.pendSv := by
  unfold rtoskPortIrqRestore
  split <;> rfl

@[simp] theorem rtoskPortIrqRestore_kernelInit (p : UInt32) (k : Kernel) :
    (rtoskPortIrqRestore p k).kernelInit = k.kernelInit := by
  unfold rtoskPortIrqRestore
  split <;> rfl

@[simp] theorem rtoskPortIrqRestore_systicks (p : UInt32) (k : Kernel) :
    (rtoskPortIrqRestore p k).systicks = k.systicks := by
  unfold rtoskPortIrqRestore
  split <;> rfl

@[simp] theorem rtoskPortIrqRestore_criticalNesting (p : UInt32) (k : Kernel) :
    (rtoskPortIrqRestore p k).criticalNesting = k.criticalNesting := by
  unfold rtoskPortIrqRestore
  split <;> rfl

/-- Entering masks, counts, and saves PRIMASK at the outermost level. -/
theorem enterCritical_eq (k : Kernel) :
    rtoskKernelEnterCritical k = { k with
      primask := 1
      criticalPrimask := if k.criticalNesting = 0 then k.primask else k.criticalPrimask
      criticalNesting := k.criticalNesting + 1 } := by
  by_cases hN : k.criticalNesting = 0 <;>
    simp [rtoskKernelEnterCritical, rtoskPortIrqSave, hN]

@[simp] theorem enterCritical_toTaskTable (k : Kernel) :
    (rtoskKernelEnterCritical k).toTaskTable = k.toTaskTable := by
  rw [enterCritical_eq]

@[simp] theorem enterCritical_pendSv (k : Kernel) :
    (rtoskKernelEnterCritical k).pendSv = k.pendSv := by
  rw [enterCritical_eq]

@[simp] theorem enterCritical_kernelInit (k : Kernel) :
    (rtoskKernelEnterCritical k).kernelInit = k.kernelInit := by
  rw [enterCritical_eq]

@[simp] theorem enterCritical_systicks (k : Kernel) :
    (rtoskKernelEnterCritical k).systicks = k.systicks := by
  rw [enterCritical_eq]

@[simp] theorem enterCritical_primask (k : Kernel) :
    (rtoskKernelEnterCritical k).primask = 1 := by
  rw [enterCritical_eq]

@[simp] theorem enterCritical_criticalNesting (k : Kernel) :
    (rtoskKernelEnterCritical k).criticalNesting = k.criticalNesting + 1 := by
  rw [enterCritical_eq]

@[simp] theorem exitCritical_toTaskTable (k : Kernel) :
    (rtoskKernelExitCritical k).toTaskTable = k.toTaskTable := by
  simp only [rtoskKernelExitCritical]
  repeat' split
  all_goals simp

@[simp] theorem exitCritical_pendSv (k : Kernel) :
    (rtoskKernelExitCritical k).pendSv = k.pendSv := by
  simp only [rtoskKernelExitCritical]
  repeat' split
  all_goals simp

@[simp] theorem exitCritical_kernelInit (k : Kernel) :
    (rtoskKernelExitCritical k).kernelInit = k.kernelInit := by
  simp only [rtoskKernelExitCritical]
  repeat' split
  all_goals simp

@[simp] theorem exitCritical_systicks (k : Kernel) :
    (rtoskKernelExitCritical k).systicks = k.systicks := by
  simp only [rtoskKernelExitCritical]
  repeat' split
  all_goals simp

-- ---------------------------------------------------------------------------
-- Brackets
-- ---------------------------------------------------------------------------

namespace Kernel

/-- Interrupts enabled and no critical section open. -/
structure Open (k : Kernel) : Prop where
  unmasked : k.Unmasked
  nesting  : k.criticalNesting = 0

/-- Whenever interrupts are enabled no critical section is open. -/
def MaskInv (k : Kernel) : Prop := k.Unmasked → k.criticalNesting = 0

theorem MaskInv.isOpen {k : Kernel} (h : MaskInv k) (hU : k.Unmasked) : k.Open :=
  ⟨hU, h hU⟩

end Kernel

/-- Masked kernels stay within the invariant through the outermost exit. -/
theorem exitCritical_maskInv {k : Kernel} (h : k.MaskInv) :
    (rtoskKernelExitCritical k).MaskInv := by
  intro hU
  simp only [rtoskKernelExitCritical] at hU ⊢
  by_cases h0 : k.criticalNesting = 0
  · rw [if_pos h0] at hU ⊢
    exact h0
  · rw [if_neg h0] at hU ⊢
    by_cases h1 : k.criticalNesting - 1 = 0
    · rw [if_pos h1]
      simpa using h1
    · rw [if_neg h1] at hU ⊢
      exact absurd (h hU) h0

theorem enterCritical_maskInv (k : Kernel) : (rtoskKernelEnterCritical k).MaskInv := by
  intro hU
  unfold Kernel.Unmasked at hU
  rw [enterCritical_primask] at hU
  exact absurd hU (by decide)

/-- A critical section around a body that works on the table. -/
def Kernel.bracket (f : TaskTable → TaskTable) (k : Kernel) : Kernel :=
  rtoskKernelExitCritical ((rtoskKernelEnterCritical k).onTable f)

@[simp] theorem bracket_toTaskTable (f : TaskTable → TaskTable) (k : Kernel) :
    (k.bracket f).toTaskTable = f k.toTaskTable := by
  simp [Kernel.bracket]

@[simp] theorem bracket_pendSv (f : TaskTable → TaskTable) (k : Kernel) :
    (k.bracket f).pendSv = k.pendSv := by
  simp [Kernel.bracket]

@[simp] theorem bracket_kernelInit (f : TaskTable → TaskTable) (k : Kernel) :
    (k.bracket f).kernelInit = k.kernelInit := by
  simp [Kernel.bracket]

@[simp] theorem bracket_systicks (f : TaskTable → TaskTable) (k : Kernel) :
    (k.bracket f).systicks = k.systicks := by
  simp [Kernel.bracket]

theorem bracket_maskInv (f : TaskTable → TaskTable) (k : Kernel) : (k.bracket f).MaskInv :=
  exitCritical_maskInv (enterCritical_maskInv k)

/-- **A bracket entered open is left open.** The body may do anything to the
table, but neither opens nor closes critical sections itself. -/
theorem bracket_open {k : Kernel} (hOpen : k.Open) (f : TaskTable → TaskTable) :
    (k.bracket f).Open := by
  obtain ⟨hU, hN⟩ := hOpen
  unfold Kernel.Unmasked at hU
  have hEnter : rtoskKernelEnterCritical k =
      { k with primask := 1, criticalPrimask := k.primask, criticalNesting := 1 } := by
    rw [enterCritical_eq, if_pos hN, hN]
    rfl
  have hExit : k.bracket f =
      { k.onTable f with primask := 0, criticalPrimask := k.primask, criticalNesting := 0 } := by
    rw [Kernel.bracket, hEnter]
    simp [rtoskKernelExitCritical, rtoskPortIrqRestore, Kernel.onTable, hU]
  rw [hExit]
  exact ⟨by simp [Kernel.Unmasked], rfl⟩

theorem rtoskKernelSleepMs_eq [TaskConfig] (ms : UInt32) (k : Kernel) :
    rtoskKernelSleepMs ms k = k.bracket (rtoskTaskBlockCurrentUntil (k.systicks + ms)) := by
  simp [rtoskKernelSleepMs, Kernel.bracket]

/-- How a kernel call goes on once it has left its critical section: it returns,
or it calls `rtosk_kernel_yield` first. -/
inductive Exit
  | returns
  | yields
  deriving DecidableEq, Repr

end TinyRtos
