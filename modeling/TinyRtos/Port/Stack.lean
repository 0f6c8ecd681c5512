import TinyRtos.Kernel.Task
import TinyRtos.Lib.Memory
import Mathlib.Data.Fintype.Basic
import Mathlib.Data.Nat.Bitwise
import Mathlib.Tactic.FinCases

/-!
# TinyRTOS — task stacks (`task.c`, `port.c`)

`RTOSK_TASKS` in memory: where the linker put it (`Image`), where the stack of
each slot lies in it, and what `rtosk_task_build_stack` puts there. Memory is
addressed by words; a pointer of the C code is the byte address of its word
(`byteAddr`). The table may start at any word, so that
`rtosk_port_align_stack_pointer` moves the top of the stack for some slots and
not for others.

* `stacks_disjoint` — the stacks of two slots do not overlap;
* `alignWord_eq` — what the alignment does to a word address;
* `buildStack_built` — the built frame is as an exception return into the task
  function wants it, aligned, and inside the stack of its slot;
* `buildStack_of_outside`, `watermark_of_outside` — creating a task touches no
  other stack.
-/

namespace TinyRtos

/-- `RTOSK_TASK_STACK_WORDS`. -/
def rtoskTaskStackWords : Nat := 256

/-- `sizeof(rtosk_task_t)` in words: `sp`, the stack, and the four fields after
it. -/
def rtoskTaskWords : Nat := 1 + rtoskTaskStackWords + 4

/-- `RTOSK_STACK_WATERMARK`. -/
def rtoskStackWatermark : UInt32 := 0xDEADBEEF

/-- `RTOSK_XPSR_T_BIT`. -/
def rtoskXpsrTBit : UInt32 := 0x01000000

/-- What the linker decides: the word address of `RTOSK_TASKS`, which ends
inside the address space, and the addresses of two functions. -/
structure Image [TaskConfig] where
  tasks : Nat
  idleTask : UInt32
  exitTrap : UInt32
  fits : tasks + rtoskTaskWords * rtoskTotalTaskSlots < 2 ^ 30

/-- The shipped table, with its first word in RAM, fits. -/
theorem stockConfig_fits : 0x8000100 + rtoskTaskWords * rtoskTotalTaskSlots < 2 ^ 30 := by
  decide

/-- R4 to R11, and the words of an exception frame, are numbered from `0`. -/
instance neZero_eight : NeZero 8 := ⟨by decide⟩

-- ---------------------------------------------------------------------------
-- Pointers
-- ---------------------------------------------------------------------------

/-- The pointer to a word. -/
def byteAddr (w : Nat) : UInt32 := UInt32.ofNat (4 * w)

/-- The word a pointer points to. -/
def wordAddr (p : UInt32) : Nat := p.toNat / 4

def rtoskPortAlignStackPointer (sp : UInt32) : UInt32 := sp &&& ~~~0x7

/-- The alignment of a word address. -/
def alignWord (w : Nat) : Nat := wordAddr (rtoskPortAlignStackPointer (byteAddr w))

/-- Clearing the low three bits rounds down to a multiple of eight. -/
theorem rtoskPortAlignStackPointer_toNat (sp : UInt32) :
    (rtoskPortAlignStackPointer sp).toNat = sp.toNat / 8 * 8 := by
  have hMask : (~~~(0x7 : UInt32)).toNat = (2 ^ 29 - 1) * 2 ^ 3 := by decide
  have hLt : sp.toNat < 2 ^ 32 := sp.toNat_lt
  unfold rtoskPortAlignStackPointer
  rw [UInt32.toNat_and, hMask]
  apply Nat.eq_of_testBit_eq
  intro i
  rw [Nat.testBit_and, Nat.testBit_mul_two_pow, Nat.testBit_two_pow_sub_one,
    show sp.toNat / 8 * 8 = sp.toNat / 2 ^ 3 * 2 ^ 3 from rfl, Nat.testBit_mul_two_pow,
    Nat.testBit_div_two_pow]
  by_cases hLow : 3 ≤ i
  · rw [show i - 3 + 3 = i by omega]
    by_cases hHigh : i - 3 < 29
    · simp [hLow, hHigh]
    · have hOut : sp.toNat.testBit i = false :=
        Nat.testBit_lt_two_pow (lt_of_lt_of_le hLt (Nat.pow_le_pow_right (by decide) (by omega)))
      simp [hOut]
  · simp [hLow]

theorem alignWord_eq {w : Nat} (hw : w < 2 ^ 30) : alignWord w = w - w % 2 := by
  have hByte : (byteAddr w).toNat = 4 * w := by
    unfold byteAddr
    rw [UInt32.toNat_ofNat']
    exact Nat.mod_eq_of_lt (by omega)
  unfold alignWord wordAddr
  rw [rtoskPortAlignStackPointer_toNat, hByte]
  omega

-- ---------------------------------------------------------------------------
-- Contexts
-- ---------------------------------------------------------------------------

/-- What a task resumes with: R4–R11, PSP, and the frame at PSP, which is R0–R3,
R12, LR, PC and xPSR. -/
structure Context where
  r4r11 : Fin 8 → UInt32
  psp : Nat
  frame : Fin 8 → UInt32
  deriving DecidableEq

/-- The context that a saved stack pointer stands for. -/
def savedContext (mem : Nat → UInt32) (sp : Nat) : Context where
  r4r11 := Memory.load mem sp 8
  psp := sp + 8
  frame := Memory.load mem (sp + 8) 8

-- ---------------------------------------------------------------------------
-- Where the stacks are
-- ---------------------------------------------------------------------------

variable [TaskConfig]

namespace Image

/-- `&RTOSK_TASKS[t].stack[0]`. -/
def stackBase (img : Image) (t : Nat) : Nat := img.tasks + rtoskTaskWords * t + 1

/-- `&RTOSK_TASKS[t].stack[RTOSK_TASK_STACK_WORDS]`. -/
def stackEnd (img : Image) (t : Nat) : Nat := img.stackBase t + rtoskTaskStackWords

/-- A word of the stack of slot `t`. -/
def InStack (img : Image) (t a : Nat) : Prop := img.stackBase t ≤ a ∧ a < img.stackEnd t

instance (img : Image) (t a : Nat) : Decidable (img.InStack t a) :=
  inferInstanceAs (Decidable (_ ∧ _))

theorem stackEnd_lt (img : Image) {t : Nat} (ht : t < rtoskTotalTaskSlots) :
    img.stackEnd t < 2 ^ 30 := by
  have hFits := img.fits
  have hSlot : rtoskTaskWords * (t + 1) ≤ rtoskTaskWords * rtoskTotalTaskSlots :=
    Nat.mul_le_mul_left _ ht
  unfold stackEnd stackBase rtoskTaskStackWords
  unfold rtoskTaskWords rtoskTaskStackWords at hFits hSlot ⊢
  omega

theorem stacks_disjoint (img : Image) {t u : Nat} (hne : t ≠ u) :
    img.stackEnd t ≤ img.stackBase u ∨ img.stackEnd u ≤ img.stackBase t := by
  unfold stackEnd stackBase rtoskTaskWords rtoskTaskStackWords
  omega

theorem not_inStack_of_ne (img : Image) {t u a : Nat} (hne : t ≠ u) (ha : img.InStack t a) :
    ¬ img.InStack u a := by
  have hDisj := img.stacks_disjoint hne
  obtain ⟨hLo, hHi⟩ := ha
  rintro ⟨hLo', hHi'⟩
  omega

end Image

-- ---------------------------------------------------------------------------
-- Contexts on a stack
-- ---------------------------------------------------------------------------

/-- All sixteen words of a context that was saved on the stack of slot `t`. -/
def Image.Holds (img : Image) (t sp : Nat) : Prop :=
  img.stackBase t ≤ sp ∧ sp + 16 ≤ img.stackEnd t

/-- A saved context depends on its own stack only. -/
theorem savedContext_congr {img : Image} {t sp : Nat} (hHolds : img.Holds t sp)
    {mem mem' : Nat → UInt32} (h : ∀ a, img.InStack t a → mem' a = mem a) :
    savedContext mem' sp = savedContext mem sp := by
  obtain ⟨hLo, hHi⟩ := hHolds
  have hRegs : Memory.load mem' sp 8 = Memory.load mem sp 8 :=
    Memory.load_congr fun a ha ha' => h a ⟨by omega, by omega⟩
  have hFrame : Memory.load mem' (sp + 8) 8 = Memory.load mem (sp + 8) 8 :=
    Memory.load_congr fun a ha ha' => h a ⟨by omega, by omega⟩
  unfold savedContext
  rw [hRegs, hFrame]

/-- The context of a task that has not run: `taskFunc` is about to be called
with R4–R11, R0–R3 and R12 zero, to return to the exit trap. -/
structure BuiltFrame (img : Image) (t : Nat) (taskFunc : UInt32) (ctx : Context) : Prop where
  aligned : ctx.psp % 2 = 0
  inStack : img.stackBase t + 8 ≤ ctx.psp ∧ ctx.psp + 8 ≤ img.stackEnd t
  r4r11   : ∀ i, ctx.r4r11 i = 0
  r0r12   : ∀ i < 5, ctx.frame i = 0
  lr      : ctx.frame 5 = img.exitTrap
  pc      : ctx.frame 6 = taskFunc
  xpsr    : ctx.frame 7 = rtoskXpsrTBit

-- ---------------------------------------------------------------------------
-- Building a stack
-- ---------------------------------------------------------------------------

def rtoskTaskWatermarkStack (img : Image) (t : Nat) (mem : Nat → UInt32) : Nat → UInt32 :=
  Memory.writeAll mem
    ((List.range rtoskTaskStackWords).map fun i => (img.stackBase t + i, rtoskStackWatermark))

/-- The words `rtosk_task_build_stack` pushes: the hardware frame from xPSR down
to R0, then R11 down to R4. -/
def builtWords (img : Image) (taskFunc : UInt32) : List UInt32 :=
  [rtoskXpsrTBit, taskFunc, img.exitTrap, 0, 0, 0, 0, 0] ++ [0, 0, 0, 0, 0, 0, 0, 0]

theorem builtWords_length (img : Image) (taskFunc : UInt32) :
    (builtWords img taskFunc).length = 16 := rfl

/-- The stack pointer it returns, and the memory. -/
def rtoskTaskBuildStack (img : Image) (t : Nat) (taskFunc : UInt32) (mem : Nat → UInt32) :
    Nat × (Nat → UInt32) :=
  Memory.pushAll (alignWord (img.stackEnd t), mem) (builtWords img taskFunc)

theorem watermark_of_outside {img : Image} {t a : Nat} (ha : ¬ img.InStack t a)
    (mem : Nat → UInt32) :
    rtoskTaskWatermarkStack img t mem a = mem a := by
  apply Memory.writeAll_of_outside
  intro w hw hEq
  obtain ⟨i, hi, rfl⟩ := List.mem_map.mp hw
  have hi' := List.mem_range.mp hi
  subst hEq
  exact ha ⟨Nat.le_add_right .., Nat.add_lt_add_left hi' _⟩

/-- Where the pushes start and end. -/
theorem buildStack_top (img : Image) {t : Nat} (ht : t < rtoskTotalTaskSlots) :
    alignWord (img.stackEnd t) = img.stackEnd t - img.stackEnd t % 2 :=
  alignWord_eq (img.stackEnd_lt ht)

theorem buildStack_fst (img : Image) (t : Nat) (taskFunc : UInt32) (mem : Nat → UInt32) :
    (rtoskTaskBuildStack img t taskFunc mem).1 = alignWord (img.stackEnd t) - 16 :=
  Memory.pushAll_fst ..

theorem buildStack_holds (img : Image) {t : Nat} (ht : t < rtoskTotalTaskSlots)
    (taskFunc : UInt32) (mem : Nat → UInt32) :
    img.Holds t (rtoskTaskBuildStack img t taskFunc mem).1 := by
  have hTop := buildStack_top img ht
  have hEnd : img.stackEnd t = img.stackBase t + 256 := rfl
  rw [buildStack_fst, hTop]
  constructor
  · omega
  · omega

theorem buildStack_of_outside {img : Image} {t : Nat} (ht : t < rtoskTotalTaskSlots)
    (taskFunc : UInt32) {a : Nat} (ha : ¬ img.InStack t a) (mem : Nat → UInt32) :
    (rtoskTaskBuildStack img t taskFunc mem).2 a = mem a := by
  have hTop := buildStack_top img ht
  have hEnd : img.stackEnd t = img.stackBase t + 256 := rfl
  have hLen : (builtWords img taskFunc).length = 16 := rfl
  have hOut : a < img.stackBase t ∨ img.stackEnd t ≤ a := by
    unfold Image.InStack at ha
    omega
  apply Memory.pushAll_of_outside
  · show (builtWords img taskFunc).length ≤ alignWord (img.stackEnd t)
    omega
  · show a < alignWord (img.stackEnd t) - (builtWords img taskFunc).length ∨
      alignWord (img.stackEnd t) ≤ a
    rw [hLen, hTop]
    -- the word that the alignment skips is in the stack as well
    omega

/-- **The built frame.** -/
theorem buildStack_built (img : Image) {t : Nat} (ht : t < rtoskTotalTaskSlots)
    (taskFunc : UInt32) (mem : Nat → UInt32) :
    BuiltFrame img t taskFunc
      (savedContext (rtoskTaskBuildStack img t taskFunc mem).2
        (rtoskTaskBuildStack img t taskFunc mem).1) := by
  obtain ⟨hLo, hHi⟩ := buildStack_holds img ht taskFunc mem
  have hTop := buildStack_top img ht
  have hEnd : img.stackEnd t = img.stackBase t + 256 := rfl
  have hFst := buildStack_fst img t taskFunc mem
  have hLen := builtWords_length img taskFunc
  have hWord : ∀ k (hk : k < (builtWords img taskFunc).length),
      (rtoskTaskBuildStack img t taskFunc mem).2 (alignWord (img.stackEnd t) - 1 - k) =
        (builtWords img taskFunc).get ⟨k, hk⟩ := by
    intro k hk
    apply Memory.pushAll_getElem
    show (builtWords img taskFunc).length ≤ alignWord (img.stackEnd t)
    omega
  -- word `i` of the register block is push `15 - i`, of the frame push `7 - i`
  have hRegs : ∀ i : Fin 8, (savedContext (rtoskTaskBuildStack img t taskFunc mem).2
      (rtoskTaskBuildStack img t taskFunc mem).1).r4r11 i =
        (builtWords img taskFunc).get ⟨15 - i.val, by omega⟩ := by
    intro i
    have hAddr : (rtoskTaskBuildStack img t taskFunc mem).1 + i.val =
        alignWord (img.stackEnd t) - 1 - (15 - i.val) := by omega
    rw [← hWord (15 - i.val) (by omega), ← hAddr]
    rfl
  have hFrame : ∀ i : Fin 8, (savedContext (rtoskTaskBuildStack img t taskFunc mem).2
      (rtoskTaskBuildStack img t taskFunc mem).1).frame i =
        (builtWords img taskFunc).get ⟨7 - i.val, by omega⟩ := by
    intro i
    have hAddr : (rtoskTaskBuildStack img t taskFunc mem).1 + 8 + i.val =
        alignWord (img.stackEnd t) - 1 - (7 - i.val) := by omega
    rw [← hWord (7 - i.val) (by omega), ← hAddr]
    rfl
  refine ⟨?_, ⟨?_, ?_⟩, ?_, ?_, hFrame 5, hFrame 6, hFrame 7⟩
  · show ((rtoskTaskBuildStack img t taskFunc mem).1 + 8) % 2 = 0
    omega
  · show img.stackBase t + 8 ≤ (rtoskTaskBuildStack img t taskFunc mem).1 + 8
    omega
  · show (rtoskTaskBuildStack img t taskFunc mem).1 + 8 + 8 ≤ img.stackEnd t
    omega
  · intro i
    rw [hRegs i]
    fin_cases i <;> rfl
  · intro i hi
    rw [hFrame i]
    fin_cases i <;> first | rfl | exact absurd hi (by decide)

end TinyRtos
