import TinyRtos.Lib.HighWater
import TinyRtos.Osi.Shell
import TinyRtos.Port.Switching

/-!
# TinyRTOS — how much of its stack a task has used (`task.c`)

`rtosk_task_get_stack_free_words` counts the words at the low end of a stack that
still carry the watermark; `rtosk_task_get_info` reports the number, and the
`tasks` command prints it. To say what the number means, a step of the machine
is taken apart into the words it stores (`touches`, `step_mem`): those that the
task's own code writes, those that the entry of PendSV pushes on the stack of
the task that runs, and those of a creation.

* `highWater_touches` — the lowest word stored to since the stack was filled;
* `Counting` — the count as it goes on while others run: the machine goes on
  between two words.
-/

namespace TinyRtos

open HighWater

variable [TaskConfig]

-- ---------------------------------------------------------------------------
-- Counting
-- ---------------------------------------------------------------------------

/-- The words of the stack of slot `t`, from `RTOSK_TASKS[t].stack[0]` on. -/
def Image.stack (img : Image) (t : Nat) (mem : Nat → UInt32) : Nat → UInt32 :=
  fun i => mem (img.stackBase t + i)

/-- The loop of `rtosk_task_get_stack_free_words` from `freeWords` on, for as many
rounds as words are left. -/
def freeWordsLoop (stack : Nat → UInt32) : Nat → Nat → Nat
  | 0, freeWords => freeWords
  | left + 1, freeWords =>
    if stack freeWords = rtoskStackWatermark then freeWordsLoop stack left (freeWords + 1)
    else freeWords

def rtoskTaskGetStackFreeWords (img : Image) (t : Nat) (mem : Nat → UInt32) : Nat :=
  freeWordsLoop (img.stack t mem) rtoskTaskStackWords 0

omit [TaskConfig] in
theorem freeWordsLoop_firstUsed {stack : Nat → UInt32} {n : Nat} (left : Nat) {freeWords : Nat}
    (hUnused : Unused rtoskStackWatermark stack freeWords) (hn : n = freeWords + left) :
    FirstUsed rtoskStackWatermark stack n (freeWordsLoop stack left freeWords) := by
  induction left generalizing freeWords with
  | zero =>
    subst hn
    exact firstUsed_filled _ hUnused
  | succ left ih =>
    unfold freeWordsLoop
    split
    · rename_i hMark
      exact ih (Fades.refl.next hUnused (Nat.lt_succ_self _) hMark) (by omega)
    · rename_i hUsed
      exact ⟨by omega, hUnused, fun _ => hUsed⟩

/-- The count stops at the first used word. -/
theorem freeWords_firstUsed (img : Image) (t : Nat) (mem : Nat → UInt32) :
    FirstUsed rtoskStackWatermark (img.stack t mem) rtoskTaskStackWords
      (rtoskTaskGetStackFreeWords img t mem) :=
  freeWordsLoop_firstUsed _ (fun i hi => absurd hi (Nat.not_lt_zero i)) (Nat.zero_add _).symm

-- ---------------------------------------------------------------------------
-- Reporting
-- ---------------------------------------------------------------------------

instance (k : TaskTable) (t : Nat) : Decidable (Live k t) := inferInstanceAs (Decidable (_ ∨ _))

/-- `rtosk_task_info_t`. -/
structure RtoskTaskInfo extends TaskInfo where
  wakeTick : UInt32

/-- `rtosk_task_get_info`: what it returns, and `*info` after it; `none` is the
null pointer. `names` are the strings that the `name` fields point to. -/
def rtoskTaskGetInfo (img : Image) (names : Nat → List UInt8) (k : TaskTable)
    (mem : Nat → UInt32) (index : Nat) (info : Option RtoskTaskInfo) :
    UInt32 × Option RtoskTaskInfo :=
  if info.isNone then (0, info)
  else if rtoskTotalTaskSlots ≤ index then (0, info)
  else if k.taskCount ≤ index ∧ index ≠ rtoskIdleTaskIndex then (0, info)
  else if index = rtoskIdleTaskIndex ∧ k.idleReady = false then (0, info)
  else
    let freeWords := rtoskTaskGetStackFreeWords img index mem
    (1, some {
      index := UInt32.ofNat index
      priority := (k.tasks index).priority
      state := (k.tasks index).state
      wakeTick := (k.tasks index).wakeTick
      stackFreeWords := UInt32.ofNat freeWords
      stackUsedWords := UInt32.ofNat (rtoskTaskStackWords - freeWords)
      name := names index })

/-- `rtosk_kernel_get_task_info`, as the `tasks` command calls it: with its
`info`, which it looks at if the call returned something else than `0`. -/
def kernelTaskInfo (img : Image) (names : Nat → List UInt8) (info : RtoskTaskInfo)
    (k : TaskTable) (mem : Nat → UInt32) (index : Nat) : Option TaskInfo :=
  match rtoskTaskGetInfo img names k mem index (some info) with
  | (0, _) => none
  | (_, info) => info.map RtoskTaskInfo.toTaskInfo

/-- What the command is told about a slot that is in use. -/
def usage (img : Image) (names : Nat → List UInt8) (k : TaskTable) (mem : Nat → UInt32)
    (t : Nat) : TaskInfo where
  index := UInt32.ofNat t
  priority := (k.tasks t).priority
  state := (k.tasks t).state
  stackUsedWords := UInt32.ofNat (rtoskTaskStackWords - rtoskTaskGetStackFreeWords img t mem)
  stackFreeWords := UInt32.ofNat (rtoskTaskGetStackFreeWords img t mem)
  name := names t

theorem kernelTaskInfo_live {img : Image} {names : Nat → List UInt8} {info : RtoskTaskInfo}
    {k : TaskTable} {mem : Nat → UInt32} {t : Nat} (hCount : k.taskCount ≤ rtoskMaxTasks)
    (hIdle : k.idleReady = true) (hLive : Live k t) :
    kernelTaskInfo img names info k mem t = some (usage img names k mem t) := by
  have hSlot : ¬ rtoskTotalTaskSlots ≤ t := by
    unfold rtoskTotalTaskSlots
    rcases hLive with hLt | hEq
    · omega
    · rw [hEq, rtoskIdleTaskIndex]
      omega
  have hUser : ¬ (k.taskCount ≤ t ∧ t ≠ rtoskIdleTaskIndex) := by
    rintro ⟨hLe, hNe⟩
    rcases hLive with hLt | hEq
    · omega
    · exact hNe hEq
  have hReady : ¬ (t = rtoskIdleTaskIndex ∧ k.idleReady = false) := by simp [hIdle]
  simp only [kernelTaskInfo, rtoskTaskGetInfo, Option.isNone_some, Bool.false_eq_true, if_false,
    if_neg hSlot, if_neg hUser, if_neg hReady]
  rfl

theorem kernelTaskInfo_none {img : Image} {names : Nat → List UInt8} {info : RtoskTaskInfo}
    {k : TaskTable} {mem : Nat → UInt32} {t : Nat} (hNot : ¬ Live k t) :
    kernelTaskInfo img names info k mem t = none := by
  have hUser : k.taskCount ≤ t ∧ t ≠ rtoskIdleTaskIndex :=
    ⟨Nat.le_of_not_lt fun hLt => hNot (Or.inl hLt), fun hEq => hNot (Or.inr hEq)⟩
  unfold kernelTaskInfo rtoskTaskGetInfo
  rw [if_pos hUser]
  split <;> simp_all

-- ---------------------------------------------------------------------------
-- What a step stores
-- ---------------------------------------------------------------------------

/-- A word stored at `a`, or `rtosk_task_watermark_stack` of slot `t`. -/
inductive Touch
  | store (a : Nat) (w : UInt32)
  | filled (t : Nat)
  deriving DecidableEq

namespace Touch

def apply (img : Image) (mem : Nat → UInt32) : Touch → Nat → UInt32
  | .store a w => Function.update mem a w
  | .filled t => rtoskTaskWatermarkStack img t mem

def stores (ws : List (Nat × UInt32)) : List Touch := ws.map fun w => .store w.1 w.2

theorem foldl_stores (img : Image) (ws : List (Nat × UInt32)) (mem : Nat → UInt32) :
    (stores ws).foldl (apply img) mem = Memory.writeAll mem ws := by
  unfold stores Memory.writeAll
  rw [List.foldl_map]
  rfl

/-- The lowest word of the stack of slot `t` that was stored to since it was
filled, if it was `low` before. -/
def lower (img : Image) (t : Nat) (low : Nat) : Touch → Nat
  | .store a _ => if img.InStack t a then min low (a - img.stackBase t) else low
  | .filled u => if u = t then rtoskTaskStackWords else low

end Touch

namespace Machine

/-- The words that the entry of PendSV pushes: the frame, the floating point
registers if they were in use, and R4–R11. -/
def entryWrites (m : Machine) : List (Nat × UInt32) :=
  let frameptr := (m.psp - frameWords m.fpca) / 2 * 2
  let frame := Function.update m.frame 7 (stackedXpsr (m.frame 7) (m.psp % 2 = 1))
  Memory.blockWrites frameptr frame ++
    (if m.fpca then Memory.blockWrites (frameptr + 8) m.fpRegs else []) ++
    Memory.blockWrites (frameptr - 8) m.r4r11

/-- What a step stores, in order. -/
def touches (img : Image) (m : Machine) : Label → List Touch
  | .kernel .pendSv => Touch.stores m.entryWrites
  | .work w => Touch.stores w.writes
  | .createStep =>
    match m.creates m.current with
    | some ⟨index, taskFunc, _, .build⟩ =>
      Touch.stores (Memory.pushWrites (alignWord (img.stackEnd index)) (builtWords img taskFunc))
    | some ⟨index, _, _, .watermark⟩ => [.filled index]
    | _ => []
  | _ => []

variable {img : Image} {m m' : Machine} {l : Label} {es : List Event}

theorem advance_mem (c : Create) (m : Machine) :
    (m.advance img c).1.mem = (c.advance img m.table m.mem).2.1 := rfl

theorem enterPendSv_mem (m : Machine) :
    m.enterPendSv.mem = Memory.writeAll m.mem m.entryWrites := by
  unfold entryWrites
  rw [Memory.writeAll_append, Memory.writeAll_append, ← Memory.store_eq_writeAll,
    ← Memory.store_eq_writeAll]
  by_cases hFpca : m.fpca
  · rw [if_pos hFpca, ← Memory.store_eq_writeAll]
    simp only [enterPendSv, exceptionEntry, hFpca, if_true]
    rfl
  · rw [if_neg hFpca]
    simp only [enterPendSv, exceptionEntry, hFpca]
    rfl

/-- **A step stores what it touches, and nothing else.** -/
theorem step_mem (h : m.step img l = some (m', es)) :
    m'.mem = (touches img m l).foldl (Touch.apply img) m.mem := by
  have hOther : ∀ k : TinyRtos.Label, k ≠ .pendSv → touches img m (.kernel k) = [] := by
    intro k hk
    cases k <;> first | rfl | exact absurd rfl hk
  cases step_cases h with
  | kernel hEnter _ _ _ =>
    rw [hOther _ hEnter]
    rfl
  | pendSv _ _ =>
    show m.enterPendSv.mem = _
    rw [enterPendSv_mem, touches, Touch.foldl_stores]
  | pendSvEmpty _ _ hLeave =>
    obtain ⟨_, _, _, -, -, -, hMem, -⟩ := leavePendSv_eq hLeave
    rw [hMem]
    show m.enterPendSv.mem = _
    rw [enterPendSv_mem, touches, Touch.foldl_stores]
  | pendSvExit _ hLeave =>
    obtain ⟨_, _, _, -, -, -, hMem, -⟩ := leavePendSv_eq hLeave
    exact hMem
  | work w _ => exact (Touch.foldl_stores img w.writes m.mem).symm
  | createRefused | create => rfl
  | @createStep c _ hAt =>
    obtain ⟨index, taskFunc, priority, stage⟩ := c
    simp only [touches, hAt, advance_mem]
    cases stage with
    | watermark => simp only [Create.advance, List.foldl_cons, List.foldl_nil, Touch.apply]
    | build =>
      simp only [Create.advance, Touch.foldl_stores]
      exact Memory.pushAll_eq_writeAll ..
    | fields | count => rfl

end Machine

-- ---------------------------------------------------------------------------
-- The mark
-- ---------------------------------------------------------------------------

section

variable {img : Image} {t low : Nat} {mem : Nat → UInt32}

theorem stack_store_inside {a : Nat} (ha : img.InStack t a) (w : UInt32) :
    img.stack t (Function.update mem a w) =
      Function.update (img.stack t mem) (a - img.stackBase t) w := by
  have hBase : img.stackBase t ≤ a := ha.1
  funext i
  unfold Image.stack
  by_cases hi : i = a - img.stackBase t
  · subst hi
    rw [Function.update_self, Nat.add_sub_cancel' hBase, Function.update_self]
  · rw [Function.update_of_ne hi, Function.update_of_ne (by omega)]

theorem stack_store_outside {a : Nat} (ha : ¬ img.InStack t a) (w : UInt32) {i : Nat}
    (hi : i < rtoskTaskStackWords) :
    img.stack t (Function.update mem a w) i = img.stack t mem i := by
  refine Function.update_of_ne (fun hEq => ha ?_) _ _
  exact ⟨by omega, by unfold Image.stackEnd; omega⟩

/-- The built frame leaves alone what is below it. -/
theorem buildStack_of_below {n : Nat} (hn : n < rtoskTotalTaskSlots) (taskFunc : UInt32) {a : Nat}
    (ha : a < (rtoskTaskBuildStack img n taskFunc mem).1) :
    (rtoskTaskBuildStack img n taskFunc mem).2 a = mem a := by
  obtain ⟨hLo, -⟩ := buildStack_holds img hn taskFunc mem
  rw [buildStack_fst] at ha hLo
  have hFit : (builtWords img taskFunc).length ≤ alignWord (img.stackEnd n) := by
    rw [builtWords_length]
    omega
  exact Memory.pushAll_of_outside hFit (Or.inl ha)

/-- Filling a stack marks all of it. -/
theorem unused_filled : Unused rtoskStackWatermark (img.stack t (rtoskTaskWatermarkStack img t mem))
    rtoskTaskStackWords := by
  intro i hi
  have hOnce : (((List.range rtoskTaskStackWords).map fun i =>
      (img.stackBase t + i, rtoskStackWatermark)).map Prod.fst).Nodup := by
    rw [List.map_map]
    exact List.nodup_range.map fun _ _ h => Nat.add_left_cancel h
  exact Memory.writeAll_of_mem (p := (img.stackBase t + i, rtoskStackWatermark)) hOnce
    (List.mem_map.mpr ⟨i, List.mem_range.mpr hi, rfl⟩) mem

/-- And no other. -/
theorem stack_filled_of_ne {u : Nat} (hne : u ≠ t) {i : Nat} (hi : i < rtoskTaskStackWords) :
    img.stack t (rtoskTaskWatermarkStack img u mem) i = img.stack t mem i := by
  refine watermark_of_outside (img.not_inStack_of_ne hne.symm ?_) mem
  exact ⟨Nat.le_add_right .., Nat.add_lt_add_left hi _⟩

/-- Before a stack was filled nothing counts. -/
theorem lower_of_filled {es : List Touch} (h : .filled t ∈ es) (low low' : Nat) :
    es.foldl (Touch.lower img t) low = es.foldl (Touch.lower img t) low' := by
  induction es generalizing low low' with
  | nil => exact absurd h List.not_mem_nil
  | cons e rest ih =>
    rw [List.foldl_cons, List.foldl_cons]
    rcases List.mem_cons.mp h with rfl | hRest
    · simp only [Touch.lower, if_true]
    · exact ih hRest _ _

/-- What a touch does to the words that look unused, whatever is stored. -/
theorem unused_touch (hLe : low ≤ rtoskTaskStackWords)
    (h : Unused rtoskStackWatermark (img.stack t mem) low) (e : Touch) :
    e.lower img t low ≤ rtoskTaskStackWords ∧
      Unused rtoskStackWatermark (img.stack t (e.apply img mem)) (e.lower img t low) := by
  cases e with
  | store a w =>
    simp only [Touch.lower, Touch.apply]
    by_cases ha : img.InStack t a
    · rw [if_pos ha, stack_store_inside ha]
      exact ⟨(min_le_left ..).trans hLe, unused_store h _ w⟩
    · rw [if_neg ha]
      exact ⟨hLe, h.congr fun i hi => stack_store_outside ha w (hi.trans_le hLe)⟩
  | filled u =>
    simp only [Touch.lower, Touch.apply]
    by_cases hu : u = t
    · subst hu
      rw [if_pos rfl]
      exact ⟨le_rfl, unused_filled⟩
    · rw [if_neg hu]
      exact ⟨hLe, h.congr fun i hi => stack_filled_of_ne hu (hi.trans_le hLe)⟩

/-- And to the first used word, if it is not the watermark that is stored. -/
theorem firstUsed_touch
    (h : FirstUsed rtoskStackWatermark (img.stack t mem) rtoskTaskStackWords low) {e : Touch}
    (hMark : ∀ a, e ≠ .store a rtoskStackWatermark) :
    FirstUsed rtoskStackWatermark (img.stack t (e.apply img mem)) rtoskTaskStackWords
      (e.lower img t low) := by
  cases e with
  | store a w =>
    have hw : w ≠ rtoskStackWatermark := fun hEq => hMark a (by rw [hEq])
    simp only [Touch.lower, Touch.apply]
    by_cases ha : img.InStack t a
    · rw [if_pos ha, stack_store_inside ha]
      exact h.store hw
    · rw [if_neg ha]
      exact h.congr fun i hi => stack_store_outside ha w hi
  | filled u =>
    simp only [Touch.lower, Touch.apply]
    by_cases hu : u = t
    · subst hu
      rw [if_pos rfl]
      exact firstUsed_filled _ unused_filled
    · rw [if_neg hu]
      exact h.congr fun i hi => stack_filled_of_ne hu hi

theorem unused_touches (es : List Touch) (hLe : low ≤ rtoskTaskStackWords)
    (h : Unused rtoskStackWatermark (img.stack t mem) low) :
    es.foldl (Touch.lower img t) low ≤ rtoskTaskStackWords ∧
      Unused rtoskStackWatermark (img.stack t (es.foldl (Touch.apply img) mem))
        (es.foldl (Touch.lower img t) low) := by
  induction es generalizing low mem with
  | nil => exact ⟨hLe, h⟩
  | cons e rest ih =>
    obtain ⟨hLe', h'⟩ := unused_touch hLe h e
    exact ih hLe' h'

theorem firstUsed_touches (es : List Touch)
    (h : FirstUsed rtoskStackWatermark (img.stack t mem) rtoskTaskStackWords low)
    (hMark : ∀ a, .store a rtoskStackWatermark ∉ es) :
    FirstUsed rtoskStackWatermark (img.stack t (es.foldl (Touch.apply img) mem))
      rtoskTaskStackWords (es.foldl (Touch.lower img t) low) := by
  induction es generalizing low mem with
  | nil => exact h
  | cons e rest ih =>
    have hHead : ∀ a, e ≠ .store a rtoskStackWatermark :=
      fun a hEq => hMark a (hEq ▸ List.mem_cons_self ..)
    exact ih (firstUsed_touch h hHead) fun a hMem => hMark a (List.mem_cons_of_mem _ hMem)

/-- A word of a stack that is not filled again does not come to look unused. -/
theorem fades_touches (es : List Touch) (hFilled : .filled t ∉ es)
    (hMark : ∀ a, .store a rtoskStackWatermark ∉ es) :
    Fades rtoskStackWatermark (img.stack t mem) (img.stack t (es.foldl (Touch.apply img) mem))
      rtoskTaskStackWords := by
  induction es generalizing mem with
  | nil => exact Fades.refl
  | cons e rest ih =>
    rw [List.foldl_cons]
    refine Fades.trans ?_ (ih (fun hMem => hFilled (List.mem_cons_of_mem _ hMem))
      fun a hMem => hMark a (List.mem_cons_of_mem _ hMem))
    cases e with
    | store a w =>
      have hw : w ≠ rtoskStackWatermark := fun hEq => hMark a (hEq ▸ List.mem_cons_self ..)
      simp only [Touch.apply]
      by_cases ha : img.InStack t a
      · rw [stack_store_inside ha]
        exact fades_store _ hw
      · exact fades_congr fun i hi => stack_store_outside ha w hi
    | filled u =>
      have hu : u ≠ t := fun hEq => hFilled (hEq ▸ List.mem_cons_self ..)
      exact fades_congr fun i hi => stack_filled_of_ne hu hi

end

-- ---------------------------------------------------------------------------
-- Slots in use
-- ---------------------------------------------------------------------------

namespace Machine

variable {img : Image} {m m' : Machine}

/-- The slots in use stay as they are: a creation under way fills the one behind
the last task, and there is at most one. -/
structure InOrder (m : Machine) : Prop where
  count     : m.table.taskCount ≤ rtoskMaxTasks
  idleReady : m.table.idleReady = true
  flight    : ∀ t c, m.creates t = some c → t < m.table.taskCount ∧
    c.index = m.table.taskCount ∧ m.table.taskCount < rtoskMaxTasks
  alone     : ∀ t u, m.creates t ≠ none → m.creates u ≠ none → t = u

theorem Started.inOrder {funcs : Nat → UInt32} (h : Started img funcs m) : InOrder m where
  count := h.sys.taskCount_le
  idleReady := h.sys.idleReady
  flight := fun t c hc => absurd ((h.creates t).symm.trans hc) (by simp)
  alone := fun t _ ht _ => absurd (h.creates t) ht

/-- The number of slots in use and the creations under way are the same. -/
structure SameSlots (m m' : Machine) : Prop where
  taskCount : m'.table.taskCount = m.table.taskCount
  idleReady : m'.table.idleReady = m.table.idleReady
  creates   : m'.creates = m.creates

theorem enterPendSv_sameSlots (m : Machine) : SameSlots m m.enterPendSv := by
  have hTable : m.enterPendSv.table =
      rtoskTaskSaveStackPointer (m.exceptionEntry.1.psp - 8) m.table := rfl
  refine ⟨?_, ?_, rfl⟩ <;> rw [hTable, rtoskTaskSaveStackPointer]
  · split
    · rfl
    · split <;> rfl
  · split
    · rfl
    · split <;> rfl

theorem SameSlots.kernel {l : TinyRtos.Label} {s : System} {es : List TinyRtos.Event}
    (h : SameSlots m m') (hStep : System.StepCase m'.sys l s es) : SameSlots m (m'.setSys s) :=
  ⟨hStep.setup.taskCount.trans h.taskCount, hStep.setup.idleReady.trans h.idleReady, h.creates⟩

theorem SameSlots.leave {m'' : Machine} {es : List Event} (h : SameSlots m m')
    (hLeave : m'.leavePendSv = some (m'', es)) : SameSlots m m'' := by
  obtain ⟨_, _, _, -, -, hSys, -, hCreates, -⟩ := leavePendSv_eq hLeave
  have hTable : m''.table = m'.table := congrArg (·.kernel.toTaskTable) hSys
  exact ⟨hTable ▸ h.taskCount, hTable ▸ h.idleReady, hCreates.trans h.creates⟩

/-- What a step does to the slots in use: nothing, or it begins a creation, or it
takes one further. -/
inductive SlotCase (img : Image) (m : Machine) : Label → Machine → Prop
  | same {l : Label} {m' : Machine} (hSame : SameSlots m m') : SlotCase img m l m'
  | create (taskFunc priority : UInt32) (hThread : m.sys.Thread)
      (hAccepts : Accepts m.table taskFunc) :
      SlotCase img m (.create taskFunc priority)
        (m.setCreate (some (Create.start m.table taskFunc priority)))
  | createStep {c : Create} (hAt : m.creates m.current = some c) :
      SlotCase img m .createStep (m.advance img c).1

theorem slot_cases {l : Label} {es : List Event} (hStep : StepCase img m l m' es) :
    SlotCase img m l m' := by
  have hRefl : SameSlots m m := ⟨rfl, rfl, rfl⟩
  cases hStep with
  | kernel _ _ _ hKernel => exact .same (hRefl.kernel hKernel)
  | pendSv hKernel _ => exact .same ((enterPendSv_sameSlots m).kernel hKernel)
  | pendSvEmpty hKernel _ hLeave =>
    exact .same (((enterPendSv_sameSlots m).kernel hKernel).leave hLeave)
  | pendSvExit hKernel hLeave => exact .same ((hRefl.kernel hKernel).leave hLeave)
  | work | createRefused => exact .same ⟨rfl, rfl, rfl⟩
  | create taskFunc priority hThread _ hAccepts =>
    exact .create taskFunc priority hThread hAccepts
  | createStep _ hAt => exact .createStep hAt

/-- A piece of a creation before the last. -/
theorem InOrder.fill (h : InOrder m) {c : Create} (hUser : m.current < m.table.taskCount)
    (hIndex : c.index = m.table.taskCount) (hRoom : m.table.taskCount < rtoskMaxTasks)
    (hOther : ∀ t, t ≠ m.current → m.creates t = none)
    (hCount : m'.table.taskCount = m.table.taskCount)
    (hIdle : m'.table.idleReady = m.table.idleReady)
    (hCreates : m'.creates = Function.update m.creates m.current (some c)) : InOrder m' := by
  have hOther' : ∀ t, t ≠ m.current → m'.creates t = none := by
    intro t ht
    rw [hCreates, Function.update_of_ne ht, hOther t ht]
  refine ⟨hCount ▸ h.count, hIdle.trans h.idleReady, fun t d hd => ?_, alone_of_others hOther'⟩
  rw [hCount]
  by_cases ht : t = m.current
  · subst ht
    rw [hCreates, Function.update_self] at hd
    obtain rfl := Option.some.inj hd
    exact ⟨hUser, hIndex, hRoom⟩
  · exact absurd ((hOther' t ht).symm.trans hd) (by simp)

/-- **`InOrder` is kept** by every step that begins no creation inside another. -/
theorem InOrder.step (h : InOrder m) {l : Label} {es : List Event} (hAlone : CreatesAlone m l)
    (hStep : StepCase img m l m' es) : InOrder m' := by
  cases slot_cases hStep with
  | same hSame =>
    obtain ⟨hCount, hIdle, hCreates⟩ := hSame
    refine ⟨hCount ▸ h.count, hIdle.trans h.idleReady, ?_, ?_⟩
    · rw [hCount, hCreates]
      exact h.flight
    · rw [hCreates]
      exact h.alone
  | create func priority hThread hAccepts =>
    have hNone : ∀ t, m.creates t = none := by
      intro t
      cases hc : m.creates t with
      | none => rfl
      | some c => exact absurd (hAlone hAccepts t (h.flight t c hc).1) (by simp [hc])
    exact h.fill hThread.2.1 rfl hAccepts.2 (fun t _ => hNone t) rfl rfl rfl
  | @createStep c hAt =>
    obtain ⟨hUser, hIndex, hRoom⟩ := h.flight _ c hAt
    have hOther : ∀ t, t ≠ m.current → m.creates t = none := fun t ht => by
      by_contra hSome
      exact ht (h.alone t m.current hSome (by simp [hAt]))
    obtain ⟨index, func, priority, stage⟩ := c
    cases stage with
    | watermark =>
      exact h.fill (c := ⟨index, func, priority, .build⟩) hUser hIndex hRoom hOther rfl rfl rfl
    | build =>
      exact h.fill (c := ⟨index, func, priority, .fields⟩) hUser hIndex hRoom hOther rfl rfl rfl
    | fields =>
      exact h.fill (c := ⟨index, func, priority, .count⟩) hUser hIndex hRoom hOther rfl rfl rfl
    | count =>
      have hNone : ∀ t, Function.update m.creates m.current none t = none := by
        intro t
        by_cases ht : t = m.current
        · rw [ht, Function.update_self]
        · rw [Function.update_of_ne ht, hOther t ht]
      exact ⟨hRoom, h.idleReady, fun t c hc => absurd ((hNone t).symm.trans hc) (by simp),
        fun t _ ht _ => absurd (hNone t) ht⟩

/-- A slot in use stays in use. -/
theorem live_step {l : Label} {es : List Event} (hStep : StepCase img m l m' es) {t : Nat}
    (hLive : Live m.table t) : Live m'.table t := by
  cases slot_cases hStep with
  | same hSame => exact (live_congr hSame.taskCount t).mpr hLive
  | create => exact hLive
  | @createStep c _ =>
    obtain ⟨index, func, priority, stage⟩ := c
    cases stage with
    | watermark | build | fields => exact hLive
    | count =>
      rcases hLive with hLt | hIdle
      · exact Or.inl (Nat.lt_succ_of_lt hLt)
      · exact Or.inr hIdle

/-- And its stack is not filled again. -/
theorem InOrder.not_filled (h : InOrder m) (l : Label) {t : Nat} (hLive : Live m.table t) :
    .filled t ∉ touches img m l := by
  have hStores : ∀ ws, Touch.filled t ∉ Touch.stores ws := by
    intro ws hMem
    obtain ⟨_, -, hEq⟩ := List.mem_map.mp hMem
    cases hEq
  intro hMem
  unfold touches at hMem
  split at hMem
  · exact hStores _ hMem
  · exact hStores _ hMem
  · split at hMem
    · exact hStores _ hMem
    · rename_i hAt
      obtain ⟨-, hIndex, hRoom⟩ := h.flight _ _ hAt
      obtain rfl := Touch.filled.inj (List.mem_singleton.mp hMem)
      exact not_live_taskCount hRoom (hIndex ▸ hLive)
    · cases hMem
  · cases hMem

end Machine

-- ---------------------------------------------------------------------------
-- A count under way
-- ---------------------------------------------------------------------------

/-- Task `u` is in `rtosk_task_get_stack_free_words` for slot `t`. -/
structure Counting where
  machine : Machine
  freeWords : Nat
  returned : Bool

namespace Counting

/-- `look` is a test of the loop's condition, with the `free_words++` behind it;
whatever goes on otherwise goes on in between. -/
inductive Label
  | machine (l : Machine.Label)
  | look

def step (img : Image) (u t : Nat) (c : Counting) :
    Label → Option (Counting × List (Machine.Event ⊕ Touch))
  | .machine l =>
    (Runs.watch (Machine.step img) (Machine.touches img) c.machine l).map fun r =>
      ({ c with machine := r.1 }, r.2)
  | .look =>
    if c.machine.current = u ∧ c.machine.Running ∧ c.returned = false then
      if c.freeWords < rtoskTaskStackWords ∧
          img.stack t c.machine.mem c.freeWords = rtoskStackWatermark then
        some ({ c with freeWords := c.freeWords + 1 }, [])
      else some ({ c with returned := true }, [])
    else none

end Counting

end TinyRtos
