import TinyRtos.Port.Startup

/-!
# TinyRTOS — the task table in the start phase

What every run of the start phase keeps (`Base`): interrupts stay enabled
between the calls of `main`, a creation fills the slot behind the last task,
and the current index names a task there is.

`Effect` sorts the steps by what they do to the slots: most leave them alone
(`quiet`), some request a switch besides (`request`), the others fill a slot
nobody uses yet, publish it, or belong to PendSV.
-/

namespace TinyRtos

variable [TaskConfig]

/-- The pointer that `rtosk_task_build_stack` returns for a slot. -/
def builtSp (img : Image) (t : Nat) : Nat := alignWord (img.stackEnd t) - 16

theorem builtSp_eq (img : Image) (t : Nat) (taskFunc : UInt32) (mem : Nat → UInt32) :
    (rtoskTaskBuildStack img t taskFunc mem).1 = builtSp img t := buildStack_fst ..

/-- It points into the stack of the slot. -/
theorem builtSp_inStack (img : Image) {t : Nat} (ht : t < rtoskTotalTaskSlots) :
    img.InStack t (builtSp img t) := by
  obtain ⟨hLo, hHi⟩ := buildStack_holds img ht 0 fun _ => 0
  rw [builtSp_eq] at hLo hHi
  exact ⟨hLo, by omega⟩

theorem builtSp_lt (img : Image) {t : Nat} (ht : t < rtoskTotalTaskSlots) :
    builtSp img t < 2 ^ 30 := by
  have hIn := (builtSp_inStack img ht).2
  have hEnd := img.stackEnd_lt ht
  omega

/-- Address `0` is in no stack. -/
theorem zero_not_inStack (img : Image) (t : Nat) : ¬ img.InStack t 0 := by
  rintro ⟨hLo, -⟩
  unfold Image.stackBase at hLo
  omega

omit [TaskConfig] in
theorem wordsBelow_above {a : Nat} (ha : a < 2 ^ 30) : wordsBelow (wordsAbove a) = a := by
  unfold wordsBelow wordsAbove
  omega

omit [TaskConfig] in
theorem wordsBelow_lt (a : Nat) : wordsBelow a < 2 ^ 30 := Nat.mod_lt _ (by decide)

/-- The calls of `main` leave PRIMASK and the nesting as they were. -/
theorem System.CallStep.isOpen {s s' : System} {c : Call} {exit : Exit}
    {es : List TinyRtos.Event} (h : System.CallStep s c s' exit es)
    (hDuring : c.duringStart = true) (hOpen : s.kernel.Open) : s'.kernel.Open := by
  cases h with
  | null | semaphoreInit | mutexInit | queueInit | yield => exact hOpen
  | takeNow | takeBlock | lockFree | lockOwn | lockBlock | receiveNow | receiveBlock | sleepMs
  | enterCritical | exitCritical => cases hDuring
  | _ => exact bracket_open hOpen _

-- ---------------------------------------------------------------------------
-- The functions of PendSV
-- ---------------------------------------------------------------------------

theorem saveStackPointer_keeps (sp : Nat) (k : TaskTable) :
    (rtoskTaskSaveStackPointer sp k).taskCount = k.taskCount ∧
      (rtoskTaskSaveStackPointer sp k).currentTask = k.currentTask ∧
      (rtoskTaskSaveStackPointer sp k).idleReady = k.idleReady := by
  unfold rtoskTaskSaveStackPointer
  repeat' split
  all_goals exact ⟨rfl, rfl, rfl⟩

/-- A slot holds the saved pointer afterwards, or what it held before. -/
theorem saveStackPointer_sp (sp : Nat) (k : TaskTable) (t : Nat) :
    ((rtoskTaskSaveStackPointer sp k).tasks t).sp = sp ∨
      ((rtoskTaskSaveStackPointer sp k).tasks t).sp = (k.tasks t).sp := by
  unfold rtoskTaskSaveStackPointer
  repeat' split
  · rw [TaskTable.setSp_sp]
    split <;> simp
  · exact Or.inr rfl
  · rw [TaskTable.setSp_sp]
    split <;> simp

theorem selectNextBegin_some {k : TaskTable} {c : Scan} (h : selectNextBegin k = some c) :
    0 < k.taskCount ∧ c.taskCount = k.taskCount ∧ c.current < k.taskCount ∧
      c.foundReady = false := by
  unfold selectNextBegin at h
  split at h
  · cases h
  · cases h
    refine ⟨by omega, rfl, ?_, rfl⟩
    simp only
    split <;> omega

/-- PendSV does not scan an empty table. -/
theorem selectNextBegin_none {sp : Nat} {k : TaskTable}
    (h : selectNextBegin (rtoskTaskSaveStackPointer sp k) = none) : k.taskCount = 0 := by
  unfold selectNextBegin at h
  split at h
  · rename_i hNone
    exact (saveStackPointer_keeps sp k).1.symm.trans hNone
  · cases h

/-- What a round has found is what it looked at, or was found before. -/
theorem selectNextRound_found {k : TaskTable} {c : Scan}
    (h : (selectNextRound k c).foundReady = true) :
    (selectNextRound k c).bestIndex = c.index ∨
      c.foundReady = true ∧ (selectNextRound k c).bestIndex = c.bestIndex := by
  have hCases : selectNextRound k c = { c with offset := c.offset + 1 } ∨
      (selectNextRound k c).bestIndex = c.index := by
    simp only [selectNextRound]
    repeat' split
    · exact Or.inl rfl
    · exact Or.inl rfl
    · exact Or.inr rfl
    · exact Or.inl rfl
  rcases hCases with hEq | hBest
  · rw [hEq] at h ⊢
    exact Or.inr ⟨h, rfl⟩
  · exact Or.inl hBest

theorem selectNextEnd_current (c : Scan) (k : TaskTable) :
    c.foundReady = true ∧ c.bestIndex < rtoskTotalTaskSlots ∧
        (selectNextEnd c k).currentTask = c.bestIndex ∨
      k.idleReady = true ∧ (selectNextEnd c k).currentTask = rtoskIdleTaskIndex ∨
      (selectNextEnd c k).currentTask = k.currentTask := by
  unfold selectNextEnd rtoskTaskSetCurrentIndex
  repeat' split
  · exact Or.inr (Or.inr rfl)
  · rename_i hFound hLt
    exact Or.inl ⟨hFound, by omega, rfl⟩
  · exact Or.inr (Or.inr rfl)
  · rename_i hIdle _
    exact Or.inr (Or.inl ⟨hIdle, rfl⟩)
  · exact Or.inr (Or.inr rfl)

namespace Startup

variable {img : Image} {s s' : Startup} {l : Label} {es : List Event}

-- ---------------------------------------------------------------------------
-- The invariant
-- ---------------------------------------------------------------------------

/-- `main` is inside a call or a piece of one: no switch can be pending. -/
def Closed : Main → Bool
  | .leaving _ | .creating _ => true
  | .starting stage => stage != .svc
  | .user | .started => false

/-- `main` is where the table says it is. -/
def MainInv (img : Image) (s : Startup) : Prop :=
  match s.main with
  | .creating c => c.index = s.table.taskCount ∧ s.table.taskCount < rtoskMaxTasks ∧
    (c.stage = .fields ∨ c.stage = .count → (s.table.tasks c.index).sp = builtSp img c.index)
  | .starting (.idle stage) => 0 < s.table.taskCount ∧ s.table.idleReady = false ∧
    (stage = .fields ∨ stage = .count →
      (s.table.tasks rtoskIdleTaskIndex).sp = builtSp img rtoskIdleTaskIndex)
  | .starting .init => 0 < s.table.taskCount
  | _ => True

/-- The current index names a task, or the first one to be. -/
def CurrentInv (s : Startup) : Prop :=
  (s.table.taskCount = 0 ∧ s.table.currentTask = 0) ∨ s.table.currentTask < s.table.taskCount ∨
    (s.table.currentTask = rtoskIdleTaskIndex ∧ s.table.idleReady = true)

/-- PendSV's loop scans the tasks there are. -/
def ScanInv (s : Startup) : Prop :=
  ∀ c, s.sys.scan = some c → 0 < s.table.taskCount ∧ c.taskCount = s.table.taskCount ∧
    c.current < s.table.taskCount ∧ (c.foundReady = true → c.bestIndex < s.table.taskCount)

/-- Nothing is in the way of `main`. -/
structure Clear (s : Startup) : Prop where
  scan   : s.sys.scan = none
  pendSv : s.sys.kernel.pendSv = false

structure Base (img : Image) (s : Startup) : Prop where
  isOpen       : s.sys.kernel.Open
  taskCount_le : s.table.taskCount ≤ rtoskMaxTasks
  kernelInit   : s.sys.kernel.kernelInit = true → 0 < s.table.taskCount ∧
    (s.main = .starting .svc ∨ s.main = .started)
  idleReady    : s.table.idleReady = true → 0 < s.table.taskCount
  clear        : Closed s.main = true → Clear s
  main         : MainInv img s
  current      : CurrentInv s
  scan         : ScanInv s
  sp_lt        : ∀ t, (s.table.tasks t).sp < 2 ^ 30

/-- Power-on: the zeroed variables, interrupts enabled, SysTick off. Memory, the
registers and the objects are anything. -/
structure PowerOn (s : Startup) : Prop where
  table       : s.table = TaskTable.static
  isOpen      : s.sys.kernel.Open
  kernelInit  : s.sys.kernel.kernelInit = false
  pendSv      : s.sys.kernel.pendSv = false
  scan        : s.sys.scan = none
  systickInit : s.systickInit = false
  main        : s.main = .user
  psp_lt      : s.psp < 2 ^ 30

theorem PowerOn.base (h : PowerOn s) (img : Image) : Base img s where
  isOpen := h.isOpen
  taskCount_le := by
    rw [h.table]
    exact Nat.zero_le _
  kernelInit := fun hInit => by
    rw [h.kernelInit] at hInit
    cases hInit
  idleReady := fun hIdle => by
    rw [h.table] at hIdle
    cases hIdle
  clear := fun hClosed => by
    rw [h.main] at hClosed
    cases hClosed
  main := by
    unfold MainInv
    rw [h.main]
    trivial
  current := by
    unfold CurrentInv
    rw [h.table]
    exact Or.inl ⟨rfl, rfl⟩
  scan := fun c hc => by
    rw [h.scan] at hc
    cases hc
  sp_lt := fun t => by
    rw [h.table]
    show 0 < 2 ^ 30
    decide

-- ---------------------------------------------------------------------------
-- What a step does to the slots
-- ---------------------------------------------------------------------------

/-- The slots are left alone. -/
structure SameSlots (s s' : Startup) : Prop where
  taskCount   : s'.table.taskCount = s.table.taskCount
  currentTask : s'.table.currentTask = s.table.currentTask
  idleReady   : s'.table.idleReady = s.table.idleReady
  sp          : ∀ t, (s'.table.tasks t).sp = (s.table.tasks t).sp

omit [TaskConfig] in
theorem SameSlots.of_table (h : s'.table = s.table) : SameSlots s s' :=
  ⟨by rw [h], by rw [h], by rw [h], fun _ => by rw [h]⟩

/-- PendSV, PSP and PendSV's pending bit are left alone. -/
structure SameSwitch (s s' : Startup) : Prop where
  scan   : s'.sys.scan = s.sys.scan
  psp    : s'.psp = s.psp
  pendSv : s'.sys.kernel.pendSv = s.sys.kernel.pendSv

/-- The steps by what they do to the slots. -/
inductive Effect (img : Image) (s s' : Startup) : List Event → Prop
  | quiet (hSlots : SameSlots s s') (hSwitch : SameSwitch s s') : Effect img s s' []
  | request (hSlots : SameSlots s s') (hScan : s'.sys.scan = s.sys.scan) (hPsp : s'.psp = s.psp)
      (hPend : s'.sys.kernel.pendSv = true) : Effect img s s' [.requested s.table.taskCount]
  | fill (t : Nat) (hThread : s.Thread) (hSwitch : SameSwitch s s')
      (hFree : t = s.table.taskCount ∧ t < rtoskMaxTasks ∨
        t = rtoskIdleTaskIndex ∧ s.table.idleReady = false)
      (hTable : s'.table = s.table.setSp t (builtSp img t)) : Effect img s s' []
  | publish (hThread : s.Thread) (hSwitch : SameSwitch s s')
      (hRoom : s.table.taskCount < rtoskMaxTasks)
      (hBuilt : (s.table.tasks s.table.taskCount).sp = builtSp img s.table.taskCount)
      (hTable : s'.table = { s.table with taskCount := s.table.taskCount + 1 }) :
      Effect img s s' []
  | idle (hThread : s.Thread) (hSwitch : SameSwitch s s') (hPos : 0 < s.table.taskCount)
      (hBuilt : (s.table.tasks rtoskIdleTaskIndex).sp = builtSp img rtoskIdleTaskIndex)
      (hTable : s'.table = { s.table with idleReady := true }) : Effect img s s' []
  | enter {c : Scan} (hScan : s.sys.scan = none) (hPend : s.sys.kernel.pendSv = true)
      (hBegin : selectNextBegin (rtoskTaskSaveStackPointer (wordsBelow s.psp) s.table) = some c)
      (hTable : s'.table = rtoskTaskSaveStackPointer (wordsBelow s.psp) s.table)
      (hScan' : s'.sys.scan = some c) (hPsp : s'.psp = s.psp)
      (hPend' : s'.sys.kernel.pendSv = false) : Effect img s s' []
  | through (hScan : s.sys.scan = none) (hPend : s.sys.kernel.pendSv = true)
      (hBegin : selectNextBegin (rtoskTaskSaveStackPointer (wordsBelow s.psp) s.table) = none)
      (hTable : s'.table = rtoskTaskSaveStackPointer (wordsBelow s.psp) s.table)
      (hScan' : s'.sys.scan = none) (hPsp : s'.psp = wordsAbove (rtoskTaskGetStackPointer s'.table))
      (hPend' : s'.sys.kernel.pendSv = false) : Effect img s s' []
  | round {c : Scan} (hScan : s.sys.scan = some c) (hMore : c.offset < c.taskCount)
      (hTable : s'.table = s.table) (hScan' : s'.sys.scan = some (selectNextRound s.table c))
      (hPsp : s'.psp = s.psp) (hPend' : s'.sys.kernel.pendSv = s.sys.kernel.pendSv) :
      Effect img s s' []
  | leave {c : Scan} (hScan : s.sys.scan = some c)
      (hTable : s'.table = selectNextEnd c s.table) (hScan' : s'.sys.scan = none)
      (hPsp : s'.psp = wordsAbove (rtoskTaskGetStackPointer s'.table))
      (hPend' : s'.sys.kernel.pendSv = s.sys.kernel.pendSv) : Effect img s s' []

omit [TaskConfig] in
theorem tick_sameSlots (s : Startup) :
    SameSlots s (s.setSys { s.sys with kernel := rtoskKernelTick s.sys.kernel }) :=
  have hSetup := rtoskKernelTick_setup s.sys.kernel
  ⟨hSetup.taskCount, rtoskKernelTick_currentTask _, hSetup.idleReady, hSetup.sp⟩

omit [TaskConfig] in
/-- The tick of a kernel that has not started leaves PendSV alone. -/
theorem tick_sameSwitch (hInit : s.sys.kernel.kernelInit = false) :
    SameSwitch s (s.setSys { s.sys with kernel := rtoskKernelTick s.sys.kernel }) := by
  refine ⟨rfl, rfl, ?_⟩
  show (rtoskKernelTick s.sys.kernel).pendSv = _
  simp only [rtoskKernelTick, hInit, if_true]

/-- **Every piece of a creation** fills the slot behind the last task, or
publishes it. -/
theorem createStep_effect {c : Create} (h : Base img s) (hThread : s.Thread)
    (hAt : s.main = .creating c) : Effect img s (s.advance img c) [] := by
  have hMain := h.main
  unfold MainInv at hMain
  rw [hAt] at hMain
  obtain ⟨hIndex, hRoom, hBuilt⟩ := hMain
  obtain ⟨index, taskFunc, priority, stage⟩ := c
  obtain rfl : index = s.table.taskCount := hIndex
  cases stage with
  | watermark => exact .quiet (.of_table rfl) ⟨rfl, rfl, rfl⟩
  | build =>
    refine .fill s.table.taskCount hThread ⟨rfl, rfl, rfl⟩ (Or.inl ⟨rfl, hRoom⟩) ?_
    rw [← builtSp_eq img _ taskFunc s.mem]
    rfl
  | fields =>
    refine .quiet ⟨rfl, rfl, rfl, fun t => ?_⟩ ⟨rfl, rfl, rfl⟩
    show (Function.update s.table.tasks s.table.taskCount _ t).sp = _
    by_cases ht : t = s.table.taskCount
    · subst ht
      rw [Function.update_self]
    · rw [Function.update_of_ne ht]
  | count => exact .publish hThread ⟨rfl, rfl, rfl⟩ hRoom (hBuilt (Or.inr rfl)) rfl

/-- **Every piece of `rtosk_kernel_start`** leaves the slots of the tasks
alone. -/
theorem startStep_effect {stage : StartStage} (h : Base img s) (hThread : s.Thread)
    (hAt : s.main = .starting stage) (hStart : StartCase img s stage s') :
    Effect img s s' [] := by
  cases hStart with
  | empty | idleReady | idleNot | init | svc => exact .quiet (.of_table rfl) ⟨rfl, rfl, rfl⟩
  | idle stage =>
    have hMain := h.main
    unfold MainInv at hMain
    rw [hAt] at hMain
    cases stage with
    | watermark => exact .quiet (.of_table rfl) ⟨rfl, rfl, rfl⟩
    | build =>
      refine .fill rtoskIdleTaskIndex hThread ⟨rfl, rfl, rfl⟩ (Or.inr ⟨rfl, hMain.2.1⟩) ?_
      rw [← builtSp_eq img _ img.idleTask s.mem]
      rfl
    | fields =>
      refine .quiet ⟨rfl, rfl, rfl, fun t => ?_⟩ ⟨rfl, rfl, rfl⟩
      show (Function.update s.table.tasks rtoskIdleTaskIndex _ t).sp = _
      by_cases ht : t = rtoskIdleTaskIndex
      · subst ht
        rw [Function.update_self]
        rfl
      · rw [Function.update_of_ne ht]
    | count => exact .idle hThread ⟨rfl, rfl, rfl⟩ hMain.1 (hMain.2.2 (Or.inr rfl)) rfl

/-- **What a step does to the slots.** -/
theorem StepCase.effect (h : Base img s) (hStep : StepCase img s l s' es) :
    Effect img s s' es := by
  cases hStep with
  | work | create | createRefused | systickInit | start | startAgain =>
    exact .quiet (.of_table rfl) ⟨rfl, rfl, rfl⟩
  | call hThread _ _ hCall =>
    obtain ⟨-, hScan, hCur, hPend⟩ := hCall.frame
    have hSetup := hCall.setup
    exact .quiet ⟨hSetup.taskCount, hCur, hSetup.idleReady, hSetup.sp⟩ ⟨hScan, rfl, hPend⟩
  | yield => exact .request (.of_table rfl) rfl rfl rfl
  | createStep hThread hAt => exact createStep_effect h hThread hAt
  | startStep hThread hAt hStart => exact startStep_effect h hThread hAt hStart
  | tick hUnmasked =>
    cases hInit : s.sys.kernel.kernelInit with
    | false => exact .quiet (tick_sameSlots s) (tick_sameSwitch hInit)
    | true =>
      refine .request (tick_sameSlots s) rfl rfl ?_
      show (rtoskKernelTick s.sys.kernel).pendSv = _
      simp only [rtoskKernelTick, hInit, Bool.true_eq_false, if_false, rtoskPortYield_pendSv]
  | pendSv hNone hPend hBegin => exact .enter hNone hPend hBegin rfl rfl rfl rfl
  | pendSvEmpty hNone hPend hBegin => exact .through hNone hPend hBegin rfl hNone rfl rfl
  | scan hScan hMore => exact .round hScan hMore rfl rfl rfl rfl
  | pendSvExit hScan _ => exact .leave hScan rfl rfl rfl rfl

-- ---------------------------------------------------------------------------
-- The invariant is kept
-- ---------------------------------------------------------------------------

omit [TaskConfig] in
/-- `main` runs with nothing pending. -/
theorem Thread.clear (h : s.Thread) (hOpen : s.sys.kernel.Open) : Clear s :=
  ⟨h.1, Bool.eq_false_iff.mpr fun hPend => h.2 ⟨hPend, hOpen.unmasked⟩⟩

omit [TaskConfig] in
theorem Clear.of_sameSwitch (h : Clear s) (hSwitch : SameSwitch s s') : Clear s' :=
  ⟨hSwitch.scan.trans h.scan, hSwitch.pendSv.trans h.pendSv⟩

theorem StepCase.isOpen (h : s.sys.kernel.Open) (hStep : StepCase img s l s' es) :
    s'.sys.kernel.Open := by
  have hSame (hMask : s'.sys.kernel.primask = s.sys.kernel.primask)
      (hNest : s'.sys.kernel.criticalNesting = s.sys.kernel.criticalNesting) :
      s'.sys.kernel.Open :=
    ⟨show s'.sys.kernel.primask &&& 1 = 0 by rw [hMask]; exact h.unmasked, hNest.trans h.nesting⟩
  cases hStep with
  | call _ _ hDuring hCall => exact hCall.isOpen hDuring h
  | startStep _ _ hStart =>
    cases hStart with
    | idle stage => cases stage <;> exact hSame rfl rfl
    | _ => exact hSame rfl rfl
  | createStep => exact hSame rfl rfl
  | tick => exact hSame (rtoskKernelTick_primask _) (rtoskKernelTick_criticalNesting _)
  | _ => exact hSame rfl rfl

omit [TaskConfig] in
theorem CurrentInv.of_table [TaskConfig] (h : CurrentInv s)
    (hCount : s'.table.taskCount = s.table.taskCount)
    (hCur : s'.table.currentTask = s.table.currentTask)
    (hIdle : s.table.idleReady = true → s'.table.idleReady = true) : CurrentInv s' := by
  unfold CurrentInv
  rw [hCount, hCur]
  exact h.imp_right fun h => h.imp_right fun h => ⟨h.1, hIdle h.2⟩

theorem Effect.current (h : Base img s) (hEffect : Effect img s s' es) : CurrentInv s' := by
  have hCur := h.current
  cases hEffect with
  | quiet hSlots | request hSlots =>
    exact hCur.of_table hSlots.taskCount hSlots.currentTask fun hIdle =>
      hSlots.idleReady.trans hIdle
  | fill t _ _ _ hTable =>
    exact hCur.of_table (by rw [hTable]; rfl) (by rw [hTable]; rfl) fun hIdle => by
      rw [hTable]
      exact hIdle
  | publish _ _ _ _ hTable =>
    unfold CurrentInv at hCur ⊢
    rw [hTable]
    show _ ∨ s.table.currentTask < s.table.taskCount + 1 ∨ _
    rcases hCur with ⟨hNone, hZero⟩ | hLt | hIdle
    · exact Or.inr (Or.inl (by omega))
    · exact Or.inr (Or.inl (by omega))
    · exact Or.inr (Or.inr hIdle)
  | idle _ _ _ _ hTable =>
    exact hCur.of_table (by rw [hTable]) (by rw [hTable]) fun _ => by rw [hTable]
  | enter _ _ _ hTable | through _ _ _ hTable =>
    obtain ⟨hCount, hCurrent, hIdle⟩ := saveStackPointer_keeps (wordsBelow s.psp) s.table
    rw [← hTable] at hCount hCurrent hIdle
    exact hCur.of_table hCount hCurrent fun h => hIdle.trans h
  | round _ _ hTable =>
    exact hCur.of_table (by rw [hTable]) (by rw [hTable]) fun h => by rw [hTable]; exact h
  | @leave c hScan hTable =>
    obtain ⟨hPos, -, -, hFound⟩ := h.scan c hScan
    obtain ⟨hCount, hIdle, -⟩ := selectNextEnd_keeps c s.table
    rw [← hTable] at hCount hIdle
    rcases selectNextEnd_current c s.table with ⟨hYes, -, hBest⟩ | ⟨hReady, hTo⟩ | hSame
    · have hLt := hFound hYes
      refine Or.inr (Or.inl ?_)
      rw [hTable, hBest, ← hTable, hCount]
      exact hLt
    · exact Or.inr (Or.inr ⟨by rw [hTable, hTo], hIdle.trans hReady⟩)
    · exact hCur.of_table hCount (by rw [hTable, hSame]) fun h => hIdle.trans h

theorem Effect.scan (h : Base img s) (hEffect : Effect img s s' es) : ScanInv s' := by
  have hOld := h.scan
  have hNone (hScan : s'.sys.scan = none) : ScanInv s' := fun c hc => by
    rw [hScan] at hc
    cases hc
  cases hEffect with
  | quiet hSlots hSwitch =>
    intro c hc
    rw [hSlots.taskCount]
    exact hOld c (hSwitch.scan ▸ hc)
  | request hSlots hScan =>
    intro c hc
    rw [hSlots.taskCount]
    exact hOld c (hScan ▸ hc)
  | fill _ hThread hSwitch | publish hThread hSwitch | idle hThread hSwitch =>
    exact hNone (hSwitch.scan.trans hThread.1)
  | through _ _ _ _ hScan' | leave _ _ hScan' => exact hNone hScan'
  | @enter c _ _ hBegin hTable hScan' =>
    intro d hd
    obtain rfl : c = d := Option.some.inj (hScan'.symm.trans hd)
    rw [hTable]
    obtain ⟨hPos, hCount, hCur, hFound⟩ := selectNextBegin_some hBegin
    exact ⟨hPos, hCount, hCur, fun hYes => by rw [hFound] at hYes; cases hYes⟩
  | @round c hScan hMore hTable hScan' =>
    intro d hd
    obtain rfl : selectNextRound s.table c = d := Option.some.inj (hScan'.symm.trans hd)
    obtain ⟨hPos, hCount, hCur, hFound⟩ := hOld c hScan
    rw [hTable, selectNextRound_taskCount, selectNextRound_current]
    refine ⟨hPos, hCount, hCur, fun hYes => ?_⟩
    rcases selectNextRound_found hYes with hBest | ⟨hWas, hBest⟩
    · rw [hBest]
      exact hCount ▸ c.index_lt (hCount ▸ hCur) hMore
    · rw [hBest]
      exact hFound hWas

theorem Effect.sp_lt (h : Base img s) (hEffect : Effect img s s' es) (t : Nat) :
    (s'.table.tasks t).sp < 2 ^ 30 := by
  have hOld := h.sp_lt
  cases hEffect with
  | quiet hSlots | request hSlots => exact hSlots.sp t ▸ hOld t
  | fill u _ _ hFree hTable =>
    have hSlot : u < rtoskTotalTaskSlots := by
      unfold rtoskTotalTaskSlots
      rcases hFree with ⟨-, hLt⟩ | ⟨rfl, -⟩
      · omega
      · exact Nat.lt_succ_self _
    rw [hTable, TaskTable.setSp_sp]
    split
    · exact builtSp_lt img hSlot
    · exact hOld t
  | publish _ _ _ _ hTable | idle _ _ _ _ hTable | round _ _ hTable => exact hTable ▸ hOld t
  | enter _ _ _ hTable | through _ _ _ hTable =>
    rw [hTable]
    rcases saveStackPointer_sp (wordsBelow s.psp) s.table t with hSp | hSp
    · rw [hSp]
      exact wordsBelow_lt s.psp
    · rw [hSp]
      exact hOld t
  | @leave c _ hTable =>
    rw [hTable, (selectNextEnd_keeps c s.table).2.2]
    exact hOld t

/-- The number of tasks changes when one is published. -/
theorem Effect.taskCount (hEffect : Effect img s s' es) :
    s'.table.taskCount = s.table.taskCount ∨
      s'.table.taskCount = s.table.taskCount + 1 ∧ s.table.taskCount < rtoskMaxTasks := by
  cases hEffect with
  | quiet hSlots | request hSlots => exact Or.inl hSlots.taskCount
  | publish _ _ hRoom _ hTable =>
    rw [hTable]
    exact Or.inr ⟨rfl, hRoom⟩
  | fill _ _ _ _ hTable | idle _ _ _ _ hTable | round _ _ hTable =>
    rw [hTable]
    exact Or.inl rfl
  | enter _ _ _ hTable | through _ _ _ hTable =>
    rw [hTable]
    exact Or.inl (saveStackPointer_keeps _ s.table).1
  | @leave c _ hTable =>
    rw [hTable]
    exact Or.inl (selectNextEnd_keeps c s.table).1

theorem Effect.taskCount_le (h : Base img s) (hEffect : Effect img s s' es) :
    s'.table.taskCount ≤ rtoskMaxTasks := by
  have hLe := h.taskCount_le
  rcases hEffect.taskCount with hSame | ⟨hOne, hRoom⟩
  · rw [hSame]
    exact hLe
  · rw [hOne]
    exact hRoom

/-- No task goes away. -/
theorem Effect.taskCount_ge (hEffect : Effect img s s' es) :
    s.table.taskCount ≤ s'.table.taskCount := by
  rcases hEffect.taskCount with hSame | ⟨hOne, -⟩
  · exact hSame.ge
  · rw [hOne]
    exact Nat.le_succ _

/-- The idle task is added to a table with tasks. -/
theorem Effect.idleReady (h : Base img s) (hEffect : Effect img s s' es)
    (hIdle : s'.table.idleReady = true) : 0 < s'.table.taskCount := by
  refine lt_of_lt_of_le ?_ hEffect.taskCount_ge
  cases hEffect with
  | quiet hSlots | request hSlots => exact h.idleReady (hSlots.idleReady ▸ hIdle)
  | idle _ _ hPos => exact hPos
  | fill _ _ _ _ hTable | publish _ _ _ _ hTable | round _ _ hTable =>
    exact h.idleReady (by rw [hTable] at hIdle; exact hIdle)
  | enter _ _ _ hTable | through _ _ _ hTable =>
    rw [hTable, (saveStackPointer_keeps _ s.table).2.2] at hIdle
    exact h.idleReady hIdle
  | @leave c _ hTable =>
    rw [hTable, (selectNextEnd_keeps c s.table).2.1] at hIdle
    exact h.idleReady hIdle

/-- Before `RTOSK_KERNEL_INIT = 1U` and until SVC. -/
theorem Base.kernelInit_false (h : Base img s) (hSvc : s.main ≠ .starting .svc)
    (hStarted : s.main ≠ .started) : s.sys.kernel.kernelInit = false := by
  cases hInit : s.sys.kernel.kernelInit with
  | false => rfl
  | true => exact absurd (h.kernelInit hInit).2 (not_or.mpr ⟨hSvc, hStarted⟩)

/-- The handlers leave `main` where it is. -/
theorem StepCase.of_handler (hStep : StepCase img s l s' es) (hHandler : l.isHandler = true) :
    s'.main = s.main ∧ s'.sys.kernel.kernelInit = s.sys.kernel.kernelInit := by
  cases hStep with
  | tick => exact ⟨rfl, (rtoskKernelTick_setup _).kernelInit⟩
  | pendSv | pendSvEmpty | scan | pendSvExit => exact ⟨rfl, rfl⟩
  | _ => cases hHandler

/-- Inside a call of `main` only the tick can come in, and it does not request
a switch. -/
theorem StepCase.of_closed (h : Base img s) (hStep : StepCase img s l s' es)
    (hHandler : l.isHandler = true) (hClosed : Closed s.main = true) :
    SameSlots s s' ∧ SameSwitch s s' := by
  obtain ⟨hScan, hPend⟩ := h.clear hClosed
  cases hStep with
  | tick =>
    have hInit : s.sys.kernel.kernelInit = false := h.kernelInit_false
      (fun hAt => by rw [hAt] at hClosed; cases hClosed)
      (fun hAt => by rw [hAt] at hClosed; cases hClosed)
    exact ⟨tick_sameSlots s, tick_sameSwitch hInit⟩
  | pendSv _ hYes | pendSvEmpty _ hYes => exact absurd (hPend.symm.trans hYes) nofun
  | scan hYes | pendSvExit hYes => exact absurd (hScan.symm.trans hYes) nofun
  | _ => cases hHandler

theorem StepCase.kernelInit (h : Base img s) (hStep : StepCase img s l s' es)
    (hInit : s'.sys.kernel.kernelInit = true) :
    0 < s'.table.taskCount ∧ (s'.main = .starting .svc ∨ s'.main = .started) := by
  have hOff {main : Main} (hAt : s.main = main) (hSvc : main ≠ .starting .svc)
      (hStarted : main ≠ .started) : s.sys.kernel.kernelInit ≠ true := by
    rw [h.kernelInit_false (hAt ▸ hSvc) (hAt ▸ hStarted)]
    exact nofun
  have hMain := h.main
  unfold MainInv at hMain
  have hHandler (hHandler : l.isHandler = true) :
      0 < s'.table.taskCount ∧ (s'.main = .starting .svc ∨ s'.main = .started) := by
    obtain ⟨hAt, hSame⟩ := hStep.of_handler hHandler
    obtain ⟨hPos, hAt'⟩ := h.kernelInit (hSame ▸ hInit)
    exact ⟨lt_of_lt_of_le hPos ((hStep.effect h).taskCount_ge), hAt ▸ hAt'⟩
  cases hStep with
  | work => exact h.kernelInit hInit
  | call _ hUser _ hCall =>
    exact absurd (hCall.setup.kernelInit.symm.trans hInit) (hOff hUser nofun nofun)
  | createRefused | startAgain | systickInit => exact h.kernelInit hInit
  | yield _ hAt | create _ _ _ hAt | createStep _ hAt | start _ hAt =>
    exact absurd hInit (hOff hAt nofun nofun)
  | startStep _ hAt hStart =>
    cases hStart with
    | empty | idleReady | idleNot => exact absurd hInit (hOff hAt nofun nofun)
    | idle stage =>
      rw [hAt] at hMain
      cases stage <;> exact absurd hInit (hOff hAt nofun nofun)
    | init =>
      rw [hAt] at hMain
      exact ⟨hMain, Or.inl rfl⟩
    | svc => exact ⟨(h.kernelInit hInit).1, Or.inr rfl⟩
  | tick | pendSv | pendSvEmpty | scan | pendSvExit => exact hHandler rfl

theorem StepCase.clear (h : Base img s) (hStep : StepCase img s l s' es)
    (hClosed : Closed s'.main = true) : Clear s' := by
  have hHandler (hHandler : l.isHandler = true) : Clear s' := by
    rw [(hStep.of_handler hHandler).1] at hClosed
    exact (h.clear hClosed).of_sameSwitch (hStep.of_closed h hHandler hClosed).2
  have hMain (hThread : s.Thread) (hSwitch : SameSwitch s s') : Clear s' :=
    (hThread.clear h.isOpen).of_sameSwitch hSwitch
  cases hStep with
  | createRefused | startAgain => exact h.clear hClosed
  | work | systickInit => exact (h.clear hClosed).of_sameSwitch ⟨rfl, rfl, rfl⟩
  | call hThread _ _ hCall =>
    obtain ⟨-, hScan, -, hPend⟩ := hCall.frame
    exact hMain hThread ⟨hScan, rfl, hPend⟩
  | yield => cases hClosed
  | create _ _ hThread | createStep hThread | start hThread => exact hMain hThread ⟨rfl, rfl, rfl⟩
  | startStep hThread _ hStart =>
    cases hStart with
    | idle stage => cases stage <;> exact hMain hThread ⟨rfl, rfl, rfl⟩
    | _ => exact hMain hThread ⟨rfl, rfl, rfl⟩
  | tick | pendSv | pendSvEmpty | scan | pendSvExit => exact hHandler rfl

/-- Outside the calls of `main` the table is as it may be. -/
theorem mainInv_of_open (hOpen : Closed s.main = false) : MainInv img s := by
  unfold MainInv
  split
  · rename_i hAt
    rw [hAt] at hOpen
    cases hOpen
  · rename_i hAt
    rw [hAt] at hOpen
    cases hOpen
  · rename_i hAt
    rw [hAt] at hOpen
    cases hOpen
  · trivial

theorem MainInv.of_sameSlots (h : MainInv img s) (hMain : s'.main = s.main)
    (hSlots : SameSlots s s') : MainInv img s' := by
  obtain ⟨hCount, -, hIdle, hSp⟩ := hSlots
  unfold MainInv at h ⊢
  rw [hMain]
  split <;> rename_i hAt
  · rw [hAt] at h
    rw [hCount, hSp]
    exact h
  · rw [hAt] at h
    rw [hCount, hIdle, hSp]
    exact h
  · rw [hAt] at h
    rw [hCount]
    exact h
  · trivial

theorem StepCase.mainInv (h : Base img s) (hStep : StepCase img s l s' es) : MainInv img s' := by
  have hMain := h.main
  have hHandler (hHandler : l.isHandler = true) : MainInv img s' := by
    have hAt := (hStep.of_handler hHandler).1
    cases hClosed : Closed s.main with
    | true => exact hMain.of_sameSlots hAt (hStep.of_closed h hHandler hClosed).1
    | false => exact mainInv_of_open (hAt ▸ hClosed)
  cases hStep with
  | work | createRefused | startAgain | systickInit => exact hMain
  | call =>
    rename_i exit _ _ _ _ _
    cases exit <;> trivial
  | yield => exact mainInv_of_open rfl
  | create _ _ _ _ hAccepts => exact ⟨rfl, hAccepts.2, nofun⟩
  | createStep _ hAt =>
    rename_i c _
    unfold MainInv at hMain
    rw [hAt] at hMain
    obtain ⟨hIndex, hRoom, hBuilt⟩ := hMain
    obtain ⟨index, taskFunc, priority, stage⟩ := c
    cases stage with
    | watermark => exact ⟨hIndex, hRoom, nofun⟩
    | build =>
      refine ⟨hIndex, hRoom, fun _ => ?_⟩
      show ((s.table.setSp index (rtoskTaskBuildStack img index taskFunc s.mem).1).tasks index).sp
        = builtSp img index
      rw [TaskTable.setSp_sp, if_pos rfl, builtSp_eq]
    | fields =>
      refine ⟨hIndex, hRoom, fun _ => ?_⟩
      show (Function.update s.table.tasks index _ index).sp = builtSp img index
      rw [Function.update_self]
      exact hBuilt (Or.inl rfl)
    | count => trivial
  | start => trivial
  | startStep hThread hAt hStart =>
    unfold MainInv at hMain
    rw [hAt] at hMain
    cases hStart with
    | empty => trivial
    | idleReady hSome => exact Nat.pos_of_ne_zero hSome
    | idleNot hSome hNot => exact ⟨Nat.pos_of_ne_zero hSome, hNot, nofun⟩
    | idle stage =>
      obtain ⟨hPos, hNot, hBuilt⟩ := hMain
      cases stage with
      | watermark => exact ⟨hPos, hNot, nofun⟩
      | build =>
        refine ⟨hPos, hNot, fun _ => ?_⟩
        show ((s.table.setSp rtoskIdleTaskIndex
          (rtoskTaskBuildStack img rtoskIdleTaskIndex img.idleTask s.mem).1).tasks
            rtoskIdleTaskIndex).sp = builtSp img rtoskIdleTaskIndex
        rw [TaskTable.setSp_sp, if_pos rfl, builtSp_eq]
      | fields =>
        refine ⟨hPos, hNot, fun _ => ?_⟩
        show (Function.update s.table.tasks rtoskIdleTaskIndex _ rtoskIdleTaskIndex).sp = _
        rw [Function.update_self]
        exact hBuilt (Or.inl rfl)
      | count => exact hPos
    | init | svc => trivial
  | tick | pendSv | pendSvEmpty | scan | pendSvExit => exact hHandler rfl

/-- **The invariant is kept.** -/
theorem Base.step (h : Base img s) (hStep : StepCase img s l s' es) : Base img s' :=
  have hEffect := hStep.effect h
  { isOpen := hStep.isOpen h.isOpen
    taskCount_le := hEffect.taskCount_le h
    kernelInit := hStep.kernelInit h
    idleReady := hEffect.idleReady h
    clear := hStep.clear h
    main := hStep.mainInv h
    current := hEffect.current h
    scan := hEffect.scan h
    sp_lt := hEffect.sp_lt h }

end Startup

end TinyRtos
