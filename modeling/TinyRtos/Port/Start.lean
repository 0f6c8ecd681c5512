import TinyRtos.Port.Machine
import Mathlib.Data.List.Induction

/-!
# TinyRTOS — the machine as SVC leaves it

`main` creates tasks, `rtosk_kernel_start` adds the idle task, and `SVC_Handler`
loads the first one. `Started` is what the context switch needs of that state:
every task but the first still stands at the frame that was built for it.
`boot_started` shows it of any image and any list of tasks that fits.
-/

namespace TinyRtos

variable [TaskConfig]

/-- A slot that the scheduler may select. -/
def Live (k : TaskTable) (t : Nat) : Prop := t < k.taskCount ∨ t = rtoskIdleTaskIndex

theorem live_congr {k k' : TaskTable} (hCount : k'.taskCount = k.taskCount) (t : Nat) :
    Live k' t ↔ Live k t := by
  unfold Live
  rw [hCount]

/-- The slot behind the last task is not. -/
theorem not_live_taskCount {k : TaskTable} (hRoom : k.taskCount < rtoskMaxTasks) :
    ¬ Live k k.taskCount := by
  rintro (hLt | hIdle)
  · exact absurd hLt (lt_irrefl _)
  · exact absurd hIdle (Nat.ne_of_lt hRoom)

/-- Slot `t` is suspended at the frame that was built for `taskFunc`. -/
def BuiltAt (img : Image) (k : TaskTable) (mem : Nat → UInt32) (t : Nat) (taskFunc : UInt32) :
    Prop :=
  img.Holds t (k.tasks t).sp ∧ BuiltFrame img t taskFunc (savedContext mem (k.tasks t).sp)

/-- What is built on one stack stays while another slot is written. -/
theorem BuiltAt.of_frame {img : Image} {k k' : TaskTable} {mem mem' : Nat → UInt32} {t : Nat}
    {taskFunc : UInt32} (h : BuiltAt img k mem t taskFunc)
    (hSp : (k'.tasks t).sp = (k.tasks t).sp) (hMem : ∀ a, img.InStack t a → mem' a = mem a) :
    BuiltAt img k' mem' t taskFunc := by
  obtain ⟨hHolds, hFrame⟩ := h
  unfold BuiltAt
  rw [hSp, savedContext_congr hHolds hMem]
  exact ⟨hHolds, hFrame⟩

/-- Watermark the stack of slot `n` and build its frame. -/
def prepareStack (img : Image) (n : Nat) (taskFunc : UInt32) (mem : Nat → UInt32) :
    Nat × (Nat → UInt32) :=
  rtoskTaskBuildStack img n taskFunc (rtoskTaskWatermarkStack img n mem)

/-- The other stacks are left alone. -/
theorem prepareStack_of_ne {img : Image} {n t : Nat} (hn : n < rtoskTotalTaskSlots)
    (hne : t ≠ n) (taskFunc : UInt32) (mem : Nat → UInt32) {a : Nat} (ha : img.InStack t a) :
    (prepareStack img n taskFunc mem).2 a = mem a := by
  have hOut : ¬ img.InStack n a := img.not_inStack_of_ne hne ha
  unfold prepareStack
  rw [buildStack_of_outside hn taskFunc hOut, watermark_of_outside hOut]

theorem prepareStack_builtAt {img : Image} {k : TaskTable} {n : Nat} {taskFunc : UInt32}
    {mem : Nat → UInt32} (hn : n < rtoskTotalTaskSlots)
    (hSp : (k.tasks n).sp = (prepareStack img n taskFunc mem).1) :
    BuiltAt img k (prepareStack img n taskFunc mem).2 n taskFunc := by
  unfold BuiltAt
  rw [hSp]
  exact ⟨buildStack_holds img hn taskFunc _, buildStack_built img hn taskFunc _⟩

theorem createTask_eq {img : Image} {s : TaskTable × (Nat → UInt32)} {taskFunc : UInt32}
    (hAccepts : Accepts s.1 taskFunc) (priority : UInt32) :
    createTask img s (taskFunc, priority) =
      (rtoskTaskCreate (prepareStack img s.1.taskCount taskFunc s.2).1 priority s.1,
        (prepareStack img s.1.taskCount taskFunc s.2).2) := by
  obtain ⟨hFunc, hRoom⟩ := hAccepts
  simp only [createTask, if_neg hFunc, if_neg (Nat.not_le.mpr hRoom), prepareStack]

theorem initIdle_eq {img : Image} {s : TaskTable × (Nat → UInt32)}
    (hIdle : s.1.idleReady = false) :
    initIdle img s =
      (rtoskTaskInitIdle (prepareStack img rtoskIdleTaskIndex img.idleTask s.2).1 s.1,
        (prepareStack img rtoskIdleTaskIndex img.idleTask s.2).2) := by
  simp only [initIdle, hIdle, prepareStack]
  rfl

theorem rtoskTaskCreate_sp {k : TaskTable} (hRoom : k.taskCount < rtoskMaxTasks) (sp : Nat)
    (priority : UInt32) (t : Nat) :
    ((rtoskTaskCreate sp priority k).tasks t).sp =
      if t = k.taskCount then sp else (k.tasks t).sp := by
  unfold rtoskTaskCreate
  rw [if_neg (Nat.not_le.mpr hRoom)]
  by_cases ht : t = k.taskCount
  · simp [ht]
  · simp [ht]

theorem rtoskTaskCreate_taskCount {k : TaskTable} (hRoom : k.taskCount < rtoskMaxTasks)
    (sp : Nat) (priority : UInt32) :
    (rtoskTaskCreate sp priority k).taskCount = k.taskCount + 1 := by
  unfold rtoskTaskCreate
  rw [if_neg (Nat.not_le.mpr hRoom)]

theorem rtoskTaskInitIdle_sp {k : TaskTable} (hIdle : k.idleReady = false) (sp t : Nat) :
    ((rtoskTaskInitIdle sp k).tasks t).sp =
      if t = rtoskIdleTaskIndex then sp else (k.tasks t).sp := by
  unfold rtoskTaskInitIdle
  rw [hIdle]
  by_cases ht : t = rtoskIdleTaskIndex
  · simp [ht]
  · simp [ht]

@[simp] theorem rtoskTaskInitIdle_taskCount (sp : Nat) (k : TaskTable) :
    (rtoskTaskInitIdle sp k).taskCount = k.taskCount := by
  unfold rtoskTaskInitIdle
  split <;> rfl

@[simp] theorem rtoskTaskInitIdle_currentTask (sp : Nat) (k : TaskTable) :
    (rtoskTaskInitIdle sp k).currentTask = k.currentTask := by
  unfold rtoskTaskInitIdle
  split <;> rfl

namespace Machine

/-- The machine when the first task begins: `funcs` are the functions that the
slots were created with. -/
structure Started (img : Image) (funcs : Nat → UInt32) (m : Machine) : Prop where
  sys     : m.sys.Started
  current : m.current < m.table.taskCount
  fpca    : m.fpca = false
  msp     : m.msp = []
  creates : ∀ t, m.creates t = none
  built   : ∀ t, Live m.table t → BuiltAt img m.table m.mem t (funcs t)

/-- Create the tasks, start the kernel, and take the SVC. -/
def boot (img : Image) (tasks : List (UInt32 × UInt32)) (mem : Nat → UInt32)
    (sems : Nat → Semaphore) (queues : Nat → Queue) : Machine :=
  let (table, mem) := initIdle img (tasks.foldl (createTask img) (TaskTable.static, mem))
  svcHandler {
    sys := System.start table sems queues
    mem := mem
    r4r11 := fun _ => 0
    frame := fun _ => 0
    fpRegs := fun _ => 0
    fpca := false
    psp := 0
    msp := []
    creates := fun _ => none }

/-- The functions of the tasks of `boot`, and the idle task's. -/
def bootFuncs (img : Image) (tasks : List (UInt32 × UInt32)) (t : Nat) : UInt32 :=
  if t = rtoskIdleTaskIndex then img.idleTask else (tasks.map Prod.fst).getD t 0

variable {img : Image} {tasks : List (UInt32 × UInt32)}

/-- Creations by `main`, one after another: each finds room, in the slot behind
the tasks created before. -/
theorem createTasks_induct (img : Image) (mem : Nat → UInt32)
    (P : List (UInt32 × UInt32) → TaskTable × (Nat → UInt32) → Prop)
    (hNone : P [] (TaskTable.static, mem))
    (hNext : ∀ before taskFunc priority r, r.1.taskCount = before.length →
      Accepts r.1 taskFunc → P before r →
      P (before ++ [(taskFunc, priority)])
        (rtoskTaskCreate (prepareStack img r.1.taskCount taskFunc r.2).1 priority r.1,
          (prepareStack img r.1.taskCount taskFunc r.2).2))
    (hFuncs : ∀ task ∈ tasks, task.1 ≠ 0) (hLen : tasks.length ≤ rtoskMaxTasks) :
    let r := tasks.foldl (createTask img) (TaskTable.static, mem)
    r.1.taskCount = tasks.length ∧ P tasks r := by
  induction tasks using List.reverseRecOn with
  | nil => exact ⟨rfl, hNone⟩
  | append_singleton before task ih =>
    rw [List.length_append, List.length_singleton] at hLen
    obtain ⟨hCount, hBefore⟩ := ih (fun u hu => hFuncs u (List.mem_append_left _ hu)) (by omega)
    have hFunc : task.1 ≠ 0 := hFuncs task (List.mem_append_right _ (List.mem_singleton_self _))
    simp only [List.foldl_append, List.foldl_cons, List.foldl_nil, List.length_append,
      List.length_singleton]
    generalize before.foldl (createTask img) (TaskTable.static, mem) = r at *
    have hRoom : r.1.taskCount < rtoskMaxTasks := by omega
    rw [createTask_eq ⟨hFunc, hRoom⟩ task.2]
    refine ⟨?_, hNext before task.1 task.2 r hCount ⟨hFunc, hRoom⟩ hBefore⟩
    rw [rtoskTaskCreate_taskCount hRoom, hCount]

/-- After any number of creations by `main` every task stands at its frame, and
the first one is current. -/
theorem createTasks_built (img : Image) (mem : Nat → UInt32) (hFuncs : ∀ task ∈ tasks, task.1 ≠ 0)
    (hLen : tasks.length ≤ rtoskMaxTasks) :
    let r := tasks.foldl (createTask img) (TaskTable.static, mem)
    System.Created r.1 ∧ r.1.taskCount = tasks.length ∧ r.1.currentTask = 0 ∧
      ∀ t < tasks.length, BuiltAt img r.1 r.2 t ((tasks.map Prod.fst).getD t 0) := by
  have hAll := createTasks_induct img mem
    (fun tasks r => System.Created r.1 ∧ r.1.currentTask = 0 ∧
      ∀ t < tasks.length, BuiltAt img r.1 r.2 t ((tasks.map Prod.fst).getD t 0))
    ⟨System.created_static, rfl, fun t ht => absurd ht (Nat.not_lt_zero t)⟩
    (fun before taskFunc priority r hCount hAccepts ⟨hCreated, hCur, hBuilt⟩ => ?_) hFuncs hLen
  · exact ⟨hAll.2.1, hAll.1, hAll.2.2⟩
  · have hRoom := hAccepts.2
    have hSlot : r.1.taskCount < rtoskTotalTaskSlots := lt_of_lt_of_le hRoom (Nat.le_succ _)
    refine ⟨(hCreated.create _ _).1, ?_, fun t ht => ?_⟩
    · simpa [rtoskTaskCreate, Nat.not_le.mpr hRoom] using hCur
    · rw [List.length_append, List.length_singleton] at ht
      rw [List.map_append]
      by_cases hNew : t = r.1.taskCount
      · subst hNew
        rw [List.getD_append_right _ _ _ _ (by simp [hCount])]
        have hSp := rtoskTaskCreate_sp hRoom
          (prepareStack img r.1.taskCount taskFunc r.2).1 priority r.1.taskCount
        rw [if_pos rfl] at hSp
        simpa [hCount] using prepareStack_builtAt hSlot hSp
      · have hOld : t < before.length := by omega
        rw [List.getD_append _ _ _ _ (by simpa using hOld)]
        refine (hBuilt t hOld).of_frame ?_ fun a ha => prepareStack_of_ne hSlot hNew taskFunc r.2 ha
        rw [rtoskTaskCreate_sp hRoom, if_neg hNew]

/-- Every task of a booted machine stands at its frame. -/
theorem boot_built (img : Image) (mem : Nat → UInt32) (sems : Nat → Semaphore)
    (queues : Nat → Queue) (hFuncs : ∀ task ∈ tasks, task.1 ≠ 0)
    (hLen : tasks.length ≤ rtoskMaxTasks) (t : Nat) (ht : Live (boot img tasks mem sems queues).table t) :
    BuiltAt img (boot img tasks mem sems queues).table (boot img tasks mem sems queues).mem t
      (bootFuncs img tasks t) := by
  obtain ⟨hCreated, hCount, -, hBuilt⟩ := createTasks_built img mem hFuncs hLen
  have hSlot : rtoskIdleTaskIndex < rtoskTotalTaskSlots := Nat.lt_succ_self _
  unfold boot at ht ⊢
  generalize tasks.foldl (createTask img) (TaskTable.static, mem) = r at *
  rw [initIdle_eq hCreated.2.1] at ht ⊢
  set idle := prepareStack img rtoskIdleTaskIndex img.idleTask r.2 with hIdleEq
  have hSp := rtoskTaskInitIdle_sp hCreated.2.1 idle.1
  show BuiltAt img (rtoskTaskInitIdle idle.1 r.1) idle.2 t (bootFuncs img tasks t)
  unfold bootFuncs
  by_cases hIdle : t = rtoskIdleTaskIndex
  · subst hIdle
    rw [if_pos rfl]
    exact prepareStack_builtAt hSlot (by rw [hSp, if_pos rfl])
  · rw [if_neg hIdle]
    have hUser : t < tasks.length := by
      rcases ht with hLt | hEq
      · have hLt' : t < (rtoskTaskInitIdle idle.1 r.1).taskCount := hLt
        rw [rtoskTaskInitIdle_taskCount] at hLt'
        omega
      · exact absurd hEq hIdle
    refine (hBuilt t hUser).of_frame ?_ fun a ha =>
      prepareStack_of_ne hSlot hIdle img.idleTask r.2 ha
    rw [hSp, if_neg hIdle]

/-- **A booted machine is started.** -/
theorem boot_started {mem : Nat → UInt32} {sems : Nat → Semaphore} {queues : Nat → Queue}
    (hTasks : tasks ≠ []) (hFuncs : ∀ task ∈ tasks, task.1 ≠ 0)
    (hLen : tasks.length ≤ rtoskMaxTasks)
    (hSems : ∀ i, (sems i).waitingTask = rtoskSemaphoreNoWaiter)
    (hQueues : ∀ q, (queues q).waitingTask = rtoskQueueNoWaiter ∧ (queues q).head = 0 ∧
      (queues q).tail = 0 ∧ (queues q).count = 0) :
    Started img (bootFuncs img tasks) (boot img tasks mem sems queues) := by
  have hBooted := boot_built img mem sems queues hFuncs hLen
  obtain ⟨hCreated, hCount, hCur, -⟩ := createTasks_built img mem hFuncs hLen
  have hPos : 0 < tasks.length := List.length_pos_iff.mpr hTasks
  unfold boot at hBooted ⊢
  generalize tasks.foldl (createTask img) (TaskTable.static, mem) = r at *
  rw [initIdle_eq hCreated.2.1] at hBooted ⊢
  set idle := prepareStack img rtoskIdleTaskIndex img.idleTask r.2 with hIdleEq
  refine ⟨hCreated.started (by omega) idle.1 hSems hQueues, ?_, rfl, rfl, fun _ => rfl, hBooted⟩
  show (rtoskTaskInitIdle idle.1 r.1).currentTask < (rtoskTaskInitIdle idle.1 r.1).taskCount
  rw [rtoskTaskInitIdle_currentTask, rtoskTaskInitIdle_taskCount]
  omega

end Machine

end TinyRtos
