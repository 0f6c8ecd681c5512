import TinyRtos.Port.Start

/-!
# TinyRTOS — the first task to run

Later tasks are chosen by `rtosk_scheduler_select_next`, the first one by
`SVC_Handler`, which restores the task of the current index: the one that was
created first. `accepted` are the tasks `rtosk_task_create` takes out of any
list of creations; `firstTask_agrees_iff` says when the two choices agree.
-/

namespace TinyRtos.Machine

section

variable [TaskConfig] {img : Image} {tasks : List (UInt32 × UInt32)}

/-- The creations that are not refused. -/
def accepted (tasks : List (UInt32 × UInt32)) : List (UInt32 × UInt32) :=
  (tasks.filter fun task => task.1 ≠ 0).take rtoskMaxTasks

-- ---------------------------------------------------------------------------
-- The table after the creations
-- ---------------------------------------------------------------------------

/-- Refused creations leave no trace. -/
theorem createTasks_filter (s : TaskTable × (Nat → UInt32)) :
    tasks.foldl (createTask img) s =
      ((tasks.filter fun task => task.1 ≠ 0).take (rtoskMaxTasks - s.1.taskCount)).foldl
        (createTask img) s := by
  induction tasks generalizing s with
  | nil => simp
  | cons task rest ih =>
    by_cases hFunc : task.1 = 0
    · have hSame : createTask img s task = s := by simp [createTask, hFunc]
      rw [List.foldl_cons, hSame, List.filter_cons_of_neg (by simpa using hFunc)]
      exact ih s
    · rw [List.foldl_cons, List.filter_cons_of_pos (by simpa using hFunc)]
      by_cases hRoom : s.1.taskCount < rtoskMaxTasks
      · obtain ⟨n, hn⟩ : ∃ n, rtoskMaxTasks - s.1.taskCount = n + 1 :=
          ⟨rtoskMaxTasks - s.1.taskCount - 1, by omega⟩
        have hCount : (createTask img s task).1.taskCount = s.1.taskCount + 1 := by
          rw [createTask_eq ⟨hFunc, hRoom⟩ task.2]
          exact rtoskTaskCreate_taskCount hRoom _ _
        rw [hn, List.take_succ_cons, List.foldl_cons, ih, hCount,
          show rtoskMaxTasks - (s.1.taskCount + 1) = n by omega]
      · have hFull : createTask img s task = s := by
          simp [createTask, hFunc, Nat.le_of_not_lt hRoom]
        rw [hFull, ih s, show rtoskMaxTasks - s.1.taskCount = 0 by omega]
        simp

theorem boot_accepted (mem : Nat → UInt32) (sems : Nat → Semaphore) (queues : Nat → Queue) :
    boot img tasks mem sems queues = boot img (accepted tasks) mem sems queues := by
  have hSame : tasks.foldl (createTask img) (TaskTable.static, mem) =
      (accepted tasks).foldl (createTask img) (TaskTable.static, mem) :=
    createTasks_filter (TaskTable.static, mem)
  unfold boot
  rw [hSame]

/-- Each task has the priority it was created with. -/
theorem createTasks_priority (img : Image) (mem : Nat → UInt32)
    (hFuncs : ∀ task ∈ tasks, task.1 ≠ 0) (hLen : tasks.length ≤ rtoskMaxTasks) :
    ∀ t < tasks.length,
      (((tasks.foldl (createTask img) (TaskTable.static, mem)).1.tasks t).priority =
        (tasks.map Prod.snd).getD t 0) := by
  refine (createTasks_induct img mem
    (fun tasks r => ∀ t < tasks.length, (r.1.tasks t).priority = (tasks.map Prod.snd).getD t 0)
    (fun t ht => absurd ht (Nat.not_lt_zero t))
    (fun before taskFunc priority r hCount hAccepts hOld t ht => ?_) hFuncs hLen).2
  rw [List.length_append, List.length_singleton] at ht
  rw [rtoskTaskCreate, if_neg (Nat.not_le.mpr hAccepts.2), List.map_append]
  by_cases hNew : t = r.1.taskCount
  · subst hNew
    rw [List.getD_append_right _ _ _ _ (by simp [hCount])]
    simp [hCount]
  · rw [List.getD_append _ _ _ _ (by simp; omega)]
    simp only [Function.update_of_ne hNew]
    exact hOld t (by omega)

/-- The table that SVC finds. -/
structure Booted (tasks : List (UInt32 × UInt32)) (k : TaskTable) : Prop where
  taskCount   : k.taskCount = tasks.length
  currentTask : k.currentTask = 0
  ready       : ∀ t < tasks.length, (k.tasks t).state = .ready
  priority    : ∀ t < tasks.length, (k.tasks t).priority = (tasks.map Prod.snd).getD t 0

theorem boot_booted (img : Image) (mem : Nat → UInt32) (sems : Nat → Semaphore)
    (queues : Nat → Queue) (hFuncs : ∀ task ∈ tasks, task.1 ≠ 0)
    (hLen : tasks.length ≤ rtoskMaxTasks) :
    Booted tasks (boot img tasks mem sems queues).table := by
  obtain ⟨⟨-, hIdle, hReady⟩, hCount, hCur, -⟩ := createTasks_built img mem hFuncs hLen
  have hPriority := createTasks_priority img mem hFuncs hLen
  unfold boot
  generalize tasks.foldl (createTask img) (TaskTable.static, mem) = r at *
  rw [initIdle_eq hIdle]
  set idle := prepareStack img rtoskIdleTaskIndex img.idleTask r.2
  show Booted tasks (rtoskTaskInitIdle idle.1 r.1)
  have hUser (t : Nat) (ht : t < tasks.length) :
      (rtoskTaskInitIdle idle.1 r.1).tasks t = r.1.tasks t := by
    have hne : t ≠ rtoskIdleTaskIndex := Nat.ne_of_lt (lt_of_lt_of_le ht hLen)
    unfold rtoskTaskInitIdle
    rw [hIdle]
    exact Function.update_of_ne hne _ _
  refine ⟨?_, ?_, fun t ht => ?_, fun t ht => ?_⟩
  · rw [rtoskTaskInitIdle_taskCount, hCount]
  · rw [rtoskTaskInitIdle_currentTask, hCur]
  · rw [hUser t ht]
    exact hReady t (hCount ▸ ht)
  · rw [hUser t ht]
    exact hPriority t ht

-- ---------------------------------------------------------------------------
-- The two choices
-- ---------------------------------------------------------------------------

/-- Task `t` is READY and of maximal priority. -/
def Top (k : TaskTable) (t : Nat) : Prop :=
  ReadyUser k t ∧ ∀ j, ReadyUser k j → (k.tasks j).priority ≤ (k.tasks t).priority

/-- The scheduler keeps the current task exactly if it may choose it. -/
theorem selectNext_keeps_iff {k : TaskTable} (hSlots : k.taskCount ≤ rtoskMaxTasks)
    (hReady : ReadyUser k k.currentTask) :
    (rtoskSchedulerSelectNext k).currentTask = k.currentTask ↔ Top k k.currentTask := by
  constructor
  · intro hSame
    obtain ⟨b, hEq, hBest⟩ := selectNext_ready hSlots hReady
    rw [hEq] at hSame
    obtain rfl : b = k.currentTask := hSame
    exact hBest
  · rintro ⟨hReady, hMax⟩
    rw [selectNext_stays hSlots hReady hMax]

variable {first : UInt32 × UInt32} {rest : List (UInt32 × UInt32)}

omit [TaskConfig] in
theorem Booted.top_iff {k : TaskTable} (h : Booted (first :: rest) k) :
    Top k 0 ↔ ∀ task ∈ rest, task.2 ≤ first.2 := by
  have hZero : (k.tasks 0).priority = first.2 := h.priority 0 (Nat.succ_pos _)
  have hSucc (i : Nat) (hi : i < rest.length) : (k.tasks (i + 1)).priority = rest[i].2 := by
    rw [h.priority (i + 1) (Nat.succ_lt_succ hi)]
    simp [hi]
  have hReady (t : Nat) (ht : t < rest.length + 1) : ReadyUser k t :=
    ⟨by rw [h.taskCount]; exact ht, h.ready t ht⟩
  constructor
  · rintro ⟨-, hMax⟩ task hTask
    obtain ⟨i, hi, rfl⟩ := List.mem_iff_getElem.mp hTask
    rw [← hSucc i hi, ← hZero]
    exact hMax (i + 1) (hReady (i + 1) (Nat.succ_lt_succ hi))
  · intro hAll
    refine ⟨hReady 0 (Nat.succ_pos _), fun j hj => ?_⟩
    have hLt : j < (first :: rest).length := h.taskCount ▸ hj.1
    cases j with
    | zero => exact UInt32.le_refl _
    | succ i =>
      have hi : i < rest.length := Nat.lt_of_succ_lt_succ hLt
      rw [hZero, hSucc i hi]
      exact hAll _ (List.getElem_mem hi)

/-- **SVC starts the task that was created first**, whatever the priorities. It
is of maximal priority, and the one the scheduler chooses from the same table,
exactly if no later task outranks it. -/
theorem firstTask_agrees_iff (mem : Nat → UInt32) (sems : Nat → Semaphore)
    (queues : Nat → Queue) (hAccepted : accepted tasks = first :: rest) :
    let m := boot img tasks mem sems queues
    m.current = 0 ∧ m.frame 6 = first.1 ∧
      (Top m.table m.current ↔ ∀ task ∈ rest, task.2 ≤ first.2) ∧
      ((rtoskSchedulerSelectNext m.table).currentTask = m.current ↔
        ∀ task ∈ rest, task.2 ≤ first.2) := by
  have hFuncs : ∀ task ∈ first :: rest, task.1 ≠ 0 := fun task hTask => by
    rw [← hAccepted] at hTask
    simpa using (List.mem_filter.mp (List.mem_of_mem_take hTask)).2
  have hLen : (first :: rest).length ≤ rtoskMaxTasks := by
    rw [← hAccepted]
    exact List.length_take_le _ _
  rw [boot_accepted, hAccepted]
  have hBooted := boot_booted img mem sems queues hFuncs hLen
  have hBuilt := boot_built img mem sems queues hFuncs hLen 0
    (Or.inl (by rw [hBooted.taskCount]; exact Nat.succ_pos _))
  intro m
  have hCur : m.current = 0 := hBooted.currentTask
  have hTop := hBooted.top_iff
  have hSlots : m.table.taskCount ≤ rtoskMaxTasks := hBooted.taskCount.trans_le hLen
  have hReady : ReadyUser m.table 0 :=
    ⟨by rw [hBooted.taskCount]; exact Nat.succ_pos _, hBooted.ready 0 (Nat.succ_pos _)⟩
  refine ⟨hCur, ?_, ?_, ?_⟩
  · have hPos : 0 < m.table.taskCount := hReady.1
    have hUser : 0 ≠ rtoskIdleTaskIndex := Nat.ne_of_lt (lt_of_lt_of_le (Nat.succ_pos _) hLen)
    have hSp : rtoskTaskGetStackPointer m.table = (m.table.tasks 0).sp := by
      rw [rtoskTaskGetStackPointer_eq hPos]
      exact congrArg (fun t => (m.table.tasks t).sp) hCur
    have hFrame : m.frame = (savedContext m.mem (rtoskTaskGetStackPointer m.table)).frame := rfl
    rw [hFrame, hSp, hBuilt.2.pc, bootFuncs, if_neg hUser]
    rfl
  · rw [hCur]
    exact hTop
  · have hCurrent : m.table.currentTask = 0 := hCur
    have hKeeps := selectNext_keeps_iff hSlots (by rw [hCurrent]; exact hReady)
    rw [hCurrent] at hKeeps
    rw [hCur]
    exact hKeeps.trans hTop

end

-- ---------------------------------------------------------------------------
-- Two tasks
-- ---------------------------------------------------------------------------

def twoImage : Image where
  tasks := 0x8000100
  idleTask := 0x08000201
  exitTrap := 0x08000221
  fits := stockConfig_fits

/-- Two tasks of the given priorities. -/
def two (p q : UInt32) : Machine :=
  boot twoImage [(0x08001001, p), (0x08002001, q)] (fun _ => 0) (fun _ => rtoskSemaphoreInit 0)
    fun _ => ⟨fun _ => 0, 1, 2, 0, 0, 0, rtoskQueueNoWaiter⟩

theorem firstTask_agrees_two :
    (rtoskSchedulerSelectNext (two 2 1).table).currentTask = (two 2 1).current := by
  have hAccepted : accepted [((0x08001001 : UInt32), (2 : UInt32)), (0x08002001, 1)] =
      (0x08001001, 2) :: [(0x08002001, 1)] := rfl
  exact (firstTask_agrees_iff _ _ _ hAccepted).2.2.2.mpr
    (List.forall_mem_singleton.mpr (show (1 : UInt32) ≤ 2 by decide))

/-- **A second task of higher priority.** The first one starts, and the scheduler
chooses the second. -/
theorem firstTask_outranked :
    (two 1 2).frame 6 = 0x08001001 ∧ ¬ Top (two 1 2).table (two 1 2).current ∧
      (rtoskSchedulerSelectNext (two 1 2).table).currentTask = 1 := by
  refine ⟨by decide +kernel, fun hTop => ?_, by decide +kernel⟩
  have hSecond : ReadyUser (two 1 2).table 1 := by
    decide +kernel
  exact absurd (hTop.2 1 hSecond) (by decide +kernel)

end TinyRtos.Machine
