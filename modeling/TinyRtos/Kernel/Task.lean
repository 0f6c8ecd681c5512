import Mathlib.Algebra.Ring.Nat
import Mathlib.Logic.Function.Basic
import Mathlib.Data.List.Range

/-!
# TinyRTOS — the task table (`task.c`, `task.h`)

`TaskTable` is the file-scope state of `task.c`: the control blocks
`RTOSK_TASKS`, `RTOSK_TASK_COUNT`, `RTOSK_CURRENT_TASK` and
`RTOSK_IDLE_READY`. The functions below are the ones the scheduler, the
synchronisation objects and the kernel call; the stack builder and the rest of
`rtosk_task_create` need memory and are in `Port/`.

`RTOSK_MAX_TASKS` is the one number an integrator edits, so the development is
over every value of it (`TaskConfig`); `stockConfig` is the shipped one. Task
indices are natural numbers: the bound in `TaskConfig` keeps every index
expression of the C code below `2 ^ 32`.
-/

namespace TinyRtos

/-- `RTOSK_MAX_TASKS`. -/
class TaskConfig where
  maxTasks : Nat
  two_mul_maxTasks_lt : 2 * maxTasks + 1 < 2 ^ 32

/-- The value in `task.h`. -/
instance stockConfig : TaskConfig := ⟨4, by decide⟩

def rtoskMaxTasks [TaskConfig] : Nat := TaskConfig.maxTasks

/-- `RTOSK_IDLE_TASK_INDEX`. -/
def rtoskIdleTaskIndex [TaskConfig] : Nat := rtoskMaxTasks

/-- `RTOSK_TOTAL_TASK_SLOTS`. -/
def rtoskTotalTaskSlots [TaskConfig] : Nat := rtoskMaxTasks + 1

/-- `rtosk_task_state_t`. -/
inductive TaskState
  | ready
  | blocked
  | blockedOnSemaphore
  | blockedOnQueue
  | blockedOnMutex
  | idle
  deriving DecidableEq, Repr

/-- `rtosk_task_t`, less the name and the stack array (which is memory, see
`Port/Stack.lean`); `sp` is the address of a word. -/
structure Task where
  sp : Nat
  state : TaskState
  wakeTick : UInt32
  priority : UInt32
  deriving DecidableEq, Repr

/-- The file-scope variables of `task.c`. -/
structure TaskTable where
  tasks : Nat → Task
  taskCount : Nat
  currentTask : Nat
  idleReady : Bool

namespace TaskTable

/-- `RTOSK_TASKS[index].state = state`. -/
def setState (index : Nat) (state : TaskState) (k : TaskTable) : TaskTable :=
  { k with tasks := Function.update k.tasks index { k.tasks index with state := state } }

/-- `RTOSK_TASKS[index].sp = sp`. -/
def setSp (index sp : Nat) (k : TaskTable) : TaskTable :=
  { k with tasks := Function.update k.tasks index { k.tasks index with sp := sp } }

/-- `RTOSK_TASKS[index].wake_tick = wakeTick`. -/
def setWakeTick (index : Nat) (wakeTick : UInt32) (k : TaskTable) : TaskTable :=
  { k with tasks := Function.update k.tasks index { k.tasks index with wakeTick := wakeTick } }

@[simp] theorem setState_taskCount (i : Nat) (st : TaskState) (k : TaskTable) :
    (k.setState i st).taskCount = k.taskCount := rfl
@[simp] theorem setState_currentTask (i : Nat) (st : TaskState) (k : TaskTable) :
    (k.setState i st).currentTask = k.currentTask := rfl
@[simp] theorem setState_idleReady (i : Nat) (st : TaskState) (k : TaskTable) :
    (k.setState i st).idleReady = k.idleReady := rfl

theorem setState_state (i : Nat) (st : TaskState) (k : TaskTable) (j : Nat) :
    ((k.setState i st).tasks j).state = if j = i then st else (k.tasks j).state := by
  unfold setState
  by_cases hji : j = i
  · subst hji
    simp
  · simp [hji]

@[simp] theorem setState_priority (i : Nat) (st : TaskState) (k : TaskTable) (j : Nat) :
    ((k.setState i st).tasks j).priority = (k.tasks j).priority := by
  unfold setState
  by_cases hji : j = i
  · subst hji
    simp
  · simp [hji]

@[simp] theorem setState_sp (i : Nat) (st : TaskState) (k : TaskTable) (j : Nat) :
    ((k.setState i st).tasks j).sp = (k.tasks j).sp := by
  unfold setState
  by_cases hji : j = i
  · subst hji
    simp
  · simp [hji]

@[simp] theorem setState_wakeTick (i : Nat) (st : TaskState) (k : TaskTable) (j : Nat) :
    ((k.setState i st).tasks j).wakeTick = (k.tasks j).wakeTick := by
  unfold setState
  by_cases hji : j = i
  · subst hji
    simp
  · simp [hji]

theorem setWakeTick_wakeTick (i : Nat) (w : UInt32) (k : TaskTable) (j : Nat) :
    ((k.setWakeTick i w).tasks j).wakeTick = if j = i then w else (k.tasks j).wakeTick := by
  unfold setWakeTick
  by_cases hji : j = i
  · subst hji
    simp
  · simp [hji]

@[simp] theorem setWakeTick_state (i : Nat) (w : UInt32) (k : TaskTable) (j : Nat) :
    ((k.setWakeTick i w).tasks j).state = (k.tasks j).state := by
  unfold setWakeTick
  by_cases hji : j = i
  · subst hji
    simp
  · simp [hji]

@[simp] theorem setWakeTick_priority (i : Nat) (w : UInt32) (k : TaskTable) (j : Nat) :
    ((k.setWakeTick i w).tasks j).priority = (k.tasks j).priority := by
  unfold setWakeTick
  by_cases hji : j = i
  · subst hji
    simp
  · simp [hji]

@[simp] theorem setWakeTick_sp (i : Nat) (w : UInt32) (k : TaskTable) (j : Nat) :
    ((k.setWakeTick i w).tasks j).sp = (k.tasks j).sp := by
  unfold setWakeTick
  by_cases hji : j = i
  · subst hji
    simp
  · simp [hji]

theorem setSp_sp (i sp : Nat) (k : TaskTable) (j : Nat) :
    ((k.setSp i sp).tasks j).sp = if j = i then sp else (k.tasks j).sp := by
  unfold setSp
  by_cases hji : j = i
  · subst hji
    simp
  · simp [hji]

end TaskTable

/-- The zeroed variables before `main`; `RTOSK_TASK_READY` is `0`. -/
def TaskTable.static : TaskTable where
  tasks := fun _ => { sp := 0, state := .ready, wakeTick := 0, priority := 0 }
  taskCount := 0
  currentTask := 0
  idleReady := false

-- ---------------------------------------------------------------------------
-- The functions of `task.c`
-- ---------------------------------------------------------------------------

/-- What `rtosk_task_create` stores in the table for a task whose built stack
starts at `sp`. -/
def rtoskTaskCreate [TaskConfig] (sp : Nat) (priority : UInt32) (k : TaskTable) : TaskTable :=
  if rtoskMaxTasks ≤ k.taskCount then k
  else { k with
    tasks := Function.update k.tasks k.taskCount
      { sp := sp, state := .ready, wakeTick := 0, priority := priority }
    taskCount := k.taskCount + 1 }

/-- What `rtosk_task_init_idle` stores, likewise. -/
def rtoskTaskInitIdle [TaskConfig] (sp : Nat) (k : TaskTable) : TaskTable :=
  if k.idleReady then k
  else { k with
    tasks := Function.update k.tasks rtoskIdleTaskIndex
      { sp := sp, state := .idle, wakeTick := 0, priority := 0 }
    idleReady := true }

def rtoskTaskSaveStackPointer [TaskConfig] (sp : Nat) (k : TaskTable) : TaskTable :=
  if k.currentTask = rtoskIdleTaskIndex then k.setSp rtoskIdleTaskIndex sp
  else if k.taskCount = 0 then k
  else k.setSp k.currentTask sp

def rtoskTaskBlockCurrentUntil [TaskConfig] (wakeTick : UInt32) (k : TaskTable) : TaskTable :=
  if k.currentTask = rtoskIdleTaskIndex then k
  else
    let k := k.setState k.currentTask .blocked
    k.setWakeTick k.currentTask wakeTick

/-- `(int32_t)(current_tick - wake_tick) >= 0`. -/
def wakeTickReached (currentTick wakeTick : UInt32) : Prop :=
  0 ≤ (currentTick - wakeTick).toInt32

instance (currentTick wakeTick : UInt32) : Decidable (wakeTickReached currentTick wakeTick) :=
  inferInstanceAs (Decidable (0 ≤ (currentTick - wakeTick).toInt32))

/-- One round of the loop of `rtosk_task_update_blocked`. -/
def updateBlockedAt (currentTick : UInt32) (acc : TaskTable × UInt32) (i : Nat) :
    TaskTable × UInt32 :=
  if (acc.1.tasks i).state = .blocked then
    if wakeTickReached currentTick (acc.1.tasks i).wakeTick then
      (acc.1.setState i .ready, 1)
    else acc
  else acc

def rtoskTaskUpdateBlocked (currentTick : UInt32) (k : TaskTable) : TaskTable × UInt32 :=
  (List.range k.taskCount).foldl (updateBlockedAt currentTick) (k, 0)

@[simp] def rtoskTaskBlockCurrentOnSemaphore (k : TaskTable) : TaskTable :=
  k.setState k.currentTask .blockedOnSemaphore

@[simp] def rtoskTaskBlockCurrentOnQueue (k : TaskTable) : TaskTable :=
  k.setState k.currentTask .blockedOnQueue

@[simp] def rtoskTaskBlockCurrentOnMutex (k : TaskTable) : TaskTable :=
  k.setState k.currentTask .blockedOnMutex

def rtoskTaskSetReady (index : Nat) (k : TaskTable) : TaskTable :=
  if k.taskCount ≤ index then k else k.setState index .ready

/-- The null pointer returned without any task is address `0`. -/
def rtoskTaskGetStackPointer [TaskConfig] (k : TaskTable) : Nat :=
  if k.currentTask = rtoskIdleTaskIndex then (k.tasks rtoskIdleTaskIndex).sp
  else if k.taskCount = 0 then 0
  else (k.tasks k.currentTask).sp

def rtoskTaskSetCurrentIndex [TaskConfig] (index : Nat) (k : TaskTable) : TaskTable :=
  if rtoskTotalTaskSlots ≤ index then k else { k with currentTask := index }

/-- `rtosk_task_get`; `none` is the null pointer. -/
def rtoskTaskGet [TaskConfig] (index : Nat) (k : TaskTable) : Option Task :=
  if rtoskTotalTaskSlots ≤ index then none else some (k.tasks index)

-- ---------------------------------------------------------------------------
-- The saved stack pointer
-- ---------------------------------------------------------------------------

/-- With a task in the table, the idle task's path and the others' save to the
current slot. -/
theorem rtoskTaskSaveStackPointer_eq [TaskConfig] {k : TaskTable} (hPos : 0 < k.taskCount)
    (sp : Nat) : rtoskTaskSaveStackPointer sp k = k.setSp k.currentTask sp := by
  unfold rtoskTaskSaveStackPointer
  by_cases hIdle : k.currentTask = rtoskIdleTaskIndex
  · rw [if_pos hIdle, hIdle]
  · rw [if_neg hIdle, if_neg (Nat.ne_of_gt hPos)]

/-- And they load from it. -/
theorem rtoskTaskGetStackPointer_eq [TaskConfig] {k : TaskTable} (hPos : 0 < k.taskCount) :
    rtoskTaskGetStackPointer k = (k.tasks k.currentTask).sp := by
  unfold rtoskTaskGetStackPointer
  by_cases hIdle : k.currentTask = rtoskIdleTaskIndex
  · rw [if_pos hIdle, hIdle]
  · rw [if_neg hIdle, if_neg (Nat.ne_of_gt hPos)]

-- ---------------------------------------------------------------------------
-- What they do to the states
-- ---------------------------------------------------------------------------

@[simp] theorem rtoskTaskBlockCurrentUntil_taskCount [TaskConfig] (w : UInt32) (k : TaskTable) :
    (rtoskTaskBlockCurrentUntil w k).taskCount = k.taskCount := by
  unfold rtoskTaskBlockCurrentUntil
  split <;> rfl

@[simp] theorem rtoskTaskBlockCurrentUntil_currentTask [TaskConfig] (w : UInt32) (k : TaskTable) :
    (rtoskTaskBlockCurrentUntil w k).currentTask = k.currentTask := by
  unfold rtoskTaskBlockCurrentUntil
  split <;> rfl

@[simp] theorem rtoskTaskBlockCurrentUntil_idleReady [TaskConfig] (w : UInt32) (k : TaskTable) :
    (rtoskTaskBlockCurrentUntil w k).idleReady = k.idleReady := by
  unfold rtoskTaskBlockCurrentUntil
  split <;> rfl

theorem rtoskTaskBlockCurrentUntil_state [TaskConfig] {w : UInt32} {k : TaskTable}
    (hUser : k.currentTask ≠ rtoskIdleTaskIndex) (j : Nat) :
    ((rtoskTaskBlockCurrentUntil w k).tasks j).state =
      if j = k.currentTask then .blocked else (k.tasks j).state := by
  unfold rtoskTaskBlockCurrentUntil
  rw [if_neg hUser, TaskTable.setWakeTick_state, TaskTable.setState_state]

theorem rtoskTaskBlockCurrentUntil_wakeTick [TaskConfig] {w : UInt32} {k : TaskTable}
    (hUser : k.currentTask ≠ rtoskIdleTaskIndex) (j : Nat) :
    ((rtoskTaskBlockCurrentUntil w k).tasks j).wakeTick =
      if j = k.currentTask then w else (k.tasks j).wakeTick := by
  unfold rtoskTaskBlockCurrentUntil
  rw [if_neg hUser, TaskTable.setWakeTick_wakeTick, TaskTable.setState_wakeTick]
  rfl

@[simp] theorem rtoskTaskBlockCurrentUntil_priority [TaskConfig] (w : UInt32) (k : TaskTable)
    (j : Nat) : ((rtoskTaskBlockCurrentUntil w k).tasks j).priority = (k.tasks j).priority := by
  unfold rtoskTaskBlockCurrentUntil
  split <;> simp

@[simp] theorem rtoskTaskBlockCurrentUntil_sp [TaskConfig] (w : UInt32) (k : TaskTable) (j : Nat) :
    ((rtoskTaskBlockCurrentUntil w k).tasks j).sp = (k.tasks j).sp := by
  unfold rtoskTaskBlockCurrentUntil
  split <;> simp

@[simp] theorem rtoskTaskSetReady_taskCount (i : Nat) (k : TaskTable) :
    (rtoskTaskSetReady i k).taskCount = k.taskCount := by
  unfold rtoskTaskSetReady
  split <;> rfl

@[simp] theorem rtoskTaskSetReady_currentTask (i : Nat) (k : TaskTable) :
    (rtoskTaskSetReady i k).currentTask = k.currentTask := by
  unfold rtoskTaskSetReady
  split <;> rfl

@[simp] theorem rtoskTaskSetReady_idleReady (i : Nat) (k : TaskTable) :
    (rtoskTaskSetReady i k).idleReady = k.idleReady := by
  unfold rtoskTaskSetReady
  split <;> rfl

@[simp] theorem rtoskTaskSetReady_priority (i : Nat) (k : TaskTable) (j : Nat) :
    ((rtoskTaskSetReady i k).tasks j).priority = (k.tasks j).priority := by
  unfold rtoskTaskSetReady
  split <;> simp

@[simp] theorem rtoskTaskSetReady_sp (i : Nat) (k : TaskTable) (j : Nat) :
    ((rtoskTaskSetReady i k).tasks j).sp = (k.tasks j).sp := by
  unfold rtoskTaskSetReady
  split <;> simp

@[simp] theorem rtoskTaskSetReady_wakeTick (i : Nat) (k : TaskTable) (j : Nat) :
    ((rtoskTaskSetReady i k).tasks j).wakeTick = (k.tasks j).wakeTick := by
  unfold rtoskTaskSetReady
  split <;> simp

theorem rtoskTaskSetReady_state (i : Nat) (k : TaskTable) (j : Nat) :
    ((rtoskTaskSetReady i k).tasks j).state =
      if j = i ∧ i < k.taskCount then .ready else (k.tasks j).state := by
  unfold rtoskTaskSetReady
  by_cases hi : k.taskCount ≤ i
  · rw [if_pos hi, if_neg (by omega)]
  · rw [if_neg hi, TaskTable.setState_state]
    congr 1
    simp only [eq_iff_iff]
    omega

-- ---------------------------------------------------------------------------
-- `rtosk_task_update_blocked`
-- ---------------------------------------------------------------------------

/-- A sleeping task whose deadline is reached. -/
def Due (currentTick : UInt32) (task : Task) : Prop :=
  task.state = .blocked ∧ wakeTickReached currentTick task.wakeTick

instance (currentTick : UInt32) (task : Task) : Decidable (Due currentTick task) :=
  inferInstanceAs (Decidable (_ ∧ _))

/-- The first `n` rounds of the loop have readied exactly the due tasks among
the first `n`. -/
theorem updateBlocked_rounds (currentTick : UInt32) (k : TaskTable) (n : Nat) :
    let r := (List.range n).foldl (updateBlockedAt currentTick) (k, 0)
    (∀ j, r.1.tasks j =
      if j < n ∧ Due currentTick (k.tasks j) then { k.tasks j with state := .ready }
      else k.tasks j) ∧
    r.1.taskCount = k.taskCount ∧ r.1.currentTask = k.currentTask ∧
    r.1.idleReady = k.idleReady ∧
    (r.2 = if ∃ j < n, Due currentTick (k.tasks j) then 1 else 0) := by
  induction n with
  | zero => simp
  | succ n ih =>
    simp only [List.range_succ, List.foldl_append, List.foldl_cons, List.foldl_nil]
    set r := (List.range n).foldl (updateBlockedAt currentTick) (k, 0)
    obtain ⟨hTasks, hCount, hCur, hIdle, hWoke⟩ := ih
    have hn : r.1.tasks n = k.tasks n := by simp [hTasks n]
    have hExists : (∃ j < n + 1, Due currentTick (k.tasks j)) ↔
        (∃ j < n, Due currentTick (k.tasks j)) ∨ Due currentTick (k.tasks n) := by
      constructor
      · rintro ⟨j, hj, hDue⟩
        rcases Nat.lt_succ_iff_lt_or_eq.mp hj with hlt | rfl
        · exact Or.inl ⟨j, hlt, hDue⟩
        · exact Or.inr hDue
      · rintro (⟨j, hj, hDue⟩ | hDue)
        · exact ⟨j, by omega, hDue⟩
        · exact ⟨n, by omega, hDue⟩
    by_cases hDue : Due currentTick (k.tasks n)
    · have hRound : updateBlockedAt currentTick r n = (r.1.setState n .ready, 1) := by
        unfold updateBlockedAt
        rw [hn, if_pos hDue.1, if_pos hDue.2]
      rw [hRound]
      refine ⟨fun j => ?_, hCount, hCur, hIdle, by rw [if_pos (hExists.mpr (Or.inr hDue))]⟩
      by_cases hj : j = n
      · subst hj
        simp [TaskTable.setState, hn, hDue]
      · have hlt : j < n + 1 ↔ j < n := by omega
        simp [TaskTable.setState, hj, hTasks j, hlt]
    · have hRound : updateBlockedAt currentTick r n = r := by
        unfold updateBlockedAt
        rw [hn]
        by_cases hSt : (k.tasks n).state = .blocked
        · rw [if_pos hSt, if_neg (fun hReached => hDue ⟨hSt, hReached⟩)]
        · rw [if_neg hSt]
      rw [hRound]
      refine ⟨?_, hCount, hCur, hIdle, ?_⟩
      · intro j
        by_cases hj : j = n
        · subst hj
          simp [hn, hDue]
        · have hlt : j < n + 1 ↔ j < n := by omega
          simp [hTasks j, hlt]
      · rw [hWoke]
        simp only [hExists, hDue, or_false]

/-- **`rtosk_task_update_blocked`** readies the due sleepers and touches no
other task. -/
theorem rtoskTaskUpdateBlocked_tasks (currentTick : UInt32) (k : TaskTable) (j : Nat) :
    (rtoskTaskUpdateBlocked currentTick k).1.tasks j =
      if j < k.taskCount ∧ Due currentTick (k.tasks j) then
        { k.tasks j with state := .ready }
      else k.tasks j :=
  (updateBlocked_rounds currentTick k k.taskCount).1 j

@[simp] theorem rtoskTaskUpdateBlocked_taskCount (currentTick : UInt32) (k : TaskTable) :
    (rtoskTaskUpdateBlocked currentTick k).1.taskCount = k.taskCount :=
  (updateBlocked_rounds currentTick k k.taskCount).2.1

@[simp] theorem rtoskTaskUpdateBlocked_currentTask (currentTick : UInt32) (k : TaskTable) :
    (rtoskTaskUpdateBlocked currentTick k).1.currentTask = k.currentTask :=
  (updateBlocked_rounds currentTick k k.taskCount).2.2.1

@[simp] theorem rtoskTaskUpdateBlocked_idleReady (currentTick : UInt32) (k : TaskTable) :
    (rtoskTaskUpdateBlocked currentTick k).1.idleReady = k.idleReady :=
  (updateBlocked_rounds currentTick k k.taskCount).2.2.2.1

@[simp] theorem rtoskTaskUpdateBlocked_priority (currentTick : UInt32) (k : TaskTable) (j : Nat) :
    ((rtoskTaskUpdateBlocked currentTick k).1.tasks j).priority = (k.tasks j).priority := by
  rw [rtoskTaskUpdateBlocked_tasks]
  split <;> rfl

@[simp] theorem rtoskTaskUpdateBlocked_wakeTick (currentTick : UInt32) (k : TaskTable) (j : Nat) :
    ((rtoskTaskUpdateBlocked currentTick k).1.tasks j).wakeTick = (k.tasks j).wakeTick := by
  rw [rtoskTaskUpdateBlocked_tasks]
  split <;> rfl

@[simp] theorem rtoskTaskUpdateBlocked_sp (currentTick : UInt32) (k : TaskTable) (j : Nat) :
    ((rtoskTaskUpdateBlocked currentTick k).1.tasks j).sp = (k.tasks j).sp := by
  rw [rtoskTaskUpdateBlocked_tasks]
  split <;> rfl

end TinyRtos
