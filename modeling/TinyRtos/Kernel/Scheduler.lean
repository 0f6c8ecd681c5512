import TinyRtos.Kernel.Task
import TinyRtos.Lib.FirstMax
import Mathlib.Order.Basic
import Mathlib.Logic.Function.Iterate

/-!
# TinyRTOS — the scheduler (`scheduler.c`)

`rtosk_scheduler_select_next` scans the user tasks once around, from the
current one on, and makes the best READY one current; without any it falls
back to idle. PendSV runs it with interrupts enabled, so besides the whole
function its pieces are named: `selectNextBegin` reads the globals into the
locals (`Scan`), `selectNextRound` is one round of the loop and `selectNextEnd`
stores the choice.

The scan is an instance of `FirstMax.scan` over the cyclic order
(`rounds_best`), which gives the specification of the whole function:

* `selectNext_ready` — some user task is READY: a READY one of maximal
  priority becomes current;
* `selectNext_stays` — a current task that is READY and of maximal priority
  stays current.
-/

namespace TinyRtos

variable [TaskConfig]

/-- The locals of `rtosk_scheduler_select_next` while its loop runs. -/
structure Scan where
  taskCount : Nat
  current : Nat
  offset : Nat
  bestIndex : Nat
  bestPriority : UInt32
  foundReady : Bool
  deriving DecidableEq

/-- Up to the loop; `none` is the early return on an empty table. -/
def selectNextBegin (k : TaskTable) : Option Scan :=
  if k.taskCount = 0 then none
  else some {
    taskCount := k.taskCount
    current := if k.taskCount ≤ k.currentTask then 0 else k.currentTask
    offset := 0
    bestIndex := rtoskIdleTaskIndex
    bestPriority := 0
    foundReady := false }

omit [TaskConfig] in
/-- The index a round looks at. -/
def Scan.index (c : Scan) : Nat :=
  if c.taskCount ≤ c.current + c.offset then c.current + c.offset - c.taskCount
  else c.current + c.offset

def selectNextRound (k : TaskTable) (c : Scan) : Scan :=
  let next := { c with offset := c.offset + 1 }
  match rtoskTaskGet c.index k with
  | none => next
  | some task =>
    if task.state ≠ .ready then next
    else if c.foundReady = false ∨ c.bestPriority < task.priority then
      { next with
        bestIndex := c.index
        bestPriority := task.priority
        foundReady := true }
    else next

def selectNextEnd (c : Scan) (k : TaskTable) : TaskTable :=
  if c.foundReady then rtoskTaskSetCurrentIndex c.bestIndex k
  else if k.idleReady then rtoskTaskSetCurrentIndex rtoskIdleTaskIndex k
  else k

def rtoskSchedulerSelectNext (k : TaskTable) : TaskTable :=
  match selectNextBegin k with
  | none => k
  | some c => selectNextEnd ((selectNextRound k)^[c.taskCount] c) k

-- ---------------------------------------------------------------------------
-- One round
-- ---------------------------------------------------------------------------

omit [TaskConfig] in
/-- What the scan holds, as the library sees it. -/
def Scan.best (c : Scan) : Option (Nat × Nat) :=
  if c.foundReady then some (c.bestIndex, c.bestPriority.toNat) else none

omit [TaskConfig] in
/-- A READY user task. -/
def ReadyUser (k : TaskTable) (i : Nat) : Prop :=
  i < k.taskCount ∧ (k.tasks i).state = .ready

omit [TaskConfig] in
instance (k : TaskTable) : DecidablePred (ReadyUser k) :=
  fun _ => inferInstanceAs (Decidable (_ ∧ _))

omit [TaskConfig] in
/-- The key the scheduler maximises. -/
def prioKey (k : TaskTable) (i : Nat) : Nat := (k.tasks i).priority.toNat

omit [TaskConfig] in
theorem Scan.index_lt {c : Scan} (hCur : c.current < c.taskCount)
    (hOff : c.offset < c.taskCount) : c.index < c.taskCount := by
  unfold Scan.index
  split <;> omega

@[simp] theorem selectNextRound_taskCount (k : TaskTable) (c : Scan) :
    (selectNextRound k c).taskCount = c.taskCount := by
  simp only [selectNextRound]
  repeat' split
  all_goals rfl

@[simp] theorem selectNextRound_current (k : TaskTable) (c : Scan) :
    (selectNextRound k c).current = c.current := by
  simp only [selectNextRound]
  repeat' split
  all_goals rfl

@[simp] theorem selectNextRound_offset (k : TaskTable) (c : Scan) :
    (selectNextRound k c).offset = c.offset + 1 := by
  simp only [selectNextRound]
  repeat' split
  all_goals rfl

/-- A round offers the task it looks at to the scan if it is READY. -/
theorem selectNextRound_best {k : TaskTable} {c : Scan}
    (hSlots : k.taskCount ≤ rtoskMaxTasks) (hIndex : c.index < k.taskCount) :
    (selectNextRound k c).best =
      if ReadyUser k c.index then FirstMax.pick c.best c.index (prioKey k c.index)
      else c.best := by
  have hGet : rtoskTaskGet c.index k = some (k.tasks c.index) := by
    unfold rtoskTaskGet rtoskTotalTaskSlots
    rw [if_neg (by omega)]
  have hReady : ReadyUser k c.index ↔ (k.tasks c.index).state = .ready :=
    and_iff_right hIndex
  simp only [selectNextRound, hGet]
  by_cases hSt : (k.tasks c.index).state = .ready
  · rw [if_neg (not_not.mpr hSt), if_pos (hReady.mpr hSt)]
    unfold Scan.best FirstMax.pick prioKey
    cases hFound : c.foundReady with
    | false => simp
    | true =>
      simp only [Bool.true_eq_false, false_or, if_true, UInt32.lt_iff_toNat_lt]
      split <;> simp
  · rw [if_pos hSt, if_neg (fun h => hSt (hReady.mp h))]
    rfl

-- ---------------------------------------------------------------------------
-- The whole scan
-- ---------------------------------------------------------------------------

omit [TaskConfig] in
/-- The index `offset` places after `current`, once around. -/
def cyclicIndex (current n offset : Nat) : Nat :=
  if n ≤ current + offset then current + offset - n else current + offset

omit [TaskConfig] in
theorem cyclicIndex_lt {current n offset : Nat} (hCur : current < n) (hOff : offset < n) :
    cyclicIndex current n offset < n := by
  unfold cyclicIndex
  split <;> omega

omit [TaskConfig] in
/-- The cyclic order reaches every index. -/
theorem exists_cyclicIndex {current n i : Nat} (hCur : current < n) (hi : i < n) :
    ∃ offset < n, cyclicIndex current n offset = i := by
  by_cases hle : current ≤ i
  · refine ⟨i - current, by omega, ?_⟩
    unfold cyclicIndex
    rw [if_neg (by omega)]
    omega
  · refine ⟨i + n - current, by omega, ?_⟩
    unfold cyclicIndex
    rw [if_pos (by omega)]
    omega

omit [TaskConfig] in
/-- The first `m` indices the loop looks at. -/
def scanOrder (current n m : Nat) : List Nat := (List.range m).map (cyclicIndex current n)

omit [TaskConfig] in
theorem mem_scanOrder {current n i : Nat} (hCur : current < n) :
    i ∈ scanOrder current n n ↔ i < n := by
  unfold scanOrder
  rw [List.mem_map]
  constructor
  · rintro ⟨offset, hOff, rfl⟩
    exact cyclicIndex_lt hCur (List.mem_range.mp hOff)
  · intro hi
    obtain ⟨offset, hOff, hEq⟩ := exists_cyclicIndex hCur hi
    exact ⟨offset, List.mem_range.mpr hOff, hEq⟩

omit [TaskConfig] in
theorem scanOrder_head {current n : Nat} (hCur : current < n) :
    ∃ rest, scanOrder current n n = current :: rest := by
  obtain ⟨m, rfl⟩ : ∃ m, n = m + 1 := ⟨n - 1, by omega⟩
  refine ⟨(List.range m).map (cyclicIndex current (m + 1) ∘ Nat.succ), ?_⟩
  unfold scanOrder
  rw [List.range_succ_eq_map, List.map_cons, List.map_map]
  congr 1
  unfold cyclicIndex
  rw [if_neg (by omega), Nat.add_zero]

/-- The scan starts at the current task, or at task `0` from idle. -/
theorem selectNextBegin_eq {k : TaskTable} (hCount : 0 < k.taskCount) :
    ∃ c, selectNextBegin k = some c ∧ c.taskCount = k.taskCount ∧ c.offset = 0 ∧
      c.current < k.taskCount ∧ c.best = none ∧
      (k.currentTask < k.taskCount → c.current = k.currentTask) := by
  unfold selectNextBegin
  rw [if_neg (by omega)]
  refine ⟨_, rfl, rfl, rfl, ?_, rfl, fun hCur => if_neg (by omega)⟩
  simp only
  split <;> omega

/-- **The loop is a first-maximum scan** of the table in cyclic order. -/
theorem rounds_best {k : TaskTable} (hSlots : k.taskCount ≤ rtoskMaxTasks) {c : Scan}
    (hCount : c.taskCount = k.taskCount) (hOff : c.offset = 0)
    (hCur : c.current < k.taskCount) (hBest : c.best = none) :
    ∀ m ≤ k.taskCount,
      ((selectNextRound k)^[m] c).best =
        FirstMax.scan (ReadyUser k) (prioKey k) none (scanOrder c.current k.taskCount m) ∧
      ((selectNextRound k)^[m] c).taskCount = k.taskCount ∧
      ((selectNextRound k)^[m] c).current = c.current ∧
      ((selectNextRound k)^[m] c).offset = m := by
  intro m
  induction m with
  | zero => exact fun _ => ⟨hBest, hCount, rfl, hOff⟩
  | succ m ih =>
    intro hm
    obtain ⟨ihBest, ihCount, ihCur, ihOff⟩ := ih (by omega)
    rw [Function.iterate_succ_apply']
    set d := (selectNextRound k)^[m] c
    have hIndex : d.index = cyclicIndex c.current k.taskCount m := by
      unfold Scan.index cyclicIndex
      rw [ihCount, ihCur, ihOff]
    have hLt : d.index < k.taskCount := by
      rw [hIndex]
      exact cyclicIndex_lt hCur (by omega)
    refine ⟨?_, by simp [ihCount], by simp [ihCur], by simp [ihOff]⟩
    rw [selectNextRound_best hSlots hLt, ihBest, hIndex]
    unfold scanOrder FirstMax.scan
    rw [List.range_succ, List.map_append, List.foldl_append]
    rfl

/-- What the scheduler stores, in terms of the scan. -/
theorem selectNext_eq {k : TaskTable} (hSlots : k.taskCount ≤ rtoskMaxTasks)
    (hCount : 0 < k.taskCount) :
    ∃ cur < k.taskCount, (k.currentTask < k.taskCount → cur = k.currentTask) ∧
      ∃ c : Scan, rtoskSchedulerSelectNext k = selectNextEnd c k ∧
        c.best = FirstMax.scan (ReadyUser k) (prioKey k) none
          (scanOrder cur k.taskCount k.taskCount) := by
  obtain ⟨c, hBegin, hTc, hOff, hCur, hBest, hFrom⟩ := selectNextBegin_eq hCount
  refine ⟨c.current, hCur, hFrom, (selectNextRound k)^[c.taskCount] c, ?_, ?_⟩
  · unfold rtoskSchedulerSelectNext
    rw [hBegin]
  · rw [hTc]
    exact (rounds_best hSlots hTc hOff hCur hBest k.taskCount le_rfl).1

theorem selectNextEnd_best {c : Scan} {k : TaskTable} {b p : Nat}
    (hBest : c.best = some (b, p)) (hb : b < rtoskTotalTaskSlots) :
    selectNextEnd c k = { k with currentTask := b } := by
  unfold Scan.best at hBest
  split at hBest
  · rename_i hFound
    simp only [Option.some.injEq, Prod.mk.injEq] at hBest
    obtain ⟨rfl, -⟩ := hBest
    unfold selectNextEnd rtoskTaskSetCurrentIndex
    rw [if_pos hFound, if_neg (by omega)]
  · cases hBest

theorem selectNextEnd_none {c : Scan} {k : TaskTable} (hBest : c.best = none)
    (hIdle : k.idleReady = true) :
    selectNextEnd c k = { k with currentTask := rtoskIdleTaskIndex } := by
  unfold Scan.best at hBest
  split at hBest
  · cases hBest
  · rename_i hFound
    unfold selectNextEnd rtoskTaskSetCurrentIndex rtoskTotalTaskSlots rtoskIdleTaskIndex
    rw [if_neg hFound, if_pos hIdle, if_neg (by omega)]

/-- Only the current index is stored. -/
theorem selectNextEnd_keeps (c : Scan) (k : TaskTable) :
    (selectNextEnd c k).taskCount = k.taskCount ∧
      (selectNextEnd c k).idleReady = k.idleReady ∧ (selectNextEnd c k).tasks = k.tasks := by
  unfold selectNextEnd rtoskTaskSetCurrentIndex
  repeat' split
  all_goals exact ⟨rfl, rfl, rfl⟩

-- ---------------------------------------------------------------------------
-- Specification
-- ---------------------------------------------------------------------------

/-- **A READY task of maximal priority is selected.** -/
theorem selectNext_ready {k : TaskTable} (hSlots : k.taskCount ≤ rtoskMaxTasks)
    {i : Nat} (hi : ReadyUser k i) :
    ∃ b, rtoskSchedulerSelectNext k = { k with currentTask := b } ∧ ReadyUser k b ∧
      ∀ j, ReadyUser k j → (k.tasks j).priority ≤ (k.tasks b).priority := by
  obtain ⟨cur, hCur, -, c, hEq, hBest⟩ :=
    selectNext_eq hSlots (Nat.lt_of_le_of_lt (Nat.zero_le i) hi.1)
  have hCovers : FirstMax.Covers (ReadyUser k) (prioKey k) _ c.best :=
    hBest ▸ FirstMax.scan_covers (scanOrder cur k.taskCount k.taskCount) FirstMax.covers_empty
  have hCandidate : FirstMax.Candidate (ReadyUser k) (prioKey k) c.best :=
    hBest ▸ FirstMax.scan_candidate _ FirstMax.candidate_none
  have hSeen : ∀ j, ReadyUser k j → j ∈ {j | j ∈ (∅ : Set Nat) ∨
      j ∈ scanOrder cur k.taskCount k.taskCount} :=
    fun j hj => Or.inr ((mem_scanOrder hCur).mpr hj.1)
  obtain ⟨b, p, hb, -⟩ := hCovers i (hSeen i hi) hi
  obtain ⟨hReady, hKey⟩ := hCandidate b p hb
  refine ⟨b, ?_, hReady, ?_⟩
  · have hLt := hReady.1
    rw [hEq, selectNextEnd_best hb (by unfold rtoskTotalTaskSlots; omega)]
  · intro j hj
    obtain ⟨b', p', hb', hle⟩ := hCovers j (hSeen j hj) hj
    rw [hb, Option.some.injEq, Prod.mk.injEq] at hb'
    obtain ⟨rfl, rfl⟩ := hb'
    rw [← hKey] at hle
    exact UInt32.le_iff_toNat_le.mpr hle

/-- **The scan starts at the current task**: if that one is READY and of
maximal priority, it is selected again. -/
theorem selectNext_stays {k : TaskTable} (hSlots : k.taskCount ≤ rtoskMaxTasks)
    (hReady : ReadyUser k k.currentTask)
    (hMax : ∀ j, ReadyUser k j → (k.tasks j).priority ≤ (k.tasks k.currentTask).priority) :
    rtoskSchedulerSelectNext k = k := by
  have hLt := hReady.1
  obtain ⟨cur, hCur, hFrom, c, hEq, hBest⟩ := selectNext_eq hSlots (by omega)
  obtain rfl := hFrom hLt
  obtain ⟨rest, hOrder⟩ := scanOrder_head hCur
  have hScan : FirstMax.scan (ReadyUser k) (prioKey k) none (k.currentTask :: rest) =
      some (k.currentTask, prioKey k k.currentTask) :=
    FirstMax.scan_head hReady fun j _ hj => UInt32.le_iff_toNat_le.mp (hMax j hj)
  rw [hOrder, hScan] at hBest
  rw [hEq, selectNextEnd_best hBest (by unfold rtoskTotalTaskSlots; omega)]

end TinyRtos
