import TinyRtos.Results.Preemption

/-!
# TinyRTOS — the choice of one PendSV

`preemptive_run` is about a started system and all of its steps. Here one
PendSV is looked at alone: it enters with any table, any states, priorities and
current index, and interrupt handlers run between the rounds of its loop.

* `scan_goes_on` — however many handlers come in, the loop makes one round per
  task and then exits;
* `selectNext_interrupted` — what it exits with is READY or idle, and right,
  unless a further PendSV is pending.
-/

namespace TinyRtos

/-- A round of PendSV's loop, or a handler that comes in between two. -/
def Label.duringScan : Label → Bool
  | .semaphoreGiveFromIsr _ | .queueSendFromIsr _ _ | .tick | .scan => true
  | _ => false

namespace System

section

variable [TaskConfig]

def DuringScan (_ : System) (l : Label) : Prop := l.duringScan = true

omit [TaskConfig] in
instance (s : System) (l : Label) : Decidable (DuringScan s l) :=
  inferInstanceAs (Decidable (_ = _))

variable {s s₁ s₂ s' : System} {l : Label} {es tr : List Event}

/-- In the middle of the scan of a table of `n` tasks. -/
structure Scanning (n : Nat) (s : System) : Prop where
  dispatching : Dispatching s
  taskCount   : s.kernel.taskCount = n
  inScan      : s.scan ≠ none

theorem Scanning.step {n : Nat} (h : Scanning n s) (hDuring : DuringScan s l)
    (hStep : StepCase s l s' es) : Scanning n s' := by
  refine ⟨h.dispatching.step hStep, hStep.setup.taskCount.trans h.taskCount, ?_⟩
  have hOther := hStep.of_other (by rintro rfl; cases hDuring) (by rintro rfl; cases hDuring)
  exact fun hNone => h.inScan (hOther.2.mp hNone)

/-- PendSV enters the scan. -/
theorem Scanning.enter (hPos : 0 < s.kernel.taskCount)
    (hLe : s.kernel.taskCount ≤ rtoskMaxTasks) (hIdle : s.kernel.idleReady = true)
    (hEnter : s.step .pendSv = some (s₁, es)) : Scanning s.kernel.taskCount s₁ := by
  have hStep := step_cases hEnter
  obtain ⟨hNone, hEq⟩ := hStep.of_pendSv
  obtain ⟨c, hBegin, -⟩ := selectNextBegin_eq hPos
  refine ⟨(Dispatching.of_thread hNone hPos hLe hIdle).step hStep, hStep.setup.taskCount, ?_⟩
  rw [hEq, hBegin]
  exact Option.some_ne_none c

theorem Scanning.run {n : Nat} (h : Scanning n s₁)
    (hRun : Runs.Run System.step DuringScan s₁ tr s₂) : Scanning n s₂ :=
  hRun.induct (fun _ s => Scanning n s) h fun _ _ _ _ _ hs hDuring hStep =>
    hs.step hDuring (step_cases hStep)

/-- **The loop ends.** Handlers leave its offset alone, each round advances it,
and after one round per task PendSV exits. -/
theorem Scanning.scan_goes_on {n : Nat} (h : Scanning n s) :
    ∃ c, s.scan = some c ∧ c.offset ≤ n ∧
      (c.offset < n → s.step .scan =
        some ({ s with scan := some (selectNextRound s.kernel.toTaskTable c) }, []) ∧
          (selectNextRound s.kernel.toTaskTable c).offset = c.offset + 1) ∧
      (c.offset = n → ∃ s' es, s.step .pendSvExit = some (s', es)) := by
  obtain ⟨c, hScan⟩ := Option.ne_none_iff_exists'.mp h.inScan
  obtain ⟨hCount, -, hOff⟩ := h.dispatching.locals c hScan
  rw [h.taskCount] at hCount hOff
  refine ⟨c, hScan, hOff, fun hLt => ⟨?_, by simp⟩, fun hEq => ?_⟩
  · simp only [System.step, hScan]
    rw [if_pos (by omega)]
  · simp only [System.step, hScan]
    rw [if_neg (by omega)]
    exact ⟨_, _, rfl⟩

/-- **The scheduler's choice under interrupts.** PendSV enters on a table with
at least one task, the idle task initialised, and anything else; any handlers
run between any two rounds of the loop of `rtosk_scheduler_select_next`. The
loop goes on to its exit, and on exit the current task is READY or idle; and a
further PendSV is pending, or the current task is a READY one of maximal
priority, or it is idle and no user task is READY. -/
theorem selectNext_interrupted
    (hPos   : 0 < s.kernel.taskCount)
    (hLe    : s.kernel.taskCount ≤ rtoskMaxTasks)
    (hIdle  : s.kernel.idleReady = true)
    (hEnter : s.step .pendSv = some (s₁, es))
    (hRun   : Runs.Run System.step DuringScan s₁ tr s₂) :
    (∃ c, s₂.scan = some c ∧ c.offset ≤ s.kernel.taskCount ∧
      (c.offset < s.kernel.taskCount → s₂.step .scan =
        some ({ s₂ with scan := some (selectNextRound s₂.kernel.toTaskTable c) }, []) ∧
          (selectNextRound s₂.kernel.toTaskTable c).offset = c.offset + 1) ∧
      (c.offset = s.kernel.taskCount → ∃ s' es', s₂.step .pendSvExit = some (s', es'))) ∧
    ∀ s' es', s₂.step .pendSvExit = some (s', es') →
      (ReadyUser s'.kernel.toTaskTable s'.kernel.currentTask ∨
        s'.kernel.currentTask = rtoskIdleTaskIndex) ∧
      (s'.kernel.pendSv = true ∨
        (ReadyUser s'.kernel.toTaskTable s'.kernel.currentTask ∧
          ∀ j, ReadyUser s'.kernel.toTaskTable j →
            (s'.kernel.tasks j).priority ≤ (s'.kernel.tasks s'.kernel.currentTask).priority) ∨
        (s'.kernel.currentTask = rtoskIdleTaskIndex ∧
          ∀ j, ¬ ReadyUser s'.kernel.toTaskTable j)) := by
  have hScanning := (Scanning.enter hPos hLe hIdle hEnter).run hRun
  refine ⟨hScanning.scan_goes_on, fun s' es' hExit => ?_⟩
  obtain ⟨c, hScan, hDone, rfl⟩ := (step_cases hExit).of_pendSvExit
  simp only [Kernel.onTable_toTaskTable, Kernel.onTable_pendSv]
  rcases hScanning.dispatching.selects hScan hDone with
    ⟨b, hEnd, hReady, hBest⟩ | ⟨hEnd, hNobody⟩
  · -- a candidate was found
    rw [hEnd]
    exact ⟨Or.inl hReady, hBest.imp id fun hMax => Or.inl ⟨hReady, hMax⟩⟩
  · -- none was: the fallback to idle
    rw [hEnd]
    exact ⟨Or.inr rfl, hNobody.imp id fun hNone => Or.inr ⟨rfl, hNone⟩⟩

end

-- ---------------------------------------------------------------------------
-- A run
-- ---------------------------------------------------------------------------

/-- From idle, with all three tasks blocked on semaphores and PendSV pending. -/
def threeBlocked : System :=
  let k := threeTasks.kernel.toTaskTable
  let table := (List.range 3).foldl (fun k i => k.setState i .blockedOnSemaphore) k
  { threeTasks with
    kernel := { threeTasks.kernel with
      toTaskTable := { table with currentTask := rtoskIdleTaskIndex }
      pendSv := true }
    sems := fun i => { count := 0, waitingTask := i } }

/-- PendSV has entered there. -/
def threeBlockedScan : System :=
  { threeBlocked with
    kernel := { threeBlocked.kernel with pendSv := false }
    scan := selectNextBegin threeBlocked.kernel.toTaskTable }

/-- A handler readies task `0` when the loop has passed it: the loop falls back
to idle, and leaves a PendSV pending. -/
theorem selectNext_interrupted_passed :
    ∃ tr s₂ s' es', threeBlocked.step .pendSv = some (threeBlockedScan, []) ∧
      Runs.Run System.step DuringScan threeBlockedScan tr s₂ ∧
      s₂.step .pendSvExit = some (s', es') ∧
      s'.kernel.currentTask = rtoskIdleTaskIndex ∧ ReadyUser s'.kernel.toTaskTable 0 ∧
      s'.kernel.pendSv = true := by
  obtain ⟨tr, s₂, hRun, hPassed⟩ :=
    Runs.exists_run_of_exec System.step DuringScan threeBlockedScan
      [.scan, .scan, .semaphoreGiveFromIsr (some 0), .scan]
      (fun _ s₂ => (s₂.step .pendSvExit).any (fun r =>
        decide (r.1.kernel.currentTask = rtoskIdleTaskIndex ∧
          ReadyUser r.1.kernel.toTaskTable 0 ∧ r.1.kernel.taskCount = 3)) = true)
      (by decide)
  obtain ⟨⟨s', es'⟩, hExit, hChosen⟩ := (Option.any_eq_true _ _).mp hPassed
  obtain ⟨hIdle, hReady, hCount⟩ := of_decide_eq_true hChosen
  have hEnter : threeBlocked.step .pendSv = some (threeBlockedScan, []) := rfl
  obtain ⟨-, hRight⟩ := selectNext_interrupted (by decide) (by decide) rfl hEnter hRun
  refine ⟨tr, s₂, s', es', hEnter, hRun, hExit, hIdle, hReady, ?_⟩
  rcases (hRight s' es' hExit).2 with hPend | ⟨hUser, -⟩ | ⟨-, hNobody⟩
  · exact hPend
  · have hLt := hUser.1
    rw [hIdle, hCount] at hLt
    exact absurd hLt (by decide)
  · exact absurd hReady (hNobody 0)

end System

end TinyRtos
