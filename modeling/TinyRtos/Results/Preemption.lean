import TinyRtos.Kernel.Dispatch

/-!
# TinyRTOS — preemption

The scheduler is preemptive: whenever the current task runs undisturbed, it is
READY and nobody READY outranks it. "Undisturbed" leaves out the windows in
which the kernel already knows better and has not switched yet: while a PendSV
is pending or PRIMASK delays it, and between a call's critical section and its
`rtosk_kernel_yield`.

The argument is that every change of a task's state is followed by a switch
request. `Settled` says so of a state: a PendSV is pending, or the current task
is about to request one, or the table is as it should be (`Preemptive`).
A PendSV establishes it (`Dispatching.selects`), and nothing breaks it
(`Settled.perform`, `Settled.isr`).

* `preemptive_run` — in every run, at every undisturbed instant from the first
  switch on.
-/

namespace TinyRtos

namespace System

section

variable [TaskConfig]

/-- The current task is the one that should run. -/
structure Preemptive (k : TaskTable) : Prop where
  ready   : ReadyUser k k.currentTask ∨ k.currentTask = rtoskIdleTaskIndex
  highest : k.currentTask < k.taskCount →
    ∀ j, ReadyUser k j → (k.tasks j).priority ≤ (k.tasks k.currentTask).priority
  idle    : k.currentTask = rtoskIdleTaskIndex → ∀ j, ¬ ReadyUser k j

/-- A switch is requested, about to be requested, or not needed. -/
def Settled (s : System) : Prop :=
  s.kernel.pendSv = true ∨ (s.pc s.kernel.currentTask).isLeaving = true ∨
    Preemptive s.kernel.toTaskTable

variable {s s' : System} {l : Label} {c : Call} {exit : Exit} {es : List Event}

/-- A call that yields is about to request a switch; one that returns has
changed no task. -/
theorem Settled.perform (h : Settled s)
    (hPc : (s.pc s.kernel.currentTask).isLeaving = false)
    (hCall : CallStep s c s' exit es) :
    Settled (s'.setPc s.kernel.currentTask (exit.pc c)) := by
  obtain ⟨-, -, hCur, hPend⟩ := hCall.frame
  cases exit with
  | yields =>
    refine Or.inr (Or.inl ?_)
    simp only [hCur, setPc, Function.update_self]
    rfl
  | returns =>
    rcases h with hPending | hLeaving | hPre
    · exact Or.inl (hPend.trans hPending)
    · rw [hPc] at hLeaving
      cases hLeaving
    · refine Or.inr (Or.inr ?_)
      rw [setPc_kernel, hCall.table_of_returns]
      exact hPre

theorem Settled.isr (h : Settled s) (hIsr : IsrStep s l s' es) : Settled s' := by
  obtain ⟨hPcs, -, hCur, -⟩ := hIsr.frame
  rcases hIsr.pend with hPend | ⟨hTable, hPend⟩
  · exact Or.inl hPend
  · rcases h with hPending | hLeaving | hPre
    · exact Or.inl (hPend.trans hPending)
    · exact Or.inr (Or.inl (by rw [hPcs, hCur]; exact hLeaving))
    · exact Or.inr (Or.inr (hTable ▸ hPre))

/-- PendSV returns into a settled state. -/
theorem Dispatching.settled (h : Dispatching s) {c : Scan} (hScan : s.scan = some c)
    (hDone : ¬ c.offset < c.taskCount) :
    Settled { s with kernel := s.kernel.onTable (selectNextEnd c), scan := none } := by
  unfold Settled
  simp only [Kernel.onTable_toTaskTable, Kernel.onTable_pendSv]
  rcases h.selects hScan hDone with ⟨b, hEnd, hReady, hBest⟩ | ⟨hEnd, hNone⟩
  · rw [hEnd]
    refine hBest.imp id fun hMax => Or.inr ⟨Or.inl hReady, fun _ => hMax, fun hIdle => ?_⟩
    -- a user index is not the idle one
    have hLt : b < s.kernel.taskCount := hReady.1
    have hLe := h.taskCount_le
    have hEq : b = rtoskMaxTasks := hIdle
    omega
  · rw [hEnd]
    refine hNone.imp id fun hNobody => Or.inr ⟨Or.inr rfl, fun hUser => ?_, fun _ => hNobody⟩
    have hLt : rtoskMaxTasks < s.kernel.taskCount := hUser
    have hLe := h.taskCount_le
    omega

theorem CallStep.switched_notMem (h : CallStep s c s' exit es) (t : Nat) :
    Event.switched t ∉ es := by
  cases h <;> simp

omit [TaskConfig] in
theorem IsrStep.switched_notMem (h : IsrStep s l s' es) (t : Nat) : Event.switched t ∉ es := by
  cases h <;> simp

/-- The run invariant. -/
structure Switched (tr : List Event) (s : System) : Prop where
  dispatching : Dispatching s
  settled : (∃ t, .switched t ∈ tr) → s.scan = none → Settled s

theorem Switched.step {tr : List Event} (h : Switched tr s) (hStep : StepCase s l s' es) :
    Switched (tr ++ es) s' := by
  refine ⟨h.dispatching.step hStep, fun hSwitched hNone => ?_⟩
  have hOld : (∀ t, Event.switched t ∉ es) → ∃ t, Event.switched t ∈ tr := by
    intro hNot
    obtain ⟨t, ht⟩ := hSwitched
    exact ⟨t, (List.mem_append.mp ht).resolve_right (hNot t)⟩
  cases hStep with
  | perform hThread hAt hCall =>
    exact (h.settled (hOld hCall.switched_notMem) hThread.1).perform hAt.not_leaving hCall
  | yield => exact Or.inl rfl
  | resume hThread hPc _ =>
    rcases h.settled (hOld (by simp)) hThread.1 with hPend | hLeaving | hPre
    · exact Or.inl hPend
    · rw [hPc] at hLeaving
      cases hLeaving
    · exact Or.inr (Or.inr hPre)
  | isr _ hIsr =>
    exact (h.settled (hOld hIsr.switched_notMem) (hIsr.frame.2.1 ▸ hNone)).isr hIsr
  | pendSvEmpty _ _ _ hBegin =>
    obtain ⟨c, hSome, -⟩ := selectNextBegin_eq h.dispatching.taskCount_pos
    rw [hBegin] at hSome
    cases hSome
  | pendSv => cases hNone
  | scan => cases hNone
  | pendSvExit hScan hDone => exact h.dispatching.settled hScan hDone

/-- **Preemptive priority.** In every run, from the first PendSV exit on,
whenever thread code runs with PRIMASK clear, no PendSV pending and the current
task not between a critical section and its yield: the current task is READY or
idle, no READY task outranks a current user task, and idle runs only when no
user task is READY. (PRIMASK need not even be clear: it delays switches, and a
delayed one is pending.) -/
theorem preemptive_run {s₀ : System} {tr : List Event} (hStarted : Started s₀)
    (hRun      : Runs.Run System.step (fun _ _ => True) s₀ tr s)
    (hSwitched : ∃ t, .switched t ∈ tr)
    (hThread   : s.scan = none)
    (hNoPend   : s.kernel.pendSv = false)
    (hPc       : (s.pc s.kernel.currentTask).isLeaving = false) :
    Preemptive s.kernel.toTaskTable := by
  have hInv : Switched tr s := by
    refine hRun.induct Switched ⟨hStarted.dispatching, ?_⟩
      fun tr s l s' es h _ hs => h.step (step_cases hs)
    rintro ⟨t, ht⟩
    cases ht
  rcases hInv.settled hSwitched hThread with hPend | hLeaving | hPre
  · rw [hNoPend] at hPend
    cases hPend
  · rw [hPc] at hLeaving
    cases hLeaving
  · exact hPre

end

-- ---------------------------------------------------------------------------
-- A run
-- ---------------------------------------------------------------------------

/-- Three tasks; the one of the highest priority is last. -/
def threeTasks : System :=
  boot [0, 1, 2] (fun _ => rtoskSemaphoreInit 0)
    (fun _ => ⟨fun _ => 0, 1, 2, 0, 0, 0, rtoskQueueNoWaiter⟩)

theorem threeTasks_started : Started threeTasks :=
  boot_started (by decide) (fun _ => rfl) fun _ => ⟨rfl, rfl, rfl, rfl⟩

/-- One PendSV with three tasks. -/
def switch : List Label := [.pendSv, .scan, .scan, .scan, .pendSvExit]

/-- Task `0` yields to task `2`, which blocks; an interrupt wakes it while task
`1` runs, and it preempts that one. -/
def preemptionLabels : List Label :=
  [.call .yield, .yield] ++ switch ++
  [.call (.semaphoreTake (some 0)), .yield] ++ switch ++
  [.semaphoreGiveFromIsr (some 0)] ++ switch

theorem preemptive_threeTasks :
    ∃ tr s, Runs.Run System.step (fun _ _ => True) threeTasks tr s ∧
      tr = [.switched 2, .switched 1,
        .gave 0 ⟨0, 2⟩ ⟨0, rtoskSemaphoreNoWaiter⟩, .switched 2] ∧
      Preemptive s.kernel.toTaskTable := by
  obtain ⟨tr, s, hRun, hTr, hThread, hNoPend, hPc⟩ :=
    Runs.exists_run_of_exec System.step (fun _ _ => True) threeTasks
      preemptionLabels (fun tr s => tr = [.switched 2, .switched 1,
          .gave 0 ⟨0, 2⟩ ⟨0, rtoskSemaphoreNoWaiter⟩, .switched 2] ∧
        s.scan = none ∧ s.kernel.pendSv = false ∧
        (s.pc s.kernel.currentTask).isLeaving = false)
      (by decide)
  exact ⟨tr, s, hRun, hTr, preemptive_run threeTasks_started hRun ⟨2, by simp [hTr]⟩
    hThread hNoPend hPc⟩

end System

end TinyRtos
