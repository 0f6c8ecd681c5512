import TinyRtos.Kernel.Control

/-!
# TinyRTOS — the waiting slots refine the registry of single waiters

`step_move`: in runs whose calls are made with interrupts unmasked, every step
is a `WaitSlots.Move` of the view `abs`. A blocking critical section parks the
current task (`parks` says on which object, from the state before), a give,
send or unlock that finds a waiter releases its object, sleeping dozes and the
tick stirs; all other steps leave the view alone.

`Registry` collects the invariants of such runs; `WaitSlots.Sound` is the last
of them.
-/

namespace TinyRtos

namespace System

variable {s s' : System} {l : Label} {c : Call} {exit : Exit} {es : List Event}

theorem Performs.parks (h : Performs s l c) : s.parks l = s.blocks c := by
  rcases h with ⟨rfl, -⟩ | ⟨rfl, hPc, hRetries⟩
  · rfl
  · simp only [System.parks, hPc, hRetries, if_true]

theorem Performs.gives (h : Performs s l c) {o : Obj} (hGives : (Label.call c).gives = some o) :
    l.gives = some o := by
  rcases h with ⟨rfl, -⟩ | ⟨-, -, hRetries⟩
  · exact hGives
  · cases c with
    | mutexLock _ | queueReceive _ _ => cases hGives
    | _ => cases hRetries

/-- A registered waiter is a user task. -/
theorem Objects.waiter_lt (h : Objects s) {o : Obj} (hWaiter : s.waiter o ≠ noWaiter) :
    s.waiter o < s.kernel.taskCount := by
  cases o with
  | semaphore i => exact (h.sems i hWaiter).1
  | queue q => exact (h.queues q hWaiter).1
  | mutex m => exact ((h.mutexes m).2 hWaiter).1

theorem mode_asleep {t : Nat} {d : Call} (hNot : (s.kernel.tasks t).state ≠ .ready)
    (hCall : (s.pc t).call = some d) (hWaits : d.waitsOn = none) : s.mode t = .asleep := by
  unfold mode
  rw [if_neg hNot, hCall, Option.bind_some, hWaits]

/-- What the simulation says of a step. -/
structure Simulated (s : System) (l : Label) (s' : System) (a : WaitSlots.Action Nat Obj) :
    Prop where
  move     : WaitSlots.Move a s.abs s'.abs
  parks    : ∀ o, s.parks l = some o ↔ a = .park s.kernel.currentTask o
  parker   : ∀ t o, a = .park t o → t = s.kernel.currentTask
  releases : ∀ o, a = .release o → l.gives = some o

/-- A step that leaves the view alone. -/
theorem Simulated.of_eq (hAbs : s'.abs = s.abs) (hParks : s.parks l = none) :
    Simulated s l s' .stir where
  move := by
    rw [hAbs]
    exact .stir fun t => Or.inl rfl
  parks := fun o => by
    rw [hParks]
    exact ⟨nofun, nofun⟩
  parker := nofun
  releases := nofun

/-- Waking the registered waiter of `o`. -/
theorem abs_wake {o : Obj} (hObjects : Objects s) (hSlot : s.waiter o ≠ noWaiter)
    (hState : ∀ t, (s'.kernel.tasks t).state =
      if t = s.waiter o ∧ s.waiter o < s.kernel.taskCount then .ready
      else (s.kernel.tasks t).state)
    (hCall : ∀ t, (s.kernel.tasks t).state ≠ .ready → (s'.pc t).call = (s.pc t).call)
    (hWaiter : s'.waiter = Function.update s.waiter o noWaiter) :
    WaitSlots.Move (.release o) s.abs s'.abs := by
  have hMode : s'.mode = Function.update s.mode (s.waiter o) .active := by
    refine mode_set (mode_ready ?_) (fun u hu => ?_) fun u _ => hCall u
    · rw [hState, if_pos ⟨rfl, hObjects.waiter_lt hSlot⟩]
    · rw [hState, if_neg fun h => hu h.1]
  have hSlots : s'.slot = Function.update s.slot o none := by
    rw [slot_set hWaiter, if_pos rfl]
  unfold abs
  rw [hMode, hSlots]
  exact .releaseSome (r := s.abs) (slot_eq_some.mpr ⟨rfl, hSlot⟩)

variable [TaskConfig]

/-- **A critical section is a move of the registry.** -/
theorem Control.perform_move (h : Control s) (hObjects : Objects s) (hThread : s.Thread)
    (hGuard : CallsUnmasked s l) (hAt : Performs s l c) (hCall : CallStep s c s' exit es) :
    ∃ a, Simulated s l (s'.setPc s.kernel.currentTask (exit.pc c)) a := by
  have hReady := h.ready_of_thread hThread hAt.not_leaving
  have hUser : s.kernel.currentTask ≠ rtoskIdleTaskIndex :=
    Nat.ne_of_lt (lt_of_lt_of_le hThread.2.1 h.dispatching.taskCount_le)
  have hPcCur : (s'.setPc s.kernel.currentTask (exit.pc c)).pc s.kernel.currentTask =
      exit.pc c := Function.update_self ..
  have hPcOther : ∀ t, t ≠ s.kernel.currentTask →
      ((s'.setPc s.kernel.currentTask (exit.pc c)).pc t).call = (s.pc t).call := by
    intro t ht
    rw [← hCall.frame.1]
    exact congrArg Pc.call (Function.update_of_ne ht _ _)
  have hPcBlocked : ∀ t, (s.kernel.tasks t).state ≠ .ready →
      ((s'.setPc s.kernel.currentTask (exit.pc c)).pc t).call = (s.pc t).call := by
    intro t hNot
    refine hPcOther t ?_
    rintro rfl
    exact hNot hReady
  obtain ⟨a, hEffect⟩ := hCall.effect (isInit_of_at hGuard hAt) hUser
  refine ⟨a, ?_⟩
  cases hEffect with
  | quiet hBlocks hState hWaiter =>
    exact .of_eq (abs_eq hState hPcBlocked hWaiter) (hAt.parks.trans hBlocks)
  | @park _ o hWaits hBlocks hState hWaiter =>
    have hMode : (s'.setPc s.kernel.currentTask (.leaving c)).mode =
        Function.update s.mode s.kernel.currentTask (.waiting o) := by
      refine mode_set (mode_waiting.mpr ⟨?_, c, congrArg Pc.call hPcCur, hWaits⟩)
        (fun u hu => ?_) fun u hu _ => hPcOther u hu
      · rw [setPc_kernel, hState, if_pos rfl]
        exact o.blockedState_ne_ready
      · rw [setPc_kernel, hState, if_neg hu]
    have hSlot : (s'.setPc s.kernel.currentTask (.leaving c)).slot =
        Function.update s.slot o (some s.kernel.currentTask) := by
      have hSet : (s'.setPc s.kernel.currentTask (.leaving c)).slot = _ := slot_set hWaiter
      rwa [if_neg (h.dispatching.user_ne_noWaiter hThread.2.1)] at hSet
    refine ⟨?_, ?_, ?_, nofun⟩
    · have hAbs : (s'.setPc s.kernel.currentTask (.leaving c)).abs = ⟨_, _⟩ :=
        congrArg₂ WaitSlots.Slots.mk hMode hSlot
      exact hAbs ▸ .park (r := s.abs) (mode_ready hReady)
    · intro p
      rw [hAt.parks, hBlocks]
      simp
    · intro t p hEq
      injection hEq with hTask
      exact hTask.symm
  | @doze ms hState hWaiter =>
    have hMode : (s'.setPc s.kernel.currentTask (.leaving (.sleepMs ms))).mode =
        Function.update s.mode s.kernel.currentTask .asleep := by
      refine mode_set (mode_asleep (d := .sleepMs ms) ?_ (congrArg Pc.call hPcCur) rfl)
        (fun u hu => ?_) fun u hu _ => hPcOther u hu
      · rw [setPc_kernel, hState, if_pos rfl]
        nofun
      · rw [setPc_kernel, hState, if_neg hu]
    have hSlot : (s'.setPc s.kernel.currentTask (.leaving (.sleepMs ms))).slot = s.slot :=
      slot_congr hWaiter
    refine ⟨?_, ?_, nofun, nofun⟩
    · have hAbs : (s'.setPc s.kernel.currentTask (.leaving (.sleepMs ms))).abs = ⟨_, _⟩ :=
        congrArg₂ WaitSlots.Slots.mk hMode hSlot
      exact hAbs ▸ .doze (r := s.abs) (mode_ready hReady)
    · intro p
      rw [hAt.parks]
      exact ⟨nofun, nofun⟩
  | @wake _ o hGives hBlocks hSlot hState hWaiter =>
    refine ⟨abs_wake hObjects hSlot hState hPcBlocked hWaiter, ?_, nofun, ?_⟩
    · intro p
      rw [hAt.parks, hBlocks]
      exact ⟨nofun, nofun⟩
    · intro p hEq
      injection hEq with hObj
      exact hObj ▸ hAt.gives hGives

/-- A due sleeper is asleep in the view. -/
theorem Control.mode_of_due (h : Control s) {t : Nat} {tick : UInt32}
    (ht : t < s.kernel.taskCount) (hDue : Due tick (s.kernel.tasks t)) : s.mode t = .asleep := by
  have hNot : (s.kernel.tasks t).state ≠ .ready := by
    rw [hDue.1]
    nofun
  obtain ⟨d, hd, hBlocked⟩ := h.place t ht hNot
  rw [hDue.1] at hBlocked
  exact mode_asleep hNot hd (Call.waitsOn_of_blocked hBlocked)

/-- **An interrupt is a move of the registry.** -/
theorem Control.isr_move (h : Control s) (hObjects : Objects s) (hIsr : IsrStep s l s' es) :
    ∃ a, Simulated s l s' a := by
  have hPcs := hIsr.frame.1
  have hCall : ∀ t, (s.kernel.tasks t).state ≠ .ready → (s'.pc t).call = (s.pc t).call :=
    fun t _ => by rw [hPcs]
  have hParks : s.parks l = none := by cases hIsr <;> rfl
  obtain ⟨a, hEffect⟩ := hIsr.effect
  refine ⟨a, ?_⟩
  cases hEffect with
  | quiet hState hWaiter => exact .of_eq (abs_eq hState hCall hWaiter) hParks
  | @wake _ o hGives hSlot hState hWaiter =>
    refine ⟨abs_wake hObjects hSlot hState hCall hWaiter, ?_, nofun, ?_⟩
    · intro p
      rw [hParks]
      exact ⟨nofun, nofun⟩
    · intro p hEq
      injection hEq with hObj
      exact hObj ▸ hGives
  | tick hState hWaiter =>
    refine ⟨?_, ?_, nofun, nofun⟩
    · have hAbs : s'.abs = ⟨s'.mode, s.slot⟩ := by
        unfold abs
        rw [slot_congr hWaiter]
      rw [hAbs]
      refine .stir (r := s.abs) fun t => ?_
      have hSt := hState t
      by_cases hDue : t < s.kernel.taskCount ∧ Due (s.kernel.systicks + 1) (s.kernel.tasks t)
      · rw [if_pos hDue] at hSt
        exact Or.inr ⟨h.mode_of_due hDue.1 hDue.2, mode_ready hSt⟩
      · rw [if_neg hDue] at hSt
        exact Or.inl (mode_congr hSt (hCall t))
    · intro p
      exact ⟨nofun, nofun⟩

/-- **The simulation**: every step is a move of the registry. -/
theorem Control.step_move (h : Control s) (hObjects : Objects s) (hGuard : CallsUnmasked s l)
    (hStep : StepCase s l s' es) : ∃ a, Simulated s l s' a := by
  cases hStep with
  | perform hThread hAt hCall => exact h.perform_move hObjects hThread hGuard hAt hCall
  | isr _ hIsr => exact h.isr_move hObjects hIsr
  | @yield d hThread hPc =>
    exact ⟨_, .of_eq (abs_eq (fun _ => rfl) (fun t _ => call_yielded hPc _ t) rfl) rfl⟩
  | @resume d hThread hPc hOnce =>
    have hReady := h.ready_of_thread hThread (by rw [hPc]; rfl)
    refine ⟨_, .of_eq (abs_eq (fun _ => rfl) ?_ rfl) ?_⟩
    · intro t hNot
      have ht : t ≠ s.kernel.currentTask := by
        rintro rfl
        exact hNot hReady
      simp only [setPc, Function.update_of_ne ht]
    · simp only [System.parks, hPc, hOnce, Bool.false_eq_true, if_false]
  | pendSvEmpty | pendSv | scan =>
    exact ⟨_, .of_eq (abs_eq (fun _ => rfl) (fun _ _ => rfl) rfl) rfl⟩
  | @pendSvExit d _ _ =>
    refine ⟨_, .of_eq (abs_eq (fun t => ?_) (fun _ _ => rfl) rfl) rfl⟩
    exact congrArg (fun tasks => (tasks t).state) (selectNextEnd_keeps d _).2.2

/-- The invariants of runs whose calls are made with interrupts unmasked. -/
structure Registry (s : System) : Prop where
  control : Control s
  objects : Objects s
  sound   : WaitSlots.Sound s.abs

theorem Started.registry (h : Started s) : Registry s := by
  refine ⟨h.control, h.objects, fun o t hSlot => ?_⟩
  obtain ⟨rfl, hWaiter⟩ := slot_eq_some.mp hSlot
  cases o with
  | semaphore i => exact absurd (h.sems i) hWaiter
  | queue q => exact absurd (h.queues q).1 hWaiter
  | mutex m =>
    refine absurd ?_ hWaiter
    simp only [waiter, h.mutexes m]
    rfl

theorem Registry.step (h : Registry s) (hGuard : CallsUnmasked s l)
    (hStep : StepCase s l s' es) : Registry s' := by
  obtain ⟨a, hSim⟩ := h.control.step_move h.objects hGuard hStep
  exact ⟨h.control.step hGuard hStep, h.objects.step hStep, h.sound.move hSim.move⟩

/-- **`Registry` holds along every run.** -/
theorem registry_run {s₀ : System} {tr : List Event} (hStarted : Started s₀)
    (hRun : Runs.Run System.step CallsUnmasked s₀ tr s) : Registry s :=
  hRun.induct (fun _ s => Registry s) hStarted.registry
    fun _ _ _ _ _ h hGuard hs => h.step hGuard (step_cases hs)

end System

end TinyRtos
