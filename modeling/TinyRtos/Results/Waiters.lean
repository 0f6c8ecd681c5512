import TinyRtos.Kernel.Registry

/-!
# TinyRTOS — waiters: never stale, but lost

`rtosk_task_set_ready` looks at no state, so a stale `waiting_task` would end
somebody's sleep or wait on another object. There are none:

* `waiters_fresh` — whoever is registered with an object is blocked on that
  very object, and the resource is unavailable; hence a task becomes READY only
  through the object it waits on, or through the tick when its sleep is over.

The converse direction, that every blocked task is registered, is where one
slot per object is too few: `rtosk_semaphore_take`, `rtosk_mutex_lock` and
`rtosk_queue_receive` store the current task without looking at who is there.

* `noLostWaiter` — no waiter is lost while tasks block on free slots only, and
  one is lost at once when a task blocks on an occupied one;
* `lostWaiter` — two takers of one semaphore.
-/

namespace TinyRtos

namespace System

/-- The resource of the object is not to be had by task `t`. -/
def Unavailable (s : System) (t : Nat) : Obj → Prop
  | .semaphore i => (s.sems i).count = 0
  | .queue q => (s.queues q).count = 0
  | .mutex m => (s.mutexes m).owner < s.kernel.taskCount ∧ (s.mutexes m).owner ≠ t

/-- The task registered with the object is waiting there and nowhere else. -/
structure Fresh (s : System) (o : Obj) : Prop where
  user  : s.waiter o < s.kernel.taskCount
  state : (s.kernel.tasks (s.waiter o)).state = o.blockedState
  call  : ∃ c, (s.pc (s.waiter o)).call = some c ∧ c.waitsOn = some o
  only  : ∀ p, s.waiter p = s.waiter o → p = o
  unavailable : s.Unavailable (s.waiter o) o

/-- Every task blocked on an object is registered with the object of its
call. -/
def Registered (s : System) : Prop :=
  ∀ t < s.kernel.taskCount,
    ((s.kernel.tasks t).state = .blockedOnSemaphore ∨
      (s.kernel.tasks t).state = .blockedOnQueue ∨
      (s.kernel.tasks t).state = .blockedOnMutex) →
    ∃ o c, (s.pc t).call = some c ∧ c.waitsOn = some o ∧
      (s.kernel.tasks t).state = o.blockedState ∧ s.waiter o = t

/-- If the step blocks the current task on an object, nobody is registered
there yet. -/
def FreeSlot (s : System) (l : Label) : Prop :=
  match s.parks l with
  | none => True
  | some o => s.waiter o = noWaiter

instance (s : System) (l : Label) : Decidable (FreeSlot s l) := by
  unfold FreeSlot
  split <;> infer_instance

section

variable [TaskConfig] {s s₀ s' : System} {l : Label} {tr es : List Event} {o : Obj}

-- ---------------------------------------------------------------------------
-- Registrations
-- ---------------------------------------------------------------------------

/-- A task waiting on an object in the view is in its blocked state. -/
theorem Control.state_of_waiting (h : Control s) {t : Nat} (ht : t < s.kernel.taskCount)
    (hMode : s.mode t = .waiting o) :
    (s.kernel.tasks t).state = o.blockedState ∧
      ∃ c, (s.pc t).call = some c ∧ c.waitsOn = some o := by
  obtain ⟨hNot, c, hc, hWaits⟩ := mode_waiting.mp hMode
  obtain ⟨d, hd, hBlocked⟩ := h.place t ht hNot
  obtain rfl : c = d := Option.some.inj (hc.symm.trans hd)
  rw [Call.blockedState_of_waitsOn hWaits, Option.some.injEq] at hBlocked
  exact ⟨hBlocked.symm, c, hc, hWaits⟩

theorem Registry.fresh (h : Registry s) (hWaiter : s.waiter o ≠ noWaiter) : Fresh s o := by
  have hSlot : s.abs.slot o = some (s.waiter o) := slot_eq_some.mpr ⟨rfl, hWaiter⟩
  have hUser := h.objects.waiter_lt hWaiter
  obtain ⟨hState, hCall⟩ := h.control.state_of_waiting hUser (h.sound o _ hSlot)
  refine ⟨hUser, hState, hCall, ?_, ?_⟩
  · intro p hp
    have hSlot' : s.abs.slot p = some (s.waiter o) := slot_eq_some.mpr ⟨hp, hWaiter⟩
    exact h.sound.slot_inj hSlot' hSlot
  · cases o with
    | semaphore i => exact (h.objects.sems i hWaiter).2
    | queue q => exact (h.objects.queues q hWaiter).2
    | mutex m =>
      obtain ⟨-, hOwned, hOther⟩ := (h.objects.mutexes m).2 hWaiter
      exact ⟨(h.objects.mutexes m).1 hOwned, hOther⟩

/-- A task becomes READY through the object it is registered with, or through
the tick. -/
theorem wakes_of_step (h : Control s) (hGuard : CallsUnmasked s l)
    (hStep : StepCase s l s' es) {t : Nat} (hBlocked : (s.kernel.tasks t).state ≠ .ready)
    (hReady : (s'.kernel.tasks t).state = .ready) :
    (∃ o, l.gives = some o ∧ s.waiter o = t ∧ s.waiter o ≠ noWaiter) ∨
      l = .tick ∧ Due (s.kernel.systicks + 1) (s.kernel.tasks t) := by
  cases hStep with
  | perform hThread hAt hCall =>
    have hUser : s.kernel.currentTask ≠ rtoskIdleTaskIndex :=
      Nat.ne_of_lt (lt_of_lt_of_le hThread.2.1 h.dispatching.taskCount_le)
    obtain ⟨a, hEffect⟩ := hCall.effect (isInit_of_at hGuard hAt) hUser
    rw [setPc_kernel] at hReady
    cases hEffect with
    | quiet _ hState _ => exact absurd ((hState t).symm.trans hReady) hBlocked
    | @park _ p _ _ hState _ =>
      rw [hState] at hReady
      split at hReady
      · exact absurd hReady p.blockedState_ne_ready
      · exact absurd hReady hBlocked
    | doze hState _ =>
      rw [hState] at hReady
      split at hReady
      · cases hReady
      · exact absurd hReady hBlocked
    | @wake _ p hGives _ hSlot hState _ =>
      rw [hState] at hReady
      split at hReady
      · rename_i hTask
        exact Or.inl ⟨p, hAt.gives hGives, hTask.1.symm, hSlot⟩
      · exact absurd hReady hBlocked
  | isr _ hIsr =>
    obtain ⟨a, hEffect⟩ := hIsr.effect
    cases hEffect with
    | quiet hState _ => exact absurd ((hState t).symm.trans hReady) hBlocked
    | @wake _ p hGives hSlot hState _ =>
      rw [hState] at hReady
      split at hReady
      · rename_i hTask
        exact Or.inl ⟨p, hGives, hTask.1.symm, hSlot⟩
      · exact absurd hReady hBlocked
    | tick hState _ =>
      rw [hState] at hReady
      split at hReady
      · rename_i hDue
        exact Or.inr ⟨rfl, hDue.2⟩
      · exact absurd hReady hBlocked
  | yield | resume | pendSvEmpty | pendSv | scan => exact absurd hReady hBlocked
  | @pendSvExit c _ _ =>
    have hTasks := (selectNextEnd_keeps c s.kernel.toTaskTable).2.2
    exact absurd ((congrArg (fun tasks => (tasks t).state) hTasks).symm.trans hReady) hBlocked

/-- **Waiter registrations are never stale.** After every run, a task
registered with an object is a user task in that object's blocked state, inside
a call on that object, registered nowhere else, and the resource is
unavailable. So whenever a further step makes a blocked task READY, the step is
a give, send or unlock of the very object the task is blocked on, or the tick
that ends its sleep. -/
theorem waiters_fresh (hStarted : Started s₀)
    (hRun : Runs.Run System.step CallsUnmasked s₀ tr s) :
    (∀ o, s.waiter o ≠ noWaiter → Fresh s o) ∧
      ∀ l s' es, CallsUnmasked s l → s.step l = some (s', es) → ∀ t,
        (s.kernel.tasks t).state ≠ .ready → (s'.kernel.tasks t).state = .ready →
        (∃ o, l.gives = some o ∧ s.waiter o = t ∧ Fresh s o) ∨
          l = .tick ∧ (s.kernel.tasks t).state = .blocked ∧
            wakeTickReached (s.kernel.systicks + 1) (s.kernel.tasks t).wakeTick := by
  have hReg := registry_run hStarted hRun
  refine ⟨fun o => hReg.fresh, fun l s' es hGuard hs t hBlocked hReady => ?_⟩
  rcases wakes_of_step hReg.control hGuard (step_cases hs) hBlocked hReady with
    ⟨o, hGives, hTask, hWaiter⟩ | hTick
  · exact Or.inl ⟨o, hGives, hTask, hReg.fresh hWaiter⟩
  · exact Or.inr hTick

-- ---------------------------------------------------------------------------
-- Lost waiters
-- ---------------------------------------------------------------------------

/-- Nobody waiting on any object is missing from its slot. -/
def Complete (s : System) : Prop := ∀ o, WaitSlots.CompleteAt o s.abs

theorem Registry.registered (h : Registry s) (hComplete : Complete s) : Registered s := by
  intro t ht hKind
  have hNot : (s.kernel.tasks t).state ≠ .ready := by
    rintro hReady
    rw [hReady] at hKind
    rcases hKind with hKind | hKind | hKind <;> cases hKind
  obtain ⟨c, hc, hBlocked⟩ := h.control.place t ht hNot
  cases hWaits : c.waitsOn with
  | none =>
    -- a call that waits for no object blocks as a sleep, if at all
    cases c with
    | sleepMs =>
      rw [← Option.some.inj hBlocked] at hKind
      rcases hKind with hKind | hKind | hKind <;> cases hKind
    | _ =>
      simp only [Call.blockedState, hWaits] at hBlocked
      cases hBlocked
  | some o =>
    have hState := (Call.blockedState_of_waitsOn hWaits).symm.trans hBlocked
    have hMode : s.abs.mode t = .waiting o := mode_waiting.mpr ⟨hNot, c, hc, hWaits⟩
    exact ⟨o, c, hc, hWaits, (Option.some.inj hState).symm,
      (slot_eq_some.mp (hComplete o t hMode)).1⟩

omit [TaskConfig] in
theorem FreeSlot.slot (h : FreeSlot s l) (hParks : s.parks l = some o) :
    s.abs.slot o = none := by
  unfold FreeSlot at h
  rw [hParks] at h
  exact slot_eq_none.mpr h

/-- Blocking on a free slot loses nobody. -/
theorem Registry.complete (h : Registry s) (hComplete : Complete s)
    (hGuard : CallsUnmasked s l) (hStep : StepCase s l s' es) (hFree : FreeSlot s l) :
    Complete s' := by
  obtain ⟨a, hSim⟩ := h.control.step_move h.objects hGuard hStep
  intro o
  refine (hComplete o).move hSim.move fun t hPark => ?_
  obtain rfl := hSim.parker t o hPark
  exact hFree.slot ((hSim.parks o).mpr hPark)

/-- Blocking on an occupied slot loses the task registered there. -/
theorem Registry.lost (h : Registry s) (hGuard : CallsUnmasked s l)
    (hStep : StepCase s l s' es) (hOccupied : ¬ FreeSlot s l) : ¬ Registered s' := by
  intro hRegistered
  obtain ⟨a, hSim⟩ := h.control.step_move h.objects hGuard hStep
  unfold FreeSlot at hOccupied
  cases hParks : s.parks l with
  | none =>
    rw [hParks] at hOccupied
    exact hOccupied trivial
  | some o =>
    rw [hParks] at hOccupied
    -- `w` sits in the slot that the current task takes
    set w := s.waiter o with hw
    have hUser : w < s.kernel.taskCount := h.objects.waiter_lt hOccupied
    have hWaiting : s.abs.mode w = .waiting o := h.sound o w (slot_eq_some.mpr ⟨rfl, hOccupied⟩)
    have hPark := (hSim.parks o).mp hParks
    have hReg' := h.step hGuard hStep
    have hAfter := hSim.move
    rw [hPark] at hAfter
    generalize hr : s'.abs = r at hAfter
    cases hAfter with
    | park hActive =>
      have hOther : w ≠ s.kernel.currentTask := by
        intro hEq
        rw [hEq, hActive] at hWaiting
        cases hWaiting
      have hMode' : s'.abs.mode w = .waiting o := by
        rw [hr]
        exact (Function.update_of_ne hOther _ _).trans hWaiting
      have hSlot' : s'.abs.slot o = some s.kernel.currentTask := by
        rw [hr]
        exact Function.update_self ..
      have hUser' : w < s'.kernel.taskCount := hStep.setup.taskCount ▸ hUser
      obtain ⟨hState', c, hc, hWaits⟩ := hReg'.control.state_of_waiting hUser' hMode'
      obtain ⟨p, d, hd, hWaits', -, hWaiter'⟩ := hRegistered w hUser' (by
        rw [hState']
        cases o
        · exact Or.inl rfl
        · exact Or.inr (Or.inl rfl)
        · exact Or.inr (Or.inr rfl))
      obtain rfl : c = d := Option.some.inj (hc.symm.trans hd)
      obtain rfl : o = p := Option.some.inj (hWaits.symm.trans hWaits')
      exact hOther (hWaiter'.symm.trans (slot_eq_some.mp hSlot').1)

/-- **No waiter is lost while tasks block on free slots**, in every run; and in
every state such a run reaches, a further step loses one exactly if it blocks
the current task on an object that has a waiter already. -/
theorem noLostWaiter (hStarted : Started s₀)
    (hRun : Runs.Run System.step (fun s l => CallsUnmasked s l ∧ FreeSlot s l) s₀ tr s) :
    Registered s ∧
      ∀ l s' es, CallsUnmasked s l → s.step l = some (s', es) →
        (Registered s' ↔ FreeSlot s l) := by
  have hInv : Registry s ∧ Complete s := by
    refine hRun.induct (fun _ s => Registry s ∧ Complete s) ⟨hStarted.registry, ?_⟩
      fun _ _ _ _ _ h hGuard hs => ⟨h.1.step hGuard.1 (step_cases hs),
        h.1.complete h.2 hGuard.1 (step_cases hs) hGuard.2⟩
    intro o t hMode
    obtain ⟨-, c, hc, -⟩ := mode_waiting.mp hMode
    rw [hStarted.user] at hc
    cases hc
  refine ⟨hInv.1.registered hInv.2, fun l s' es hGuard hs => ⟨?_, ?_⟩⟩
  · intro hRegistered
    by_contra hOccupied
    exact hInv.1.lost hGuard (step_cases hs) hOccupied hRegistered
  · intro hFree
    exact (hInv.1.step hGuard (step_cases hs)).registered
      (hInv.1.complete hInv.2 hGuard (step_cases hs) hFree)

end

-- ---------------------------------------------------------------------------
-- Two takers
-- ---------------------------------------------------------------------------

/-- Two tasks of one priority and semaphores without permits. -/
def twoTasks : System :=
  boot [1, 1] (fun _ => rtoskSemaphoreInit 0)
    (fun _ => ⟨fun _ => 0, 1, 2, 0, 0, 0, rtoskQueueNoWaiter⟩)

theorem twoTasks_started : Started twoTasks :=
  boot_started (by decide) (fun _ => rfl) fun _ => ⟨rfl, rfl, rfl, rfl⟩

/-- The current task takes semaphore `0`, has to wait, and the other of two
tasks is switched in. -/
def takeAndSwitch : List Label :=
  [.call (.semaphoreTake (some 0)), .yield, .pendSv, .scan, .scan, .pendSvExit]

/-- Task `0` waits on semaphore `0`, and task `1` would. -/
def ZeroWaits (s : System) : Prop :=
  s.waiter (.semaphore 0) = 0 ∧
    s.parks (.call (.semaphoreTake (some 0))) = some (.semaphore 0)

instance (s : System) : Decidable (ZeroWaits s) := inferInstanceAs (Decidable (_ ∧ _))

theorem waiters_fresh_twoTasks :
    ∃ tr s, Runs.Run System.step CallsUnmasked twoTasks tr s ∧
      s.waiter (.semaphore 0) = 0 ∧ Fresh s (.semaphore 0) := by
  obtain ⟨tr, s, hRun, hWaiter, -⟩ :=
    Runs.exists_run_of_exec System.step CallsUnmasked twoTasks
      takeAndSwitch (fun _ s => ZeroWaits s) (by decide)
  refine ⟨tr, s, hRun, hWaiter, (waiters_fresh twoTasks_started hRun).1 _ ?_⟩
  rw [hWaiter]
  decide

/-- After the first taker has blocked all is well, but the slot is taken. -/
theorem noLostWaiter_twoTasks :
    ∃ tr s, Runs.Run System.step (fun s l => CallsUnmasked s l ∧ FreeSlot s l) twoTasks tr s ∧
      Registered s ∧ ¬ FreeSlot s (.call (.semaphoreTake (some 0))) := by
  obtain ⟨tr, s, hRun, hWaiter, hParks⟩ :=
    Runs.exists_run_of_exec System.step
      (fun s l => CallsUnmasked s l ∧ FreeSlot s l) twoTasks
      takeAndSwitch (fun _ s => ZeroWaits s) (by decide)
  refine ⟨tr, s, hRun, (noLostWaiter twoTasks_started hRun).1, fun hFree => ?_⟩
  unfold FreeSlot at hFree
  rw [hParks] at hFree
  exact absurd (hWaiter.symm.trans hFree) (by decide)

/-- **A lost waiter**: the second taker of an empty semaphore overwrites the
slot, and no give will ever find the first. -/
theorem lostWaiter :
    ∃ tr s, Runs.Run System.step CallsUnmasked twoTasks tr s ∧
      (s.kernel.tasks 0).state = .blockedOnSemaphore ∧ s.waiter (.semaphore 0) = 1 ∧
      ¬ Registered s := by
  obtain ⟨tr, s, hRun, hState, hWaiter, hCount, hWaits⟩ :=
    Runs.exists_run_of_exec System.step CallsUnmasked twoTasks
      (takeAndSwitch ++ [.call (.semaphoreTake (some 0))])
      (fun _ s => (s.kernel.tasks 0).state = .blockedOnSemaphore ∧
        s.waiter (.semaphore 0) = 1 ∧ s.kernel.taskCount = 2 ∧
        (s.pc 0).call.bind Call.waitsOn = some (.semaphore 0))
      (by decide)
  refine ⟨tr, s, hRun, hState, hWaiter, fun hRegistered => ?_⟩
  obtain ⟨o, c, hc, hWaits', -, hZero⟩ :=
    hRegistered 0 (by rw [hCount]; decide) (Or.inl hState)
  rw [hc, Option.bind_some, hWaits', Option.some.injEq] at hWaits
  rw [hWaits, hWaiter] at hZero
  exact absurd hZero (by decide)

end System

end TinyRtos
