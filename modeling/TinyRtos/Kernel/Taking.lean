import TinyRtos.Kernel.Control

/-!
# TinyRTOS — a task that takes with interrupts enabled

`rtosk_semaphore_take` does not look at the count again after its
`rtosk_kernel_yield`. A task that calls it with PRIMASK set goes on unblocked,
with its index left in the semaphore; a task that never does so is `Orderly`,
whatever other tasks do:

* an object whose slot names it is the one it is blocked on (`registered`);
* inside a take it is READY or blocked on a semaphore (`taking`), and its code
  does not go on while it is blocked (`current`).

`mutexLock` and `queueReceive` need no such care: they look again, and with
interrupts masked they look again forever.
-/

namespace TinyRtos

/-- A call of `rtosk_semaphore_take` on a semaphore. -/
def Label.takes : Label → Bool
  | .call (.semaphoreTake (some _)) => true
  | _ => false

namespace System

variable {s s' : System} {l : Label} {c : Call} {exit : Exit} {es : List Event} {t : Nat}

/-- Task `t` is blocked on `o`. -/
def BlockedOn (s : System) (t : Nat) (o : Obj) : Prop :=
  (s.kernel.tasks t).state = o.blockedState ∧ ∃ c, (s.pc t).call = some c ∧ c.waitsOn = some o

/-- Task `t` is inside `rtosk_semaphore_take(i)`, past its critical section. -/
def Taking (s : System) (t i : Nat) : Prop := (s.pc t).call = some (.semaphoreTake (some i))

/-- Task `t` takes semaphores with interrupts enabled. -/
def TakesUnmasked (t : Nat) (s : System) (l : Label) : Prop :=
  l.takes = true → s.kernel.currentTask = t → s.kernel.Unmasked

theorem BlockedOn.unique {o p : Obj} (ho : BlockedOn s t o) (hp : BlockedOn s t p) : o = p := by
  obtain ⟨-, c, hc, hWaits⟩ := ho
  obtain ⟨-, d, hd, hWaits'⟩ := hp
  rw [hc, Option.some.injEq] at hd
  subst hd
  exact Option.some.inj (hWaits.symm.trans hWaits')

/-- A task in its own code is blocked on nothing. -/
theorem BlockedOn.not_user {o : Obj} (h : BlockedOn s t o) : s.pc t ≠ .user := by
  intro hPc
  obtain ⟨-, c, hc, -⟩ := h
  rw [hPc] at hc
  cases hc

theorem blocks_init (hInit : c.isInit = true) : s.blocks c = none := by
  cases c <;> first | rfl | cases hInit

/-- With its own index in the slot, there is nothing for a task to take. -/
theorem Objects.blocks_of_waiter (h : Objects s) {o : Obj}
    (hWaiter : s.waiter o = s.kernel.currentTask) (hCur : s.kernel.currentTask ≠ noWaiter)
    (hWaits : c.waitsOn = some o) : s.blocks c = some o := by
  have hSlot : s.waiter o ≠ noWaiter := hWaiter ▸ hCur
  match c, o with
  | .semaphoreTake (some i), o =>
    obtain rfl := Option.some.inj hWaits
    have hZero := (h.sems i hSlot).2
    simp [blocks, hZero]
  | .queueReceive (some q) (some _), o =>
    obtain rfl := Option.some.inj hWaits
    have hZero := (h.queues q hSlot).2
    simp [blocks, hZero]
  | .mutexLock (some m), o =>
    obtain rfl := Option.some.inj hWaits
    obtain ⟨-, hOwned, hOther⟩ := (h.mutexes m).2 hSlot
    have hNotOwn : (s.mutexes m).owner ≠ s.kernel.currentTask := hWaiter ▸ hOther
    simp only [blocks]
    rw [if_neg (by rintro (hFree | hOwn); exacts [hOwned hFree, hNotOwn hOwn])]

variable [TaskConfig]

/-- The initialisers only clear slots. -/
theorem CallStep.effect_or_init (h : CallStep s c s' exit es)
    (hUser : s.kernel.currentTask ≠ rtoskIdleTaskIndex) :
    (∃ a, CallEffect s s' c exit a) ∨
      (c.isInit = true ∧ s'.kernel = s.kernel ∧
        ∀ o, s'.waiter o = s.waiter o ∨ s'.waiter o = noWaiter) := by
  have hClears : ∀ {o : Obj} {w : Nat}, s'.waiter = Function.update s.waiter o w →
      (w = s.waiter o ∨ w = noWaiter) →
      ∀ p, s'.waiter p = s.waiter p ∨ s'.waiter p = noWaiter := by
    intro o w hWaiter hw p
    rw [hWaiter]
    by_cases hp : p = o
    · subst hp
      rw [Function.update_self]
      exact hw
    · exact Or.inl (Function.update_of_ne hp _ _)
  cases hInit : c.isInit with
  | false => exact Or.inl (h.effect hInit hUser)
  | true =>
    refine Or.inr ⟨rfl, ?_⟩
    cases h with
    | null => exact ⟨rfl, fun _ => Or.inl rfl⟩
    | semaphoreInit i n => exact ⟨rfl, hClears (waiter_setSemaphore ..) (Or.inr rfl)⟩
    | mutexInit m => exact ⟨rfl, hClears (waiter_setMutex ..) (Or.inr rfl)⟩
    | queueInit q buffer itemSize capacity =>
      refine ⟨rfl, hClears (waiter_setQueue ..) ?_⟩
      unfold rtoskQueueInit
      split
      · exact Or.inl rfl
      · split
        · exact Or.inl rfl
        · exact Or.inr rfl
    | _ => cases hInit

/-- What a task keeps to that takes with interrupts enabled only. -/
structure Orderly (t : Nat) (s : System) : Prop where
  dispatching : Dispatching s
  objects     : Objects s
  maskInv     : s.kernel.MaskInv
  inPendSv    : s.scan ≠ none → s.kernel.Unmasked
  user        : t < s.kernel.taskCount
  registered  : ∀ o, s.waiter o = t → BlockedOn s t o
  taking      : ∀ i, Taking s t i →
    (s.kernel.tasks t).state = .ready ∨ (s.kernel.tasks t).state = .blockedOnSemaphore
  current     : s.kernel.currentTask = t → s.scan = none → ∀ i, Taking s t i →
    s.kernel.Unmasked ∧ ((s.pc t).isLeaving = true ∨ s.kernel.pendSv = true ∨
      (s.kernel.tasks t).state = .ready)

theorem Orderly.ne_noWaiter (h : Orderly t s) : t ≠ noWaiter :=
  h.dispatching.user_ne_noWaiter h.user

theorem Started.orderly (h : Started s) (ht : t < s.kernel.taskCount) : Orderly t s where
  dispatching := h.dispatching
  objects := h.objects
  maskInv := fun _ => h.isOpen.nesting
  inPendSv := fun hScan => absurd h.scan hScan
  user := ht
  registered := by
    intro o hWaiter
    refine absurd ?_ (h.dispatching.user_ne_noWaiter ht)
    rw [← hWaiter]
    cases o with
    | semaphore i => exact h.sems i
    | queue q => exact (h.queues q).1
    | mutex m =>
      simp only [waiter, h.mutexes m]
      rfl
  taking := fun _ _ => Or.inl (h.ready t ht)
  current := fun _ _ i hTaking => by
    unfold Taking at hTaking
    rw [h.user t] at hTaking
    cases hTaking

-- ---------------------------------------------------------------------------
-- A task others act on
-- ---------------------------------------------------------------------------

/-- What others may do to a task that stays where it is: nothing, wake it
through a slot, or end its sleep. -/
structure Touched (t : Nat) (s s' : System) : Prop where
  call   : (s'.pc t).call = (s.pc t).call
  waiter : ∀ o, s'.waiter o = t → s.waiter o = t
  state  : (s'.kernel.tasks t).state = (s.kernel.tasks t).state ∨
    (s'.kernel.tasks t).state = .ready ∧
      ((∃ o, s.waiter o = t ∧ s'.waiter o = noWaiter) ∨ (s.kernel.tasks t).state = .blocked)

omit [TaskConfig] in
/-- Nobody touched it. -/
theorem Touched.of_same (hCall : (s'.pc t).call = (s.pc t).call) (hWaiter : s'.waiter = s.waiter)
    (hState : (s'.kernel.tasks t).state = (s.kernel.tasks t).state) : Touched t s s' :=
  ⟨hCall, fun o => by rw [hWaiter]; exact id, Or.inl hState⟩

theorem Touched.registered (h : Touched t s s') (hInv : Orderly t s) (o : Obj)
    (hWaiter : s'.waiter o = t) : BlockedOn s' t o := by
  have hOn := hInv.registered o (h.waiter o hWaiter)
  obtain ⟨hState, d, hd, hWaits⟩ := hOn
  refine ⟨?_, d, h.call.trans hd, hWaits⟩
  rcases h.state with hSame | ⟨-, ⟨p, hWas, hCleared⟩ | hAsleep⟩
  · exact hSame.trans hState
  · -- it was woken through the slot it is registered in, which is empty now
    obtain rfl := BlockedOn.unique (hInv.registered p hWas) ⟨hState, d, hd, hWaits⟩
    exact absurd (hWaiter.symm.trans hCleared) hInv.ne_noWaiter
  · rw [hState] at hAsleep
    cases o <;> cases hAsleep

theorem Touched.taking (h : Touched t s s') (hInv : Orderly t s) (i : Nat)
    (hTaking : Taking s' t i) :
    (s'.kernel.tasks t).state = .ready ∨ (s'.kernel.tasks t).state = .blockedOnSemaphore := by
  unfold Taking at hTaking
  rw [h.call] at hTaking
  rcases h.state with hSame | ⟨hReady, -⟩
  · rw [hSame]
    exact hInv.taking i hTaking
  · exact Or.inl hReady

omit [TaskConfig] in
theorem Touched.of_wake {o : Obj} (hne : t ≠ noWaiter) (hCall : (s'.pc t).call = (s.pc t).call)
    (hState : ∀ u, (s'.kernel.tasks u).state =
      if u = s.waiter o ∧ s.waiter o < s.kernel.taskCount then .ready
      else (s.kernel.tasks u).state)
    (hWaiter : s'.waiter = Function.update s.waiter o noWaiter) : Touched t s s' := by
  refine ⟨hCall, fun p hp => ?_, ?_⟩
  · rw [hWaiter] at hp
    by_cases hpo : p = o
    · subst hpo
      rw [Function.update_self] at hp
      exact absurd hp.symm hne
    · rwa [Function.update_of_ne hpo] at hp
  · have hSt := hState t
    split at hSt
    · rename_i hWoken
      exact Or.inr ⟨hSt, Or.inl ⟨o, hWoken.1.symm, by rw [hWaiter, Function.update_self]⟩⟩
    · exact Or.inl hSt

/-- Another task's call. -/
theorem CallStep.touched (h : CallStep s c s' exit es) (hInv : Orderly t s)
    (hUser : s.kernel.currentTask ≠ rtoskIdleTaskIndex) (ht : t ≠ s.kernel.currentTask) :
    Touched t s (s'.setPc s.kernel.currentTask (exit.pc c)) := by
  have hCall : ((s'.setPc s.kernel.currentTask (exit.pc c)).pc t).call = (s.pc t).call := by
    rw [← h.frame.1]
    exact congrArg Pc.call (Function.update_of_ne ht _ _)
  rcases h.effect_or_init hUser with ⟨a, hEffect⟩ | ⟨-, hKernel, hClears⟩
  · cases hEffect with
    | quiet _ hState hWaiter => exact .of_same hCall hWaiter (hState t)
    | @park _ o _ _ hState hWaiter =>
      refine ⟨hCall, fun p hp => ?_, Or.inl ?_⟩
      · have hp' : s'.waiter p = t := hp
        rw [hWaiter] at hp'
        by_cases hpo : p = o
        · subst hpo
          rw [Function.update_self] at hp'
          exact absurd hp'.symm ht
        · rwa [Function.update_of_ne hpo] at hp'
      · exact (hState t).trans (if_neg ht)
    | doze hState hWaiter => exact .of_same hCall hWaiter ((hState t).trans (if_neg ht))
    | wake _ _ _ hState hWaiter => exact .of_wake hInv.ne_noWaiter hCall hState hWaiter
  · refine ⟨hCall, fun o ho => ?_, Or.inl ?_⟩
    · rcases hClears o with hSame | hNone
      · exact hSame ▸ ho
      · exact absurd (ho.symm.trans hNone) hInv.ne_noWaiter
    · rw [setPc_kernel, hKernel]

omit [TaskConfig] in
theorem IsrStep.touched (h : IsrStep s l s' es) (hne : t ≠ noWaiter) : Touched t s s' := by
  have hCall : (s'.pc t).call = (s.pc t).call := by rw [h.frame.1]
  obtain ⟨a, hEffect⟩ := h.effect
  cases hEffect with
  | quiet hState hWaiter => exact .of_same hCall hWaiter (hState t)
  | wake _ _ hState hWaiter => exact .of_wake hne hCall hState hWaiter
  | tick hState hWaiter =>
    refine ⟨hCall, fun o ho => by rwa [hWaiter] at ho, ?_⟩
    have hSt := hState t
    split at hSt
    · rename_i hDue
      exact Or.inr ⟨hSt, Or.inr hDue.2.1⟩
    · exact Or.inl hSt

-- ---------------------------------------------------------------------------
-- One step
-- ---------------------------------------------------------------------------

/-- **A call of the task itself.** It is made by a task that is registered
nowhere, or is the next round of the loop on the object it is registered with,
which finds nothing again. -/
theorem Orderly.registered_perform (h : Orderly t s)
    (hUser : s.kernel.currentTask ≠ rtoskIdleTaskIndex) (ht : s.kernel.currentTask = t)
    (hAt : Performs s l c) (hCall : CallStep s c s' exit es) (o : Obj)
    (hWaiter : s'.waiter o = t) :
    BlockedOn (s'.setPc s.kernel.currentTask (exit.pc c)) t o := by
  subst ht
  -- an old registration is on the object this call blocks on
  have hOld : ∀ p, s.waiter p = s.kernel.currentTask → s.blocks c = some p := by
    intro p hp
    have hOn := h.registered p hp
    rcases hAt with ⟨-, hPc⟩ | ⟨-, hPc, -⟩
    · exact absurd hPc hOn.not_user
    · obtain ⟨-, d, hd, hWaits⟩ := hOn
      rw [hPc] at hd
      obtain rfl := Option.some.inj hd
      exact h.objects.blocks_of_waiter hp h.ne_noWaiter hWaits
  rcases hCall.effect_or_init hUser with ⟨a, hEffect⟩ | ⟨hInit, -, hClears⟩
  · cases hEffect with
    | quiet hBlocks _ hSame =>
      rw [hSame] at hWaiter
      exact absurd ((hOld o hWaiter).symm.trans hBlocks) nofun
    | @park _ p hWaits hBlocks hState hSlot =>
      obtain rfl : p = o := by
        by_contra hpo
        rw [hSlot, Function.update_of_ne (Ne.symm hpo)] at hWaiter
        exact hpo (Option.some.inj (hBlocks.symm.trans (hOld o hWaiter)))
      have hPc : (s'.setPc s.kernel.currentTask (.leaving c)).pc s.kernel.currentTask =
          .leaving c := Function.update_self ..
      exact ⟨(hState _).trans (if_pos rfl), c, congrArg Pc.call hPc, hWaits⟩
    | doze _ hSame =>
      rw [hSame] at hWaiter
      exact absurd (hOld o hWaiter) nofun
    | @wake _ p _ hBlocks _ _ hSlot =>
      rw [hSlot] at hWaiter
      by_cases hop : o = p
      · subst hop
        rw [Function.update_self] at hWaiter
        exact absurd hWaiter.symm h.ne_noWaiter
      · rw [Function.update_of_ne hop] at hWaiter
        exact absurd ((hOld o hWaiter).symm.trans hBlocks) nofun
  · rcases hClears o with hSame | hNone
    · rw [hSame] at hWaiter
      exact absurd ((hOld o hWaiter).symm.trans (blocks_init hInit)) nofun
    · exact absurd (hWaiter.symm.trans hNone) h.ne_noWaiter

/-- A task gets into a take by blocking. -/
theorem Orderly.taking_perform (h : Orderly t s) (hTakes : TakesUnmasked t s l)
    (ht : s.kernel.currentTask = t) (hAt : Performs s l c) (hCall : CallStep s c s' exit es)
    {i : Nat} (hTaking : Taking (s'.setPc s.kernel.currentTask (exit.pc c)) t i) :
    (s'.kernel.tasks t).state = .blockedOnSemaphore ∧ exit = .yields ∧ s'.kernel.Unmasked := by
  subst ht
  have hPc : (exit.pc c).call = some (.semaphoreTake (some i)) := by
    unfold Taking at hTaking
    simpa only [setPc, Function.update_self] using hTaking
  cases exit with
  | returns => cases hPc
  | yields =>
    obtain rfl := Option.some.inj hPc
    have hOpen : s.kernel.Open := by
      refine h.maskInv.isOpen ?_
      rcases hAt with ⟨hLabel, -⟩ | ⟨-, -, hRetries⟩
      · exact hTakes (by rw [hLabel]; rfl) rfl
      · cases hRetries
    refine ⟨?_, rfl, hCall.unmasked_of_yields hOpen⟩
    cases hCall with
    | takeBlock => simp [TaskTable.setState_state]

theorem Orderly.perform (h : Orderly t s) (hTakes : TakesUnmasked t s l) (hThread : s.Thread)
    (hAt : Performs s l c) (hCall : CallStep s c s' exit es) :
    Orderly t (s'.setPc s.kernel.currentTask (exit.pc c)) := by
  obtain ⟨-, hScan, hCur, -⟩ := hCall.frame
  have hUser : s.kernel.currentTask ≠ rtoskIdleTaskIndex :=
    Nat.ne_of_lt (lt_of_lt_of_le hThread.2.1 h.dispatching.taskCount_le)
  have hStep : StepCase s l (s'.setPc s.kernel.currentTask (exit.pc c)) es :=
    .perform hThread hAt hCall
  refine ⟨h.dispatching.step hStep, h.objects.step hStep, hCall.maskInv h.maskInv,
    fun hIn => absurd (hScan.trans hThread.1) hIn, ?_, fun o ho => ?_, fun i hi => ?_,
    fun hIs _ i hi => ?_⟩
  · rw [setPc_kernel, hCall.setup.taskCount]
    exact h.user
  · by_cases ht : s.kernel.currentTask = t
    · exact h.registered_perform hUser ht hAt hCall o ho
    · exact (hCall.touched h hUser (Ne.symm ht)).registered h o ho
  · by_cases ht : s.kernel.currentTask = t
    · exact Or.inr (h.taking_perform hTakes ht hAt hCall hi).1
    · exact (hCall.touched h hUser (Ne.symm ht)).taking h i hi
  · rw [setPc_kernel, hCur] at hIs
    obtain ⟨-, rfl, hOpen⟩ := h.taking_perform hTakes hIs hAt hCall hi
    subst hIs
    refine ⟨hOpen, Or.inl ?_⟩
    simp only [setPc, Function.update_self]
    rfl

theorem Orderly.isr (h : Orderly t s) (hUnmasked : s.kernel.Unmasked) (hIsr : IsrStep s l s' es) :
    Orderly t s' := by
  obtain ⟨hPcs, hScan, hCur, hPrimask, hNesting⟩ := hIsr.frame
  have hTouched := hIsr.touched h.ne_noWaiter
  have hUnmasked' : s'.kernel.Unmasked := by
    unfold Kernel.Unmasked
    rw [hPrimask]
    exact hUnmasked
  refine ⟨h.dispatching.isr hIsr, h.objects.isr hIsr, fun _ => ?_, fun _ => hUnmasked', ?_,
    hTouched.registered h, hTouched.taking h, fun hIs hNone i hi => ⟨hUnmasked', ?_⟩⟩
  · rw [hNesting]
    exact h.maskInv hUnmasked
  · rw [hIsr.setup.taskCount]
    exact h.user
  · unfold Taking at hi
    rw [hPcs] at hi ⊢
    obtain ⟨-, hGoesOn⟩ := h.current (hCur ▸ hIs) (hScan ▸ hNone) i hi
    rcases hIsr.pend with hPend | ⟨-, hPend⟩
    · exact Or.inr (Or.inl hPend)
    · rw [hPend]
      exact hGoesOn.imp id (Or.imp id hIsr.ready_mono)

/-- **The code of a take goes on in a READY task.** -/
theorem Orderly.ready_of_taking (h : Orderly t s) (hThread : s.Thread)
    (ht : s.kernel.currentTask = t) {i : Nat} (hTaking : Taking s t i)
    (hPc : (s.pc t).isLeaving = false) : (s.kernel.tasks t).state = .ready := by
  obtain ⟨hUnmasked, hLeaving | hPend | hReady⟩ := h.current ht hThread.1 i hTaking
  · rw [hPc] at hLeaving
    cases hLeaving
  · exact absurd ⟨hPend, hUnmasked⟩ hThread.2.2
  · exact hReady

/-- **`Orderly` is kept by every step.** -/
theorem Orderly.step (h : Orderly t s) (hTakes : TakesUnmasked t s l)
    (hStep : StepCase s l s' es) : Orderly t s' := by
  have hDispatching := h.dispatching.step hStep
  have hObjects := h.objects.step hStep
  have hUser : t < s'.kernel.taskCount := hStep.setup.taskCount ▸ h.user
  cases hStep with
  | perform hThread hAt hCall => exact h.perform hTakes hThread hAt hCall
  | isr hUnmasked hIsr => exact h.isr hUnmasked hIsr
  | @yield d hThread hPc =>
    have hCall := call_yielded hPc (rtoskKernelYield s.kernel) t
    have hTouched : Touched t s
        ({ s with kernel := rtoskKernelYield s.kernel }.setPc s.kernel.currentTask (.yielded d)) :=
      .of_same hCall rfl rfl
    refine ⟨hDispatching, hObjects, h.maskInv, h.inPendSv, hUser, hTouched.registered h,
      hTouched.taking h, fun hIs _ i hi => ⟨?_, Or.inr (Or.inl rfl)⟩⟩
    exact (h.current hIs hThread.1 i (hCall.symm.trans hi)).1
  | @resume d hThread hPc hOnce =>
    by_cases ht : s.kernel.currentTask = t
    · subst ht
      have hBack : (s.setPc s.kernel.currentTask .user).pc s.kernel.currentTask = .user :=
        Function.update_self ..
      have hOut : ∀ i, ¬ Taking (s.setPc s.kernel.currentTask .user) s.kernel.currentTask i := by
        intro i hi
        unfold Taking at hi
        rw [hBack] at hi
        cases hi
      refine ⟨hDispatching, hObjects, h.maskInv, h.inPendSv, hUser, fun o ho => ?_,
        fun i hi => absurd hi (hOut i), fun _ _ i hi => absurd hi (hOut i)⟩
      -- whoever comes out of a call that does not look again is READY, so not registered
      obtain ⟨hState, e, he, hWaits⟩ := h.registered o ho
      have hed : d = e := by
        rw [hPc] at he
        exact Option.some.inj he
      subst hed
      match d, hOnce with
      | .semaphoreTake (some i), _ =>
        have hReady := h.ready_of_taking hThread rfl he (by rw [hPc]; rfl)
        exact absurd (hState.symm.trans hReady) o.blockedState_ne_ready
    · have hTouched : Touched t s (s.setPc s.kernel.currentTask .user) :=
        .of_same (congrArg Pc.call (Function.update_of_ne (Ne.symm ht) _ _)) rfl rfl
      exact ⟨hDispatching, hObjects, h.maskInv, h.inPendSv, hUser, hTouched.registered h,
        hTouched.taking h, fun hIs => absurd hIs ht⟩
  | pendSvEmpty _ _ _ hBegin =>
    obtain ⟨c, hSome, -⟩ := selectNextBegin_eq h.dispatching.taskCount_pos
    rw [hBegin] at hSome
    cases hSome
  | pendSv _ _ hUnmasked _ =>
    exact ⟨hDispatching, hObjects, h.maskInv, fun _ => hUnmasked, hUser, h.registered, h.taking,
      fun _ hNone => absurd hNone (Option.some_ne_none _)⟩
  | scan hScan _ =>
    have hUnmasked : s.kernel.Unmasked := h.inPendSv (by rw [hScan]; exact Option.some_ne_none _)
    exact ⟨hDispatching, hObjects, h.maskInv, fun _ => hUnmasked, hUser, h.registered, h.taking,
      fun _ hNone => absurd hNone (Option.some_ne_none _)⟩
  | @pendSvExit d hScan hDone =>
    have hUnmasked : s.kernel.Unmasked := h.inPendSv (by rw [hScan]; exact Option.some_ne_none _)
    have hTasks := (selectNextEnd_keeps d s.kernel.toTaskTable).2.2
    have hTouched : Touched t s
        { s with kernel := s.kernel.onTable (selectNextEnd d), scan := none } := by
      refine .of_same rfl rfl ?_
      rw [Kernel.onTable_toTaskTable, hTasks]
    refine ⟨hDispatching, hObjects, h.maskInv, fun hIn => absurd rfl hIn, hUser,
      hTouched.registered h, hTouched.taking h, fun hIs _ i _ => ⟨hUnmasked, Or.inr (Or.inr ?_)⟩⟩
    simp only [Kernel.onTable_toTaskTable] at hIs ⊢
    rcases h.dispatching.selects hScan hDone with ⟨b, hEnd, hReady, -⟩ | ⟨hEnd, -⟩
    · rw [hEnd] at hIs ⊢
      exact hIs ▸ hReady.2
    · -- idle is no user task
      rw [hEnd] at hIs
      have hLe := h.dispatching.taskCount_le
      have hLt := h.user
      have hEq : rtoskMaxTasks = t := hIs
      omega

/-- **`Orderly` holds along every run** in which the task takes with interrupts
enabled. -/
theorem orderly_run {G : System → Label → Prop} {s₀ : System} {tr : List Event}
    (hStarted : Started s₀) (ht : t < s₀.kernel.taskCount)
    (hTakes : ∀ s l, G s l → TakesUnmasked t s l) (hRun : Runs.Run System.step G s₀ tr s) :
    Orderly t s :=
  hRun.induct (fun _ s => Orderly t s) (hStarted.orderly ht)
    fun _ _ _ _ _ h hG hs => h.step (hTakes _ _ hG) (step_cases hs)

end System

end TinyRtos
