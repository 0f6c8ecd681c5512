import TinyRtos.Kernel.Taking
import Mathlib.Data.UInt

/-!
# TinyRTOS — how long a sleep lasts

`rtosk_kernel_sleep_ms(ms)` stores the deadline `RTOSK_SYSTICKS + ms`, and every
tick `rtosk_task_update_blocked` compares it with the tick count through a
signed difference. Both wrap. For a sleep that began at tick `T`, the test at
tick `T + k` is about `k - ms` alone (`wakeTickReached_elapsed`), and right as
long as `ms - k` fits: up to `ms = 2 ^ 31 + 1`.

* `sleep_exact` — up to there a sleep lasts exactly `max ms 1` ticks, whatever
  the other tasks do;
* `sleep_exact_iff` — beyond, it ends at the first tick.
-/

namespace TinyRtos

-- ---------------------------------------------------------------------------
-- The comparison
-- ---------------------------------------------------------------------------

/-- The signed test, in terms of the wrapped difference. -/
theorem wakeTickReached_iff (currentTick wakeTick : UInt32) :
    wakeTickReached currentTick wakeTick ↔ (currentTick - wakeTick).toNat < 2 ^ 31 := by
  unfold wakeTickReached
  rw [Int32.le_iff_toInt_le]
  show (0 : Int) ≤ (currentTick - wakeTick).toBitVec.toInt ↔ _
  rw [BitVec.toInt_eq_toNat_cond, UInt32.toNat_toBitVec]
  have hBound := (currentTick - wakeTick).toNat_lt
  split <;> omega

/-- The start of the sleep cancels out. -/
theorem wakeTickReached_elapsed (T ms : UInt32) {k : Nat} (hk : k < 2 ^ 32) :
    wakeTickReached (T + UInt32.ofNat k) (T + ms) ↔
      (2 ^ 32 - ms.toNat + k) % 2 ^ 32 < 2 ^ 31 := by
  rw [wakeTickReached_iff, add_sub_add_left_eq_sub, UInt32.toNat_sub, UInt32.toNat_ofNat',
    Nat.mod_eq_of_lt hk]

/-- **Within its range the test is the intended one**, at every tick up to the
deadline. -/
theorem wakeTickReached_iff_le (T : UInt32) {ms : UInt32} {k : Nat} (hms : ms.toNat ≤ 2 ^ 31 + 1)
    (hPos : 1 ≤ k) (hk : k ≤ max ms.toNat 1) :
    wakeTickReached (T + UInt32.ofNat k) (T + ms) ↔ ms.toNat ≤ k := by
  rw [wakeTickReached_elapsed T ms (by omega)]
  have hBound := ms.toNat_lt
  omega

/-- Beyond it the deadline looks reached at once. -/
theorem wakeTickReached_first (T : UInt32) {ms : UInt32} (hms : 2 ^ 31 + 1 < ms.toNat) :
    wakeTickReached (T + 1) (T + ms) := by
  have hElapsed := wakeTickReached_elapsed T ms (k := 1) (by decide)
  have hBound := ms.toNat_lt
  exact hElapsed.mpr (by omega)

-- ---------------------------------------------------------------------------
-- The scan of the sleepers
-- ---------------------------------------------------------------------------

/-- What a task becomes of which the scan changes the state. -/
theorem updateBlocked_changed {currentTick : UInt32} {k : TaskTable} {j : Nat} :
    ((rtoskTaskUpdateBlocked currentTick k).1.tasks j).state ≠ (k.tasks j).state ↔
      j < k.taskCount ∧ Due currentTick (k.tasks j) := by
  rw [rtoskTaskUpdateBlocked_tasks]
  constructor
  · intro hChanged
    by_contra hNot
    rw [if_neg hNot] at hChanged
    exact hChanged rfl
  · intro hDue
    rw [if_pos hDue, hDue.2.1]
    nofun

theorem updateBlocked_woke (currentTick : UInt32) (k : TaskTable) :
    (rtoskTaskUpdateBlocked currentTick k).2 =
      if ∃ j < k.taskCount, Due currentTick (k.tasks j) then 1 else 0 :=
  (updateBlocked_rounds currentTick k k.taskCount).2.2.2.2

/-- **`rtosk_task_update_blocked`** readies the due sleepers, touches nobody
else, and says whether there was one. A sleeper within the range of the test is
due from its deadline on. -/
theorem updateBlocked_spec (currentTick : UInt32) (k : TaskTable) :
    (∀ j, ¬ (j < k.taskCount ∧ Due currentTick (k.tasks j)) →
      (rtoskTaskUpdateBlocked currentTick k).1.tasks j = k.tasks j) ∧
    (∀ j < k.taskCount, Due currentTick (k.tasks j) →
      ((rtoskTaskUpdateBlocked currentTick k).1.tasks j).state = .ready) ∧
    (∀ j < k.taskCount, ∀ (T d : UInt32) (n : Nat), (k.tasks j).state = .blocked →
      (k.tasks j).wakeTick = T + d → currentTick = T + UInt32.ofNat n →
      1 ≤ n → n ≤ max d.toNat 1 → d.toNat ≤ 2 ^ 31 + 1 →
      ((rtoskTaskUpdateBlocked currentTick k).1.tasks j).state =
        if n < d.toNat then .blocked else .ready) ∧
    ((rtoskTaskUpdateBlocked currentTick k).2 = 1 ↔
      ∃ j, ((rtoskTaskUpdateBlocked currentTick k).1.tasks j).state ≠ (k.tasks j).state) ∧
    ((rtoskTaskUpdateBlocked currentTick k).2 ≠ 1 →
      (rtoskTaskUpdateBlocked currentTick k).2 = 0) := by
  refine ⟨fun j hNot => ?_, fun j hj hDue => ?_, ?_, ?_, fun hNot => ?_⟩
  · rw [rtoskTaskUpdateBlocked_tasks, if_neg hNot]
  · rw [rtoskTaskUpdateBlocked_tasks, if_pos ⟨hj, hDue⟩]
  · intro j hj T d n hBlocked hWake hNow hPos hLe hRange
    have hReached := wakeTickReached_iff_le T hRange hPos hLe
    rw [← hNow, ← hWake] at hReached
    rw [rtoskTaskUpdateBlocked_tasks]
    by_cases hEarly : n < d.toNat
    · rw [if_pos hEarly, if_neg fun hDue => absurd (hReached.mp hDue.2.2) (by omega)]
      exact hBlocked
    · rw [if_neg hEarly, if_pos ⟨hj, hBlocked, hReached.mpr (by omega)⟩]
  · simp only [updateBlocked_changed]
    rw [updateBlocked_woke]
    split
    · rename_i hSome
      exact iff_of_true rfl hSome
    · rename_i hNone
      exact iff_of_false (by decide) hNone
  · rw [updateBlocked_woke] at hNot ⊢
    split at hNot
    · exact absurd rfl hNot
    · rename_i hNone
      rw [if_neg hNone]

-- ---------------------------------------------------------------------------
-- The clock
-- ---------------------------------------------------------------------------

namespace System

variable {s s₀ s₁ s' : System} {l : Label} {c : Call} {exit : Exit} {es : List Event} {t : Nat}
  {ms : UInt32}

/-- An observer that remarks on ticks. -/
def tickLook (_ : System) : Label → List Unit
  | .tick => [()]
  | _ => []

/-- The ticks of a watched run. -/
def ticks (tr : List (Event ⊕ Unit)) : Nat :=
  Runs.tally (Sum.elim (fun _ => 0) fun _ => 1) tr

theorem ticks_remarks (es : List Event) (os : List Unit) :
    ticks (es.map Sum.inl ++ os.map Sum.inr) = os.length := by
  unfold ticks
  rw [Runs.tally_remarks]
  simp [Runs.tally]

theorem ticks_append (tr xs : List (Event ⊕ Unit)) : ticks (tr ++ xs) = ticks tr + ticks xs :=
  Runs.tally_append ..

section

variable [TaskConfig]

/-- Only the caller's deadline is stored, and the count stands still. -/
theorem CallStep.clock (h : CallStep s c s' exit es)
    (hUser : s.kernel.currentTask ≠ rtoskIdleTaskIndex) :
    s'.kernel.systicks = s.kernel.systicks ∧ ∀ j, j ≠ s.kernel.currentTask →
      (s'.kernel.tasks j).wakeTick = (s.kernel.tasks j).wakeTick := by
  cases h with
  | sleepMs ms =>
    refine ⟨by simp, fun j hj => ?_⟩
    simp only [bracket_toTaskTable]
    rw [rtoskTaskBlockCurrentUntil_wakeTick hUser, if_neg hj]
  | _ => exact ⟨by simp, fun j _ => by simp⟩

omit [TaskConfig] in
theorem IsrStep.clock (h : IsrStep s l s' es) :
    (∀ j, (s'.kernel.tasks j).wakeTick = (s.kernel.tasks j).wakeTick) ∧
      s'.kernel.systicks = s.kernel.systicks + UInt32.ofNat (tickLook s l).length := by
  cases h with
  | tick =>
    simp only [rtoskKernelTick]
    split
    · exact ⟨fun _ => rfl, rfl⟩
    · exact ⟨fun _ => by simp, rfl⟩
  | _ => exact ⟨fun _ => by simp, (UInt32.add_zero _).symm⟩

-- ---------------------------------------------------------------------------
-- A sleeping task
-- ---------------------------------------------------------------------------

/-- Task `t` sleeps since tick `T`, for `ms`, and `k` ticks have passed. -/
structure Asleep (t : Nat) (T ms : UInt32) (k : Nat) (s : System) : Prop where
  dispatching  : Dispatching s
  kernelInit   : s.kernel.kernelInit = true
  inPendSv     : s.scan ≠ none → s.kernel.Unmasked
  user         : t < s.kernel.taskCount
  blocked      : (s.kernel.tasks t).state = .blocked
  wakeTick     : (s.kernel.tasks t).wakeTick = T + ms
  systicks     : s.kernel.systicks = T + UInt32.ofNat k
  call         : (s.pc t).call = some (.sleepMs ms)
  unregistered : ∀ o, s.waiter o ≠ t
  current      : s.kernel.currentTask = t → s.scan = none →
    s.kernel.Unmasked ∧ ((s.pc t).isLeaving = true ∨ s.kernel.pendSv = true)

variable {T : UInt32} {k : Nat}

/-- A sleeping task's code does not run, but for the way out of the call. -/
theorem Asleep.not_current (h : Asleep t T ms k s) (hThread : s.Thread)
    (hPc : (s.pc s.kernel.currentTask).isLeaving = false) : s.kernel.currentTask ≠ t := by
  intro ht
  obtain ⟨hUnmasked, hLeaving | hPend⟩ := h.current ht hThread.1
  · rw [← ht, hPc] at hLeaving
    cases hLeaving
  · exact hThread.2.2 ⟨hPend, hUnmasked⟩

theorem Asleep.perform (h : Asleep t T ms k s) (hThread : s.Thread) (hAt : Performs s l c)
    (hCall : CallStep s c s' exit es) :
    Asleep t T ms k (s'.setPc s.kernel.currentTask (exit.pc c)) := by
  obtain ⟨hPcs, hScan, hCur, -⟩ := hCall.frame
  have hOther : s.kernel.currentTask ≠ t := h.not_current hThread hAt.not_leaving
  have hUser : s.kernel.currentTask ≠ rtoskIdleTaskIndex :=
    Nat.ne_of_lt (lt_of_lt_of_le hThread.2.1 h.dispatching.taskCount_le)
  have hStep : StepCase s l (s'.setPc s.kernel.currentTask (exit.pc c)) es :=
    .perform hThread hAt hCall
  obtain ⟨hClock, hWake⟩ := hCall.clock hUser
  have hne := h.dispatching.user_ne_noWaiter h.user
  have hSame : (s'.kernel.tasks t).state = (s.kernel.tasks t).state ∧ ∀ o, s'.waiter o ≠ t := by
    rcases hCall.effect_or_init hUser with ⟨a, hEffect⟩ | ⟨-, hKernel, hClears⟩
    · cases hEffect with
      | quiet _ hState hWaiter => exact ⟨hState t, fun o => hWaiter ▸ h.unregistered o⟩
      | @park _ p _ _ hState hWaiter =>
        refine ⟨(hState t).trans (if_neg (Ne.symm hOther)), ?_⟩
        rw [hWaiter]
        exact (Function.forall_update_iff s.waiter fun _ w => w ≠ t).mpr
          ⟨hOther, fun o _ => h.unregistered o⟩
      | doze hState hWaiter =>
        exact ⟨(hState t).trans (if_neg (Ne.symm hOther)), fun o => hWaiter ▸ h.unregistered o⟩
      | @wake _ p _ _ _ hState hWaiter =>
        refine ⟨(hState t).trans (if_neg fun hEq => h.unregistered p hEq.1.symm), ?_⟩
        rw [hWaiter]
        exact (Function.forall_update_iff s.waiter fun _ w => w ≠ t).mpr
          ⟨Ne.symm hne, fun o _ => h.unregistered o⟩
    · refine ⟨by rw [hKernel], fun o => ?_⟩
      rcases hClears o with hKept | hNone
      · exact hKept ▸ h.unregistered o
      · exact hNone ▸ Ne.symm hne
  refine ⟨h.dispatching.step hStep, hStep.setup.kernelInit.trans h.kernelInit,
    fun hIn => absurd (hScan.trans hThread.1) hIn, hStep.setup.taskCount ▸ h.user,
    hSame.1.trans h.blocked, (hWake t (Ne.symm hOther)).trans h.wakeTick,
    hClock.trans h.systicks, ?_, hSame.2, fun hIs => absurd (hCur.symm.trans hIs) hOther⟩
  show (Function.update s'.pc s.kernel.currentTask (exit.pc c) t).call = _
  rw [Function.update_of_ne (Ne.symm hOther), hPcs]
  exact h.call

/-- A handler leaves a sleeping task alone, but for a tick that finds it due. -/
theorem Asleep.isr (h : Asleep t T ms k s) (hUnmasked : s.kernel.Unmasked)
    (hIsr : IsrStep s l s' es) (hNotDue : l = .tick → ¬ wakeTickReached
      (T + UInt32.ofNat (k + 1)) (T + ms)) :
    Asleep t T ms (k + (tickLook s l).length) s' := by
  obtain ⟨hPcs, hScan, hCur, hPrimask, -⟩ := hIsr.frame
  obtain ⟨hWake, hClock⟩ := hIsr.clock
  have hne := h.dispatching.user_ne_noWaiter h.user
  have hUnmasked' : s'.kernel.Unmasked := by
    unfold Kernel.Unmasked
    rw [hPrimask]
    exact hUnmasked
  have hNext : s.kernel.systicks + 1 = T + UInt32.ofNat (k + 1) := by
    rw [h.systicks, UInt32.ofNat_add, add_assoc]
    rfl
  have hSame : (s'.kernel.tasks t).state = (s.kernel.tasks t).state ∧ ∀ o, s'.waiter o ≠ t := by
    obtain ⟨a, hEffect⟩ := hIsr.effect
    cases hEffect with
    | quiet hState hWaiter => exact ⟨hState t, fun o => hWaiter ▸ h.unregistered o⟩
    | @wake _ p _ _ hState hWaiter =>
      refine ⟨(hState t).trans (if_neg fun hEq => h.unregistered p hEq.1.symm), ?_⟩
      rw [hWaiter]
      exact (Function.forall_update_iff s.waiter fun _ w => w ≠ t).mpr
        ⟨Ne.symm hne, fun o _ => h.unregistered o⟩
    | tick hState hWaiter =>
      refine ⟨(hState t).trans (if_neg fun hDue => ?_), fun o => hWaiter ▸ h.unregistered o⟩
      have hReached := hDue.2.2
      rw [hNext, h.wakeTick] at hReached
      exact hNotDue rfl hReached
  refine ⟨h.dispatching.isr hIsr, hIsr.setup.kernelInit.trans h.kernelInit, fun _ => hUnmasked',
    hIsr.setup.taskCount ▸ h.user, hSame.1.trans h.blocked, (hWake t).trans h.wakeTick, ?_,
    hPcs ▸ h.call, hSame.2, fun hIs hNone => ⟨hUnmasked', ?_⟩⟩
  · rw [hClock, h.systicks, UInt32.ofNat_add, add_assoc]
  · rw [hPcs]
    obtain ⟨-, hGoes⟩ := h.current (hCur ▸ hIs) (hScan ▸ hNone)
    rcases hIsr.pend with hPend | ⟨-, hPend⟩
    · exact Or.inr hPend
    · exact hGoes.imp id hPend.trans

/-- **One step** leaves a sleeping task asleep, but for a tick that finds it
due. -/
theorem Asleep.step (h : Asleep t T ms k s) (hStep : StepCase s l s' es)
    (hNotDue : l = .tick → ¬ wakeTickReached (T + UInt32.ofNat (k + 1)) (T + ms)) :
    Asleep t T ms (k + (tickLook s l).length) s' := by
  have hDispatching := h.dispatching.step hStep
  have hSetup := hStep.setup
  have hUser : t < s'.kernel.taskCount := hSetup.taskCount ▸ h.user
  have hInit : s'.kernel.kernelInit = true := hSetup.kernelInit.trans h.kernelInit
  cases hStep with
  | perform hThread hAt hCall =>
    have hZero : (tickLook s l).length = 0 := by
      rcases hAt with ⟨rfl, -⟩ | ⟨rfl, -, -⟩ <;> rfl
    rw [hZero]
    exact h.perform hThread hAt hCall
  | isr hUnmasked hIsr => exact h.isr hUnmasked hIsr hNotDue
  | @yield d hThread hPc =>
    exact ⟨hDispatching, hInit, h.inPendSv, hUser, h.blocked, h.wakeTick, h.systicks,
      (call_yielded hPc _ t).trans h.call, h.unregistered,
      fun hIs hNone => ⟨(h.current hIs hNone).1, Or.inr rfl⟩⟩
  | @resume d hThread hPc _ =>
    have ht := h.not_current hThread (by rw [hPc]; rfl)
    refine ⟨hDispatching, hInit, h.inPendSv, hUser, h.blocked, h.wakeTick, h.systicks, ?_,
      h.unregistered, fun hIs => absurd hIs ht⟩
    simp only [setPc, Function.update_of_ne (Ne.symm ht)]
    exact h.call
  | pendSvEmpty _ _ _ hBegin =>
    obtain ⟨c, hSome, -⟩ := selectNextBegin_eq h.dispatching.taskCount_pos
    rw [hBegin] at hSome
    cases hSome
  | pendSv _ _ hUnmasked _ =>
    exact ⟨hDispatching, hInit, fun _ => hUnmasked, hUser, h.blocked, h.wakeTick, h.systicks,
      h.call, h.unregistered, fun _ hNone => absurd hNone (Option.some_ne_none _)⟩
  | scan hScan _ =>
    have hUnmasked : s.kernel.Unmasked := h.inPendSv (by rw [hScan]; exact Option.some_ne_none _)
    exact ⟨hDispatching, hInit, fun _ => hUnmasked, hUser, h.blocked, h.wakeTick, h.systicks,
      h.call, h.unregistered, fun _ hNone => absurd hNone (Option.some_ne_none _)⟩
  | @pendSvExit d hScan hDone =>
    have hTasks := (selectNextEnd_keeps d s.kernel.toTaskTable).2.2
    have hTask : (s.kernel.onTable (selectNextEnd d)).tasks t = s.kernel.tasks t := by
      rw [Kernel.onTable_toTaskTable, hTasks]
    refine ⟨hDispatching, hInit, fun hIn => absurd rfl hIn, hUser,
      (congrArg Task.state hTask).trans h.blocked, (congrArg Task.wakeTick hTask).trans h.wakeTick,
      h.systicks, h.call, h.unregistered, fun hIs _ => ?_⟩
    -- PendSV does not return into a sleeping task
    exfalso
    simp only [Kernel.onTable_toTaskTable] at hIs
    rcases h.dispatching.selects hScan hDone with ⟨b, hEnd, hReady, -⟩ | ⟨hEnd, -⟩
    · rw [hEnd] at hIs
      obtain rfl : b = t := hIs
      cases h.blocked.symm.trans hReady.2
    · rw [hEnd] at hIs
      have hLe := h.dispatching.taskCount_le
      have hLt := h.user
      have hEq : rtoskMaxTasks = t := hIs
      omega

-- ---------------------------------------------------------------------------
-- The sleep
-- ---------------------------------------------------------------------------

/-- A sleep of `ms` by task `t` that has just begun lasts exactly as long as
asked: the task is BLOCKED until the tick that is the `max ms 1`-th, and that
one makes it READY. -/
structure SleepsExactly (t : Nat) (ms : UInt32) (s₁ : System) : Prop where
  asleep : ∀ tr s, Runs.Run (Runs.watch System.step tickLook) (fun _ _ => True) s₁ tr s →
    ticks tr < max ms.toNat 1 → (s.kernel.tasks t).state = .blocked
  wakes  : ∀ tr s s' es, Runs.Run (Runs.watch System.step tickLook) (fun _ _ => True) s₁ tr s →
    ticks tr + 1 = max ms.toNat 1 → s.step .tick = some (s', es) →
    (s'.kernel.tasks t).state = .ready

/-- The sleep begins. -/
theorem Orderly.falls_asleep (h : Orderly t s) (hInit : s.kernel.kernelInit = true)
    (hCur : s.kernel.currentTask = t) (hUnmasked : s.kernel.Unmasked)
    (hCall : s.step (.call (.sleepMs ms)) = some (s₁, es)) :
    Asleep t s.kernel.systicks ms 0 s₁ := by
  have hStep := step_cases hCall
  have hDispatching := h.dispatching.step hStep
  have hSetup := hStep.setup
  subst hCur
  have hUser : s.kernel.currentTask ≠ rtoskIdleTaskIndex :=
    Nat.ne_of_lt (lt_of_lt_of_le h.user h.dispatching.taskCount_le)
  have hPc : s.pc s.kernel.currentTask = .user := by
    cases hStep with
    | perform _ hAt _ =>
      rcases hAt with ⟨-, hPc⟩ | ⟨hLabel, -⟩
      · exact hPc
      · cases hLabel
    | isr _ hIsr => cases hIsr
  have hThread : s.Thread := by
    simp only [System.step, hPc] at hCall
    by_contra hNot
    rw [if_neg hNot] at hCall
    cases hCall
  obtain rfl : s₁ = (s.perform (.sleepMs ms)).1 := by
    simp only [System.step, hPc, if_pos hThread, Option.some.injEq] at hCall
    rw [hCall]
  -- it is registered nowhere, being in its own code
  have hNowhere : ∀ o, s.waiter o ≠ s.kernel.currentTask :=
    fun o ho => (h.registered o ho).not_user hPc
  have hOpen := bracket_open (h.maskInv.isOpen hUnmasked)
    (rtoskTaskBlockCurrentUntil (s.kernel.systicks + ms))
  simp only [System.perform, enter, rtoskKernelSleepMs_eq] at hDispatching hSetup ⊢
  refine ⟨hDispatching, hSetup.kernelInit.trans hInit, fun hIn => absurd hThread.1 hIn,
    hSetup.taskCount ▸ h.user, ?_, ?_, ?_, ?_, hNowhere, fun _ _ => ⟨hOpen.unmasked, Or.inl ?_⟩⟩
  · simp [rtoskTaskBlockCurrentUntil_state hUser]
  · simp [rtoskTaskBlockCurrentUntil_wakeTick hUser]
  · simp
  · simp [setPc, Exit.pc, Pc.call]
  · simp [setPc, Exit.pc, Pc.isLeaving]

/-- **The sleeping task, along every run** shorter than the sleep. -/
theorem Asleep.run (hms : ms.toNat ≤ 2 ^ 31 + 1) (h : Asleep t T ms 0 s₁)
    {tr : List (Event ⊕ Unit)}
    (hRun : Runs.Run (Runs.watch System.step tickLook) (fun _ _ => True) s₁ tr s) :
    ticks tr < max ms.toNat 1 → Asleep t T ms (ticks tr) s := by
  refine hRun.induct (fun tr s => ticks tr < max ms.toNat 1 → Asleep t T ms (ticks tr) s)
    (fun _ => h) fun tr s l s' xs ih _ hWatch hLt => ?_
  obtain ⟨es, hStep, rfl⟩ := Runs.watch_eq_some hWatch
  rw [ticks_append, ticks_remarks] at hLt ⊢
  refine (ih (by omega)).step (step_cases hStep) fun hTick hReached => ?_
  subst hTick
  have hNext : ticks tr + 1 < max ms.toNat 1 := hLt
  have := (wakeTickReached_iff_le T hms (by omega) (by omega)).mp hReached
  omega

/-- **Up to `2 ^ 31 + 1` a sleep is exact.** -/
theorem Asleep.exact (hms : ms.toNat ≤ 2 ^ 31 + 1) (h : Asleep t T ms 0 s₁) :
    SleepsExactly t ms s₁ := by
  refine ⟨fun tr s hRun hLt => (h.run hms hRun hLt).blocked, fun tr s s' es hRun hEq hTick => ?_⟩
  have hAsleep := h.run hms hRun (by omega)
  obtain ⟨-, hKernel⟩ : s.kernel.Unmasked ∧ s'.kernel = rtoskKernelTick s.kernel := by
    simp only [System.step] at hTick
    split at hTick
    · rename_i hUnmasked
      cases hTick
      exact ⟨hUnmasked, rfl⟩
    · cases hTick
  have hNow : s.kernel.systicks + 1 = T + UInt32.ofNat (ticks tr + 1) := by
    rw [hAsleep.systicks, UInt32.ofNat_add, add_assoc]
    rfl
  have hDue : t < s.kernel.taskCount ∧ Due (s.kernel.systicks + 1) (s.kernel.tasks t) := by
    refine ⟨hAsleep.user, hAsleep.blocked, ?_⟩
    rw [hNow, hAsleep.wakeTick]
    exact (wakeTickReached_iff_le T hms (by omega) (by omega)).mpr (by omega)
  rw [hKernel]
  simp only [rtoskKernelTick, hAsleep.kernelInit, Bool.true_eq_false, if_false,
    rtoskPortYield_toTaskTable, Kernel.onTable_toTaskTable, rtoskTaskUpdateBlocked_tasks,
    if_pos hDue]

/-- Beyond, the first tick ends it. -/
theorem Asleep.cut_short (hms : 2 ^ 31 + 1 < ms.toNat) (h : Asleep t T ms 0 s₁)
    (hUnmasked : s₁.kernel.Unmasked) : ¬ SleepsExactly t ms s₁ := by
  intro hExact
  have hTick : s₁.step .tick = some ({ s₁ with kernel := rtoskKernelTick s₁.kernel }, []) :=
    if_pos hUnmasked
  have hRun : Runs.Run (Runs.watch System.step tickLook) (fun _ _ => True) s₁
      ([] ++ [Sum.inr ()]) { s₁ with kernel := rtoskKernelTick s₁.kernel } :=
    .next .start trivial (Runs.watch_of_step hTick)
  have hBlocked := hExact.asleep _ _ hRun (by
    show 1 < max ms.toNat 1
    omega)
  have hDue : t < s₁.kernel.taskCount ∧ Due (s₁.kernel.systicks + 1) (s₁.kernel.tasks t) := by
    refine ⟨h.user, h.blocked, ?_⟩
    rw [h.systicks, h.wakeTick]
    simpa using wakeTickReached_first T hms
  simp only [rtoskKernelTick, h.kernelInit, Bool.true_eq_false, if_false,
    rtoskPortYield_toTaskTable, Kernel.onTable_toTaskTable, rtoskTaskUpdateBlocked_tasks,
    if_pos hDue] at hBlocked
  cases hBlocked

/-- **How long a sleep lasts.** In any run of a started system task `t` calls
`rtosk_kernel_sleep_ms(ms)` with interrupts enabled (and has taken semaphores
with interrupts enabled only; other tasks do as they please). Then the sleep
lasts exactly as long as asked, in every run from there, iff `ms` is at most
`2 ^ 31 + 1`. And `rtosk_task_update_blocked` changes no task that is not
asleep or whose deadline is not reached, readies the others, and returns `1`
exactly when it changed a task; the deadline of a sleep in that range is
reached when it is over. -/
theorem sleep_exact_iff {tr : List Event} (hStarted : Started s₀)
    (hRun      : Runs.Run System.step (TakesUnmasked t) s₀ tr s)
    (hCur      : s.kernel.currentTask = t)
    (hUnmasked : s.kernel.Unmasked)
    (hCall     : s.step (.call (.sleepMs ms)) = some (s₁, es)) :
    (SleepsExactly t ms s₁ ↔ ms.toNat ≤ 2 ^ 31 + 1) ∧
      ∀ (currentTick : UInt32) (k : TaskTable),
        (∀ j, ¬ (j < k.taskCount ∧ Due currentTick (k.tasks j)) →
          (rtoskTaskUpdateBlocked currentTick k).1.tasks j = k.tasks j) ∧
        (∀ j < k.taskCount, Due currentTick (k.tasks j) →
          ((rtoskTaskUpdateBlocked currentTick k).1.tasks j).state = .ready) ∧
        (∀ j < k.taskCount, ∀ (T d : UInt32) (n : Nat), (k.tasks j).state = .blocked →
          (k.tasks j).wakeTick = T + d → currentTick = T + UInt32.ofNat n →
          1 ≤ n → n ≤ max d.toNat 1 → d.toNat ≤ 2 ^ 31 + 1 →
          ((rtoskTaskUpdateBlocked currentTick k).1.tasks j).state =
            if n < d.toNat then .blocked else .ready) ∧
        ((rtoskTaskUpdateBlocked currentTick k).2 = 1 ↔
          ∃ j, ((rtoskTaskUpdateBlocked currentTick k).1.tasks j).state ≠ (k.tasks j).state) ∧
        ((rtoskTaskUpdateBlocked currentTick k).2 ≠ 1 →
          (rtoskTaskUpdateBlocked currentTick k).2 = 0) := by
  have hStep := step_cases hCall
  have hThread : s.Thread := by
    cases hStep with
    | perform hThread _ _ => exact hThread
    | isr _ hIsr => cases hIsr
  have ht : t < s₀.kernel.taskCount := by
    have hCount : s.kernel.taskCount = s₀.kernel.taskCount :=
      hRun.induct (fun _ s => s.kernel.taskCount = s₀.kernel.taskCount) rfl
        fun _ _ _ _ _ h _ hs => (step_cases hs).setup.taskCount.trans h
    rw [← hCount, ← hCur]
    exact hThread.2.1
  have hOrderly := orderly_run hStarted ht (fun _ _ h => h) hRun
  have hInit : s.kernel.kernelInit = true :=
    hRun.induct (fun _ s => s.kernel.kernelInit = true) hStarted.kernelInit
      fun _ _ _ _ _ h _ hs => (step_cases hs).setup.kernelInit.trans h
  have hAsleep := hOrderly.falls_asleep hInit hCur hUnmasked hCall
  obtain ⟨hCur₁, hScan₁⟩ := hStep.of_other nofun nofun
  have hUnmasked₁ : s₁.kernel.Unmasked :=
    (hAsleep.current (hCur₁.trans hCur) (hScan₁.mpr hThread.1)).1
  refine ⟨⟨fun hExact => ?_, fun hms => hAsleep.exact hms⟩, fun currentTick k => ?_⟩
  · by_contra hms
    exact hAsleep.cut_short (by omega) hUnmasked₁ hExact
  · exact updateBlocked_spec currentTick k

end

-- ---------------------------------------------------------------------------
-- Two sleeps
-- ---------------------------------------------------------------------------

/-- Two tasks of one priority. -/
def sleepers : System :=
  boot [1, 1] (fun _ => rtoskSemaphoreInit 0)
    (fun _ => ⟨fun _ => 0, 1, 2, 0, 0, 0, rtoskQueueNoWaiter⟩)

theorem sleepers_started : Started sleepers :=
  boot_started (by decide) (fun _ => rfl) fun _ => ⟨rfl, rfl, rfl, rfl⟩

theorem sleep_exact_three :
    ∃ s₁ es, sleepers.step (.call (.sleepMs 3)) = some (s₁, es) ∧ SleepsExactly 0 3 s₁ := by
  obtain ⟨s₁, es, hCall⟩ : ∃ s₁ es, sleepers.step (.call (.sleepMs 3)) = some (s₁, es) :=
    ⟨_, _, rfl⟩
  exact ⟨s₁, es, hCall,
    (sleep_exact_iff sleepers_started .start rfl (by decide) hCall).1.mpr (by decide)⟩

/-- **A long sleep cut short**: the caller asks for `2 ^ 31 + 2` milliseconds
and is READY again after the first tick. -/
theorem sleep_cutShort :
    Started sleepers ∧ sleepers.kernel.currentTask = 0 ∧ ∃ s₁ s₂,
      sleepers.step (.call (.sleepMs 2147483650)) = some (s₁, []) ∧
      (s₁.kernel.tasks 0).state = .blocked ∧
      s₁.step .tick = some (s₂, []) ∧
      (s₂.kernel.tasks 0).state = .ready :=
  ⟨sleepers_started, rfl, _, _, rfl, rfl, rfl, by decide⟩

end System

end TinyRtos
