import TinyRtos.Kernel.Taking
import TinyRtos.Results.Permits
import Mathlib.Algebra.BigOperators.Group.Finset.Piecewise
import Mathlib.Algebra.Order.BigOperators.Group.Finset

/-!
# TinyRTOS — no permit is invented

A take that blocks returns without a second look at the count, so its permit
has to be the one of the give that woke it. The books are kept task by task:
the gives handed to a task, the returns of its blocked takes, and whether it is
on its way back from one (`woken`).

* `handed_over` — per task and semaphore: returns + woken = handed over, along
  every run whose takes are made with interrupts unmasked;
* `no_permit_invented` — summed up over the tasks, with the law of conservation
  of `Permits.lean`: returned takes + count ≤ initial count + gives.
-/

namespace TinyRtos

open Runs (tally tally_append tally_remarks)

/-- A take that returns without blocking. -/
def tookBy (i : Nat) : Event → Nat
  | .took _ j => if j = i then 1 else 0
  | _ => 0

/-- A give that finds task `t` registered. -/
def handedTo (t i : Nat) : Event → Nat
  | .gave j before _ => if j = i ∧ before.waitingTask = t then 1 else 0
  | _ => 0

/-- The return of a blocked take, of task `t`. -/
def resumedBy (t i : Nat) (remark : Nat × Nat) : Nat := if remark = (t, i) then 1 else 0

/-- The return of a take. -/
def returnedBy (i : Nat) : Event ⊕ (Nat × Nat) → Nat :=
  Sum.elim (tookBy i) fun remark => if remark.2 = i then 1 else 0

namespace System

/-- An observer that remarks on the returns of blocked takes: the task and the
semaphore. -/
def returnLook (s : System) : Label → List (Nat × Nat)
  | .resume =>
    match s.pc s.kernel.currentTask with
    | .yielded (.semaphoreTake (some i)) => [(s.kernel.currentTask, i)]
    | _ => []
  | _ => []

instance (s : System) (t i : Nat) : Decidable (Taking s t i) :=
  match hCall : (s.pc t).call with
  | some (.semaphoreTake (some j)) =>
    decidable_of_iff (j = i) (by simp [Taking, hCall])
  | none | some (.semaphoreInit ..) | some (.semaphoreTake none) | some (.semaphoreGive _)
  | some (.mutexInit _) | some (.mutexLock _) | some (.mutexUnlock _) | some (.queueInit ..)
  | some (.queueSend ..) | some (.queueReceive ..) | some (.sleepMs _) | some .yield
  | some .enterCritical | some .exitCritical => .isFalse (by simp [Taking, hCall])

/-- Whether task `t` is on its way back from a blocked take of `i`. -/
def woken (t i : Nat) (s : System) : Nat :=
  if Taking s t i ∧ (s.kernel.tasks t).state = .ready then 1 else 0

variable {s s₀ s' : System} {l : Label} {c : Call} {exit : Exit} {es : List Event} {t i : Nat}

theorem woken_of_same (hCall : (s'.pc t).call = (s.pc t).call)
    (hState : (s'.kernel.tasks t).state = (s.kernel.tasks t).state) :
    woken t i s' = woken t i s := by
  have hTaking : Taking s' t i ↔ Taking s t i := by
    unfold Taking
    rw [hCall]
  simp only [woken, hTaking, hState]

theorem woken_eq_zero (hNot : (s.kernel.tasks t).state ≠ .ready) : woken t i s = 0 :=
  if_neg fun h => hNot h.2

theorem woken_of_elsewhere (hNot : ∀ j, ¬ Taking s t j) : woken t i s = 0 :=
  if_neg fun h => hNot i h.1

/-- Who is blocked on a semaphore is inside a take of it. -/
theorem BlockedOn.taking {j : Nat} (h : BlockedOn s t (.semaphore j)) : Taking s t j := by
  obtain ⟨-, c, hc, hWaits⟩ := h
  unfold Taking
  rw [hc]
  match c with
  | .semaphoreTake (some k) =>
    injection Option.some.inj hWaits with hEq
    rw [hEq]
  | .queueReceive (some _) (some _) | .mutexLock (some _) => cases hWaits

theorem BlockedOn.eq_of_taking {o : Obj} (h : BlockedOn s t o) (hTaking : Taking s t i) :
    o = .semaphore i := by
  obtain ⟨-, c, hc, hWaits⟩ := h
  unfold Taking at hTaking
  rw [hTaking, Option.some.injEq] at hc
  subst hc
  exact (Option.some.inj hWaits).symm

section

variable [TaskConfig]

/-- Waking the waiter of `o` puts task `t` on its way back if it is that
waiter, and `o` the semaphore. -/
theorem Orderly.woken_wake (h : Orderly t s) {o : Obj} (hCall : (s'.pc t).call = (s.pc t).call)
    (hState : (s'.kernel.tasks t).state =
      if t = s.waiter o ∧ s.waiter o < s.kernel.taskCount then .ready
      else (s.kernel.tasks t).state) :
    woken t i s' = woken t i s + if o = .semaphore i ∧ s.waiter o = t then 1 else 0 := by
  by_cases ht : s.waiter o = t
  · have hOn := h.registered o ht
    have hUser := h.user
    rw [if_pos ⟨ht.symm, ht.symm ▸ hUser⟩] at hState
    have hBefore : woken t i s = 0 := woken_eq_zero (by rw [hOn.1]; exact o.blockedState_ne_ready)
    rw [hBefore, Nat.zero_add]
    have hTaking : Taking s' t i ↔ o = .semaphore i := by
      unfold Taking
      rw [hCall]
      refine ⟨hOn.eq_of_taking, ?_⟩
      rintro rfl
      exact hOn.taking
    unfold woken
    simp only [hTaking, hState, ht, and_true]
  · rw [if_neg fun hEq => ht hEq.1.symm] at hState
    rw [woken_of_same hCall hState, if_neg fun hEq => ht hEq.2]
    rfl

/-- An empty slot does not name a task. -/
theorem Orderly.not_waiting (h : Orderly t s) {j : Nat}
    (hNone : ¬ (s.sems j).waitingTask ≠ rtoskSemaphoreNoWaiter) :
    ¬ (s.sems j).waitingTask = t := by
  intro hEq
  exact h.ne_noWaiter (hEq.symm.trans (not_not.mp hNone))

/-- Another task's call. -/
theorem Orderly.call_handed (h : Orderly t s) (hUser : s.kernel.currentTask ≠ rtoskIdleTaskIndex)
    (ht : t ≠ s.kernel.currentTask) (hCall : CallStep s c s' exit es) :
    woken t i (s'.setPc s.kernel.currentTask (exit.pc c)) =
      woken t i s + tally (handedTo t i) es := by
  have hPc : ((s'.setPc s.kernel.currentTask (exit.pc c)).pc t).call = (s.pc t).call := by
    rw [← hCall.frame.1]
    exact congrArg Pc.call (Function.update_of_ne ht _ _)
  cases hCall with
  | giveWake j hWaiter =>
    have hWoken := h.woken_wake (i := i) (o := .semaphore j) hPc
      (by rw [setPc_kernel, setSemaphore_kernel, bracket_toTaskTable, rtoskTaskSetReady_state]; rfl)
    rw [hWoken]
    simp [tally, handedTo, waiter]
  | giveStore j hNone =>
    have hWoken := woken_of_same (i := i) hPc (by simp)
    rw [hWoken]
    simp [tally, handedTo, h.not_waiting hNone]
  | unlockWake m hOwn hWaiter =>
    have hWoken := h.woken_wake (i := i) (o := .mutex m) hPc
      (by rw [setPc_kernel, setMutex_kernel, bracket_toTaskTable, rtoskTaskSetReady_state]; rfl)
    rw [hWoken]
    simp [tally, handedTo]
  | sendWake q item hRoom hWaiter =>
    have hWoken := h.woken_wake (i := i) (o := .queue q) hPc
      (by rw [setPc_kernel, setQueue_kernel, bracket_toTaskTable, rtoskTaskSetReady_state]; rfl)
    rw [hWoken]
    simp [tally, handedTo]
  | takeBlock | lockBlock | receiveBlock =>
    have hWoken := woken_of_same (i := i) hPc (by simp [TaskTable.setState_state, ht])
    rw [hWoken]
    simp [tally, handedTo]
  | sleepMs ms =>
    have hWoken := woken_of_same (i := i) hPc
      (by simp [rtoskTaskBlockCurrentUntil_state hUser, ht])
    rw [hWoken]
    simp [tally]
  | _ =>
    have hWoken := woken_of_same (i := i) hPc (by simp)
    rw [hWoken]
    simp [tally, handedTo]

/-- A handler. -/
theorem Orderly.isr_handed (h : Orderly t s) (hIsr : IsrStep s l s' es) :
    woken t i s' = woken t i s + tally (handedTo t i) es := by
  have hPc : (s'.pc t).call = (s.pc t).call := by rw [hIsr.frame.1]
  cases hIsr with
  | giveWake j hWaiter =>
    have hWoken := h.woken_wake (i := i) (o := .semaphore j) hPc (setReady_waiter rfl t)
    rw [hWoken]
    simp [tally, handedTo, waiter]
  | giveStore j hNone =>
    have hWoken := woken_of_same (i := i) hPc rfl
    rw [hWoken]
    simp [tally, handedTo, h.not_waiting hNone]
  | sendWake q item hRoom hWaiter =>
    have hWoken := h.woken_wake (i := i) (o := .queue q) hPc (setReady_waiter rfl t)
    rw [hWoken]
    simp [tally, handedTo]
  | tick =>
    -- the tick wakes sleepers only
    by_cases hTaking : Taking s t i
    · refine (woken_of_same hPc ?_).trans (Nat.add_zero _).symm
      simp only [rtoskKernelTick]
      split
      · rfl
      · simp only [rtoskPortYield_toTaskTable, Kernel.onTable_toTaskTable,
          rtoskTaskUpdateBlocked_tasks]
        split
        · rename_i hDue
          rcases h.taking i hTaking with hReady | hBlocked
          · exact hReady.symm
          · cases hDue.2.1.symm.trans hBlocked
        · rfl
    · have hTaking' : ¬ Taking { s with kernel := rtoskKernelTick s.kernel } t i := hTaking
      unfold woken
      rw [if_neg fun hOn => hTaking hOn.1, if_neg fun hOn => hTaking' hOn.1]
      rfl
  | _ =>
    have hWoken := woken_of_same (i := i) hPc rfl
    rw [hWoken]
    simp [tally, handedTo]

/-- Its own calls leave a task's account alone: it is not on its way back when
it makes one, nor registered, nor READY inside a take afterwards. -/
theorem Orderly.own_call_handed (h : Orderly t s) (hTakes : TakesUnmasked t s l)
    (ht : s.kernel.currentTask = t) (hAt : Performs s l c) (hCall : CallStep s c s' exit es) :
    woken t i (s'.setPc s.kernel.currentTask (exit.pc c)) =
      woken t i s + tally (handedTo t i) es := by
  have hAfter : woken t i (s'.setPc s.kernel.currentTask (exit.pc c)) = 0 := by
    by_cases hTaking : Taking (s'.setPc s.kernel.currentTask (exit.pc c)) t i
    · refine woken_eq_zero ?_
      rw [setPc_kernel, (h.taking_perform hTakes ht hAt hCall hTaking).1]
      nofun
    · exact if_neg fun hOn => hTaking hOn.1
  have hBefore : woken t i s = 0 := by
    refine woken_of_elsewhere fun j hTaking => ?_
    unfold Taking at hTaking
    subst ht
    rcases hAt with ⟨-, hPc⟩ | ⟨-, hPc, hRetries⟩
    · rw [hPc] at hTaking
      cases hTaking
    · rw [hPc] at hTaking
      obtain rfl := Option.some.inj hTaking
      cases hRetries
  have hHanded : tally (handedTo t i) es = 0 := by
    cases hCall with
    | giveWake j hWaiter =>
      have hNot : ¬ (s.sems j).waitingTask = t := by
        intro hEq
        have hOn := h.registered (.semaphore j) hEq
        subst ht
        rcases hAt with ⟨-, hPc⟩ | ⟨-, -, hRetries⟩
        · exact hOn.not_user hPc
        · cases hRetries
      simp [tally, handedTo, hNot]
    | giveStore j hNone =>
      simp [tally, handedTo, h.not_waiting hNone]
    | _ => simp [tally, handedTo]
  rw [hAfter, hBefore, hHanded]

omit [TaskConfig] in
/-- Only the way out of a take is remarked on. -/
theorem Performs.returnLook (h : Performs s l c) : returnLook s l = [] := by
  rcases h with ⟨rfl, -⟩ | ⟨rfl, hPc, hRetries⟩
  · rfl
  · simp only [System.returnLook, hPc]
    cases c <;> first | rfl | cases hRetries

omit [TaskConfig] in
theorem IsrStep.returnLook (h : IsrStep s l s' es) : returnLook s l = [] := by
  cases h <;> rfl

/-- **One step of a task's account.** -/
theorem Orderly.handed_step (h : Orderly t s) (hTakes : TakesUnmasked t s l)
    (hStep : StepCase s l s' es) :
    tally (resumedBy t i) (returnLook s l) + woken t i s' =
      woken t i s + tally (handedTo t i) es := by
  cases hStep with
  | perform hThread hAt hCall =>
    have hUser : s.kernel.currentTask ≠ rtoskIdleTaskIndex :=
      Nat.ne_of_lt (lt_of_lt_of_le hThread.2.1 h.dispatching.taskCount_le)
    rw [hAt.returnLook, Runs.tally_nil, Nat.zero_add]
    by_cases ht : s.kernel.currentTask = t
    · exact h.own_call_handed hTakes ht hAt hCall
    · exact h.call_handed hUser (Ne.symm ht) hCall
  | isr _ hIsr =>
    rw [hIsr.returnLook, Runs.tally_nil, Nat.zero_add]
    exact h.isr_handed hIsr
  | @yield d hThread hPc =>
    have hSame : woken t i ({ s with kernel := rtoskKernelYield s.kernel }.setPc
        s.kernel.currentTask (.yielded d)) = woken t i s :=
      woken_of_same (call_yielded hPc _ t) rfl
    rw [hSame]
    exact Nat.add_comm 0 _
  | @resume d hThread hPc hOnce =>
    by_cases ht : s.kernel.currentTask = t
    · subst ht
      have hAfter : woken s.kernel.currentTask i (s.setPc s.kernel.currentTask .user) = 0 := by
        refine woken_of_elsewhere fun j hTaking => ?_
        unfold Taking at hTaking
        simp only [setPc, Function.update_self] at hTaking
        cases hTaking
      rw [hAfter, Nat.add_zero, Runs.tally_nil, Nat.add_zero]
      by_cases hTake : ∃ j, d = .semaphoreTake (some j)
      · -- the return of a blocked take
        obtain ⟨j, rfl⟩ := hTake
        have hTaking : Taking s s.kernel.currentTask j := congrArg Pc.call hPc
        have hReady := h.ready_of_taking hThread rfl hTaking (by rw [hPc]; rfl)
        have hLook : System.returnLook s .resume = [(s.kernel.currentTask, j)] := by
          simp only [System.returnLook, hPc]
        have hIff : Taking s s.kernel.currentTask i ↔ j = i := by
          unfold Taking at hTaking ⊢
          rw [hTaking]
          simp
        rw [hLook]
        simp only [tally, resumedBy, woken, hIff, hReady, and_true, List.map_cons, List.map_nil,
          List.sum_cons, List.sum_nil, Nat.add_zero, Prod.mk.injEq, true_and]
      · have hLook : System.returnLook s .resume = [] := by
          simp only [System.returnLook, hPc]
          split
          · rename_i j hEq
            exact absurd ⟨j, Pc.yielded.inj hEq⟩ hTake
          · rfl
        have hBefore : woken s.kernel.currentTask i s = 0 := by
          refine woken_of_elsewhere fun j hTaking => hTake ⟨j, ?_⟩
          unfold Taking at hTaking
          rw [hPc] at hTaking
          exact Option.some.inj hTaking
        rw [hLook, hBefore, Runs.tally_nil]
    · have hSame : woken t i (s.setPc s.kernel.currentTask .user) = woken t i s :=
        woken_of_same (congrArg Pc.call (Function.update_of_ne (Ne.symm ht) _ _)) rfl
      have hOther : tally (resumedBy t i) (System.returnLook s .resume) = 0 := by
        refine Runs.tally_eq_zero fun remark hMem => ?_
        simp only [System.returnLook] at hMem
        split at hMem
        · obtain rfl := List.mem_singleton.mp hMem
          exact if_neg fun hEq => ht (congrArg Prod.fst hEq)
        · cases hMem
      rw [hSame, hOther]
      exact Nat.add_comm 0 _
  | pendSvEmpty | pendSv | scan => exact Nat.add_comm 0 _
  | @pendSvExit d _ _ =>
    have hSame : woken t i { s with kernel := s.kernel.onTable (selectNextEnd d), scan := none } =
        woken t i s := by
      refine woken_of_same rfl ?_
      rw [Kernel.onTable_toTaskTable, (selectNextEnd_keeps d s.kernel.toTaskTable).2.2]
    rw [hSame]
    exact Nat.add_comm 0 _

/-- Takes are made with interrupts unmasked, and semaphore `i` is not
initialised again. -/
def Takes (i : Nat) (s : System) (l : Label) : Prop :=
  l.initialises ≠ some (.semaphore i) ∧ (l.takes = true → s.kernel.Unmasked)

omit [TaskConfig] in
instance (i : Nat) (s : System) (l : Label) : Decidable (Takes i s l) :=
  inferInstanceAs (Decidable (_ ∧ (_ → _)))

/-- **Every return of a blocked take is handed over by a give** on the same
semaphore: along every run, task by task. -/
theorem handed_over {tr : List (Event ⊕ (Nat × Nat))} (hStarted : Started s₀)
    (ht : t < s₀.kernel.taskCount)
    (hRun : Runs.Run (Runs.watch System.step returnLook) (Takes i) s₀ tr s) :
    Orderly t s ∧ tally (Sum.elim (fun _ => 0) (resumedBy t i)) tr + woken t i s =
      tally (Sum.elim (handedTo t i) fun _ => 0) tr := by
  refine hRun.induct (fun tr s => Orderly t s ∧
    tally (Sum.elim (fun _ => 0) (resumedBy t i)) tr + woken t i s =
      tally (Sum.elim (handedTo t i) fun _ => 0) tr) ⟨hStarted.orderly ht, ?_⟩
    fun tr s l s' xs ⟨hOrderly, hBooks⟩ hG hWatch => ?_
  · refine (Nat.zero_add _).trans (woken_of_elsewhere fun j hTaking => ?_)
    unfold Taking at hTaking
    rw [hStarted.user t] at hTaking
    cases hTaking
  · obtain ⟨es, hStep, rfl⟩ := Runs.watch_eq_some hWatch
    have hTakes : TakesUnmasked t s l := fun hl _ => hG.2 hl
    have hCase := step_cases hStep
    refine ⟨hOrderly.step hTakes hCase, ?_⟩
    have hOne := hOrderly.handed_step (i := i) hTakes hCase
    rw [tally_append _ tr, tally_append _ tr, tally_remarks, tally_remarks]
    have hEvents : tally (fun _ : Event => 0) es = 0 := Runs.tally_eq_zero fun _ _ => rfl
    have hLooks : tally (fun _ : Nat × Nat => 0) (returnLook s l) = 0 :=
      Runs.tally_eq_zero fun _ _ => rfl
    omega

-- ---------------------------------------------------------------------------
-- All tasks together
-- ---------------------------------------------------------------------------

/-- Remarks are about user tasks. -/
theorem StepCase.returnLook_lt (h : StepCase s l s' es) :
    ∀ remark ∈ returnLook s l, remark.1 < s.kernel.taskCount := by
  intro remark hMem
  cases h with
  | perform _ hAt _ =>
    rw [hAt.returnLook] at hMem
    cases hMem
  | isr _ hIsr =>
    rw [hIsr.returnLook] at hMem
    cases hMem
  | resume hThread _ _ =>
    simp only [System.returnLook] at hMem
    split at hMem
    · obtain rfl := List.mem_singleton.mp hMem
      exact hThread.2.1
    · cases hMem
  | _ => cases hMem

theorem remarks_lt {G : System → Label → Prop} {tr : List (Event ⊕ (Nat × Nat))}
    (hRun : Runs.Run (Runs.watch System.step returnLook) G s₀ tr s) :
    s.kernel.taskCount = s₀.kernel.taskCount ∧
      ∀ remark, Sum.inr remark ∈ tr → remark.1 < s₀.kernel.taskCount := by
  refine hRun.induct (fun tr s => s.kernel.taskCount = s₀.kernel.taskCount ∧
    ∀ remark, Sum.inr remark ∈ tr → remark.1 < s₀.kernel.taskCount) ⟨rfl, nofun⟩
    fun tr s l s' xs ⟨hCount, hOld⟩ _ hWatch => ?_
  obtain ⟨es, hStep, rfl⟩ := Runs.watch_eq_some hWatch
  have hCase := step_cases hStep
  refine ⟨hCase.setup.taskCount.trans hCount, fun remark hMem => ?_⟩
  rcases List.mem_append.mp hMem with hMem | hMem
  · exact hOld remark hMem
  · rcases List.mem_append.mp hMem with hMem | hMem
    · obtain ⟨e, -, hEq⟩ := List.mem_map.mp hMem
      cases hEq
    · obtain ⟨r, hr, hEq⟩ := List.mem_map.mp hMem
      obtain rfl := Sum.inr.inj hEq
      exact hCount ▸ hCase.returnLook_lt r hr

omit [TaskConfig] in
/-- The returns of blocked takes are those of the tasks. -/
theorem resumed_le_sum {n : Nat} {tr : List (Event ⊕ (Nat × Nat))}
    (hLt : ∀ remark, Sum.inr remark ∈ tr → remark.1 < n) :
    tally (Sum.elim (fun _ => 0) fun remark => if remark.2 = i then 1 else 0) tr ≤
      ∑ t ∈ Finset.range n, tally (Sum.elim (fun _ => 0) (resumedBy t i)) tr := by
  rw [← Runs.tally_sum]
  refine Runs.tally_mono fun x hx => ?_
  cases x with
  | inl e => exact Nat.zero_le _
  | inr remark =>
    obtain ⟨u, j⟩ := remark
    have hu : u ∈ Finset.range n := Finset.mem_range.mpr (hLt _ hx)
    by_cases hji : j = i
    · subst hji
      have hOne : resumedBy u j (u, j) = 1 := if_pos rfl
      have hSingle : resumedBy u j (u, j) ≤ ∑ t ∈ Finset.range n, resumedBy t j (u, j) :=
        Finset.single_le_sum (f := fun t => resumedBy t j (u, j)) (fun _ _ => Nat.zero_le _) hu
      simp only [Sum.elim_inr, if_true]
      omega
    · simp [hji]

omit [TaskConfig] in
/-- A take that does not block and a give handed to a task are satisfied takes. -/
theorem satisfied_ge {n : Nat} (hn : n ≤ noWaiter) (e : Event) :
    tookBy i e + ∑ t ∈ Finset.range n, handedTo t i e ≤ satisfiedBy i e := by
  cases e with
  | took t j => simp [tookBy, handedTo, satisfiedBy]
  | gave j before after =>
    simp only [tookBy, Nat.zero_add, handedTo, satisfiedBy]
    by_cases hji : j = i
    · simp only [hji, true_and]
      rw [Finset.sum_ite_eq]
      split
      · rename_i hMem
        have hLt := Finset.mem_range.mp hMem
        rw [if_pos]
        intro hNone
        have hEq : before.waitingTask = noWaiter := hNone
        omega
      · exact Nat.zero_le _
    · simp [hji]
  | _ => simp [tookBy, handedTo]

/-- **No permit is invented.** For every initial count, in every run of a
started system whose takes are made with interrupts unmasked: the takes of the
semaphore that have returned, plus its count, are at most the initial count
plus the gives performed on it. And each task's blocked takes of it return one
by one as gives find that task registered: those returned, plus one if the task
is on its way back, are exactly the gives handed to it. -/
theorem no_permit_invented {n : UInt32} {tr : List (Event ⊕ (Nat × Nat))}
    (hStarted : Started s₀)
    (hInit    : s₀.sems i = rtoskSemaphoreInit n)
    (hRun     : Runs.Run (Runs.watch System.step returnLook) (Takes i) s₀ tr s) :
    tally (returnedBy i) tr + (s.sems i).count.toNat ≤
      n.toNat + tally (Sum.elim (gaveBy i) fun _ => 0) tr ∧
    ∀ t < s₀.kernel.taskCount,
      tally (Sum.elim (fun _ => 0) (resumedBy t i)) tr + woken t i s =
        tally (Sum.elim (handedTo t i) fun _ => 0) tr := by
  have hHanded : ∀ t < s₀.kernel.taskCount, _ := fun t ht => (handed_over hStarted ht hRun).2
  refine ⟨?_, hHanded⟩
  -- the law of conservation, for the events of the watched run
  have hBooks := permits_conserved (i := i) (hRun.unwatch.weaken fun _ _ hG => hG.1)
  unfold Balanced at hBooks
  rw [Runs.tally_unwatch, Runs.tally_unwatch, Runs.tally_unwatch, hInit] at hBooks
  simp only [rtoskSemaphoreInit] at hBooks
  have hReturned : tally (returnedBy i) tr = tally (Sum.elim (tookBy i) fun _ => 0) tr +
      tally (Sum.elim (fun _ => 0) fun remark => if remark.2 = i then 1 else 0) tr := by
    rw [← Runs.tally_add]
    congr 1
    funext x
    cases x <;> simp [returnedBy]
  have hResumed := resumed_le_sum (i := i) (remarks_lt hRun).2
  have hSum : ∑ t ∈ Finset.range s₀.kernel.taskCount,
        tally (Sum.elim (fun _ => 0) (resumedBy t i)) tr ≤
      ∑ t ∈ Finset.range s₀.kernel.taskCount,
        tally (Sum.elim (handedTo t i) fun _ => 0) tr := by
    refine Finset.sum_le_sum fun t ht => ?_
    have hOne := hHanded t (Finset.mem_range.mp ht)
    omega
  have hSatisfied : tally (Sum.elim (tookBy i) fun _ => 0) tr +
        ∑ t ∈ Finset.range s₀.kernel.taskCount, tally (Sum.elim (handedTo t i) fun _ => 0) tr ≤
      tally (Sum.elim (satisfiedBy i) fun _ => 0) tr := by
    rw [← Runs.tally_sum, ← Runs.tally_add]
    refine Runs.tally_mono fun x _ => ?_
    cases x with
    | inl e =>
      have hBound := TaskConfig.two_mul_maxTasks_lt
      have hLe : s₀.kernel.taskCount ≤ TaskConfig.maxTasks := hStarted.taskCount_le
      exact satisfied_ge (by unfold noWaiter; omega) e
    | inr _ => simp
  omega

end

-- ---------------------------------------------------------------------------
-- A run
-- ---------------------------------------------------------------------------

/-- Two tasks, and semaphores initialised with one permit. -/
def onePermit : System :=
  boot [1, 1] (fun _ => rtoskSemaphoreInit 1)
    (fun _ => ⟨fun _ => 0, 1, 2, 0, 0, 0, rtoskQueueNoWaiter⟩)

theorem onePermit_started : Started onePermit :=
  boot_started (by decide) (fun _ => rfl) fun _ => ⟨rfl, rfl, rfl, rfl⟩

/-- Task `0` takes the permit and blocks on the next take; a give from a
handler brings it back while task `1` runs. -/
def takeLabels : List Label :=
  [.call (.semaphoreTake (some 0)), .call (.semaphoreTake (some 0)), .yield, .pendSv, .scan, .scan,
    .pendSvExit, .semaphoreGiveFromIsr (some 0), .pendSv, .scan, .scan, .pendSvExit,
    .call (.sleepMs 1), .yield, .pendSv, .scan, .scan, .pendSvExit, .resume]

theorem no_permit_invented_onePermit :
    ∃ tr s, Runs.Run (Runs.watch System.step returnLook) (Takes 0) onePermit tr s ∧
      tally (returnedBy 0) tr = 2 ∧
      tally (returnedBy 0) tr + (s.sems 0).count.toNat ≤
        1 + tally (Sum.elim (gaveBy 0) fun _ => 0) tr := by
  obtain ⟨tr, s, hRun, hTwo⟩ :=
    Runs.exists_run_of_exec (Runs.watch System.step returnLook) (Takes 0) onePermit takeLabels
      (fun tr _ => tally (returnedBy 0) tr = 2) (by decide +kernel)
  exact ⟨tr, s, hRun, hTwo, (no_permit_invented onePermit_started rfl hRun).1⟩

end System

end TinyRtos
