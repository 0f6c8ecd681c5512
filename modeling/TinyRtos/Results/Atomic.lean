import TinyRtos.Kernel.Stepwise
import TinyRtos.Results.Critical
import TinyRtos.Results.Exclusion

/-!
# TinyRTOS — critical sections are atomic

`System.step` makes the critical section of a call in one step. The statements of
all tasks' calls, with handlers, PendSV and each other in between wherever the
hardware lets them, do nothing else: what a task reads before it masks is still
so when it masks (`Settled`), and from there to the end of the section nothing
else can happen (`alone_section`, `alone_exit`).

## Results

* `Settled.step` — a statement outside, with what is left of the section it
  begins, is a step of `System.step` or changes nothing there.
* `stepwise_atomic` — the two levels have the same runs.
-/

namespace TinyRtos

open Critical (IsBit)

-- ---------------------------------------------------------------------------
-- The masking of the system
-- ---------------------------------------------------------------------------

/-- What the events of a critical section are about. -/
theorem Call.events_congr {c : Call} {exit : Exit} {s₁ s₂ s₁' s₂' : System}
    (hCur : s₂.kernel.currentTask = s₁.kernel.currentTask) (hSems : s₂.sems = s₁.sems)
    (hQueues : s₂.queues = s₁.queues) (hSems' : s₂'.sems = s₁'.sems) :
    c.events s₂ s₂' exit = c.events s₁ s₁' exit := by
  simp only [Call.events, hCur, hSems, hQueues, hSems']

namespace System

variable {s s' : System} {c : Call} {l : Label} {exit : Exit} {es : List Event}

/-- PRIMASK is one bit, clear while the scheduler runs, and clear only outside of
critical sections. -/
structure Masks (s : System) : Prop where
  maskInv  : s.kernel.MaskInv
  isBit    : IsBit s.kernel.primask
  scanning : s.scan ≠ none → s.kernel.primask = 0

theorem exitCritical_isBit {k : Kernel} (h : IsBit k.primask) :
    IsBit (rtoskKernelExitCritical k).primask := by
  rw [exitCritical_statements]
  split
  · exact h
  · split
    · unfold rtoskPortIrqRestore
      split
      · exact Or.inl rfl
      · exact h
    · exact h

theorem Masks.clear (h : Masks s) (hUnmasked : s.kernel.Unmasked) : s.kernel.primask = 0 := by
  refine h.isBit.resolve_right fun hOne => ?_
  unfold Kernel.Unmasked at hUnmasked
  rw [hOne] at hUnmasked
  exact absurd hUnmasked (by decide)

/-- The PRIMASK a task reads when it gets the processor back: nobody can leave it
set. -/
def primaskOf (t : Nat) (s : System) : UInt32 :=
  if t = s.kernel.currentTask then s.kernel.primask else 0

variable [TaskConfig]

/-- What a call's critical section does is in its events. -/
theorem CallStep.events (h : CallStep s c s' exit es) : es = c.events s s' exit := by
  cases h with
  | null c hNull =>
    match c with
    | .semaphoreInit none _ | .semaphoreTake none | .semaphoreGive none | .mutexInit none
    | .mutexLock none | .mutexUnlock none | .queueInit none _ _ _ | .queueSend none _
    | .queueSend (some _) none | .queueReceive none _ | .queueReceive (some _) none => rfl
  | giveWake i | giveStore i => simp [Call.events, setSemaphore]
  | sendFull q item hFull => simp [Call.events, hFull]
  | sendWake q item hRoom | sendNone q item hRoom => simp [Call.events, hRoom]
  | receiveNow q item hSome => simp [Call.events, hSome]
  | receiveBlock q item hEmpty => simp [Call.events, hEmpty]
  | _ => rfl

theorem Started.masks (h : Started s) (hBit : IsBit s.kernel.primask) : Masks s :=
  ⟨fun _ => h.isOpen.nesting, hBit, fun hNot => absurd h.scan hNot⟩

theorem CallStep.isBit (h : CallStep s c s' exit es) (hBit : IsBit s.kernel.primask) :
    IsBit s'.kernel.primask := by
  have hBracket (f : TaskTable → TaskTable) : IsBit (s.kernel.bracket f).primask :=
    exitCritical_isBit (Or.inr (enterCritical_primask _))
  cases h with
  | null | semaphoreInit | mutexInit | queueInit | yield => exact hBit
  | enterCritical => exact Or.inr (enterCritical_primask _)
  | exitCritical => exact exitCritical_isBit hBit
  | _ => exact hBracket _

theorem Masks.step (h : Masks s) (hStep : StepCase s l s' es) : Masks s' := by
  cases hStep with
  | perform hThread _ hCall =>
    refine ⟨hCall.maskInv h.maskInv, hCall.isBit h.isBit, fun hNot => absurd ?_ hNot⟩
    rw [setPc_scan, hCall.frame.2.1]
    exact hThread.1
  | isr hUnmasked hIsr =>
    obtain ⟨-, -, -, hPrimask, hNesting⟩ := hIsr.frame
    refine ⟨fun _ => ?_, ?_, fun _ => ?_⟩
    · rw [hNesting]
      exact h.maskInv hUnmasked
    · rw [hPrimask]
      exact h.isBit
    · rw [hPrimask]
      exact h.clear hUnmasked
  | yield | resume => exact ⟨h.maskInv, h.isBit, h.scanning⟩
  | pendSvEmpty _ _ hUnmasked _ | pendSv _ _ hUnmasked _ =>
    exact ⟨h.maskInv, h.isBit, fun _ => h.clear hUnmasked⟩
  | scan hScan =>
    exact ⟨h.maskInv, h.isBit, fun _ => h.scanning (hScan ▸ Option.some_ne_none _)⟩
  | pendSvExit => exact ⟨h.maskInv, h.isBit, fun hNot => absurd rfl hNot⟩

/-- A step leaves a task where it is, and with the PRIMASK it has read, unless it
is the task's own. -/
theorem StepCase.parked (h : StepCase s l s' es) (hMasks : Masks s) {t : Nat}
    (ht : l.actor = .thread → t ≠ s.kernel.currentTask) :
    s'.pc t = s.pc t ∧ primaskOf t s' = primaskOf t s := by
  have hOther {u : System} (hCur : u.kernel.currentTask = s.kernel.currentTask)
      (hNot : t ≠ s.kernel.currentTask) : primaskOf t u = primaskOf t s := by
    unfold primaskOf
    rw [hCur, if_neg hNot, if_neg hNot]
  cases h with
  | perform _ hAt hCall =>
    obtain ⟨hPcs, -, hCur, -⟩ := hCall.frame
    have hNot := ht (by rcases hAt with ⟨rfl, -⟩ | ⟨rfl, -⟩ <;> rfl)
    refine ⟨?_, hOther hCur hNot⟩
    rw [← hPcs]
    exact Function.update_of_ne hNot _ _
  | yield _ hPc | resume _ hPc _ =>
    exact ⟨Function.update_of_ne (ht rfl) _ _, hOther rfl (ht rfl)⟩
  | isr _ hIsr =>
    obtain ⟨hPcs, -, hCur, hPrimask, -⟩ := hIsr.frame
    unfold primaskOf
    rw [hPcs, hCur, hPrimask]
    exact ⟨rfl, rfl⟩
  | pendSvEmpty | pendSv | scan => exact ⟨rfl, rfl⟩
  | pendSvExit hScan =>
    have hClear := hMasks.scanning (hScan ▸ Option.some_ne_none _)
    refine ⟨rfl, ?_⟩
    unfold primaskOf
    simp [hClear]

end System

namespace Stepwise

variable {G : TinyRtos.Label → Prop} {f f' : Stepwise} {t : Nat} {c : Call} {stmt : Stmt}
  {exit : Exit} {s : System} {tr : List Event}

-- ---------------------------------------------------------------------------
-- Before a call does anything
-- ---------------------------------------------------------------------------

/-- The statements before a call does anything. -/
inductive Begun : Call → Stmt → Prop
  | getPrimask {c : Call} (hEnters : (Api.call c).hasSection = true ∨ c = .enterCritical) :
      Begun c (.entering .getPrimask)
  | disableIrq {c : Call} (primask : UInt32)
      (hEnters : (Api.call c).hasSection = true ∨ c = .enterCritical) :
      Begun c (.entering (.disableIrq primask))
  | test : Begun .exitCritical (.exiting .test .returns)

theorem Begun.first (h : c.bracketed = true) : Begun c c.first := by
  cases c with
  | exitCritical => exact .test
  | enterCritical => exact .getPrimask (Or.inr rfl)
  | _ => exact .getPrimask (Or.inl (by simpa [Call.bracketed, Call.isCritical] using h))

theorem Begun.outside (h : Begun c stmt) : stmt.inside c = false := by
  cases h <;> rfl

/-- A task that is at `stmt` of `c` has done nothing yet, was where it could begin
`c`, and has read PRIMASK as it is when it goes on. -/
structure Waits (G : TinyRtos.Label → Prop) (t : Nat) (c : Call) (stmt : Stmt) (s : System) :
    Prop where
  begun : Begun c stmt
  label : ∃ l, G l ∧
    (l = .call c ∧ s.pc t = .user ∨ l = .resume ∧ s.pc t = .yielded c ∧ c.retries = true)
  read  : ∀ primask, stmt = .entering (.disableIrq primask) → primask = s.primaskOf t

/-- Nobody is in a critical section. -/
def Settled (G : TinyRtos.Label → Prop) (f : Stepwise) : Prop :=
  ∀ t c stmt, f.stmt t = some (c, stmt) → Waits G t c stmt f.sys

theorem Settled.outside (h : Settled G f) : ¬ f.Inside := by
  intro hInside
  obtain ⟨⟨c, stmt⟩, hAt, hIn⟩ := (Option.any_eq_true _ _).mp hInside
  rw [(h _ c stmt hAt).begun.outside] at hIn
  cases hIn

/-- A task that is left where it is still waits. -/
theorem Waits.keep {s' : System} (h : Waits G t c stmt s)
    (hKept : s'.pc t = s.pc t ∧ s'.primaskOf t = s.primaskOf t) : Waits G t c stmt s' := by
  obtain ⟨hPc, hRead⟩ := hKept
  refine ⟨h.begun, ?_, fun primask hEq => ?_⟩
  · rw [hPc]
    exact h.label
  · rw [hRead]
    exact h.read primask hEq

/-- Task `t` goes on, the others stay where they are. -/
theorem Settled.put (h : Settled G f) {x : Option (Call × Stmt)}
    (hOthers : ∀ u, u ≠ t → s.pc u = f.sys.pc u ∧ s.primaskOf u = f.sys.primaskOf u)
    (hNew : ∀ c stmt, x = some (c, stmt) → Waits G t c stmt s) : Settled G (f.put t x s) := by
  intro u c stmt hAt
  by_cases hu : u = t
  · subst hu
    rw [put_stmt] at hAt
    exact hNew c stmt hAt
  · have hOld : f.stmt u = some (c, stmt) := (Function.update_of_ne hu _ _).symm.trans hAt
    exact (h u c stmt hOld).keep (hOthers u hu)

theorem opens_eq_some {l : TinyRtos.Label} (h : f.opens l = some c) :
    c.bracketed = true ∧ System.Performs f.sys l c := by
  unfold opens at h
  split at h
  · rename_i c' hPc
    split at h
    · rename_i hBracketed
      cases h
      exact ⟨hBracketed, Or.inl ⟨rfl, hPc⟩⟩
    · cases h
  · rename_i c' hPc
    split at h
    · rename_i hBoth
      cases h
      obtain ⟨hRetries, hBracketed⟩ := (Bool.and_eq_true _ _).mp hBoth
      exact ⟨hBracketed, Or.inr ⟨rfl, hPc, hRetries⟩⟩
    · cases h
  · cases h

/-- The current task begins a call. -/
theorem Settled.opens (h : Settled G f) {l : TinyRtos.Label} (hG : G l)
    (hOpens : f.opens l = some c) :
    Settled G (f.put f.sys.kernel.currentTask (some (c, c.first)) f.sys) := by
  obtain ⟨hBracketed, hAt⟩ := opens_eq_some hOpens
  refine h.put (fun _ _ => ⟨rfl, rfl⟩) fun c' stmt hEq => ?_
  cases hEq
  refine ⟨.first hBracketed, ⟨l, hG, hAt⟩, fun primask hFirst => ?_⟩
  cases c <;> cases hFirst

/-- The current task reads PRIMASK. -/
theorem Settled.getPrimask (h : Settled G f)
    (hAt : f.stmt f.sys.kernel.currentTask = some (c, .entering .getPrimask)) :
    Settled G (f.put f.sys.kernel.currentTask
      (some (c, .entering (.disableIrq f.sys.kernel.primask))) f.sys) := by
  have hWaits := h _ c _ hAt
  refine h.put (fun _ _ => ⟨rfl, rfl⟩) fun c' stmt hEq => ?_
  cases hEq
  refine ⟨?_, hWaits.label, fun primask hRead => ?_⟩
  · cases hWaits.begun with
    | getPrimask hEnters => exact .disableIrq _ hEnters
  · cases hRead
    unfold System.primaskOf
    rw [if_pos rfl]

-- ---------------------------------------------------------------------------
-- Nothing interrupts a critical section
-- ---------------------------------------------------------------------------

/-- The code of task `t` runs with PRIMASK set. -/
structure Locked (t : Nat) (s : System) : Prop where
  current : s.kernel.currentTask = t
  scan    : s.scan = none
  user    : t < s.kernel.taskCount
  masked  : ¬ s.kernel.Unmasked

theorem Locked.thread (h : Locked t s) : s.Thread :=
  ⟨h.scan, h.current.symm ▸ h.user, fun hOn => h.masked hOn.2⟩

theorem Locked.onKernel (h : Locked t s) {g : Kernel → Kernel}
    (hTable : (g s.kernel).toTaskTable = s.kernel.toTaskTable)
    (hPrimask : (g s.kernel).primask = s.kernel.primask) : Locked t (s.onKernel g) := by
  refine ⟨?_, h.scan, ?_, ?_⟩
  · rw [System.onKernel_kernel, hTable]
    exact h.current
  · rw [System.onKernel_kernel, hTable]
    exact h.user
  · unfold Kernel.Unmasked
    rw [System.onKernel_kernel, hPrimask]
    exact h.masked

/-- Task `t` has masked in call `c`, where PRIMASK was what it has read. -/
def entered (t : Nat) (c : Call) (s : System) (f : Stepwise) : Stepwise :=
  f.put t (some (c, .entering (.savePrimask s.kernel.primask))) (s.onKernel Kernel.disableIrq)

theorem locked_of_thread (hThread : s.Thread) (ht : s.kernel.currentTask = t) :
    Locked t (s.onKernel Kernel.disableIrq) := by
  refine ⟨ht, hThread.1, ht ▸ hThread.2.1, ?_⟩
  show ¬ (1 : UInt32) &&& 1 = 0
  decide

theorem leave_outside (h : s.kernel.currentTask = t) : ¬ (f.leave t c exit s).Inside := by
  subst h
  simp [Inside, leave]

section

variable [TaskConfig]

/-- With PRIMASK set only the task's next statement is possible. -/
theorem Locked.only (h : Locked t s) {x : Call × Stmt} {l : Label} (hl : l ≠ .go) :
    (f.put t (some x) s).step l = none := by
  obtain ⟨hCur, hScan, -, hMasked⟩ := h
  subst hCur
  cases l with
  | go => exact absurd rfl hl
  | sys l =>
    cases l with
    | call | yield | resume => simp [step, Label.actor]
    | semaphoreGiveFromIsr | queueSendFromIsr | tick | pendSv | scan | pendSvExit =>
      simp [step, Label.actor, opens, System.step, hScan, hMasked]

theorem go_put (hThread : s.Thread) (ht : s.kernel.currentTask = t) :
    (f.put t (some (c, stmt)) s).step .go =
      some ((f.put t (some (c, stmt)) s).make t c stmt) := by
  subst ht
  simp [step, hThread]

/-- A statement inside a critical section. -/
theorem Locked.cons (h : Locked t s) (hInside : stmt.inside c = true) {f₁ : Stepwise}
    {es : List Event} (hMake : (f.put t (some (c, stmt)) s).make t c stmt = (f₁, es))
    (hRest : Runs.Alone step .go Inside f₁ tr f') :
    Runs.Alone step .go Inside (f.put t (some (c, stmt)) s) (es ++ tr) f' := by
  have hStep : (f.put t (some (c, stmt)) s).step .go = some (f₁, es) := by
    rw [go_put h.thread h.current, hMake]
  refine .cons ?_ (fun l hl => h.only hl) hStep hRest
  obtain rfl := h.current
  simpa [Inside] using hInside

/-- The rest of `rtosk_kernel_exit_critical`, where there is a section to exit. -/
theorem Locked.unnest (h : Locked t s) (hNe : s.kernel.criticalNesting ≠ 0) :
    Runs.Alone step .go Inside (f.put t (some (c, .exiting .unnest exit)) s) []
      (f.leave t c exit (s.onKernel rtoskKernelExitCritical)) := by
  have hLocked : Locked t (s.onKernel Kernel.unnest) := h.onKernel rfl rfl
  have hOut : ¬ (f.leave t c exit (s.onKernel rtoskKernelExitCritical)).Inside :=
    leave_outside (by simp [h.current])
  have hUnnest : (f.put t (some (c, .exiting .unnest exit)) s).make t c (.exiting .unnest exit) =
      (f.put t (some (c, .exiting .retest exit)) (s.onKernel Kernel.unnest), []) := by
    simp [make]
  refine h.cons rfl hUnnest ?_
  generalize hInner : s.onKernel Kernel.unnest = inner at hLocked ⊢
  by_cases hOuter : inner.kernel.criticalNesting = 0
  · have hRetest : (f.put t (some (c, .exiting .retest exit)) inner).make t c
        (.exiting .retest exit) = (f.put t (some (c, .exiting .irqRestore exit)) inner, []) := by
      simp [make, hOuter]
    have hRestore : (f.put t (some (c, .exiting .irqRestore exit)) inner).make t c
        (.exiting .irqRestore exit) =
          (f.leave t c exit (s.onKernel rtoskKernelExitCritical), []) := by
      subst hInner
      have hZero : s.kernel.unnest.criticalNesting = 0 := hOuter
      simp [make, System.onKernel, exitCritical_statements, hNe, hZero]
    exact hLocked.cons rfl hRetest (hLocked.cons rfl hRestore (.out hOut))
  · have hRetest : (f.put t (some (c, .exiting .retest exit)) inner).make t c
        (.exiting .retest exit) =
          (f.leave t c exit (s.onKernel rtoskKernelExitCritical), []) := by
      subst hInner
      have hMore : s.kernel.unnest.criticalNesting ≠ 0 := hOuter
      simp [make, System.onKernel, exitCritical_statements, hNe, hMore]
    exact hLocked.cons rfl hRetest (.out hOut)

/-- `rtosk_kernel_exit_critical` at the end of a call. -/
theorem Locked.test (h : Locked t s) (hCall : c.isCritical = false) :
    Runs.Alone step .go Inside (f.put t (some (c, .exiting .test exit)) s) []
      (f.leave t c exit (s.onKernel rtoskKernelExitCritical)) := by
  have hInside : (Stmt.exiting .test exit).inside c = true := by
    simp [Stmt.inside, hCall]
  by_cases hZero : s.kernel.criticalNesting = 0
  · have hTest : (f.put t (some (c, .exiting .test exit)) s).make t c (.exiting .test exit) =
        (f.leave t c exit (s.onKernel rtoskKernelExitCritical), []) := by
      simp [make, System.onKernel, exitCritical_statements, hZero]
    exact h.cons hInside hTest (.out (leave_outside (by simp [h.current])))
  · have hTest : (f.put t (some (c, .exiting .test exit)) s).make t c (.exiting .test exit) =
        (f.put t (some (c, .exiting .unnest exit)) s, []) := by
      simp [make, hZero]
    exact h.cons hInside hTest (h.unnest hZero)

/-- The rest of `rtosk_kernel_enter_critical`. -/
theorem alone_enter (h : Locked t (s.onKernel Kernel.disableIrq))
    (hRest : Runs.Alone step .go Inside
      (if c.isCritical then f.leave t c .returns (s.onKernel rtoskKernelEnterCritical)
        else f.put t (some (c, .body)) (s.onKernel rtoskKernelEnterCritical)) tr f') :
    Runs.Alone step .go Inside (f.entered t c s) tr f' := by
  have hSave : (f.entered t c s).make t c (.entering (.savePrimask s.kernel.primask)) =
      (f.put t (some (c, .entering .nest))
        (s.onKernel fun k => k.disableIrq.savePrimask k.primask), []) := by
    simp [entered, make, System.onKernel]
  have hSaved : Locked t (s.onKernel fun k => k.disableIrq.savePrimask k.primask) := by
    have hFrame : Locked t ((s.onKernel Kernel.disableIrq).onKernel
        (Kernel.savePrimask s.kernel.primask)) := by
      refine h.onKernel ?_ ?_ <;> unfold Kernel.savePrimask <;> split <;> rfl
    exact hFrame
  have hNest : (f.put t (some (c, .entering .nest))
      (s.onKernel fun k => k.disableIrq.savePrimask k.primask)).make t c (.entering .nest) =
        (if c.isCritical then f.leave t c .returns (s.onKernel rtoskKernelEnterCritical)
          else f.put t (some (c, .body)) (s.onKernel rtoskKernelEnterCritical), []) := by
    have hEnter : rtoskKernelEnterCritical =
        fun k => (k.disableIrq.savePrimask k.primask).nest := funext enterCritical_statements
    rw [hEnter]
    by_cases hCritical : c.isCritical = true
    · simp [make, System.onKernel, hCritical]
    · simp [make, System.onKernel, hCritical]
  exact h.cons rfl hSave (hSaved.cons rfl hNest hRest)

/-- **A call with a critical section, once it has masked.** -/
theorem alone_section (hSection : (Api.call c).hasSection = true) (hThread : s.Thread)
    (ht : s.kernel.currentTask = t) :
    Runs.Alone step .go Inside (f.entered t c s) (s.enter c).2.2
      (f.leave t c (s.enter c).2.1 (s.enter c).1) := by
  have hCritical : c.isCritical = false := by
    cases c <;> first | rfl | cases hSection
  have hCall := System.enter_callStep c s
  have hEvents := hCall.events
  obtain ⟨-, hScan, hCur, -⟩ := hCall.frame
  have hCount := hCall.setup.taskCount
  obtain ⟨hSys, hExit⟩ := System.section_enter hSection s
  rw [hSys, hExit] at hEvents
  rw [hSys] at hScan hCur hCount
  rw [hEvents, hSys, hExit]
  have hMasking := Api.body_masking (.call c) (s.onKernel rtoskKernelEnterCritical)
  generalize hBody : (Api.call c).body (s.onKernel rtoskKernelEnterCritical) = r at *
  obtain ⟨inner, exit⟩ := r
  have hPrimask : inner.kernel.primask = 1 :=
    (congrArg Masking.primask hMasking).trans (enterCritical_primask s.kernel)
  have hLocked : Locked t inner := by
    simp only [System.onKernel_kernel, exitCritical_toTaskTable] at hCur hCount
    refine ⟨hCur.trans ht, hScan.trans hThread.1, ?_, ?_⟩
    · rw [hCount, ← ht]
      exact hThread.2.1
    · unfold Kernel.Unmasked
      rw [hPrimask]
      decide
  have hInside : Locked t (s.onKernel rtoskKernelEnterCritical) := by
    refine ⟨?_, hThread.1, ?_, ?_⟩
    · simpa using ht
    · have hUser := hThread.2.1
      rw [ht] at hUser
      simpa using hUser
    · unfold Kernel.Unmasked
      rw [System.onKernel_kernel, enterCritical_primask]
      decide
  refine alone_enter (locked_of_thread hThread ht) ?_
  rw [if_neg (by rw [hCritical]; nofun)]
  have hMake : (f.put t (some (c, .body)) (s.onKernel rtoskKernelEnterCritical)).make t c .body =
      (f.put t (some (c, .exiting .test exit)) inner,
        c.events s (inner.onKernel rtoskKernelExitCritical) exit) := by
    simp only [make, put_sys, put_put, hBody]
    exact congrArg (Prod.mk _) (Call.events_congr (by simp) rfl rfl rfl)
  have hRest := hInside.cons rfl hMake (hLocked.test hCritical)
  rw [List.append_nil] at hRest
  exact hRest

/-- **A call with a critical section, or an enter of a task's own, is one step.** -/
theorem alone_perform (hEnters : (Api.call c).hasSection = true ∨ c = .enterCritical)
    (hThread : s.Thread) (ht : s.kernel.currentTask = t) :
    Runs.Alone step .go Inside (f.entered t c s) (s.perform c).2
      (f.put t none (s.perform c).1) := by
  subst ht
  rcases hEnters with hSection | rfl
  · exact alone_section hSection hThread rfl
  · exact alone_enter (locked_of_thread hThread rfl) (.out (leave_outside (by simp)))

/-- **An exit of a task's own is one step.** -/
theorem alone_exit (hMask : f.sys.kernel.MaskInv) (hThread : f.sys.Thread)
    (ht : f.sys.kernel.currentTask = t) :
    ∃ f₁, f.make t .exitCritical (.exiting .test .returns) = (f₁, []) ∧
      Runs.Alone step .go Inside f₁ [] (f.put t none (f.sys.perform .exitCritical).1) := by
  subst ht
  have hLeave : f.put f.sys.kernel.currentTask none (f.sys.perform .exitCritical).1 =
      f.leave f.sys.kernel.currentTask .exitCritical .returns
        (f.sys.onKernel rtoskKernelExitCritical) := rfl
  rw [hLeave]
  by_cases hZero : f.sys.kernel.criticalNesting = 0
  · -- there is none to exit
    have hMake : f.make f.sys.kernel.currentTask .exitCritical (.exiting .test .returns) =
        (f.leave f.sys.kernel.currentTask .exitCritical .returns
          (f.sys.onKernel rtoskKernelExitCritical), []) := by
      simp [make, System.onKernel, exitCritical_statements, hZero]
    exact ⟨_, hMake, .out (leave_outside (by simp))⟩
  · have hLocked : Locked f.sys.kernel.currentTask f.sys :=
      ⟨rfl, hThread.1, hThread.2.1, fun hUnmasked => hZero (hMask hUnmasked)⟩
    have hMake : f.make f.sys.kernel.currentTask .exitCritical (.exiting .test .returns) =
        (f.put f.sys.kernel.currentTask
          (some (.exitCritical, .exiting .unnest .returns)) f.sys, []) := by
      simp [make, hZero]
    exact ⟨_, hMake, hLocked.unnest hZero⟩

-- ---------------------------------------------------------------------------
-- One step
-- ---------------------------------------------------------------------------

theorem perform_step {l : TinyRtos.Label} (hThread : s.Thread) (hAt : System.Performs s l c) :
    s.step l = some (s.perform c) := by
  rcases hAt with ⟨rfl, hPc⟩ | ⟨rfl, hPc, hRetries⟩
  · simp only [System.step, hPc, if_pos hThread]
  · simp only [System.step, hPc, if_pos hThread, hRetries, if_true]

/-- The current task has made a critical section. -/
theorem Settled.perform (h : Settled G f) {l : TinyRtos.Label} (hMasks : System.Masks f.sys)
    (hThread : f.sys.Thread) (hAt : System.Performs f.sys l c) :
    Settled G (f.put f.sys.kernel.currentTask none (f.sys.perform c).1) := by
  have hStep := System.step_cases (perform_step hThread hAt)
  exact h.put (fun u hu => hStep.parked hMasks fun _ => hu) nofun

/-- A step of a handler, of PendSV, or of a task in no critical section. -/
theorem Settled.other (h : Settled G f) (hMasks : System.Masks f.sys) {l : TinyRtos.Label}
    {es : List Event} (hFree : l.actor = .thread → f.stmt f.sys.kernel.currentTask = none)
    (hStep : System.StepCase f.sys l s es) : Settled G { f with sys := s } := by
  intro t c stmt hAt
  refine (h t c stmt hAt).keep (hStep.parked hMasks fun hThread hCur => ?_)
  subst hCur
  rw [hFree hThread] at hAt
  cases hAt

/-- A statement of the current task that is not inside a critical section. -/
theorem Settled.go (h : Settled G f) (hMasks : System.Masks f.sys) (hThread : f.sys.Thread)
    (hAt : f.stmt f.sys.kernel.currentTask = some (c, stmt)) :
    ∃ tr f', Runs.Alone step .go Inside (f.make f.sys.kernel.currentTask c stmt).1 tr f' ∧
      Settled G f' ∧
      ((f'.sys = f.sys ∧ (f.make f.sys.kernel.currentTask c stmt).2 ++ tr = []) ∨
        ∃ l, G l ∧ f.sys.step l =
          some (f'.sys, (f.make f.sys.kernel.currentTask c stmt).2 ++ tr)) := by
  have hWaits := h _ c stmt hAt
  obtain ⟨l, hG, hPerforms⟩ := hWaits.label
  have hPerform := perform_step hThread hPerforms
  have hSettled := h.perform hMasks hThread hPerforms
  cases hWaits.begun with
  | getPrimask hEnters =>
    have hNext := h.getPrimask hAt
    exact ⟨[], _, .out hNext.outside, hNext, Or.inl ⟨rfl, rfl⟩⟩
  | disableIrq primask hEnters =>
    have hRead : primask = f.sys.kernel.primask :=
      (hWaits.read primask rfl).trans (if_pos rfl)
    subst hRead
    exact ⟨_, _, alone_perform hEnters hThread rfl, hSettled, Or.inr ⟨l, hG, hPerform⟩⟩
  | test =>
    obtain ⟨f₁, hMake, hAlone⟩ := alone_exit hMasks.maskInv hThread rfl
    rw [hMake]
    exact ⟨[], _, hAlone, hSettled, Or.inr ⟨l, hG, hPerform⟩⟩

/-- **A step outside of critical sections**, with what is left of the section it
begins, is a step of `System.step`, or none. -/
theorem Settled.step (h : Settled G f) (hMasks : System.Masks f.sys) {l : Label}
    {f₁ : Stepwise} {es : List Event} (hG : Meets G f l) (hStep : f.step l = some (f₁, es)) :
    ∃ tr f', Runs.Alone step .go Inside f₁ tr f' ∧ Settled G f' ∧
      ((f'.sys = f.sys ∧ es ++ tr = []) ∨
        ∃ l, G l ∧ f.sys.step l = some (f'.sys, es ++ tr)) := by
  cases l with
  | go =>
    simp only [Stepwise.step] at hStep
    split at hStep
    · cases hStep
    · rename_i c stmt hAt
      split at hStep
      · rename_i hThread
        have hGo := h.go hMasks hThread hAt
        rw [Option.some.inj hStep] at hGo
        exact hGo
      · cases hStep
  | sys l =>
    simp only [Stepwise.step] at hStep
    split at hStep
    · cases hStep
    · rename_i hFree
      split at hStep
      · rename_i c hOpens
        split at hStep
        · cases hStep
          have hNext := h.opens hG hOpens
          exact ⟨[], _, .out hNext.outside, hNext, Or.inl ⟨rfl, rfl⟩⟩
        · cases hStep
      · obtain ⟨⟨s, es'⟩, hSys, hEq⟩ := Option.map_eq_some_iff.mp hStep
        cases hEq
        have hNext := h.other hMasks (fun hThread => ?_) (System.step_cases hSys)
        · refine ⟨[], _, .out hNext.outside, hNext, Or.inr ⟨l, hG, ?_⟩⟩
          rw [List.append_nil]
          exact hSys
        · by_contra hSome
          exact hFree ⟨hThread, Option.isSome_iff_ne_none.mpr hSome⟩

-- ---------------------------------------------------------------------------
-- The two levels
-- ---------------------------------------------------------------------------

theorem perform_of_step {s' : System} {l : TinyRtos.Label} {es : List Event}
    (hAt : System.Performs s l c) (hStep : s.step l = some (s', es)) :
    s.Thread ∧ s.perform c = (s', es) := by
  have hThread : s.Thread := by
    by_contra hNot
    rcases hAt with ⟨rfl, hPc⟩ | ⟨rfl, hPc, -⟩
    · simp only [System.step, hPc, if_neg hNot] at hStep
      cases hStep
    · simp only [System.step, hPc, if_neg hNot] at hStep
      cases hStep
  rw [perform_step hThread hAt] at hStep
  exact ⟨hThread, Option.some.inj hStep⟩

/-- A call with a critical section is made by its statements. -/
theorem run_first (hRun : Runs.Run step (Meets G) f' tr (f.put t (some (c, c.first)) s))
    (hMasks : System.Masks s) (hBracketed : c.bracketed = true) (hThread : s.Thread)
    (ht : s.kernel.currentTask = t) :
    Runs.Run step (Meets G) f' (tr ++ (s.perform c).2) (f.put t none (s.perform c).1) := by
  have hMeets : ∀ f, Meets G f .go := fun _ => trivial
  have hBegun := Begun.first hBracketed
  generalize hFirst : c.first = first at hBegun hRun
  cases hBegun with
  | getPrimask hEnters =>
    have hGet : (f.put t (some (c, .entering .getPrimask)) s).step .go =
        some (f.put t (some (c, .entering (.disableIrq s.kernel.primask))) s, []) := by
      rw [go_put hThread ht]
      simp [make]
    have hMask : (f.put t (some (c, .entering (.disableIrq s.kernel.primask))) s).step .go =
        some (f.entered t c s, []) := by
      rw [go_put hThread ht]
      simp [make, entered]
    have hEntered := (hRun.next (hMeets _) hGet).next (hMeets _) hMask
    rw [List.append_nil, List.append_nil] at hEntered
    exact (alone_perform hEnters hThread ht).run hEntered hMeets
  | disableIrq => cases c <;> cases hFirst
  | test =>
    obtain ⟨f₁, hMake, hAlone⟩ := alone_exit
      (f := f.put t (some (.exitCritical, .exiting .test .returns)) s) hMasks.maskInv hThread ht
    have hTest : (f.put t (some (.exitCritical, .exiting .test .returns)) s).step .go =
        some (f₁, []) := by
      rw [go_put hThread ht, hMake]
    have hRest := hAlone.run (hRun.next (hMeets _) hTest) hMeets
    rw [List.append_nil, put_sys, put_put] at hRest
    exact hRest

/-- A step of `System.step` is made by statements. -/
theorem run_step {s' : System} {l : TinyRtos.Label} {es : List Event}
    (hRun : Runs.Run step (Meets G) f tr (idle s)) (hMasks : System.Masks s) (hG : G l)
    (hStep : s.step l = some (s', es)) :
    Runs.Run step (Meets G) f (tr ++ es) (idle s') := by
  have hMeets : Meets G (idle s) (.sys l) := hG
  have hFree : ¬ (l.actor = .thread ∧
      ((idle s).stmt (idle s).sys.kernel.currentTask).isSome = true) := fun hAt => by
    cases hAt.2
  cases hOpens : (idle s).opens l with
  | none =>
    have hSys : (idle s).step (.sys l) = some (idle s', es) := by
      simp only [Stepwise.step, if_neg hFree, hOpens]
      rw [show (idle s).sys.step l = some (s', es) from hStep]
      rfl
    exact hRun.next hMeets hSys
  | some c =>
    obtain ⟨hBracketed, hAt⟩ := opens_eq_some hOpens
    obtain ⟨hThread, hPerform⟩ := perform_of_step (s := s) hAt hStep
    have hSys : (idle s).step (.sys l) =
        some ((idle s).put s.kernel.currentTask (some (c, c.first)) s, []) := by
      simp only [Stepwise.step, if_neg hFree, hOpens]
      exact if_pos hThread
    have hBegun := hRun.next hMeets hSys
    rw [List.append_nil] at hBegun
    have hDone := run_first hBegun hMasks hBracketed hThread rfl
    rw [hPerform] at hDone
    have hIdle : (idle s).put s.kernel.currentTask none s' = idle s' := by
      simp [put, idle]
    rw [hIdle] at hDone
    exact hDone

section

variable {s₀ : System} (hStarted : s₀.Started) (hBit : IsBit s₀.kernel.primask)
include hStarted hBit

theorem masks_of_run (hRun : Runs.Run System.step (fun _ => G) s₀ tr s) : System.Masks s :=
  hRun.induct (fun _ s => System.Masks s) (hStarted.masks hBit)
    fun _ _ _ _ _ h _ hStep => h.step (System.step_cases hStep)

/-- A run of statements, with what is left of the critical section it is in, is
one of the system. -/
theorem atomic_run (hRun : Runs.Run step (Meets G) (idle s₀) tr f) :
    ∃ tr' f', Runs.Alone step .go Inside f tr' f' ∧
      Runs.Run System.step (fun _ => G) s₀ (tr ++ tr') f'.sys := by
  have hReduces : Runs.Reduces step System.step .go Inside Stepwise.sys (Settled G) (Meets G)
      (fun _ => G) (idle s₀) := fun tr f l f₁ es hCoarse hSettled _ hG hStep =>
    hSettled.step (masks_of_run hStarted hBit hCoarse) hG hStep
  have hIdle : Settled G (idle s₀) := nofun
  obtain ⟨tr', f', hAlone, -, hCoarse⟩ := hReduces.run hIdle hIdle.outside hRun
  exact ⟨tr', f', hAlone, hCoarse⟩

/-- Outside of critical sections there is nothing left. -/
theorem outside_run (hRun : Runs.Run step (Meets G) (idle s₀) tr f) (hOut : ¬ f.Inside) :
    Runs.Run System.step (fun _ => G) s₀ tr f.sys := by
  obtain ⟨tr', f', hAlone, hCoarse⟩ := atomic_run hStarted hBit hRun
  obtain ⟨rfl, rfl⟩ := hAlone.of_outside hOut
  rw [List.append_nil] at hCoarse
  exact hCoarse

/-- A run of the system is made by statements. -/
theorem idle_run (hRun : Runs.Run System.step (fun _ => G) s₀ tr s) :
    Runs.Run step (Meets G) (idle s₀) tr (idle s) := by
  induction hRun with
  | start => exact .start
  | next hRun hG hStep ih => exact run_step ih (masks_of_run hStarted hBit hRun) hG hStep

/-- **Critical sections are atomic.** The statements of calls, interleaved in any
way the hardware allows, and `System.step` have the same runs: a run of
statements that ends outside of critical sections is a run of the system; one
that ends inside a critical section is, together with what is left of it, which
nothing can interrupt; and every run of the system is a run of statements. -/
theorem stepwise_atomic :
    (∀ tr f, Runs.Run step (Meets G) (idle s₀) tr f →
      (¬ f.Inside → Runs.Run System.step (fun _ => G) s₀ tr f.sys) ∧
      ∃ tr' f', Runs.Alone step .go Inside f tr' f' ∧
        Runs.Run System.step (fun _ => G) s₀ (tr ++ tr') f'.sys) ∧
    ∀ tr s, Runs.Run System.step (fun _ => G) s₀ tr s →
      Runs.Run step (Meets G) (idle s₀) tr (idle s) :=
  ⟨fun _ _ hRun => ⟨outside_run hStarted hBit hRun, atomic_run hStarted hBit hRun⟩,
    fun _ _ hRun => idle_run hStarted hBit hRun⟩

end

end

-- ---------------------------------------------------------------------------
-- Preempted before it masks
-- ---------------------------------------------------------------------------

/-- PendSV, with two tasks. -/
def switch : List Label := [.sys .pendSv, .sys .scan, .sys .scan, .sys .pendSvExit]

/-- Task `0` has read PRIMASK in `rtosk_mutex_lock` when task `1` preempts it,
locks the mutex and sleeps; then it goes on, and is stopped inside. -/
def preemptedLock : List Label :=
  [.sys (.call (.mutexLock (some 0))), .go, .sys .tick] ++ switch ++
    .sys (.call (.mutexLock (some 0))) :: List.replicate 9 .go ++
    .sys (.call (.sleepMs 5)) :: List.replicate 9 .go ++
    .sys .yield :: switch ++ List.replicate 4 .go

theorem stepwise_atomic_preempted :
    ∃ tr f, Runs.Run step (Meets fun _ => True) (idle System.contenders) tr f ∧ f.Inside ∧
      tr = [.switched 1, .locked 1 0, .switched 0] ∧
      ∃ tr' f', Runs.Alone step .go Inside f tr' f' ∧
        Runs.Run System.step (fun _ _ => True) System.contenders (tr ++ tr') f'.sys := by
  obtain ⟨tr, f, hRun, hInside, hTr⟩ :=
    Runs.exists_run_of_exec step (Meets fun _ => True) (idle System.contenders) preemptedLock
      (fun tr f => f.Inside ∧ tr = [.switched 1, .locked 1 0, .switched 0])
      (by decide +kernel)
  have hAtomic := stepwise_atomic (G := fun _ => True) System.contenders_started (Or.inl rfl)
  exact ⟨tr, f, hRun, hInside, hTr, (hAtomic.1 tr f hRun).2⟩

end Stepwise

end TinyRtos
