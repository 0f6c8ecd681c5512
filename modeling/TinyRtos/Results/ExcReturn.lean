import TinyRtos.Port.Start

/-!
# TinyRTOS — the EXC_RETURN of the context switch

`PendSV_Handler` keeps LR on the main stack while tasks are switched, and
branches to it at the end. So the EXC_RETURN of a resumed task is the one that
the task switched out came with (`Handed`), whereas the frame it is to unstack
is the one it came with itself. The two agree exactly when the two frames are of
one type (`ownExcReturn_iff`); with one task that uses the floating point unit
and one that does not, the first switch goes wrong (`excReturn_crossed`).
-/

namespace TinyRtos.Machine

open Runs (lastOf)

-- ---------------------------------------------------------------------------
-- Histories
-- ---------------------------------------------------------------------------

/-- The type of the frame that `t` stacks at an entry into PendSV. -/
def frameType (t : Nat) : Event → Option Bool
  | .entered u _ extended => if u = t then some extended else none
  | _ => none

/-- The type of the frame that `t` is suspended at; the built frame is basic. -/
def lastExtended (t : Nat) (tr : List Event) : Bool := (lastOf (frameType t) tr).getD false

/-- Every task is resumed with the EXC_RETURN it was last preempted with, or, the
first time, with that of a basic frame. -/
def OwnExcReturn (tr : List Event) : Prop :=
  ∀ pre post t ctx lr, tr = pre ++ .resumed t ctx lr :: post → lr = excReturn (lastExtended t pre)

/-- In every switch the task switched in is suspended at a frame of the type that
the task switched out has stacked. -/
def MatchingFrames (tr : List Event) : Prop :=
  ∀ pre post u ctx extended t ctx' lr,
    tr = pre ++ .entered u ctx extended :: .resumed t ctx' lr :: post →
      lastExtended t (pre ++ [.entered u ctx extended]) = extended

/-- Every resumption comes right after an entry, with the EXC_RETURN of that
one. -/
def Handed (tr : List Event) : Prop :=
  ∀ pre post t ctx lr, tr = pre ++ .resumed t ctx lr :: post →
    ∃ pre' u ctx' extended, pre = pre' ++ [.entered u ctx' extended] ∧ lr = excReturn extended

variable {tr : List Event}

theorem Handed.concat {e : Event} (h : Handed tr)
    (hNew : ∀ t ctx lr, e = .resumed t ctx lr →
      ∃ pre u ctx' extended, tr = pre ++ [.entered u ctx' extended] ∧ lr = excReturn extended) :
    Handed (tr ++ [e]) := by
  intro pre post t ctx lr hSplit
  rcases Runs.split_concat hSplit with ⟨mid, hOld⟩ | ⟨rfl, hEq⟩
  · exact h pre mid t ctx lr hOld
  · exact hNew t ctx lr hEq

/-- Own EXC_RETURNs are matching frames. -/
theorem Handed.own_iff_matching (h : Handed tr) : OwnExcReturn tr ↔ MatchingFrames tr := by
  constructor
  · intro hOwn pre post u ctx extended t ctx' lr hSplit
    have hSplit' : tr = (pre ++ [.entered u ctx extended]) ++ .resumed t ctx' lr :: post := by
      rw [hSplit, List.append_assoc]
      rfl
    obtain ⟨pre', u', ctx'', extended', hPre, hLr⟩ := h _ _ _ _ _ hSplit'
    have hLast := (List.append_inj' hPre rfl).2
    injection hLast with hEntered
    injection hEntered with hU hCtx hType
    have hEq := hOwn _ _ _ _ _ hSplit'
    rw [hLr, ← hType] at hEq
    exact (excReturn_injective hEq).symm
  · intro hMatch pre post t ctx lr hSplit
    obtain ⟨pre', u, ctx', extended, rfl, hLr⟩ := h _ _ _ _ _ hSplit
    have hSplit' : tr = pre' ++ .entered u ctx' extended :: .resumed t ctx lr :: post := by
      rw [hSplit, List.append_assoc]
      rfl
    rw [hLr, hMatch _ _ _ _ _ _ _ _ hSplit']

-- ---------------------------------------------------------------------------
-- The main stack
-- ---------------------------------------------------------------------------

/-- While PendSV is active the main stack holds the EXC_RETURN of the last entry,
otherwise nothing. -/
structure Pushed (tr : List Event) (m : Machine) : Prop where
  outside : m.sys.scan = none → m.msp = []
  inside  : m.sys.scan ≠ none → ∃ pre u ctx extended r4,
    tr = pre ++ [.entered u ctx extended] ∧ m.msp = [(r4, excReturn extended)]
  handed  : Handed tr

/-- Outside PendSV nothing is pushed or resumed. -/
theorem Pushed.of_thread {m m' : Machine} {es : List Event} (h : Pushed tr m)
    (hScan : m.sys.scan = none) (hScan' : m'.sys.scan = none) (hMsp : m'.msp = m.msp)
    (hEs : es = [] ∨ ∃ t func, es = [.created t func]) : Pushed (tr ++ es) m' := by
  refine ⟨fun _ => hMsp.trans (h.outside hScan), fun hNot => absurd hScan' hNot, ?_⟩
  rcases hEs with rfl | ⟨t, func, rfl⟩
  · rw [List.append_nil]
    exact h.handed
  · exact h.handed.concat fun _ _ _ => nofun

section Runs

variable [TaskConfig] {img : Image} {m m' : Machine}

/-- **`Pushed` is kept by every step.** -/
theorem Pushed.step (h : Pushed tr m) {l : Label} {es : List Event}
    (hStep : StepCase img m l m' es) : Pushed (tr ++ es) m' := by
  cases hStep with
  | kernel hEnter hExit _ hKernel =>
    obtain ⟨-, hScan⟩ := hKernel.of_other hEnter hExit
    rw [List.append_nil]
    exact ⟨fun hNone => h.outside (hScan.mp hNone), fun hSome => h.inside (mt hScan.mpr hSome),
      h.handed⟩
  | pendSv hKernel hScan =>
    obtain ⟨hIdle, -⟩ := hKernel.of_pendSv
    have hMsp : m.msp = [] := h.outside hIdle
    refine ⟨fun hNone => absurd (hScan.symm.trans hNone) nofun, fun _ => ?_,
      h.handed.concat fun _ _ _ => nofun⟩
    refine ⟨tr, m.current, _, m.fpca, m.r4r11 0, rfl, ?_⟩
    show m.enterPendSv.msp = _
    rw [enterPendSv_msp, hMsp]
  | pendSvEmpty hKernel hScan hLeave =>
    obtain ⟨hIdle, -⟩ := hKernel.of_pendSv
    have hMsp : m.msp = [] := h.outside hIdle
    obtain ⟨r4, lr, msp, hTop, rfl, hSys, -, -, hMsp', -⟩ := leavePendSv_eq hLeave
    have hPushed : m.enterPendSv.msp = (r4, lr) :: msp := hTop
    rw [enterPendSv_msp, hMsp] at hPushed
    injection hPushed with hPair hRest
    injection hPair with _ hLr
    have hEntered : Handed (tr ++ [.entered m.current m.exceptionEntry.1.context m.fpca]) :=
      h.handed.concat fun _ _ _ => nofun
    rw [← List.singleton_append, ← List.append_assoc]
    refine ⟨fun _ => hMsp'.trans hRest.symm, fun hSome => absurd ?_ hSome, hEntered.concat ?_⟩
    · rw [hSys]
      exact hScan
    · intro t ctx lr' hEq
      cases hEq
      exact ⟨tr, _, _, _, rfl, hLr.symm⟩
  | pendSvExit hKernel hLeave =>
    obtain ⟨c, hScan, -, hSys⟩ := hKernel.of_pendSvExit
    obtain ⟨pre, u, ctx, extended, r4, hTr, hMsp⟩ :=
      h.inside (by rw [hScan]; nofun)
    obtain ⟨r4', lr, msp, hTop, rfl, hSys', -, -, hMsp', -⟩ := leavePendSv_eq hLeave
    have hPushed : m.msp = (r4', lr) :: msp := hTop
    rw [hMsp] at hPushed
    injection hPushed with hPair hRest
    injection hPair with _ hLr
    refine ⟨fun _ => hMsp'.trans hRest.symm, fun hSome => absurd ?_ hSome, h.handed.concat ?_⟩
    · rw [hSys', hSys]
      rfl
    · intro t ctx' lr' hEq
      cases hEq
      exact ⟨pre, u, ctx, extended, hTr, hLr.symm⟩
  | work w hRunning => exact h.of_thread hRunning.1 hRunning.1 rfl (Or.inl rfl)
  | createRefused _ _ _ =>
    rw [List.append_nil]
    exact h
  | create _ _ hThread _ _ => exact h.of_thread hThread.1 hThread.1 rfl (Or.inl rfl)
  | @createStep c hThread hAt =>
    refine h.of_thread hThread.1 hThread.1 rfl ?_
    unfold advance
    dsimp only
    split
    · exact Or.inr ⟨_, _, rfl⟩
    · exact Or.inl rfl

/-- **Exactly when tasks are resumed with their own EXC_RETURN**: in the runs all
of whose switches are between frames of one type. -/
theorem ownExcReturn_iff {m₀ : Machine} (hScan : m₀.sys.scan = none) (hMsp : m₀.msp = [])
    (hRun : Runs.Run (Machine.step img) (fun _ _ => True) m₀ tr m) :
    OwnExcReturn tr ↔ MatchingFrames tr := by
  have hStart : Pushed [] m₀ :=
    ⟨fun _ => hMsp, fun hSome => absurd hScan hSome,
      fun pre post t ctx lr hSplit => absurd hSplit.symm (by simp)⟩
  have hPushed : Pushed tr m :=
    hRun.induct Pushed hStart fun _ _ _ _ _ h _ hStep => h.step (step_cases hStep)
  exact hPushed.handed.own_iff_matching

end Runs

-- ---------------------------------------------------------------------------
-- A task with the floating point unit and one without
-- ---------------------------------------------------------------------------

def mixedImage : Image where
  tasks := 0x8000100
  idleTask := 0x08000201
  exitTrap := 0x08000221
  fits := stockConfig_fits

/-- Task `0` runs first; task `1` outranks it. -/
def mixed : Machine :=
  boot mixedImage [(0x08001001, 1), (0x08002001, 2)] (fun _ => 0) (fun _ => rtoskSemaphoreInit 0)
    fun _ => ⟨fun _ => 0, 1, 2, 0, 0, 0, rtoskQueueNoWaiter⟩

/-- A tick, and the switch from task `0` to task `1`. -/
def preemptLabels : List Label :=
  [.kernel .tick, .kernel .pendSv, .kernel .scan, .kernel .scan, .kernel .pendSvExit]

/-- Task `0` uses the floating point unit. -/
def floatLabels : List Label :=
  [.work ⟨fun _ => 0, fun _ => 0, mixedImage.stackEnd 0 - 1, [], some fun _ => 0⟩]

/-- Event `n` resumes a task with another EXC_RETURN than its own. -/
def crossedAt (n : Nat) (tr : List Event) : Bool :=
  match tr[n]? with
  | some (.resumed t _ lr) => lr ≠ excReturn (lastExtended t (tr.take n))
  | _ => false

theorem not_ownExcReturn_of_crossedAt {n : Nat} {tr : List Event} (h : crossedAt n tr = true) :
    ¬ OwnExcReturn tr := by
  intro hOwn
  unfold crossedAt at h
  split at h
  · rename_i t ctx lr hAt
    exact absurd (hOwn _ _ _ _ _ (Runs.split_getElem? hAt)) (by simpa using h)
  · cases h

/-- Task `0` is preempted and task `1` runs. -/
theorem ownExcReturn_iff_mixed :
    ∃ tr m, Runs.Run (step mixedImage) (fun _ _ => True) mixed tr m ∧ m.current = 1 ∧
      (OwnExcReturn tr ↔ MatchingFrames tr) := by
  obtain ⟨tr, m, hRun, hCur⟩ :=
    Runs.exists_run_of_exec (step mixedImage) (fun _ _ => True) mixed preemptLabels
      (fun _ m => m.current = 1) (by decide +kernel)
  exact ⟨tr, m, hRun, hCur, ownExcReturn_iff rfl rfl hRun⟩

/-- **Crossed frame types.** Task `0` is preempted with an extended frame, and
task `1`, which has not run, is resumed with the EXC_RETURN of that frame. -/
theorem excReturn_crossed :
    ∃ tr m, Runs.Run (step mixedImage) (fun _ _ => True) mixed tr m ∧ ¬ OwnExcReturn tr := by
  obtain ⟨tr, m, hRun, hCrossed⟩ :=
    Runs.exists_run_of_exec (step mixedImage) (fun _ _ => True) mixed
      (floatLabels ++ preemptLabels) (fun tr _ => crossedAt 1 tr = true) (by decide +kernel)
  exact ⟨tr, m, hRun, not_ownExcReturn_of_crossedAt hCrossed⟩

end TinyRtos.Machine
