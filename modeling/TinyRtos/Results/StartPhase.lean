import TinyRtos.Port.StartPhase
import TinyRtos.Lib.Runs

/-!
# TinyRTOS — created tasks before the first one runs

A task is created with the stack pointer `rtosk_task_build_stack` returned, and
is to be found with it when SVC comes (`Intact`). PendSV stores PSP in the slot
of the current task, and before SVC PSP is nobody's: what matters is which
switch requests there are. `rtosk_kernel_tick` requests none before
`RTOSK_KERNEL_INIT`, but `rtosk_kernel_yield` always does, and the tick does
between `RTOSK_KERNEL_INIT = 1U` and SVC.

`startPhase_intact_iff`: the tasks are intact as long as every request is made
with an empty task table, and once a request with tasks has been served they
are not, ever. Three phases carry the induction: no such request yet (`Calm`),
one that PendSV has not served (`Doomed`), and one it has (`Broken`).
`leaving_of_call` says which calls of `main` request a switch.
-/

namespace TinyRtos.Startup

open Runs

section

variable [TaskConfig] {img : Image} {s s' : Startup} {l : Label} {es : List Event}

/-- Slot `t` has been created, by `main` or as the idle task. -/
def Has (s : Startup) (t : Nat) : Prop :=
  t < s.table.taskCount ∨ t = rtoskIdleTaskIndex ∧ s.table.idleReady = true

/-- Every created task still has the stack pointer that
`rtosk_task_build_stack` returned for it. -/
def Intact (img : Image) (s : Startup) : Prop :=
  ∀ t, s.Has t → ∀ taskFunc mem,
    (s.table.tasks t).sp = (rtoskTaskBuildStack img t taskFunc mem).1

/-- PSP belongs to no task: the eight words below it begin in no stack. -/
def PspOutside (img : Image) (s : Startup) : Prop :=
  ∀ t < rtoskTotalTaskSlots, ¬ img.InStack t (wordsBelow s.psp)

/-- Every switch was requested with an empty task table. -/
def NoneRequested (tr : List Event) : Prop := ∀ n, .requested n ∈ tr → n = 0

theorem intact_iff : Intact img s ↔ ∀ t, s.Has t → (s.table.tasks t).sp = builtSp img t := by
  constructor
  · intro h t ht
    rw [h t ht 0 fun _ => 0, builtSp_eq]
  · intro h t ht taskFunc mem
    rw [h t ht, builtSp_eq]

-- ---------------------------------------------------------------------------
-- Which slots there are
-- ---------------------------------------------------------------------------

theorem has_lt (h : Base img s) {t : Nat} (ht : s.Has t) : t < rtoskTotalTaskSlots := by
  have hLe := h.taskCount_le
  unfold rtoskTotalTaskSlots
  rcases ht with hLt | ⟨rfl, -⟩
  · omega
  · exact Nat.lt_succ_self _

/-- With tasks in the table the current one is among them. -/
theorem has_current (h : Base img s) (hPos : 0 < s.table.taskCount) :
    s.Has s.table.currentTask := by
  rcases h.current with ⟨hNone, -⟩ | hLt | hIdle
  · omega
  · exact Or.inl hLt
  · exact Or.inr hIdle

theorem pos_of_has (h : Base img s) {t : Nat} (ht : s.Has t) : 0 < s.table.taskCount := by
  rcases ht with hLt | ⟨-, hIdle⟩
  · omega
  · exact h.idleReady hIdle

/-- No slot goes away, and a new one has been built. -/
theorem Effect.has (hEffect : Effect img s s' es) (t : Nat) :
    (s'.Has t ↔ s.Has t) ∨ (s'.Has t ∧ (s'.table.tasks t).sp = builtSp img t) := by
  have hSame (hCount : s'.table.taskCount = s.table.taskCount)
      (hIdle : s'.table.idleReady = s.table.idleReady) : s'.Has t ↔ s.Has t := by
    unfold Has
    rw [hCount, hIdle]
  cases hEffect with
  | quiet hSlots | request hSlots => exact Or.inl (hSame hSlots.taskCount hSlots.idleReady)
  | fill _ _ _ _ hTable | round _ _ hTable =>
    exact Or.inl (hSame (congrArg TaskTable.taskCount hTable :)
      (congrArg TaskTable.idleReady hTable :))
  | enter _ _ _ hTable | through _ _ _ hTable =>
    obtain ⟨hCount, -, hIdle⟩ := saveStackPointer_keeps (wordsBelow s.psp) s.table
    exact Or.inl (hSame (hTable ▸ hCount) (hTable ▸ hIdle))
  | @leave c _ hTable =>
    obtain ⟨hCount, hIdle, -⟩ := selectNextEnd_keeps c s.table
    exact Or.inl (hSame (hTable ▸ hCount) (hTable ▸ hIdle))
  | publish _ _ _ hBuilt hTable =>
    unfold Has
    rw [hTable]
    by_cases hNew : t = s.table.taskCount
    · subst hNew
      exact Or.inr ⟨Or.inl (Nat.lt_succ_self _), hBuilt⟩
    · have hLt : t < s.table.taskCount + 1 ↔ t < s.table.taskCount := by omega
      exact Or.inl (or_congr_left hLt)
  | idle _ _ _ hBuilt hTable =>
    unfold Has
    rw [hTable]
    by_cases hNew : t = rtoskIdleTaskIndex
    · subst hNew
      exact Or.inr ⟨Or.inr ⟨rfl, rfl⟩, hBuilt⟩
    · exact Or.inl (or_congr_right (by simp [hNew]))

/-- Only the entry of PendSV changes the pointer of a task, that of the current
one, to what PSP says. -/
theorem Effect.sp_of_has (h : Base img s) (hEffect : Effect img s s' es) {t : Nat}
    (ht : s.Has t) :
    (s'.table.tasks t).sp = (s.table.tasks t).sp ∨
      s.sys.scan = none ∧ s.sys.kernel.pendSv = true ∧ t = s.table.currentTask ∧
        (s'.table.tasks t).sp = wordsBelow s.psp := by
  cases hEffect with
  | quiet hSlots | request hSlots => exact Or.inl (hSlots.sp t)
  | publish _ _ _ _ hTable | idle _ _ _ _ hTable | round _ _ hTable =>
    rw [hTable]
    exact Or.inl rfl
  | fill u _ _ hFree hTable =>
    have hne : t ≠ u := by
      rintro rfl
      rcases hFree with ⟨hEnd, hRoom⟩ | ⟨hIdle, hNot⟩
      · rcases ht with hLt | ⟨hIdle, -⟩
        · omega
        · exact absurd hIdle (Nat.ne_of_lt hRoom)
      · rcases ht with hLt | ⟨-, hYes⟩
        · have hLe := h.taskCount_le
          unfold rtoskIdleTaskIndex at hIdle
          omega
        · exact absurd (hNot.symm.trans hYes) nofun
    rw [hTable, TaskTable.setSp_sp, if_neg hne]
    exact Or.inl rfl
  | enter hScan hPend _ hTable | through hScan hPend _ hTable =>
    rw [hTable, rtoskTaskSaveStackPointer_eq (pos_of_has h ht), TaskTable.setSp_sp]
    by_cases hCur : t = s.table.currentTask
    · rw [if_pos hCur]
      exact Or.inr ⟨hScan, hPend, hCur, rfl⟩
    · rw [if_neg hCur]
      exact Or.inl rfl
  | @leave c _ hTable =>
    rw [hTable, (selectNextEnd_keeps c s.table).2.2]
    exact Or.inl rfl

-- ---------------------------------------------------------------------------
-- The three phases
-- ---------------------------------------------------------------------------

/-- No request with tasks in the table so far. -/
structure Calm (img : Image) (s : Startup) : Prop where
  intact : ∀ t, s.Has t → (s.table.tasks t).sp = builtSp img t
  scan   : s.sys.scan = none
  pendSv : s.sys.kernel.pendSv = true → s.table.taskCount = 0
  psp    : 0 < rtoskMaxTasks → PspOutside img s

/-- One has been made, and PendSV is still pending. -/
structure Doomed (img : Image) (s : Startup) : Prop where
  pos    : 0 < s.table.taskCount
  scan   : s.sys.scan = none
  pendSv : s.sys.kernel.pendSv = true
  psp    : PspOutside img s

/-- PendSV has stored PSP over the pointer of a task. Outside PendSV, PSP is
from then on what the current slot says. -/
structure Broken (img : Image) (s : Startup) : Prop where
  pos   : 0 < s.table.taskCount
  wrong : ∃ t, s.Has t ∧ (s.table.tasks t).sp ≠ builtSp img t
  psp   : s.sys.scan = none → wordsBelow s.psp = (s.table.tasks s.table.currentTask).sp

theorem PspOutside.of_psp (h : PspOutside img s) (hPsp : s'.psp = s.psp) : PspOutside img s' := by
  intro t ht
  rw [hPsp]
  exact h t ht

/-- PSP after a PendSV without tasks. -/
theorem pspOutside_of_empty (hMax : 0 < rtoskMaxTasks) (hNone : s.table.taskCount = 0)
    (hCur : s.table.currentTask = 0)
    (hPsp : s.psp = wordsAbove (rtoskTaskGetStackPointer s.table)) : PspOutside img s := by
  intro t _
  have hUser : s.table.currentTask ≠ rtoskIdleTaskIndex := by
    rw [hCur]
    exact Nat.ne_of_lt hMax
  have hZero : rtoskTaskGetStackPointer s.table = 0 := by
    unfold rtoskTaskGetStackPointer
    rw [if_neg hUser, if_pos hNone]
  rw [hPsp, hZero, wordsBelow_above (by decide)]
  exact zero_not_inStack img t

/-- Until a request with tasks in the table, nothing happens to them. -/
theorem Calm.intact_step (hBase : Base img s) (h : Calm img s) (hEffect : Effect img s s' es)
    (t : Nat) (ht : s'.Has t) : (s'.table.tasks t).sp = builtSp img t := by
  rcases hEffect.has t with hSame | ⟨-, hBuilt⟩
  · have hHas := hSame.mp ht
    rcases hEffect.sp_of_has hBase hHas with hSp | ⟨-, hPend, -, -⟩
    · rw [hSp]
      exact h.intact t hHas
    · have hPos := pos_of_has hBase hHas
      rw [h.pendSv hPend] at hPos
      exact absurd hPos (Nat.lt_irrefl 0)
  · exact hBuilt

/-- A calm step requests nothing and stays calm, or it is the request. -/
theorem Calm.step (hBase : Base img s) (h : Calm img s) (hEffect : Effect img s s' es) :
    NoneRequested es ∧ Calm img s' ∨ ¬ NoneRequested es ∧ Doomed img s' := by
  have hIntact := h.intact_step hBase hEffect
  have hQuiet : NoneRequested [] := fun _ hn => absurd hn List.not_mem_nil
  have hClear (hThread : s.Thread) (hSwitch : SameSwitch s s') : Calm img s' :=
    have hClear := (hThread.clear hBase.isOpen).of_sameSwitch hSwitch
    ⟨hIntact, hClear.scan, fun hYes => absurd (hClear.pendSv.symm.trans hYes) nofun,
      fun hMax => (h.psp hMax).of_psp hSwitch.psp⟩
  cases hEffect with
  | quiet hSlots hSwitch =>
    refine Or.inl ⟨hQuiet, hIntact, hSwitch.scan.trans h.scan, fun hPend => ?_,
      fun hMax => (h.psp hMax).of_psp hSwitch.psp⟩
    rw [hSlots.taskCount]
    exact h.pendSv (hSwitch.pendSv ▸ hPend)
  | request hSlots hScan hPsp hPend =>
    by_cases hNone : s.table.taskCount = 0
    · refine Or.inl ⟨fun n hn => ?_, hIntact, hScan.trans h.scan,
        fun _ => hSlots.taskCount.trans hNone, fun hMax => (h.psp hMax).of_psp hPsp⟩
      cases List.mem_singleton.mp hn
      exact hNone
    · have hPos : 0 < s.table.taskCount := Nat.pos_of_ne_zero hNone
      have hMax : 0 < rtoskMaxTasks := lt_of_lt_of_le hPos hBase.taskCount_le
      refine Or.inr ⟨fun hAll => hNone (hAll _ (List.mem_singleton_self _)), ?_,
        hScan.trans h.scan, hPend, (h.psp hMax).of_psp hPsp⟩
      rw [hSlots.taskCount]
      exact hPos
  | fill _ hThread hSwitch | publish hThread hSwitch | idle hThread hSwitch =>
    exact Or.inl ⟨hQuiet, hClear hThread hSwitch⟩
  | enter _ hPend hBegin =>
    have hPos := (selectNextBegin_some hBegin).1
    rw [(saveStackPointer_keeps _ s.table).1, h.pendSv hPend] at hPos
    exact absurd hPos (Nat.lt_irrefl 0)
  | through _ hPend _ hTable hScan' hPsp hPend' =>
    obtain ⟨hCount, hCurrent, -⟩ := saveStackPointer_keeps (wordsBelow s.psp) s.table
    rw [← hTable] at hCount hCurrent
    have hNone : s.table.taskCount = 0 := h.pendSv hPend
    have hCur : s.table.currentTask = 0 := by
      rcases hBase.current with ⟨-, hZero⟩ | hLt | ⟨-, hIdle⟩
      · exact hZero
      · omega
      · exact absurd (hBase.idleReady hIdle) (by omega)
    exact Or.inl ⟨hQuiet, hIntact, hScan', fun hYes => absurd (hPend'.symm.trans hYes) nofun,
      fun hMax => pspOutside_of_empty hMax (hCount.trans hNone) (hCurrent.trans hCur) hPsp⟩
  | round hScan | leave hScan => exact absurd (h.scan.symm.trans hScan) nofun

/-- PendSV comes, and stores PSP over the pointer of the current task. -/
theorem Doomed.step (hBase : Base img s) (h : Doomed img s) (hEffect : Effect img s s' es) :
    Doomed img s' ∨ Broken img s' := by
  have hThread (hYes : s.Thread) : False :=
    absurd ((hYes.clear hBase.isOpen).pendSv.symm.trans h.pendSv) nofun
  cases hEffect with
  | quiet hSlots hSwitch =>
    exact Or.inl ⟨hSlots.taskCount ▸ h.pos, hSwitch.scan.trans h.scan,
      hSwitch.pendSv.trans h.pendSv, h.psp.of_psp hSwitch.psp⟩
  | request hSlots hScan hPsp hPend =>
    exact Or.inl ⟨hSlots.taskCount ▸ h.pos, hScan.trans h.scan, hPend, h.psp.of_psp hPsp⟩
  | fill _ hYes | publish hYes | idle hYes => exact (hThread hYes).elim
  | enter _ _ _ hTable hScan' =>
    obtain ⟨hCount, hCurrent, hIdle⟩ := saveStackPointer_keeps (wordsBelow s.psp) s.table
    rw [← hTable] at hCount hCurrent hIdle
    have hCur := has_current hBase h.pos
    refine Or.inr ⟨hCount ▸ h.pos, ⟨s.table.currentTask, ?_, ?_⟩,
      fun hNone => absurd (hNone.symm.trans hScan') nofun⟩
    · unfold Has
      rw [hCount, hIdle]
      exact hCur
    · rw [hTable, rtoskTaskSaveStackPointer_eq h.pos, TaskTable.setSp_sp, if_pos rfl]
      intro hEq
      have hSlot := has_lt hBase hCur
      exact h.psp _ hSlot (hEq ▸ builtSp_inStack img hSlot)
  | through _ _ hBegin =>
    exact absurd (selectNextBegin_none hBegin) (Nat.ne_of_gt h.pos)
  | round hScan | leave hScan => exact absurd (h.scan.symm.trans hScan) nofun

/-- It is not put right: PendSV stores the same pointers again. -/
theorem Broken.step (hBase : Base img s) (h : Broken img s) (hEffect : Effect img s s' es) :
    Broken img s' := by
  have hKeep (t : Nat) (ht : s.Has t) : (s'.table.tasks t).sp = (s.table.tasks t).sp := by
    rcases hEffect.sp_of_has hBase ht with hSp | ⟨hScan, -, rfl, hSp⟩
    · exact hSp
    · exact hSp.trans (h.psp hScan)
  obtain ⟨t, hHas, hWrong⟩ := h.wrong
  have hWrong' : ∃ t, s'.Has t ∧ (s'.table.tasks t).sp ≠ builtSp img t := by
    refine ⟨t, ?_, by rw [hKeep t hHas]; exact hWrong⟩
    rcases hEffect.has t with hSame | ⟨hNew, -⟩
    · exact hSame.mpr hHas
    · exact hNew
  have hPos := lt_of_lt_of_le h.pos hEffect.taskCount_ge
  have hCur := hKeep _ (has_current hBase h.pos)
  have hSame (hCurrent : s'.table.currentTask = s.table.currentTask)
      (hScan : s'.sys.scan = s.sys.scan) (hPsp : s'.psp = s.psp) : Broken img s' :=
    ⟨hPos, hWrong', fun hNone => by
      rw [hCurrent, hCur, hPsp]
      exact h.psp (hScan.symm.trans hNone)⟩
  cases hEffect with
  | quiet hSlots hSwitch => exact hSame hSlots.currentTask hSwitch.scan hSwitch.psp
  | request hSlots hScan hPsp => exact hSame hSlots.currentTask hScan hPsp
  | fill _ _ hSwitch _ hTable | publish _ hSwitch _ _ hTable | idle _ hSwitch _ _ hTable =>
    exact hSame (congrArg TaskTable.currentTask hTable :) hSwitch.scan hSwitch.psp
  | enter _ _ _ _ hScan' | round _ _ _ hScan' =>
    exact ⟨hPos, hWrong', fun hNone => absurd (hNone.symm.trans hScan') nofun⟩
  | through _ _ hBegin =>
    exact absurd (selectNextBegin_none hBegin) (Nat.ne_of_gt h.pos)
  | leave _ hTable hScan' hPsp =>
    refine ⟨hPos, hWrong', fun _ => ?_⟩
    rw [hPsp, rtoskTaskGetStackPointer_eq hPos, wordsBelow_above]
    rw [hTable, (selectNextEnd_keeps _ s.table).2.2]
    exact hBase.sp_lt _

-- ---------------------------------------------------------------------------
-- Runs
-- ---------------------------------------------------------------------------

omit [TaskConfig] in
theorem noneRequested_append {tr es : List Event} :
    NoneRequested (tr ++ es) ↔ NoneRequested tr ∧ NoneRequested es := by
  constructor
  · intro h
    exact ⟨fun n hn => h n (List.mem_append_left _ hn), fun n hn =>
      h n (List.mem_append_right _ hn)⟩
  · rintro ⟨hOld, hNew⟩ n hn
    rcases List.mem_append.mp hn with hn | hn
    · exact hOld n hn
    · exact hNew n hn

/-- The phase goes with the history. -/
theorem phase_run {s₀ : Startup} (hOn : PowerOn s₀) (hPsp : PspOutside img s₀) {tr : List Event}
    (hRun : Run (step img) (fun _ _ => True) s₀ tr s) :
    Base img s ∧ (NoneRequested tr ∧ Calm img s ∨
      ¬ NoneRequested tr ∧ (Doomed img s ∨ Broken img s)) := by
  refine hRun.induct (fun tr s => Base img s ∧ (NoneRequested tr ∧ Calm img s ∨
    ¬ NoneRequested tr ∧ (Doomed img s ∨ Broken img s))) ?_ ?_
  · refine ⟨hOn.base img, Or.inl ⟨fun _ hn => absurd hn List.not_mem_nil, fun t ht => ?_,
      hOn.scan, fun hYes => absurd (hOn.pendSv.symm.trans hYes) nofun, fun _ => hPsp⟩⟩
    have hPos := pos_of_has (hOn.base img) ht
    rw [hOn.table] at hPos
    exact absurd hPos (Nat.lt_irrefl 0)
  · rintro tr s l s' es ⟨hBase, hPhase⟩ - hStep
    have hCase := step_cases hStep
    have hEffect := hCase.effect hBase
    refine ⟨hBase.step hCase, ?_⟩
    rw [noneRequested_append]
    rcases hPhase with ⟨hNone, hCalm⟩ | ⟨hSome, hDoomed | hBroken⟩
    · rcases hCalm.step hBase hEffect with ⟨hNone', hCalm'⟩ | ⟨hSome', hDoomed'⟩
      · exact Or.inl ⟨⟨hNone, hNone'⟩, hCalm'⟩
      · exact Or.inr ⟨fun h => hSome' h.2, Or.inl hDoomed'⟩
    · exact Or.inr ⟨fun h => hSome h.1, hDoomed.step hBase hEffect⟩
    · exact Or.inr ⟨fun h => hSome h.1, Or.inr (hBroken.step hBase hEffect)⟩

/-- **Created tasks stay as built up to SVC exactly if no switch is requested
once there are any**: at every moment of a run without such a request, and, if
there was one, at no moment after PendSV has served it. -/
theorem startPhase_intact_iff {s₀ : Startup} (hOn : PowerOn s₀) (hPsp : PspOutside img s₀)
    {tr : List Event} (hRun : Run (step img) (fun _ _ => True) s₀ tr s) :
    (NoneRequested tr → Intact img s) ∧
      (s.sys.kernel.pendSv = false → (Intact img s ↔ NoneRequested tr)) := by
  obtain ⟨-, hPhase⟩ := phase_run hOn hPsp hRun
  rw [intact_iff]
  rcases hPhase with ⟨hNone, hCalm⟩ | ⟨hSome, hDoomed | hBroken⟩
  · exact ⟨fun _ => hCalm.intact, fun _ => ⟨fun _ => hNone, fun _ => hCalm.intact⟩⟩
  · exact ⟨fun h => absurd h hSome, fun hDone => absurd (hDone.symm.trans hDoomed.pendSv) nofun⟩
  · obtain ⟨t, hHas, hWrong⟩ := hBroken.wrong
    exact ⟨fun h => absurd h hSome, fun _ =>
      ⟨fun h => absurd (h t hHas) hWrong, fun h => absurd h hSome⟩⟩

-- ---------------------------------------------------------------------------
-- Which steps request a switch
-- ---------------------------------------------------------------------------

/-- The calls of `main` that come to `rtosk_kernel_yield`. -/
def YieldsIn (s : System) : Call → Prop
  | .yield | .semaphoreGive (some _) => True
  | .mutexUnlock (some m) => (s.mutexes m).owner = s.kernel.currentTask
  | .queueSend (some q) (some _) => (s.queues q).count < (s.queues q).capacity
  | _ => False

omit [TaskConfig] in
theorem not_yieldsIn_of_null {s : System} {c : Call} (hNull : c.isNull = true) :
    ¬ YieldsIn s c := by
  cases c with
  | yield => cases hNull
  | semaphoreGive i | mutexUnlock i => cases i <;> first | exact id | cases hNull
  | queueSend q item => cases q <;> cases item <;> first | exact id | cases hNull
  | _ => exact id

/-- Whether a call of `main` requests a switch is decided where it starts. -/
theorem leaving_iff {s s' : System} {c : Call} {exit : Exit} {es : List TinyRtos.Event}
    (hDuring : c.duringStart = true) (hCall : System.CallStep s c s' exit es) :
    afterCall c exit = .leaving c ↔ YieldsIn s c := by
  cases hCall with
  | null _ hNull => simp [afterCall, not_yieldsIn_of_null hNull]
  | takeNow | takeBlock | lockFree | lockOwn | lockBlock | receiveNow | receiveBlock | sleepMs
  | enterCritical | exitCritical => cases hDuring
  | sendFull q item hFull =>
    simp only [afterCall, YieldsIn, reduceCtorEq, false_iff]
    exact UInt32.not_lt.mpr hFull
  | sendWake q item hRoom | sendNone q item hRoom =>
    simp only [afterCall, YieldsIn, true_iff]
    exact UInt32.not_le.mp hRoom
  | unlockStray m hOther => simp [afterCall, YieldsIn, hOther]
  | unlockWake m hOwn | unlockNone m hOwn => simp [afterCall, YieldsIn, hOwn]
  | _ => simp [afterCall, YieldsIn]

/-- Requests are made by those calls, and by the tick after
`RTOSK_KERNEL_INIT = 1U`. -/
theorem StepCase.requested (hStep : StepCase img s l s' es) {n : Nat} (hn : .requested n ∈ es) :
    n = s.table.taskCount ∧
      (l = .yield ∧ (∃ c, s.main = .leaving c) ∨ l = .tick ∧ s.sys.kernel.kernelInit = true) := by
  cases hStep with
  | yield _ hAt =>
    cases List.mem_singleton.mp hn
    exact ⟨rfl, Or.inl ⟨rfl, _, hAt⟩⟩
  | tick =>
    split at hn
    · rename_i hInit
      cases List.mem_singleton.mp hn
      exact ⟨rfl, Or.inr ⟨rfl, hInit⟩⟩
    · cases hn
  | _ => cases hn

end

-- ---------------------------------------------------------------------------
-- A give in `main`
-- ---------------------------------------------------------------------------

def giveImage : Image where
  tasks := 0x8000100
  idleTask := 0x08000201
  exitTrap := 0x08000221
  fits := stockConfig_fits

/-- Power-on with PSP at the end of the address space. -/
def powerOn : Startup where
  sys := { System.start TaskTable.static (fun _ => rtoskSemaphoreInit 0)
      (fun _ => ⟨fun _ => 0, 1, 2, 0, 0, 0, rtoskQueueNoWaiter⟩) with
    kernel := { (System.start TaskTable.static (fun _ => rtoskSemaphoreInit 0)
      (fun _ => ⟨fun _ => 0, 1, 2, 0, 0, 0, rtoskQueueNoWaiter⟩)).kernel with
      kernelInit := false } }
  mem := fun _ => 0
  r4r11 := fun _ => 0
  psp := 0
  msp := []
  systickInit := false
  main := .user

theorem powerOn_powerOn : PowerOn powerOn where
  table := rfl
  isOpen := ⟨by decide, rfl⟩
  kernelInit := rfl
  pendSv := rfl
  scan := rfl
  systickInit := rfl
  main := rfl
  psp_lt := by decide

theorem powerOn_pspOutside : PspOutside giveImage powerOn := by
  unfold PspOutside
  decide

/-- `main` creates a task. -/
def createLabels : List Label :=
  [.create 0x08001001 1, .createStep, .createStep, .createStep, .createStep]

/-- `main` gives a semaphore, creates a task, enables SysTick and starts the
kernel up to the SVC. -/
def startLabels : List Label :=
  [.call (.semaphoreGive (some 0)), .yield, .pendSv] ++ createLabels ++
    [.systickInit, .tick, .start, .startStep, .startStep, .tick, .startStep, .startStep,
      .startStep, .startStep, .startStep]

theorem startPhase_intact_started :
    ∃ tr s, Run (step giveImage) (fun _ _ => True) powerOn tr s ∧ s.table.taskCount = 1 ∧
      Intact giveImage s := by
  obtain ⟨tr, s, hRun, hCount, hNone⟩ :=
    exists_run_of_exec (step giveImage) (fun _ _ => True) powerOn startLabels
      (fun tr s => s.table.taskCount = 1 ∧ tr = [.requested 0]) (by decide +kernel)
  refine ⟨tr, s, hRun, hCount,
    (startPhase_intact_iff powerOn_powerOn powerOn_pspOutside hRun).1 fun n hn => ?_⟩
  rw [hNone] at hn
  cases List.mem_singleton.mp hn
  rfl

/-- **A give in `main` after the first creation.** PendSV comes at once, and the
new task's stack pointer is gone. -/
theorem startPhase_give :
    ∃ tr s, Run (step giveImage) (fun _ _ => True) powerOn tr s ∧ ¬ Intact giveImage s := by
  obtain ⟨tr, s, hRun, hPos, hWrong⟩ :=
    exists_run_of_exec (step giveImage) (fun _ _ => True) powerOn
      (createLabels ++ [.call (.semaphoreGive (some 0)), .yield, .pendSv])
      (fun _ s => 0 < s.table.taskCount ∧ (s.table.tasks 0).sp ≠ builtSp giveImage 0)
      (by decide +kernel)
  exact ⟨tr, s, hRun, fun hIntact => hWrong (intact_iff.mp hIntact 0 (Or.inl hPos))⟩

end TinyRtos.Startup
