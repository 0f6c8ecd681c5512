import TinyRtos.Results.StartPhase

/-!
# TinyRTOS — the start phase comes to the boot

`Machine.boot` creates the tasks and the idle task at one go. The start phase
does it piece by piece, with ticks and other calls of `main` in between. As long
as nothing requests a switch that makes no difference (`startPhase_boots`): what
the SVC finds in the table and in memory is what `boot` puts there, for the tasks
that `main` has asked for.
-/

namespace TinyRtos.Startup

variable [TaskConfig]

/-- The task table, and memory. -/
abbrev Slots := TaskTable × (Nat → UInt32)

-- ---------------------------------------------------------------------------
-- What is left to do
-- ---------------------------------------------------------------------------

/-- What is left of a creation, done at one go; so many pieces are left. -/
def finishCreate (img : Image) : Nat → Create → Slots → Slots
  | 0, _, s => s
  | left + 1, c, s =>
    match c.advance img s.1 s.2 with
    | (k, mem, some c) => finishCreate img left c (k, mem)
    | (k, mem, none) => (k, mem)

/-- The pieces from a stage on. -/
def left : CreateStage → Nat
  | .watermark => 4
  | .build => 3
  | .fields => 2
  | .count => 1

theorem finishCreate_start {img : Image} {k : TaskTable} {taskFunc : UInt32}
    (hAccepts : Accepts k taskFunc) (priority : UInt32) (mem : Nat → UInt32) :
    finishCreate img 4 (Create.start k taskFunc priority) (k, mem) =
      createTask img (k, mem) (taskFunc, priority) :=
  (createTask_eq_advance hAccepts priority mem).symm

/-- One piece of `rtosk_task_init_idle`. -/
def idlePiece (img : Image) (stage : CreateStage) (s : Slots) : Slots :=
  match stage with
  | .watermark => (s.1, rtoskTaskWatermarkStack img rtoskIdleTaskIndex s.2)
  | .build =>
    let (sp, mem) := rtoskTaskBuildStack img rtoskIdleTaskIndex img.idleTask s.2
    (s.1.setSp rtoskIdleTaskIndex sp, mem)
  | .fields =>
    ({ s.1 with
      tasks := Function.update s.1.tasks rtoskIdleTaskIndex { s.1.tasks rtoskIdleTaskIndex with
        state := .idle
        wakeTick := 0
        priority := 0 } }, s.2)
  | .count => ({ s.1 with idleReady := true }, s.2)

/-- What is left of it. -/
def finishIdle (img : Image) : CreateStage → Slots → Slots
  | .watermark, s => idlePiece img .count (idlePiece img .fields
      (idlePiece img .build (idlePiece img .watermark s)))
  | .build, s => idlePiece img .count (idlePiece img .fields (idlePiece img .build s))
  | .fields, s => idlePiece img .count (idlePiece img .fields s)
  | .count, s => idlePiece img .count s

theorem finishIdle_start {img : Image} {s : Slots} (hIdle : s.1.idleReady = false) :
    finishIdle img .watermark s = initIdle img s := by
  rw [initIdle_eq hIdle]
  simp only [finishIdle, idlePiece, rtoskTaskInitIdle, hIdle, prepareStack, TaskTable.setSp,
    Function.update_self, Function.update_idem]
  rfl

/-- The table and memory. -/
def slots (s : Startup) : Slots := (s.table, s.mem)

variable {img : Image} {s s' : Startup}

theorem advanceIdle_slots (stage : CreateStage) (s : Startup) :
    (s.advanceIdle img stage).slots = idlePiece img stage s.slots := by
  cases stage with
  | watermark => simp only [advanceIdle, slots, table, idlePiece]
  | build | fields | count => rfl

-- ---------------------------------------------------------------------------
-- The simulation
-- ---------------------------------------------------------------------------

/-- The tasks that `main` asks for in a step, and gets. -/
def asks (s : Startup) : Label → List (UInt32 × UInt32)
  | .create taskFunc priority => if Accepts s.table taskFunc then [(taskFunc, priority)] else []
  | _ => []

/-- `main` has created these tasks. -/
def created (img : Image) (mem : Nat → UInt32) (tasks : List (UInt32 × UInt32)) : Slots :=
  tasks.foldl (createTask img) (TaskTable.static, mem)

/-- The start phase is where the boot is, but for what is left of the piece that
`main` is in. While `main` is about to yield nothing is said. -/
def Follows (img : Image) (mem : Nat → UInt32) (tasks : List (UInt32 × UInt32)) (s : Startup) :
    Prop :=
  match s.main with
  | .user | .starting .count => s.slots = created img mem tasks
  | .creating c => finishCreate img (left c.stage) c s.slots = created img mem tasks
  | .starting (.idle stage) => finishIdle img stage s.slots = initIdle img (created img mem tasks)
  | .starting .init | .starting .svc | .started =>
    s.slots = initIdle img (created img mem tasks)
  | .leaving _ | .starting .halted => True

variable {mem : Nat → UInt32} {tasks : List (UInt32 × UInt32)} {l : Label} {es : List Event}

/-- A step that stays in the same piece. -/
theorem Follows.of_same (h : Follows img mem tasks s) (hMain : s'.main = s.main)
    (hSlots : s'.slots = s.slots) : Follows img mem tasks s' := by
  unfold Follows at h ⊢
  rw [hMain, hSlots]
  exact h

/-- A call of `main` that does not yield leaves the table alone. -/
theorem call_returns_table {sys sys' : System} {c : Call} {es : List TinyRtos.Event}
    (hDuring : c.duringStart = true) (hCall : System.CallStep sys c sys' .returns es) :
    sys'.kernel.toTaskTable = sys.kernel.toTaskTable := by
  cases hCall with
  | takeNow | lockFree | lockOwn | receiveNow | enterCritical | exitCritical => cases hDuring
  | unlockStray | sendFull => simp
  | _ => rfl

theorem Follows.createStep {c : Create} (h : Follows img mem tasks s) (hAt : s.main = .creating c) :
    Follows img mem tasks (s.advance img c) := by
  have hLeft : left c.stage =
      (c.advance img s.table s.mem).2.2.elim 0 (fun c => left c.stage) + 1 := by
    obtain ⟨index, taskFunc, priority, stage⟩ := c
    cases stage <;> rfl
  have hMain : (s.advance img c).main =
      (c.advance img s.table s.mem).2.2.elim .user .creating := rfl
  have hSlots : (s.advance img c).slots =
      ((c.advance img s.table s.mem).1, (c.advance img s.table s.mem).2.1) := rfl
  unfold Follows at h ⊢
  rw [hAt] at h
  simp only [hLeft, finishCreate, slots] at h
  rw [hMain, hSlots]
  generalize c.advance img s.table s.mem = r at h ⊢
  obtain ⟨k, mem', rest⟩ := r
  cases rest with
  | none => exact h
  | some c => exact h

theorem Follows.startStep {stage : StartStage} (h : Follows img mem tasks s)
    (hAt : s.main = .starting stage) (hStart : StartCase img s stage s') :
    Follows img mem tasks s' := by
  unfold Follows at h
  rw [hAt] at h
  cases hStart with
  | empty _ => trivial
  | idleReady _ hReady =>
    have hSlots : s.slots = created img mem tasks := h
    show s.slots = initIdle img (created img mem tasks)
    rw [← hSlots]
    show (s.table, s.mem) = initIdle img (s.table, s.mem)
    simp only [initIdle, hReady, if_true]
  | idleNot _ hNot =>
    have hSlots : s.slots = created img mem tasks := h
    show finishIdle img .watermark s.slots = initIdle img (created img mem tasks)
    rw [finishIdle_start hNot, hSlots]
  | idle stage =>
    have hLeft : finishIdle img stage s.slots = initIdle img (created img mem tasks) := h
    have hSlots : (s.advanceIdle img stage).slots = idlePiece img stage s.slots :=
      advanceIdle_slots stage s
    cases stage with
    | watermark =>
      show finishIdle img .build (s.advanceIdle img .watermark).slots = _
      rw [hSlots]
      exact hLeft
    | build =>
      show finishIdle img .fields (s.advanceIdle img .build).slots = _
      rw [hSlots]
      exact hLeft
    | fields =>
      show finishIdle img .count (s.advanceIdle img .fields).slots = _
      rw [hSlots]
      exact hLeft
    | count =>
      show (s.advanceIdle img .count).slots = _
      rw [hSlots]
      exact hLeft
  | init | svc => exact h

theorem asks_eq_nil (hNot : ∀ taskFunc priority, l ≠ .create taskFunc priority) :
    asks s l = [] := by
  cases l with
  | create taskFunc priority => exact absurd rfl (hNot taskFunc priority)
  | _ => rfl

/-- Nothing is pending until a switch is requested. -/
theorem Clear.step (h : Clear s) (hBase : Base img s) (hStep : StepCase img s l s' es)
    (hQuiet : ∀ n, .requested n ∉ es) : Clear s' := by
  have hNotPend : s.sys.kernel.pendSv ≠ true := by
    rw [h.pendSv]
    exact Bool.false_ne_true
  have hNotScan : ∀ c, s.sys.scan ≠ some c := by
    simp [h.scan]
  cases hStep.effect hBase with
  | quiet _ hSwitch | fill _ _ hSwitch | publish _ hSwitch | idle _ hSwitch =>
    exact h.of_sameSwitch hSwitch
  | request => exact absurd (List.mem_singleton.mpr rfl) (hQuiet _)
  | enter _ hPend | through _ hPend => exact absurd hPend hNotPend
  | round hScan | leave hScan => exact absurd hScan (hNotScan _)

/-- **A step that requests no switch goes along with the boot.** -/
theorem Follows.step (h : Follows img mem tasks s) (hClear : Clear s)
    (hStep : StepCase img s l s' es) (hQuiet : ∀ n, .requested n ∉ es) :
    Follows img mem (tasks ++ asks s l) s' := by
  cases hStep with
  | create taskFunc priority _ hUser hAccepts =>
    have hSlots : s.slots = created img mem tasks := by
      unfold Follows at h
      rwa [hUser] at h
    show finishCreate img 4 (Create.start s.table taskFunc priority) s.slots = created img mem _
    rw [asks, if_pos hAccepts, created, List.foldl_append, ← created, ← hSlots]
    exact finishCreate_start hAccepts priority s.mem
  | createRefused taskFunc priority hNot =>
    rw [asks, if_neg hNot, List.append_nil]
    exact h
  | @call c _ exit _ _ hUser hDuring hCall =>
    rw [asks_eq_nil (by simp), List.append_nil]
    cases exit with
    | yields => trivial
    | returns => exact h.of_same hUser.symm (Prod.ext (call_returns_table hDuring hCall) rfl)
  | tick =>
    rw [asks_eq_nil (by simp), List.append_nil]
    cases hInit : s.sys.kernel.kernelInit with
    | true =>
      refine absurd ?_ (hQuiet s.table.taskCount)
      rw [if_pos hInit]
      exact List.mem_singleton.mpr rfl
    | false =>
      refine h.of_same rfl (Prod.ext ?_ rfl)
      show (rtoskKernelTick s.sys.kernel).toTaskTable = s.table
      simp only [rtoskKernelTick, hInit, if_true]
      rfl
  | yield => exact absurd (List.mem_singleton.mpr rfl) (hQuiet _)
  | work | systickInit =>
    rw [asks_eq_nil (by simp), List.append_nil]
    exact h.of_same rfl rfl
  | createStep _ hAt =>
    rw [asks_eq_nil (by simp), List.append_nil]
    exact h.createStep hAt
  | start _ hUser _ =>
    rw [asks_eq_nil (by simp), List.append_nil]
    unfold Follows at h
    rw [hUser] at h
    exact h
  | startAgain =>
    rw [asks_eq_nil (by simp), List.append_nil]
    exact h
  | startStep _ hAt hStart =>
    rw [asks_eq_nil (by simp), List.append_nil]
    exact h.startStep hAt hStart
  | pendSv _ hPend | pendSvEmpty _ hPend =>
    rw [hClear.pendSv] at hPend
    cases hPend
  | scan hScan | pendSvExit hScan =>
    rw [hClear.scan] at hScan
    cases hScan

-- ---------------------------------------------------------------------------
-- Runs
-- ---------------------------------------------------------------------------

/-- What `main` has asked for and got. -/
def askedFor (tr : List (Event ⊕ (UInt32 × UInt32))) : List (UInt32 × UInt32) :=
  tr.filterMap Sum.getRight?

/-- **The start phase comes to the boot.** If no switch is requested before the
SVC, the table and memory are then those of `Machine.boot` for the tasks that
`main` has created, whatever ticks and other calls of `main` came in between. -/
theorem startPhase_boots {s₀ : Startup} {tr : List (Event ⊕ (UInt32 × UInt32))}
    (sems : Nat → Semaphore) (queues : Nat → Queue) (hOn : PowerOn s₀)
    (hRun : Runs.Run (Runs.watch (step img) asks) (fun _ _ => True) s₀ tr s)
    (hQuiet : ∀ n, .inl (.requested n) ∉ tr) (hStarted : s.main = .started) :
    s.table = (Machine.boot img (askedFor tr) s₀.mem sems queues).table ∧
      s.mem = (Machine.boot img (askedFor tr) s₀.mem sems queues).mem := by
  have hStart : Follows img s₀.mem [] s₀ := by
    unfold Follows slots
    rw [hOn.main, hOn.table]
    rfl
  have hInv := hRun.induct
    (fun tr s => Base img s ∧
      ((∀ n, .inl (.requested n) ∉ tr) → Follows img s₀.mem (askedFor tr) s ∧ Clear s))
    ⟨hOn.base img, fun _ => ⟨hStart, hOn.scan, hOn.pendSv⟩⟩ ?_
  · have hFollows := (hInv.2 hQuiet).1
    unfold Follows at hFollows
    rw [hStarted] at hFollows
    exact ⟨congrArg Prod.fst hFollows, congrArg Prod.snd hFollows⟩
  · intro tr s l s' xs ⟨hBase, ih⟩ _ hStep
    obtain ⟨es, hStep', rfl⟩ := Runs.watch_eq_some hStep
    have hCase := step_cases hStep'
    refine ⟨hBase.step hCase, fun hNone => ?_⟩
    obtain ⟨hFollows, hClear⟩ := ih fun n hn => hNone n (List.mem_append_left _ hn)
    have hEvents : ∀ n, .requested n ∉ es := fun n hn => hNone n (by simp [hn])
    have hAsked : askedFor (tr ++ (es.map Sum.inl ++ (asks s l).map Sum.inr)) =
        askedFor tr ++ asks s l := by
      simp [askedFor, List.filterMap_append, List.filterMap_map, Function.comp_def]
    rw [hAsked]
    exact ⟨hFollows.step hClear hCase hEvents, hClear.step hBase hCase hEvents⟩

end TinyRtos.Startup

-- ---------------------------------------------------------------------------
-- A start with ticks
-- ---------------------------------------------------------------------------

namespace TinyRtos.Startup

/-- The SVC has been taken. -/
def isStarted : Main → Bool
  | .started => true
  | _ => false

theorem started_of_isStarted {main : Main} (h : isStarted main = true) : main = .started := by
  cases main with
  | started => rfl
  | _ => cases h

/-- `main` enables SysTick, creates a task, asks for one without a function, and
starts the kernel; ticks come in between. -/
def tickingLabels : List Label :=
  [.systickInit, .create 0x08001001 1, .createStep, .tick, .createStep, .createStep, .createStep,
    .create 0 5, .start, .startStep, .tick] ++ List.replicate 6 .startStep

theorem startPhase_boots_ticking :
    ∃ s, s.table = (Machine.boot giveImage [(0x08001001, 1)] (fun _ => 0)
        (fun _ => rtoskSemaphoreInit 0) fun _ => ⟨fun _ => 0, 1, 2, 0, 0, 0, 0⟩).table ∧
      ∃ tr, Runs.Run (Runs.watch (step giveImage) asks) (fun _ _ => True) powerOn tr s := by
  obtain ⟨tr, s, hRun, hTr, hStarted⟩ :=
    Runs.exists_run_of_exec (Runs.watch (step giveImage) asks) (fun _ _ => True) powerOn
      tickingLabels (fun tr s => tr = [.inr (0x08001001, 1)] ∧ isStarted s.main = true)
      (by decide +kernel)
  have hBoot := startPhase_boots (fun _ => rtoskSemaphoreInit 0)
    (fun _ => ⟨fun _ => 0, 1, 2, 0, 0, 0, 0⟩) powerOn_powerOn hRun (by simp [hTr])
    (started_of_isStarted hStarted)
  rw [hTr] at hBoot
  exact ⟨s, hBoot.1, tr, hRun⟩

end TinyRtos.Startup
