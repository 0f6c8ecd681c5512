import TinyRtos.Port.StackUsage
import TinyRtos.Results.ContextSwitch

/-!
# TinyRTOS — what the `tasks` command says about the stacks

Along every run from the boot, whatever the tasks do:

* `tasks_lists_usage` — the command lists the slots in use, in order, the idle
  task last. The words it calls free are those below the lowest word stored to
  since the stack was filled; it never calls more used than were, and calls
  fewer used only if someone has stored the watermark itself. All lines are
  evaluated in one state here, while the code prints them one after the other.
* `count_ends_between` — the kernel counts the words one by one, with interrupts
  on, while the tasks go on. The number it ends with lies between what is free in
  the end and what was free at the beginning.
-/

namespace TinyRtos.Machine

open HighWater

variable [TaskConfig] {img : Image} {tasks : List (UInt32 × UInt32)} {mem : Nat → UInt32}
  {sems : Nat → Semaphore} {queues : Nat → Queue} {m₀ m : Machine}

-- ---------------------------------------------------------------------------
-- The stacks at the start
-- ---------------------------------------------------------------------------

/-- The words of a stack below the frame that was built carry the watermark, and
the frame's first word does not. -/
def Fresh (img : Image) (k : TaskTable) (mem : Nat → UInt32) (t : Nat) : Prop :=
  FirstUsed rtoskStackWatermark (img.stack t mem) rtoskTaskStackWords
    ((k.tasks t).sp - img.stackBase t)

theorem prepareStack_fresh {k : TaskTable} {n : Nat} (hn : n < rtoskTotalTaskSlots)
    (taskFunc : UInt32) (mem : Nat → UInt32)
    (hSp : (k.tasks n).sp = (prepareStack img n taskFunc mem).1) :
    Fresh img k (prepareStack img n taskFunc mem).2 n := by
  obtain ⟨⟨hLo, hHi⟩, hFrame⟩ := prepareStack_builtAt hn hSp
  have hEnd : img.stackEnd n = img.stackBase n + rtoskTaskStackWords := rfl
  unfold Fresh
  generalize (k.tasks n).sp = sp at *
  refine ⟨?_, fun i hi => ?_, fun _ => ?_⟩
  · omega
  · have hBelow : img.stackBase n + i < (prepareStack img n taskFunc mem).1 := by omega
    exact (buildStack_of_below hn taskFunc hBelow).trans (unused_filled i (by omega))
  · have hWord : (prepareStack img n taskFunc mem).2 sp = 0 := hFrame.r4r11 0
    unfold Image.stack
    rw [Nat.add_sub_cancel' hLo, hWord]
    decide

theorem Fresh.of_frame {k k' : TaskTable} {mem mem' : Nat → UInt32} {t : Nat}
    (h : Fresh img k mem t) (hSp : (k'.tasks t).sp = (k.tasks t).sp)
    (hMem : ∀ a, img.InStack t a → mem' a = mem a) : Fresh img k' mem' t := by
  unfold Fresh
  rw [hSp]
  exact h.congr fun i hi => hMem _ ⟨Nat.le_add_right .., Nat.add_lt_add_left hi _⟩

/-- After the boot every stack is used by its frame only. -/
theorem boot_fresh (hFuncs : ∀ task ∈ tasks, task.1 ≠ 0) (hLen : tasks.length ≤ rtoskMaxTasks)
    {t : Nat} (ht : Live (boot img tasks mem sems queues).table t) :
    Fresh img (boot img tasks mem sems queues).table (boot img tasks mem sems queues).mem t := by
  obtain ⟨hCount, hIdle, hFresh⟩ := createTasks_induct img mem
    (fun tasks r => r.1.idleReady = false ∧ ∀ t < tasks.length, Fresh img r.1 r.2 t)
    ⟨rfl, fun t ht => absurd ht (Nat.not_lt_zero t)⟩
    (fun before taskFunc priority r hCount hAccepts ⟨hIdle, hBefore⟩ => by
      have hRoom := hAccepts.2
      have hSlot : r.1.taskCount < rtoskTotalTaskSlots := lt_of_lt_of_le hRoom (Nat.le_succ _)
      refine ⟨?_, fun t ht => ?_⟩
      · simpa [rtoskTaskCreate, Nat.not_le.mpr hRoom] using hIdle
      · rw [List.length_append, List.length_singleton] at ht
        by_cases hNew : t = r.1.taskCount
        · subst hNew
          refine prepareStack_fresh hSlot taskFunc r.2 ?_
          rw [rtoskTaskCreate_sp hRoom, if_pos rfl]
        · refine (hBefore t (by omega)).of_frame ?_
            fun a ha => prepareStack_of_ne hSlot hNew taskFunc r.2 ha
          rw [rtoskTaskCreate_sp hRoom, if_neg hNew]) hFuncs hLen
  have hSlot : rtoskIdleTaskIndex < rtoskTotalTaskSlots := Nat.lt_succ_self _
  unfold boot at ht ⊢
  generalize tasks.foldl (createTask img) (TaskTable.static, mem) = r at *
  rw [initIdle_eq hIdle] at ht ⊢
  have hSp := rtoskTaskInitIdle_sp hIdle (prepareStack img rtoskIdleTaskIndex img.idleTask r.2).1
  by_cases hEq : t = rtoskIdleTaskIndex
  · subst hEq
    exact prepareStack_fresh (k := rtoskTaskInitIdle _ r.1) hSlot img.idleTask r.2
      (by rw [hSp, if_pos rfl])
  · have hUser : t < tasks.length := by
      rcases ht with hLt | hIs
      · have hLt' : t < (rtoskTaskInitIdle
            (prepareStack img rtoskIdleTaskIndex img.idleTask r.2).1 r.1).taskCount := hLt
        rw [rtoskTaskInitIdle_taskCount] at hLt'
        omega
      · exact absurd hIs hEq
    refine Fresh.of_frame (k := r.1) (hFresh t hUser) ?_ fun a ha =>
      prepareStack_of_ne hSlot hEq img.idleTask r.2 ha
    show ((rtoskTaskInitIdle _ r.1).tasks t).sp = _
    rw [hSp, if_neg hEq]

-- ---------------------------------------------------------------------------
-- Runs
-- ---------------------------------------------------------------------------

/-- What a watched history stored. -/
def touched (tr : List (Event ⊕ Touch)) : List Touch := tr.filterMap Sum.getRight?

omit [TaskConfig] in
theorem touched_append (tr tr' : List (Event ⊕ Touch)) :
    touched (tr ++ tr') = touched tr ++ touched tr' := List.filterMap_append

omit [TaskConfig] in
theorem touched_remarks (es : List Event) (ts : List Touch) :
    touched (es.map Sum.inl ++ ts.map Sum.inr) = ts := by
  simp [touched, List.filterMap_append, List.filterMap_map, Function.comp_def]

/-- The lowest word of the stack of slot `t` that a history stored to, if it was
`low` before. -/
def lowest (img : Image) (t low : Nat) (tr : List (Event ⊕ Touch)) : Nat :=
  (touched tr).foldl (Touch.lower img t) low

/-- Memory is what the stores have made of it. -/
theorem touched_mem {tr : List (Event ⊕ Touch)} {G : Machine → Label → Prop}
    (hRun : Runs.Run (Runs.watch (step img) (touches img)) G m₀ tr m) :
    m.mem = (touched tr).foldl (Touch.apply img) m₀.mem := by
  refine hRun.induct (fun tr m => m.mem = (touched tr).foldl (Touch.apply img) m₀.mem) rfl ?_
  intro tr m l m' xs hMem _ hStep
  obtain ⟨es, hStep', rfl⟩ := Runs.watch_eq_some hStep
  rw [step_mem hStep', hMem, touched_append, touched_remarks, List.foldl_append]

/-- **The mark is the lowest word stored to.** -/
theorem freeWords_lowest {tr : List (Event ⊕ Touch)} {G : Machine → Label → Prop}
    (hRun : Runs.Run (Runs.watch (step img) (touches img)) G m₀ tr m) (t : Nat) :
    let low := lowest img t (rtoskTaskGetStackFreeWords img t m₀.mem) tr
    low ≤ rtoskTaskGetStackFreeWords img t m.mem ∧
      ((∀ a, .store a rtoskStackWatermark ∉ touched tr) →
        rtoskTaskGetStackFreeWords img t m.mem = low) := by
  have hStart := freeWords_firstUsed img t m₀.mem
  have hEnd := freeWords_firstUsed img t m.mem
  have hMem := touched_mem hRun
  refine ⟨?_, fun hMark => hEnd.unique ?_⟩
  · obtain ⟨hLe, hUnused⟩ := unused_touches (touched tr) hStart.le hStart.unused
    rw [← hMem] at hUnused
    exact hEnd.le_of_unused hUnused hLe
  · rw [hMem]
    exact firstUsed_touches (touched tr) hStart hMark

/-- Until it is created, a slot is not in use. -/
theorem run_inOrder {tr : List (Event ⊕ Touch)} (hStart : InOrder m₀)
    (hRun : Runs.Run (Runs.watch (step img) (touches img)) CreatesAlone m₀ tr m) : InOrder m := by
  refine hRun.induct (fun _ m => InOrder m) hStart ?_
  intro _ m l m' xs h hAlone hStep
  obtain ⟨es, hStep', -⟩ := Runs.watch_eq_some hStep
  exact h.step hAlone (step_cases hStep')

/-- A slot that came into use has been filled. -/
structure Filled (m₀ : Machine) (tr : List (Event ⊕ Touch)) (m : Machine) : Prop where
  live   : ∀ t, Live m.table t → Live m₀.table t ∨ .filled t ∈ touched tr
  flight : ∀ u c, m.creates u = some c → c.stage = .watermark ∨ .filled c.index ∈ touched tr

theorem Filled.append {tr : List (Event ⊕ Touch)} (h : Filled m₀ tr m) (xs : List (Event ⊕ Touch)) :
    Filled m₀ (tr ++ xs) m := by
  have hMono : ∀ e ∈ touched tr, e ∈ touched (tr ++ xs) := by
    intro e he
    rw [touched_append]
    exact List.mem_append_left _ he
  exact ⟨fun t ht => (h.live t ht).imp_right (hMono _),
    fun u c hc => (h.flight u c hc).imp_right (hMono _)⟩

/-- Before its last piece a creation has filled the slot, or is about to. -/
theorem Filled.fill {tr : List (Event ⊕ Touch)} {m' : Machine} (h : Filled m₀ tr m) {c : Create}
    (hCount : m'.table.taskCount = m.table.taskCount)
    (hCreates : m'.creates = Function.update m.creates m.current (some c))
    (hFilled : c.stage = .watermark ∨ .filled c.index ∈ touched tr) : Filled m₀ tr m' := by
  refine ⟨fun t ht => h.live t ((live_congr hCount t).mp ht), fun u d hd => ?_⟩
  rw [hCreates] at hd
  by_cases hu : u = m.current
  · rw [hu, Function.update_self] at hd
    obtain rfl := Option.some.inj hd
    exact hFilled
  · rw [Function.update_of_ne hu] at hd
    exact h.flight u d hd

theorem Filled.step {tr : List (Event ⊕ Touch)} {m' : Machine} (h : Filled m₀ tr m)
    (hOrder : InOrder m) {l : Label} {es : List Event} (hStep : m.step img l = some (m', es)) :
    Filled m₀ (tr ++ (es.map Sum.inl ++ (touches img m l).map Sum.inr)) m' := by
  have hAfter := h.append (es.map Sum.inl ++ (touches img m l).map Sum.inr)
  cases slot_cases (step_cases hStep) with
  | same hSame =>
    refine ⟨fun t ht => hAfter.live t ((live_congr hSame.taskCount t).mp ht), ?_⟩
    rw [hSame.creates]
    exact hAfter.flight
  | create func priority => exact hAfter.fill rfl rfl (Or.inl rfl)
  | @createStep c hAt =>
    have hFilled := hAfter.flight _ c hAt
    obtain ⟨index, func, priority, stage⟩ := c
    cases stage with
    | watermark =>
      refine hAfter.fill (c := ⟨index, func, priority, .build⟩) rfl rfl (Or.inr ?_)
      rw [touched_append, touched_remarks]
      refine List.mem_append_right _ ?_
      simp [touches, hAt]
    | build =>
      exact hAfter.fill (c := ⟨index, func, priority, .fields⟩) rfl rfl
        (Or.inr (hFilled.resolve_left (by simp)))
    | fields =>
      exact hAfter.fill (c := ⟨index, func, priority, .count⟩) rfl rfl
        (Or.inr (hFilled.resolve_left (by simp)))
    | count =>
      refine ⟨fun t ht => ?_, fun u d hd => ?_⟩
      · by_cases hNew : t = index
        · rw [hNew]
          exact Or.inr (hFilled.resolve_left (by simp))
        · refine hAfter.live t ?_
          rcases ht with hLt | hIdle
          · have hLt' : t < m.table.taskCount + 1 := hLt
            have hIndex : index = m.table.taskCount := (hOrder.flight _ _ hAt).2.1
            exact Or.inl (by omega)
          · exact Or.inr hIdle
      · have hd' : Function.update m.creates m.current none u = some d := hd
        by_cases hu : u = m.current
        · rw [hu, Function.update_self] at hd'
          cases hd'
        · rw [Function.update_of_ne hu] at hd'
          exact hAfter.flight u d hd'

theorem run_filled {tr : List (Event ⊕ Touch)} {funcs : Nat → UInt32} (hStart : Started img funcs m₀)
    (hRun : Runs.Run (Runs.watch (step img) (touches img)) CreatesAlone m₀ tr m) :
    Filled m₀ tr m := by
  have hInv := hRun.induct (fun tr m => InOrder m ∧ Filled m₀ tr m)
    ⟨hStart.inOrder, fun t ht => Or.inl ht,
      fun u c hc => absurd ((hStart.creates u).symm.trans hc) (by simp)⟩ ?_
  · exact hInv.2
  · intro tr m l m' xs ⟨hOrder, hFilled⟩ hAlone hStep
    obtain ⟨es, hStep', rfl⟩ := Runs.watch_eq_some hStep
    exact ⟨hOrder.step hAlone (step_cases hStep'), hFilled.step hOrder hStep'⟩

/-- Of the slots, those in use, in order. -/
theorem filter_live {k : TaskTable} (hCount : k.taskCount ≤ rtoskMaxTasks) {β : Type*}
    {f : Nat → Option β} {g : Nat → β} (hLive : ∀ t, Live k t → f t = some (g t))
    (hNot : ∀ t, ¬ Live k t → f t = none) :
    (List.range rtoskTotalTaskSlots).filterMap f =
      (List.range k.taskCount ++ [rtoskIdleTaskIndex]).map g := by
  have hSplit : rtoskTotalTaskSlots = k.taskCount + (rtoskMaxTasks - k.taskCount) + 1 := by
    unfold rtoskTotalTaskSlots
    omega
  have hIdle : k.taskCount + (rtoskMaxTasks - k.taskCount) = rtoskIdleTaskIndex := by
    unfold rtoskIdleTaskIndex
    omega
  have hUser : ∀ n ≤ k.taskCount, (List.range n).filterMap f = (List.range n).map g := by
    intro n hn
    induction n with
    | zero => rfl
    | succ n ih =>
      rw [List.range_succ, List.filterMap_append, List.map_append, ih (by omega)]
      simp [hLive n (Or.inl hn)]
  have hFree : ∀ n ≤ rtoskMaxTasks - k.taskCount,
      (List.range (k.taskCount + n)).filterMap f = (List.range k.taskCount).map g := by
    intro n hn
    induction n with
    | zero => exact hUser _ le_rfl
    | succ n ih =>
      have hDead : ¬ Live k (k.taskCount + n) := by
        rintro (hLt | hEq)
        · omega
        · rw [rtoskIdleTaskIndex] at hEq
          omega
      rw [← Nat.add_assoc, List.range_succ, List.filterMap_append, ih (by omega)]
      simp [hNot _ hDead]
  rw [hSplit, List.range_succ, List.filterMap_append, hFree _ le_rfl, hIdle, List.map_append]
  simp [hLive rtoskIdleTaskIndex (Or.inr rfl)]

/-- Where the stack of a slot begins to be used: at the frame that the boot has
built for it, or not at all. -/
def lowAtBoot (img : Image) (k : TaskTable) (t : Nat) : Nat :=
  if Live k t then (k.tasks t).sp - img.stackBase t else rtoskTaskStackWords

/-- **What the `tasks` command prints**, all of it evaluated in one state, at the
end of a run in which no creation begins inside another. In the code the tasks go
on between two lines, and during a count (`count_ends_between`). -/
theorem tasks_lists_usage {tr : List (Event ⊕ Touch)} (names : Nat → List UInt8)
    (info : RtoskTaskInfo) (env : Env) (literal : List UInt8) (hTasks : tasks ≠ [])
    (hFuncs : ∀ task ∈ tasks, task.1 ≠ 0) (hLen : tasks.length ≤ rtoskMaxTasks)
    (hSems : ∀ i, (sems i).waitingTask = rtoskSemaphoreNoWaiter)
    (hQueues : ∀ q, (queues q).waitingTask = rtoskQueueNoWaiter ∧ (queues q).head = 0 ∧
      (queues q).tail = 0 ∧ (queues q).count = 0)
    (hRun : Runs.Run (Runs.watch (step img) (touches img)) CreatesAlone
      (boot img tasks mem sems queues) tr m) :
    osiInvoke { env with taskInfo := kernelTaskInfo img names info m.table m.mem } .tasks
        literal = ascii "\rID  PRI  STATE   USED  FREE  NAME\r\n" ::
      ascii "-----------------------------------\r\n" ::
      (List.range m.table.taskCount ++ [rtoskIdleTaskIndex]).map
        (fun t => taskLine (usage img names m.table m.mem t)) ∧
    ∀ t, Live m.table t →
      let low := lowest img t (lowAtBoot img (boot img tasks mem sems queues).table t) tr
      low ≤ rtoskTaskGetStackFreeWords img t m.mem ∧
      ((∀ a, .store a rtoskStackWatermark ∉ touched tr) →
        rtoskTaskGetStackFreeWords img t m.mem = low) := by
  have hStart : Started img (bootFuncs img tasks) (boot img tasks mem sems queues) :=
    boot_started hTasks hFuncs hLen hSems hQueues
  have hOrder := run_inOrder hStart.inOrder hRun
  refine ⟨?_, fun t hLive => ?_⟩
  · simp only [osiInvoke]
    rw [filter_live hOrder.count (g := fun t => taskLine (usage img names m.table m.mem t))]
    · intro t hLive
      rw [kernelTaskInfo_live hOrder.count hOrder.idleReady hLive, Option.map_some]
    · intro t hNot
      rw [kernelTaskInfo_none hNot, Option.map_none]
  · have hLow := freeWords_lowest hRun t
    unfold lowAtBoot
    split
    · rename_i hBoot
      rw [(freeWords_firstUsed img t _).unique (boot_fresh hFuncs hLen hBoot)] at hLow
      exact hLow
    · rename_i hNew
      have hFilled := ((run_filled hStart hRun).live t hLive).resolve_left hNew
      unfold lowest at hLow ⊢
      rw [lower_of_filled hFilled _ rtoskTaskStackWords] at hLow
      exact hLow

-- ---------------------------------------------------------------------------
-- Counting while others run
-- ---------------------------------------------------------------------------

/-- What holds along a count that began with the memory `mem₀`, if nobody stores
the watermark and the stack is not filled again. -/
structure Counts (img : Image) (t : Nat) (mem₀ : Nat → UInt32) (c : Counting) : Prop where
  le     : c.freeWords ≤ rtoskTaskStackWords
  unused : Unused rtoskStackWatermark (img.stack t mem₀) c.freeWords
  fades  : Fades rtoskStackWatermark (img.stack t mem₀) (img.stack t c.machine.mem)
    rtoskTaskStackWords
  stop   : c.returned = true → c.freeWords < rtoskTaskStackWords →
    img.stack t c.machine.mem c.freeWords ≠ rtoskStackWatermark

theorem Counts.machine {mem₀ : Nat → UInt32} {c : Counting} {t : Nat} (h : Counts img t mem₀ c)
    {l : Label} {m' : Machine} {es : List Event} (hStep : c.machine.step img l = some (m', es))
    (hFilled : .filled t ∉ touches img c.machine l)
    (hMark : ∀ a, .store a rtoskStackWatermark ∉ touches img c.machine l) :
    Counts img t mem₀ { c with machine := m' } := by
  have hFades : Fades rtoskStackWatermark (img.stack t c.machine.mem) (img.stack t m'.mem)
      rtoskTaskStackWords := by
    rw [step_mem hStep]
    exact fades_touches _ hFilled hMark
  exact ⟨h.le, h.unused, h.fades.trans hFades,
    fun hDone hLt hMarked => h.stop hDone hLt (hFades _ hLt hMarked)⟩

theorem Counts.look {mem₀ : Nat → UInt32} {c : Counting} {t : Nat} (h : Counts img t mem₀ c)
    (hLt : c.freeWords < rtoskTaskStackWords)
    (hLook : img.stack t c.machine.mem c.freeWords = rtoskStackWatermark)
    (hGoesOn : c.returned = false) :
    Counts img t mem₀ { c with freeWords := c.freeWords + 1 } := by
  refine ⟨hLt, h.fades.next h.unused hLt hLook, h.fades, fun hDone => ?_⟩
  exact absurd (hDone.symm.trans hGoesOn) (by decide)

theorem Counts.step {mem₀ : Nat → UInt32} {c c' : Counting} {u t : Nat} (h : Counts img t mem₀ c)
    {l : Counting.Label} {xs : List (Event ⊕ Touch)} (hStep : c.step img u t l = some (c', xs))
    (hFilled : .filled t ∉ touched xs) (hMark : ∀ a, .store a rtoskStackWatermark ∉ touched xs) :
    Counts img t mem₀ c' := by
  cases l with
  | machine l =>
    obtain ⟨⟨m', xs'⟩, hWatch, hEq⟩ := Option.map_eq_some_iff.mp hStep
    obtain ⟨rfl, rfl⟩ := Prod.mk.inj hEq
    obtain ⟨es, hStep', rfl⟩ := Runs.watch_eq_some hWatch
    rw [touched_remarks] at hFilled hMark
    exact h.machine hStep' hFilled hMark
  | look =>
    simp only [Counting.step] at hStep
    split at hStep
    · rename_i hOn
      split at hStep
      · rename_i hLook
        cases hStep
        exact h.look hLook.1 hLook.2 hOn.2.2
      · rename_i hStop
        cases hStep
        exact ⟨h.le, h.unused, h.fades, fun _ hLt hMarked => hStop ⟨hLt, hMarked⟩⟩
    · cases hStep

/-- **The count ends in between**, whatever goes on meanwhile, if nobody stores
the watermark itself and the stack is not filled again; a slot in use is not, as
long as no creation begins inside another (`counted_not_filled`). -/
theorem count_ends_between {tr : List (Event ⊕ Touch)} {c : Counting} {u t : Nat}
    (hRun : Runs.Run (Counting.step img u t) (fun _ _ => True) ⟨m, 0, false⟩ tr c)
    (hReturned : c.returned = true)
    (hFilled : .filled t ∉ touched tr)
    (hMark : ∀ a, .store a rtoskStackWatermark ∉ touched tr) :
    rtoskTaskGetStackFreeWords img t c.machine.mem ≤ c.freeWords ∧
      c.freeWords ≤ rtoskTaskGetStackFreeWords img t m.mem := by
  have hBegin : Counts img t m.mem ⟨m, 0, false⟩ :=
    ⟨Nat.zero_le _, fun i hi => absurd hi (by simp), Fades.refl, fun hDone => absurd hDone (by simp)⟩
  have hInv := hRun.induct (fun tr c => .filled t ∉ touched tr →
      (∀ a, .store a rtoskStackWatermark ∉ touched tr) → Counts img t m.mem c)
    (fun _ _ => hBegin) (fun tr c l c' xs ih _ hStep hFilled hMark => by
      have hParts : ∀ a, .store a rtoskStackWatermark ∉ touched tr ∧
          .store a rtoskStackWatermark ∉ touched xs := by
        simpa [touched_append] using hMark
      rw [touched_append, List.mem_append, not_or] at hFilled
      exact (ih hFilled.1 fun a => (hParts a).1).step hStep hFilled.2 fun a => (hParts a).2)
    hFilled hMark
  exact count_between (freeWords_firstUsed img t m.mem) (freeWords_firstUsed img t c.machine.mem)
    hInv.unused hInv.le (hInv.stop hReturned)

/-- No creation begins inside another. -/
def Counting.Alone (c : Counting) : Counting.Label → Prop
  | .machine l => CreatesAlone c.machine l
  | .look => True

instance (c : Counting) : ∀ l, Decidable (Counting.Alone c l)
  | .machine l => inferInstanceAs (Decidable (CreatesAlone c.machine l))
  | .look => .isTrue trivial

/-- The stack of a slot in use is not filled again. -/
theorem counted_not_filled {tr : List (Event ⊕ Touch)} {c : Counting} {u t : Nat}
    (hOrder : InOrder m) (hLive : Live m.table t)
    (hRun : Runs.Run (Counting.step img u t) Counting.Alone ⟨m, 0, false⟩ tr c) :
    .filled t ∉ touched tr := by
  have hInv := hRun.induct (fun tr c => InOrder c.machine ∧ Live c.machine.table t ∧
    .filled t ∉ touched tr) ⟨hOrder, hLive, List.not_mem_nil⟩ ?_
  · exact hInv.2.2
  rintro tr c l c' xs ⟨hOrder, hLive, hNot⟩ hAlone hStep
  rw [touched_append, List.mem_append, not_or]
  cases l with
  | machine l =>
    obtain ⟨⟨m', xs'⟩, hWatch, hEq⟩ := Option.map_eq_some_iff.mp hStep
    obtain ⟨rfl, rfl⟩ := Prod.mk.inj hEq
    obtain ⟨es, hStep', rfl⟩ := Runs.watch_eq_some hWatch
    have hCase := step_cases hStep'
    rw [touched_remarks]
    exact ⟨hOrder.step hAlone hCase, live_step hCase hLive, hNot, hOrder.not_filled l hLive⟩
  | look =>
    simp only [Counting.step] at hStep
    split at hStep
    · split at hStep <;> cases hStep <;> exact ⟨hOrder, hLive, hNot, List.not_mem_nil⟩
    · cases hStep

end TinyRtos.Machine

-- ---------------------------------------------------------------------------
-- One task on its stack
-- ---------------------------------------------------------------------------

namespace TinyRtos.Machine

/-- The first task stores a word `offset` words above the low end of its stack. -/
def storeAt (offset : Nat) : Label :=
  .work ⟨fun _ => 0, fun _ => 0, creatorsImage.stackEnd 0, [(creatorsImage.stackBase 0 + offset, 7)],
    none⟩

theorem tasks_lists_usage_stored :
    ∃ tr m, Runs.Run (Runs.watch (step creatorsImage) (touches creatorsImage)) CreatesAlone
        creators tr m ∧
      rtoskTaskGetStackFreeWords creatorsImage 0 m.mem = 200 := by
  obtain ⟨tr, m, hRun, hTr, hLive⟩ :=
    Runs.exists_run_of_exec (Runs.watch (step creatorsImage) (touches creatorsImage)) CreatesAlone
      creators [storeAt 200]
      (fun tr m => tr = [Sum.inr (.store (creatorsImage.stackBase 0 + 200) 7)] ∧ Live m.table 0)
      (by decide +kernel)
  have hUsage := (tasks_lists_usage (fun _ => []) ⟨⟨0, 0, .ready, 0, 0, []⟩, 0⟩
    ⟨fun _ => none, 0, 0, []⟩ [] (by simp [creatorTasks]) (by simp [creatorTasks]) (by decide)
    (fun _ => rfl) (fun _ => ⟨rfl, rfl, rfl, rfl⟩) hRun).2 0 hLive
  subst hTr
  exact ⟨_, m, hRun, (hUsage.2 (by simp [touched, rtoskStackWatermark])).trans (by decide +kernel)⟩

/-- A count of the first task's own stack, of which three words are free; an
interrupt that nests deeply comes in between. -/
theorem count_ends_between_nested :
    ∃ m c, rtoskTaskGetStackFreeWords creatorsImage 0 c.machine.mem ≤ 3 ∧
      3 ≤ rtoskTaskGetStackFreeWords creatorsImage 0 m.mem ∧
      Runs.Run (Counting.step creatorsImage 0 0) Counting.Alone ⟨m, 0, false⟩
        [Sum.inr (.store (creatorsImage.stackBase 0 + 1) 7)] c := by
  obtain ⟨tr, m, hBefore, hLive, hCount⟩ :=
    Runs.exists_run_of_exec (Runs.watch (step creatorsImage) (touches creatorsImage)) CreatesAlone
      creators [storeAt 3]
      (fun _ m => Live m.table 0 ∧
        (Runs.exec (Counting.step creatorsImage 0 0) Counting.Alone ⟨m, 0, false⟩
          [.look, .look, .machine (storeAt 1), .look, .look]).any (fun r =>
            r.1 = [Sum.inr (.store (creatorsImage.stackBase 0 + 1) 7)] ∧
              r.2.returned = true ∧ r.2.freeWords = 3) = true)
      (by decide +kernel)
  obtain ⟨tr', c, hRun, rfl, hReturned, hWords⟩ :=
    Runs.exists_run_of_exec (Counting.step creatorsImage 0 0) Counting.Alone ⟨m, 0, false⟩
      [.look, .look, .machine (storeAt 1), .look, .look]
      (fun tr c => tr = [Sum.inr (.store (creatorsImage.stackBase 0 + 1) 7)] ∧
        c.returned = true ∧ c.freeWords = 3) hCount
  have hFilled := counted_not_filled (run_inOrder creators_started.inOrder hBefore) hLive hRun
  have hBetween := count_ends_between (hRun.weaken fun _ _ _ => trivial) hReturned hFilled
    (by simp [touched, rtoskStackWatermark])
  rw [hWords] at hBetween
  exact ⟨m, c, hBetween.1, hBetween.2, hRun⟩

end TinyRtos.Machine
