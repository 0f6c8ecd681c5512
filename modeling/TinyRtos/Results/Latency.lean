import TinyRtos.Results.Selection

/-!
# TinyRTOS — how long a wake-up takes

An interrupt handler wakes the task of the highest priority: its switch is
pending at once, PendSV's loop may be in the middle of a scan that has passed
the task already, and further handlers come in. The task may even be the current
one still, blocked with its own switch pending.

* `dispatch_latency` — no task's code runs before PendSV has returned into the
  task, and PendSV takes at most `2 n + 2` steps of its own for `n` tasks,
  whatever comes in: the rest of one scan and a whole second one. The run in
  `dispatch_latency_late` takes them all.
-/

namespace TinyRtos

namespace System

section

variable [TaskConfig] {s s' s₁ s₂ : System} {l : Label} {es : List Event} {t n k : Nat}

/-- What `.switched t` says: PendSV has just returned into `t`. -/
theorem StepCase.of_switched (hStep : StepCase s l s' es) (hSwitched : .switched t ∈ es) :
    l.actor = .pendSv ∧ s'.scan = none ∧ s'.kernel.currentTask = t := by
  cases hStep with
  | perform _ _ hCall => exact absurd hSwitched (hCall.switched_notMem t)
  | isr _ hIsr => exact absurd hSwitched (hIsr.switched_notMem t)
  | yield | resume | pendSv | scan => cases hSwitched
  | pendSvEmpty hScan =>
    injection List.mem_singleton.mp hSwitched with hCur
    exact ⟨rfl, hScan, hCur.symm⟩
  | pendSvExit =>
    injection List.mem_singleton.mp hSwitched with hCur
    exact ⟨rfl, rfl, hCur.symm⟩

/-- The scan has `t` before it, or holds nothing worse. -/
def Catches (t : Nat) (s : System) (c : Scan) : Prop :=
  FirstMax.Covers (· = t) (prioKey s.kernel.toTaskTable) (passed c) c.best

/-- `t` is READY and outranks all others, and PendSV needs at most `k` steps to
return into it. -/
structure Waits (t n k : Nat) (s : System) : Prop where
  dispatching : Dispatching s
  taskCount : s.kernel.taskCount = n
  ready     : ReadyUser s.kernel.toTaskTable t
  top       : ∀ u < n, u ≠ t → (s.kernel.tasks u).priority < (s.kernel.tasks t).priority
  unmasked  : s.kernel.Unmasked
  entering  : s.scan = none → s.kernel.pendSv = true ∧ n + 2 ≤ k
  scanning  : ∀ c, s.scan = some c → (Catches t s c ∧ n - c.offset + 1 ≤ k) ∨
    (s.kernel.pendSv = true ∧ n - c.offset + 1 + (n + 2) ≤ k)

/-- While `t` waits, no task's code runs. -/
theorem Waits.not_thread (h : Waits t n k s) : ¬ s.Thread := fun hThread =>
  hThread.2.2 ⟨(h.entering hThread.1).1, h.unmasked⟩

/-- A handler changes nothing of it. -/
theorem Waits.isr (h : Waits t n k s) (hIsr : IsrStep s l s' es) : Waits t n k s' := by
  obtain ⟨-, hScan, -, hPrimask, -⟩ := hIsr.frame
  have hSetup := hIsr.setup
  have hPend : s.kernel.pendSv = true → s'.kernel.pendSv = true := fun hOld =>
    hIsr.pend.elim id fun hSame => hSame.2.trans hOld
  refine ⟨h.dispatching.isr hIsr, hSetup.taskCount.trans h.taskCount, ⟨?_, ?_⟩, ?_, ?_, ?_, ?_⟩
  · rw [hSetup.taskCount]
    exact h.ready.1
  · exact hIsr.ready_mono h.ready.2
  · intro u hu hne
    rw [hSetup.priority, hSetup.priority]
    exact h.top u hu hne
  · unfold Kernel.Unmasked
    rw [hPrimask]
    exact h.unmasked
  · intro hNone
    obtain ⟨hOld, hLe⟩ := h.entering (hScan ▸ hNone)
    exact ⟨hPend hOld, hLe⟩
  · intro c hc
    refine (h.scanning c (hScan ▸ hc)).imp (fun hCatch => ⟨fun i hi ht => ?_, hCatch.2⟩)
      fun hPass => ⟨hPend hPass.1, hPass.2⟩
    rw [hSetup.prioKey]
    exact hCatch.1 i hi ht

/-- PendSV starts a scan. -/
theorem Waits.begin (h : Waits t n (k + 1) s) (hScan : s.scan = none) {c : Scan}
    (hBegin : selectNextBegin s.kernel.toTaskTable = some c) :
    Waits t n k { s with kernel := { s.kernel with pendSv := false }, scan := some c } := by
  refine ⟨h.dispatching.begin hBegin, h.taskCount, h.ready, h.top, h.unmasked,
    fun hNone => absurd hNone (Option.some_ne_none c), fun d hd => Or.inl ⟨?_, ?_⟩⟩
  all_goals
    obtain rfl := Option.some.inj hd
    obtain ⟨c', hBegin', -, hOff, -⟩ := selectNextBegin_eq h.dispatching.taskCount_pos
    obtain rfl := Option.some.inj (hBegin'.symm.trans hBegin)
  · rintro i ⟨offset, hLt, -⟩
    rw [hOff] at hLt
    exact absurd hLt (Nat.not_lt_zero _)
  · have hLe := (h.entering hScan).2
    omega

omit [TaskConfig] in
theorem passed_round {c d : Scan} (hOff : d.offset = c.offset + 1) (hCur : d.current = c.current)
    (hCount : d.taskCount = c.taskCount) : passed d ⊆ insert c.index (passed c) := by
  rintro i ⟨offset, hLt, rfl⟩
  rw [hOff] at hLt
  rw [hCur, hCount]
  rcases Nat.lt_succ_iff_lt_or_eq.mp hLt with hOld | rfl
  · exact Set.mem_insert_of_mem _ ⟨offset, hOld, rfl⟩
  · exact Set.mem_insert ..

/-- A round does not lose `t`. -/
theorem Catches.round {c : Scan} (h : Catches t s c) (hDispatching : Dispatching s)
    (hReady : ReadyUser s.kernel.toTaskTable t) (hScan : s.scan = some c)
    (hMore : c.offset < c.taskCount) :
    Catches t { s with scan := some (selectNextRound s.kernel.toTaskTable c) }
      (selectNextRound s.kernel.toTaskTable c) := by
  obtain ⟨hCount, hCur, -⟩ := hDispatching.locals c hScan
  have hIndex : c.index < s.kernel.taskCount := by
    rw [← hCount] at hCur ⊢
    exact Scan.index_lt hCur hMore
  have hStep : FirstMax.Covers (· = t) (prioKey s.kernel.toTaskTable)
      (insert c.index (passed c)) (selectNextRound s.kernel.toTaskTable c).best := by
    rw [selectNextRound_best hDispatching.taskCount_le hIndex]
    split
    · exact FirstMax.Covers.pick h c.index
    · rename_i hNot
      exact FirstMax.Covers.skip h fun hEq => hNot (hEq ▸ hReady)
  have hPassed := passed_round (selectNextRound_offset s.kernel.toTaskTable c)
    (selectNextRound_current _ c) (selectNextRound_taskCount _ c)
  exact fun i hi => hStep i (hPassed hi)

theorem Waits.round (h : Waits t n (k + 1) s) {c : Scan} (hScan : s.scan = some c)
    (hMore : c.offset < c.taskCount) :
    Waits t n k { s with scan := some (selectNextRound s.kernel.toTaskTable c) } := by
  have hCount : c.taskCount = n :=
    (h.dispatching.locals c hScan).1.trans h.taskCount
  refine ⟨h.dispatching.round hScan hMore, h.taskCount, h.ready, h.top, h.unmasked,
    fun hNone => absurd hNone (Option.some_ne_none _), fun d hd => ?_⟩
  obtain rfl := Option.some.inj hd
  rw [selectNextRound_offset]
  refine (h.scanning c hScan).imp
    (fun hCatch => ⟨hCatch.1.round h.dispatching h.ready hScan hMore, ?_⟩)
    fun hPass => ⟨hPass.1, ?_⟩
  · have hLe := hCatch.2
    omega
  · have hLe := hPass.2
    omega

/-- At the end of a scan that has not lost it, `t` is current. -/
theorem Catches.selects {c : Scan} (h : Catches t s c) (hDispatching : Dispatching s)
    (hReady : ReadyUser s.kernel.toTaskTable t)
    (hTop : ∀ u < s.kernel.taskCount, u ≠ t →
      (s.kernel.tasks u).priority < (s.kernel.tasks t).priority)
    (hScan : s.scan = some c) (hDone : ¬ c.offset < c.taskCount) :
    (selectNextEnd c s.kernel.toTaskTable).currentTask = t := by
  obtain ⟨b, key, hBest, hLe⟩ := h t (hDispatching.all_passed hScan hDone hReady.1) rfl
  obtain ⟨hUser, hKey⟩ := hDispatching.candidate c hScan b key hBest
  have hSame : b = t := by
    by_contra hne
    have hLt := UInt32.lt_iff_toNat_lt.mp (hTop b hUser.1 hne)
    unfold prioKey at hLe hKey
    omega
  subst hSame
  have hSlot : b < rtoskTotalTaskSlots :=
    lt_of_lt_of_le hUser.1 (hDispatching.taskCount_le.trans (Nat.le_succ _))
  rw [selectNextEnd_best hBest hSlot]

/-- PendSV returns into `t`, or enters once more. -/
theorem Waits.exit (h : Waits t n (k + 1) s) {c : Scan} (hScan : s.scan = some c)
    (hDone : ¬ c.offset < c.taskCount) :
    (selectNextEnd c s.kernel.toTaskTable).currentTask = t ∨
      Waits t n k { s with kernel := s.kernel.onTable (selectNextEnd c), scan := none } := by
  rcases h.scanning c hScan with ⟨hCatch, -⟩ | ⟨hPend, hLe⟩
  · exact Or.inl (hCatch.selects h.dispatching h.ready
      (fun u hu => h.top u (h.taskCount ▸ hu)) hScan hDone)
  · right
    obtain ⟨hCount, hIdle, hTasks⟩ := selectNextEnd_keeps c s.kernel.toTaskTable
    refine ⟨.of_thread rfl ?_ ?_ ?_, hCount.trans h.taskCount, ⟨?_, ?_⟩, ?_, h.unmasked,
      fun _ => ⟨hPend, by omega⟩, fun d hd => ?_⟩
    · exact hCount.symm ▸ h.dispatching.taskCount_pos
    · exact hCount.symm ▸ h.dispatching.taskCount_le
    · exact hIdle.trans h.dispatching.idleReady
    · exact hCount.symm ▸ h.ready.1
    · exact (congrArg (fun tasks => (tasks t).state) hTasks).trans h.ready.2
    · intro u hu hne
      have hTop := h.top u hu hne
      rw [← hTasks] at hTop
      exact hTop
    · cases hd

-- ---------------------------------------------------------------------------
-- Steps
-- ---------------------------------------------------------------------------

/-- A step is left. -/
theorem Waits.left (h : Waits t n k s) : ∃ k', k = k' + 1 := by
  refine Nat.exists_eq_succ_of_ne_zero fun hZero => ?_
  subst hZero
  cases hScan : s.scan with
  | none => exact absurd (h.entering hScan).2 (by omega)
  | some c =>
    rcases h.scanning c hScan with ⟨-, hLe⟩ | ⟨-, hLe⟩
    · omega
    · omega

/-- **While `t` waits**, handlers leave its bound alone, a step of PendSV lowers
it or returns into `t`, and there are no others. -/
theorem Waits.step (h : Waits t n k s) (hStep : StepCase s l s' es) :
    (l.actor = .handler ∧ Waits t n k s') ∨
      (l.actor = .pendSv ∧ ∃ k', k = k' + 1 ∧ (.switched t ∈ es ∨ Waits t n k' s')) := by
  obtain ⟨k', rfl⟩ := h.left
  cases hStep with
  | perform hThread => exact absurd hThread h.not_thread
  | yield hThread => exact absurd hThread h.not_thread
  | resume hThread => exact absurd hThread h.not_thread
  | isr _ hIsr =>
    refine Or.inl ⟨?_, h.isr hIsr⟩
    cases hIsr <;> rfl
  | pendSvEmpty _ _ _ hBegin =>
    obtain ⟨c, hSome, -⟩ := selectNextBegin_eq h.dispatching.taskCount_pos
    rw [hBegin] at hSome
    cases hSome
  | pendSv hScan _ _ hBegin =>
    exact Or.inr ⟨rfl, k', rfl, Or.inr (h.begin hScan hBegin)⟩
  | scan hScan hMore =>
    exact Or.inr ⟨rfl, k', rfl, Or.inr (h.round hScan hMore)⟩
  | pendSvExit hScan hDone =>
    refine Or.inr ⟨rfl, k', rfl, (h.exit hScan hDone).imp_left ?_⟩
    rintro rfl
    exact List.mem_singleton_self _

/-- PendSV is never stuck. -/
theorem Waits.goes_on (h : Waits t n k s) :
    ∃ l s' es, l.actor = .pendSv ∧ s.step l = some (s', es) := by
  by_cases hScan : s.scan = none
  · have hEnter := And.intro hScan (And.intro (h.entering hScan).1 h.unmasked)
    obtain ⟨c, hBegin, -⟩ := selectNextBegin_eq h.dispatching.taskCount_pos
    have hStep : s.step .pendSv =
        some ({ s with kernel := { s.kernel with pendSv := false }, scan := some c }, []) := by
      simp only [System.step, if_pos hEnter, hBegin]
    exact ⟨.pendSv, _, _, rfl, hStep⟩
  · have hScanning : Scanning n s := ⟨h.dispatching, h.taskCount, hScan⟩
    obtain ⟨c, -, hLe, hRound, hExit⟩ := hScanning.scan_goes_on
    rcases Nat.lt_or_eq_of_le hLe with hMore | hDone
    · exact ⟨.scan, _, _, rfl, (hRound hMore).1⟩
    · obtain ⟨s', es, hStep⟩ := hExit hDone
      exact ⟨.pendSvExit, s', es, rfl, hStep⟩

/-- A handler wakes the task that outranks all others. -/
theorem waits_of_woken (hDispatching : Dispatching s) (ht : t < s.kernel.taskCount)
    (hTop : ∀ u < s.kernel.taskCount, u ≠ t →
      (s.kernel.tasks u).priority < (s.kernel.tasks t).priority)
    (hHandler : l.actor = .handler) (hStep : StepCase s l s' es)
    (hAsleep : (s.kernel.tasks t).state ≠ .ready) (hWoken : (s'.kernel.tasks t).state = .ready) :
    Waits t s.kernel.taskCount (2 * s.kernel.taskCount + 2) s' := by
  cases hStep with
  | isr hUnmasked hIsr =>
    have hSetup := hIsr.setup
    have hPend : s'.kernel.pendSv = true := by
      refine hIsr.pend.resolve_right fun hSame => hAsleep ?_
      rw [← hSame.1]
      exact hWoken
    have hDispatching' := hDispatching.isr hIsr
    refine ⟨hDispatching', hSetup.taskCount, ⟨hSetup.taskCount.symm ▸ ht, hWoken⟩, ?_, ?_,
      fun _ => ⟨hPend, by omega⟩, fun c hc => ?_⟩
    · intro u hu hne
      rw [hSetup.priority, hSetup.priority]
      exact hTop u hu hne
    · unfold Kernel.Unmasked
      rw [hIsr.frame.2.2.2.1]
      exact hUnmasked
    · by_cases hFirst : c.offset = 0
      · -- nobody is passed yet
        refine Or.inl ⟨?_, by omega⟩
        rintro i ⟨offset, hLt, -⟩
        omega
      · exact Or.inr ⟨hPend, by omega⟩
  | perform _ hAt => rcases hAt with ⟨rfl, -⟩ | ⟨rfl, -⟩ <;> cases hHandler
  | yield | resume | pendSvEmpty | pendSv | scan | pendSvExit => cases hHandler

-- ---------------------------------------------------------------------------
-- Runs
-- ---------------------------------------------------------------------------

/-- Whose the steps of a run are. -/
def actors (tr : List (Event ⊕ Actor)) : List Actor := tr.filterMap Sum.getRight?

/-- What they emit. -/
def events (tr : List (Event ⊕ Actor)) : List Event := tr.filterMap Sum.getLeft?

/-- **How long a wake-up takes.** In every run a handler wakes the task that
outranks all others, and then anything happens, as long as PendSV has not
returned into it: that is no step of any task and fewer than `2 n + 2` steps of
PendSV, which goes on. When it returns, the task is current. -/
theorem dispatch_latency {s₀ : System} {tr : List Event} {tr' : List (Event ⊕ Actor)}
    (hStarted : Started s₀)
    (hRun     : Runs.Run System.step (fun _ _ => True) s₀ tr s)
    (ht       : t < s.kernel.taskCount)
    (hTop     : ∀ u < s.kernel.taskCount, u ≠ t →
      (s.kernel.tasks u).priority < (s.kernel.tasks t).priority)
    (hHandler : l.actor = .handler)
    (hStep    : s.step l = some (s₁, es))
    (hAsleep  : (s.kernel.tasks t).state ≠ .ready)
    (hWoken   : (s₁.kernel.tasks t).state = .ready)
    (hRest    : Runs.Run (Runs.watch System.step fun _ l => [l.actor])
      (fun _ _ => True) s₁ tr' s₂)
    (hNot     : .switched t ∉ events tr') :
    .thread ∉ actors tr' ∧ (actors tr').count .pendSv < 2 * s.kernel.taskCount + 2 ∧
      (∃ l s' es, l.actor = .pendSv ∧ s₂.step l = some (s', es)) ∧
      ∀ l s' es, s₂.step l = some (s', es) → .switched t ∈ es →
        l.actor = .pendSv ∧ s'.scan = none ∧ s'.kernel.currentTask = t := by
  have hDispatching : Dispatching s :=
    hRun.induct (fun _ s => Dispatching s) hStarted.dispatching fun _ _ _ _ _ h _ hs =>
      h.step (step_cases hs)
  have hWaits := waits_of_woken hDispatching ht hTop hHandler (step_cases hStep) hAsleep hWoken
  generalize s.kernel.taskCount = n at hWaits ⊢
  have hInv := hRest.induct (fun tr s => .switched t ∉ events tr → .thread ∉ actors tr ∧
    ∃ k, (actors tr).count .pendSv + k ≤ 2 * n + 2 ∧ Waits t n k s)
    (fun _ => ⟨by simp [actors], 2 * n + 2, by simp [actors], hWaits⟩) ?_
  · obtain ⟨hThread, k, hCount, hWaits'⟩ := hInv hNot
    obtain ⟨k', rfl⟩ := hWaits'.left
    exact ⟨hThread, by omega, hWaits'.goes_on, fun l s' es hs => (step_cases hs).of_switched⟩
  · rintro tr s l s' xs hOld - hs hNot
    obtain ⟨es, hs', rfl⟩ := Runs.watch_eq_some hs
    rw [events, List.filterMap_append, Runs.filterMap_remarks, List.mem_append, not_or] at hNot
    obtain ⟨hThread, k, hCount, hWaits⟩ := hOld hNot.1
    have hActors : actors (tr ++ (es.map Sum.inl ++ [l.actor].map Sum.inr)) =
        actors tr ++ [l.actor] := by
      simp [actors, List.filterMap_append, List.filterMap_map, Function.comp_def]
    rw [hActors, List.mem_append, List.count_append]
    rcases hWaits.step (step_cases hs') with ⟨hHandler, hNext⟩ | ⟨hPendSv, k', rfl, hNext⟩
    · rw [hHandler]
      exact ⟨by simp [hThread], k, by simpa using hCount, hNext⟩
    · rw [hPendSv]
      refine ⟨by simp [hThread], k', ?_, hNext.resolve_left hNot.2⟩
      rw [List.count_singleton_self]
      omega

end

-- ---------------------------------------------------------------------------
-- Just passed
-- ---------------------------------------------------------------------------

/-- Task `2` blocks, and PendSV's loop passes it. -/
def passedLabels : List Label :=
  [.call .yield, .yield] ++ switch ++
    [.call (.semaphoreTake (some 0)), .yield, .pendSv, .scan]

/-- What is left then: the rest of the scan, and another one. -/
def restLabels : List Label := [.scan, .scan, .pendSvExit] ++ switch

/-- A handler wakes it right then: eight steps of PendSV for three tasks, the
last of which returns into it. -/
theorem dispatch_latency_late :
    ∃ tr s s₁ es tr' s₂ s₃, Runs.Run System.step (fun _ _ => True) threeTasks tr s ∧
      s.step (.semaphoreGiveFromIsr (some 0)) = some (s₁, es) ∧
      Runs.Run (Runs.watch System.step fun _ l => [l.actor]) (fun _ _ => True) s₁ tr' s₂ ∧
      .switched 2 ∉ events tr' ∧ (actors tr').count .pendSv = 7 ∧
      s₂.step .pendSvExit = some (s₃, [.switched 2]) ∧
      .thread ∉ actors tr' ∧ (actors tr').count .pendSv < 2 * s.kernel.taskCount + 2 := by
  obtain ⟨tr, s, hRun, ⟨ht, hTop, hAsleep⟩, hRest⟩ :=
    Runs.exists_run_of_exec System.step (fun _ _ => True) threeTasks passedLabels
      (fun _ s => (2 < s.kernel.taskCount ∧
          (∀ u < s.kernel.taskCount, u ≠ 2 →
            (s.kernel.tasks u).priority < (s.kernel.tasks 2).priority) ∧
          (s.kernel.tasks 2).state ≠ .ready) ∧
        (s.step (.semaphoreGiveFromIsr (some 0))).any (fun r =>
          decide ((r.1.kernel.tasks 2).state = .ready) &&
          (Runs.exec (Runs.watch System.step fun _ l => [l.actor]) (fun _ _ => True) r.1
            restLabels.dropLast).any fun q =>
              decide (.switched 2 ∉ events q.1 ∧ (actors q.1).count .pendSv = 7) &&
              (q.2.step .pendSvExit).any fun r => decide (r.2 = [.switched 2])) = true)
      (by decide +kernel)
  obtain ⟨⟨s₁, es⟩, hStep, hNext⟩ := (Option.any_eq_true _ _).mp hRest
  obtain ⟨hWoken, hLast⟩ := (Bool.and_eq_true _ _).mp hNext
  obtain ⟨⟨tr', s₂⟩, hExec, hEnd⟩ := (Option.any_eq_true _ _).mp hLast
  obtain ⟨hSeven, hExit⟩ := (Bool.and_eq_true _ _).mp hEnd
  obtain ⟨hNot, hSeven⟩ := of_decide_eq_true hSeven
  obtain ⟨⟨s₃, es'⟩, hStep', hSwitched⟩ := (Option.any_eq_true _ _).mp hExit
  obtain rfl := of_decide_eq_true hSwitched
  have hRun' := Runs.Run.exec (G := fun _ _ => True) Runs.Run.start hExec
  have hLatency := dispatch_latency threeTasks_started hRun ht hTop rfl hStep hAsleep
    (of_decide_eq_true hWoken) hRun' hNot
  exact ⟨tr, s, s₁, es, tr', s₂, s₃, hRun, hStep, hRun', hNot, hSeven, hStep', hLatency.1,
    hLatency.2.1⟩

end System

end TinyRtos
