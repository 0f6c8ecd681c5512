import TinyRtos.Kernel.System

/-!
# TinyRTOS — the scheduler's loop under interrupts

PendSV runs `rtosk_scheduler_select_next` with interrupts enabled, so tasks can
become READY between two rounds of its loop. `Dispatching` is what the loop
keeps all the same:

* its candidate is READY and has the recorded priority (`Candidate`: interrupts
  block nobody);
* nothing READY it has passed beats the candidate (`Covers`), unless an
  interrupt came in, and then a further PendSV is pending.

`Dispatching.step` keeps it along every step, and `Dispatching.selects` reads
off what PendSV returns into.
-/

namespace TinyRtos.System

variable [TaskConfig]

/-- The indices the loop has passed. -/
def passed (c : Scan) : Set Nat :=
  {i | ∃ offset < c.offset, cyclicIndex c.current c.taskCount offset = i}

/-- The invariant of PendSV's scan. -/
structure Dispatching (s : System) : Prop where
  taskCount_pos : 0 < s.kernel.taskCount
  taskCount_le  : s.kernel.taskCount ≤ rtoskMaxTasks
  idleReady     : s.kernel.idleReady = true
  locals : ∀ c, s.scan = some c → c.taskCount = s.kernel.taskCount ∧
    c.current < s.kernel.taskCount ∧ c.offset ≤ s.kernel.taskCount
  candidate : ∀ c, s.scan = some c →
    FirstMax.Candidate (ReadyUser s.kernel.toTaskTable) (prioKey s.kernel.toTaskTable) c.best
  covers : ∀ c, s.scan = some c → s.kernel.pendSv = true ∨
    FirstMax.Covers (ReadyUser s.kernel.toTaskTable) (prioKey s.kernel.toTaskTable)
      (passed c) c.best

variable {s s' : System} {l : Label} {es : List Event}

/-- Outside PendSV only the setup matters. -/
theorem Dispatching.of_thread (hScan : s.scan = none) (hPos : 0 < s.kernel.taskCount)
    (hLe : s.kernel.taskCount ≤ rtoskMaxTasks) (hIdle : s.kernel.idleReady = true) :
    Dispatching s where
  taskCount_pos := hPos
  taskCount_le := hLe
  idleReady := hIdle
  locals := fun _ hc => absurd (hScan.symm.trans hc) nofun
  candidate := fun _ hc => absurd (hScan.symm.trans hc) nofun
  covers := fun _ hc => absurd (hScan.symm.trans hc) nofun

theorem Started.dispatching (h : Started s) : Dispatching s :=
  .of_thread h.scan h.taskCount_pos h.taskCount_le h.idleReady

theorem Dispatching.of_setup (h : Dispatching s) (hSetup : SameSetup s.kernel s'.kernel)
    (hScan : s'.scan = none) : Dispatching s' :=
  .of_thread hScan (hSetup.taskCount ▸ h.taskCount_pos) (hSetup.taskCount ▸ h.taskCount_le)
    (hSetup.idleReady.trans h.idleReady)

omit [TaskConfig] in
theorem SameSetup.prioKey {k k' : Kernel} (h : SameSetup k k') (j : Nat) :
    prioKey k'.toTaskTable j = prioKey k.toTaskTable j := by
  unfold TinyRtos.prioKey
  rw [h.priority j]

/-- An interrupt in the middle of the scan. -/
theorem Dispatching.isr (h : Dispatching s) (hIsr : IsrStep s l s' es) : Dispatching s' := by
  obtain ⟨-, hScan, -⟩ := hIsr.frame
  have hSetup := hIsr.setup
  refine ⟨?_, ?_, ?_, ?_, ?_, ?_⟩
  · rw [hSetup.taskCount]
    exact h.taskCount_pos
  · rw [hSetup.taskCount]
    exact h.taskCount_le
  · rw [hSetup.idleReady]
    exact h.idleReady
  · intro c hc
    rw [hSetup.taskCount]
    exact h.locals c (hScan ▸ hc)
  · intro c hc b p hb
    obtain ⟨⟨hLt, hReady⟩, hKey⟩ := h.candidate c (hScan ▸ hc) b p hb
    exact ⟨⟨by rw [hSetup.taskCount]; exact hLt, hIsr.ready_mono hReady⟩,
      (hSetup.prioKey b).trans hKey⟩
  · intro c hc
    rcases hIsr.pend with hPend | ⟨hTable, hPend⟩
    · exact Or.inl hPend
    · rw [hTable, hPend]
      exact h.covers c (hScan ▸ hc)

/-- PendSV begins. -/
theorem Dispatching.begin (h : Dispatching s) {c : Scan}
    (hBegin : selectNextBegin s.kernel.toTaskTable = some c) :
    Dispatching { s with kernel := { s.kernel with pendSv := false }, scan := some c } := by
  obtain ⟨c', hBegin', hCount, hOff, hCur, hBest, -⟩ := selectNextBegin_eq h.taskCount_pos
  obtain rfl : c' = c := Option.some.inj (hBegin'.symm.trans hBegin)
  refine ⟨h.taskCount_pos, h.taskCount_le, h.idleReady, fun d hd => ?_, fun d hd => ?_,
    fun d hd => Or.inr ?_⟩
  all_goals obtain rfl : c' = d := Option.some.inj hd
  · exact ⟨hCount, hCur, by rw [hOff]; exact Nat.zero_le _⟩
  · rw [hBest]
    exact FirstMax.candidate_none
  · rintro i ⟨offset, hLt, -⟩
    rw [hOff] at hLt
    exact absurd hLt (Nat.not_lt_zero _)

/-- One round of the loop. -/
theorem Dispatching.round (h : Dispatching s) {c : Scan} (hScan : s.scan = some c)
    (hMore : c.offset < c.taskCount) :
    Dispatching { s with scan := some (selectNextRound s.kernel.toTaskTable c) } := by
  obtain ⟨hCount, hCur, -⟩ := h.locals c hScan
  have hIndex : c.index < s.kernel.taskCount := by
    rw [← hCount] at hCur ⊢
    exact Scan.index_lt hCur hMore
  have hPassed : passed (selectNextRound s.kernel.toTaskTable c) ⊆ insert c.index (passed c) := by
    rintro i ⟨offset, hLt, rfl⟩
    simp only [selectNextRound_offset, selectNextRound_current, selectNextRound_taskCount]
      at hLt ⊢
    rcases Nat.lt_succ_iff_lt_or_eq.mp hLt with hOld | rfl
    · exact Set.mem_insert_of_mem _ ⟨offset, hOld, rfl⟩
    · exact Set.mem_insert ..
  have hRound := selectNextRound_best h.taskCount_le hIndex
  refine ⟨h.taskCount_pos, h.taskCount_le, h.idleReady, fun d hd => ?_, fun d hd => ?_,
    fun d hd => ?_⟩
  all_goals obtain rfl := Option.some.inj hd
  · refine ⟨by simpa using hCount, by simpa using hCur, ?_⟩
    simp only [selectNextRound_offset]
    omega
  · rw [hRound]
    split
    · rename_i hReady
      exact (h.candidate c hScan).pick hReady
    · exact h.candidate c hScan
  · refine (h.covers c hScan).imp id fun hCovers => ?_
    have hStep : FirstMax.Covers (ReadyUser s.kernel.toTaskTable) (prioKey s.kernel.toTaskTable)
        (insert c.index (passed c)) (selectNextRound s.kernel.toTaskTable c).best := by
      rw [hRound]
      split
      · exact hCovers.pick c.index
      · rename_i hNot
        exact hCovers.skip hNot
    exact fun i hi => hStep i (hPassed hi)

/-- **`Dispatching` is kept by every step.** -/
theorem Dispatching.step (h : Dispatching s) (hStep : StepCase s l s' es) : Dispatching s' := by
  have hSetup := hStep.setup
  cases hStep with
  | perform hThread _ hCall =>
    obtain ⟨-, hScan, -⟩ := hCall.frame
    exact h.of_setup hSetup (hScan.trans hThread.1)
  | yield hThread _ => exact h.of_setup hSetup hThread.1
  | resume hThread _ _ => exact h.of_setup hSetup hThread.1
  | isr _ hIsr => exact h.isr hIsr
  | pendSvEmpty hScan _ _ _ => exact h.of_setup hSetup hScan
  | pendSv _ _ _ hBegin => exact h.begin hBegin
  | scan hScan hMore => exact h.round hScan hMore
  | pendSvExit => exact h.of_setup hSetup rfl

/-- When the loop is through, every user index is passed. -/
theorem Dispatching.all_passed (h : Dispatching s) {c : Scan} (hScan : s.scan = some c)
    (hDone : ¬ c.offset < c.taskCount) {i : Nat} (hi : i < s.kernel.taskCount) :
    i ∈ passed c := by
  obtain ⟨hCount, hCur, -⟩ := h.locals c hScan
  rw [← hCount] at hCur hi
  obtain ⟨offset, hLt, hEq⟩ := exists_cyclicIndex hCur hi
  exact ⟨offset, by omega, hEq⟩

/-- **What PendSV returns into**: a READY task, or idle; and, unless a further
PendSV is pending, a READY task of maximal priority, or idle for want of any
READY task. -/
theorem Dispatching.selects (h : Dispatching s) {c : Scan} (hScan : s.scan = some c)
    (hDone : ¬ c.offset < c.taskCount) :
    (∃ b, selectNextEnd c s.kernel.toTaskTable =
          { s.kernel.toTaskTable with currentTask := b } ∧
        ReadyUser s.kernel.toTaskTable b ∧
        (s.kernel.pendSv = true ∨ ∀ j, ReadyUser s.kernel.toTaskTable j →
          (s.kernel.tasks j).priority ≤ (s.kernel.tasks b).priority)) ∨
      (selectNextEnd c s.kernel.toTaskTable =
          { s.kernel.toTaskTable with currentTask := rtoskIdleTaskIndex } ∧
        (s.kernel.pendSv = true ∨ ∀ j, ¬ ReadyUser s.kernel.toTaskTable j)) := by
  cases hBest : c.best with
  | some p =>
    obtain ⟨b, key⟩ := p
    obtain ⟨hReady, hKey⟩ := h.candidate c hScan b key hBest
    have hSlot : b < rtoskTotalTaskSlots :=
      lt_of_lt_of_le hReady.1 (h.taskCount_le.trans (Nat.le_succ _))
    refine Or.inl ⟨b, selectNextEnd_best hBest hSlot, hReady, ?_⟩
    refine (h.covers c hScan).imp id fun hCovers j hj => ?_
    obtain ⟨b', key', hBest', hLe⟩ := hCovers j (h.all_passed hScan hDone hj.1) hj
    rw [hBest, Option.some.injEq, Prod.mk.injEq] at hBest'
    obtain ⟨rfl, rfl⟩ := hBest'
    rw [← hKey] at hLe
    exact UInt32.le_iff_toNat_le.mpr hLe
  | none =>
    refine Or.inr ⟨selectNextEnd_none hBest h.idleReady, ?_⟩
    refine (h.covers c hScan).imp id fun hCovers j hj => ?_
    obtain ⟨b, key, hBest', -⟩ := hCovers j (h.all_passed hScan hDone hj.1) hj
    rw [hBest] at hBest'
    cases hBest'

theorem Dispatching.user_ne_noWaiter (h : Dispatching s) {t : Nat}
    (ht : t < s.kernel.taskCount) : t ≠ noWaiter := by
  have hBound := TaskConfig.two_mul_maxTasks_lt
  have hLe : s.kernel.taskCount ≤ TaskConfig.maxTasks := h.taskCount_le
  unfold noWaiter
  omega

end TinyRtos.System
