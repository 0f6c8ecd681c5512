import TinyRtos.Kernel.Dispatch

/-!
# TinyRTOS — mutual exclusion, and what re-locking does to it

A history is read for one mutex: `OwnerStep` says what a step does to its owner
and which of its events it emits.

* `mutualExclusion` — from the return of a lock to the holder's own next unlock
  the holder owns the mutex, and no lock of it returns to anyone else.

A task that locks a mutex it owns is let through at once, but nothing counts
the locks: the first unlock frees the mutex, whatever was locked before it.

* `relock` — the owner's unlock always frees the mutex; brackets exclude each
  other as long as no unlock is made inside two or more of them, and cease to at
  the first that is;
* `relock_overlap` — two tasks inside brackets of one mutex.
-/

namespace TinyRtos

open Runs (tally tally_append)

/-- The locks of mutex `m` that returned to `t`. -/
def lockedBy (t m : Nat) : Event → Nat
  | .locked u n => if u = t ∧ n = m then 1 else 0
  | _ => 0

/-- The unlocks of mutex `m` by `t`. -/
def unlockedBy (t m : Nat) : Event → Nat
  | .unlocked u n => if u = t ∧ n = m then 1 else 0
  | _ => 0

namespace System

section

variable {s s₀ s' : System} {l : Label} {c : Call} {exit : Exit} {tr es pre post : List Event}
  {m t : Nat}

/-- A step as mutex `m` sees it; `cur` is the task that makes it, and `owner`
and the next index are the owners before and after. -/
inductive OwnerStep (m cur owner : Nat) : Nat → List Event → Prop
  | other {es : List Event} (hLocked : ∀ t, .locked t m ∉ es)
      (hUnlocked : ∀ t, .unlocked t m ∉ es) : OwnerStep m cur owner owner es
  | lock (hCur : cur ≠ rtoskMutexNoOwner) (hFree : owner = rtoskMutexNoOwner ∨ owner = cur) :
      OwnerStep m cur owner cur [.locked cur m]
  | unlock (hOwn : owner = cur) : OwnerStep m cur owner rtoskMutexNoOwner [.unlocked cur m]
  | stray (hOther : owner ≠ cur) : OwnerStep m cur owner owner [.unlocked cur m]

theorem OwnerStep.of_mutexes {cur : Nat} (hSame : s'.mutexes m = s.mutexes m)
    (hLocked : ∀ t, .locked t m ∉ es) (hUnlocked : ∀ t, .unlocked t m ∉ es) :
    OwnerStep m cur (s.mutexes m).owner (s'.mutexes m).owner es := by
  rw [hSame]
  exact .other hLocked hUnlocked

/-- What is done to another mutex. -/
theorem setMutex_other {n : Nat} {mutex : Mutex} {k : Kernel} (hmn : m ≠ n) :
    (s.setMutex n mutex k).mutexes m = s.mutexes m := Function.update_of_ne hmn _ _

theorem setMutex_owner {n : Nat} {mutex : Mutex} {k : Kernel} :
    ((s.setMutex n mutex k).mutexes n).owner = mutex.owner := by
  simp [setMutex]

theorem IsrStep.owner (h : IsrStep s l s' es) :
    OwnerStep m s.kernel.currentTask (s.mutexes m).owner (s'.mutexes m).owner es := by
  cases h <;> exact .of_mutexes rfl (by simp) (by simp)

variable [TaskConfig]

theorem CallStep.owner (h : CallStep s c s' exit es)
    (hInit : (Label.call c).initialises ≠ some (.mutex m))
    (hCur : s.kernel.currentTask ≠ rtoskMutexNoOwner) :
    OwnerStep m s.kernel.currentTask (s.mutexes m).owner (s'.mutexes m).owner es := by
  cases h with
  | lockFree n hFree =>
    by_cases hmn : m = n
    · subst hmn
      rw [setMutex_owner]
      exact .lock hCur (Or.inl hFree)
    · exact .of_mutexes (setMutex_other hmn) (by simp [hmn]) (by simp)
  | lockOwn n _ hOwn =>
    by_cases hmn : m = n
    · subst hmn
      rw [setMutex_owner, hOwn]
      exact .lock hCur (Or.inr rfl)
    · exact .of_mutexes (setMutex_other hmn) (by simp [hmn]) (by simp)
  | lockBlock n _ _ =>
    by_cases hmn : m = n
    · subst hmn
      rw [setMutex_owner]
      exact .other (by simp) (by simp)
    · exact .of_mutexes (setMutex_other hmn) (by simp) (by simp)
  | unlockStray n hOther =>
    by_cases hmn : m = n
    · subst hmn
      rw [setMutex_owner]
      exact .stray hOther
    · exact .of_mutexes (setMutex_other hmn) (by simp) (by simp [hmn])
  | unlockWake n hOwn _ | unlockNone n hOwn _ =>
    by_cases hmn : m = n
    · subst hmn
      rw [setMutex_owner]
      exact .unlock hOwn
    · exact .of_mutexes (setMutex_other hmn) (by simp) (by simp [hmn])
  | mutexInit n =>
    have hmn : m ≠ n := by
      rintro rfl
      exact hInit rfl
    exact .of_mutexes (setMutex_other hmn) (by simp) (by simp)
  | _ => exact .of_mutexes rfl (by simp) (by simp)

theorem StepCase.owner (h : StepCase s l s' es) (hDispatching : Dispatching s)
    (hInit : l.initialises ≠ some (.mutex m)) :
    OwnerStep m s.kernel.currentTask (s.mutexes m).owner (s'.mutexes m).owner es := by
  cases h with
  | perform hThread hAt hCall =>
    exact hCall.owner (hAt.initialises hInit) (hDispatching.user_ne_noWaiter hThread.2.1)
  | isr _ hIsr => exact hIsr.owner
  | _ => exact .of_mutexes rfl (by simp) (by simp)

-- ---------------------------------------------------------------------------
-- Mutual exclusion
-- ---------------------------------------------------------------------------

/-- What holds of a mutex since `t` locked it. -/
def Held (m : Nat) (tr : List Event) (s : System) : Prop :=
  ∀ t pre post, tr = pre ++ .locked t m :: post → .unlocked t m ∉ post →
    t ≠ rtoskMutexNoOwner ∧ (s.mutexes m).owner = t ∧ ∀ u, .locked u m ∈ post → u = t

omit [TaskConfig] in
theorem Held.step (h : Held m tr s) {cur : Nat}
    (hOwner : OwnerStep m cur (s.mutexes m).owner (s'.mutexes m).owner es) :
    Held m (tr ++ es) s' := by
  intro t pre post hTr hHeld
  rcases Runs.split_append hTr with ⟨mid, hOld, rfl⟩ | ⟨mid, hNew⟩
  · -- the lock is an old one
    have hMid : .unlocked t m ∉ mid := fun hMem => hHeld (List.mem_append_left _ hMem)
    obtain ⟨hTask, hOwn, hLocks⟩ := h t pre mid hOld hMid
    generalize ho' : (s'.mutexes m).owner = owner' at hOwner
    cases hOwner with
    | other hLocked _ =>
      refine ⟨hTask, hOwn, fun u hu => ?_⟩
      exact hLocks u ((List.mem_append.mp hu).resolve_right (hLocked u))
    | lock hCur hFree =>
      obtain rfl : t = cur := by
        rw [hOwn] at hFree
        exact hFree.resolve_left hTask
      refine ⟨hTask, rfl, fun u hu => ?_⟩
      rcases List.mem_append.mp hu with hu | hu
      · exact hLocks u hu
      · injection List.mem_singleton.mp hu
    | unlock hCur =>
      rw [hOwn] at hCur
      subst hCur
      exact absurd (List.mem_append_right _ (List.mem_singleton.mpr rfl)) hHeld
    | stray _ =>
      refine ⟨hTask, hOwn, fun u hu => ?_⟩
      refine hLocks u ((List.mem_append.mp hu).resolve_right fun hu => ?_)
      cases List.mem_singleton.mp hu
  · -- the lock is made by this step
    have hMem : .locked t m ∈ es := by
      rw [hNew]
      exact List.mem_append_right _ (List.mem_cons_self ..)
    generalize ho' : (s'.mutexes m).owner = owner' at hOwner
    cases hOwner with
    | other hLocked _ => exact absurd hMem (hLocked t)
    | lock hCur hFree =>
      obtain ⟨rfl, hPost⟩ : mid = [] ∧ post = [] := by
        cases mid with
        | nil => exact ⟨rfl, (List.cons.inj hNew).2.symm⟩
        | cons x mid => simp at hNew
      injection List.mem_singleton.mp hMem with hTask
      subst hTask hPost
      exact ⟨hCur, rfl, nofun⟩
    | unlock _ => cases List.mem_singleton.mp hMem
    | stray _ => cases List.mem_singleton.mp hMem

/-- **Mutual exclusion.** From the return of a lock of `m` to task `t` until
`t` itself performs an unlock of `m`, `t` is the owner and no lock of `m`
returns to another task. -/
theorem mutualExclusion (hStarted : Started s₀)
    (hRun  : Runs.Run System.step (fun _ l => l.initialises ≠ some (.mutex m)) s₀ tr s)
    (hTr   : tr = pre ++ .locked t m :: post)
    (hHeld : .unlocked t m ∉ post) :
    (s.mutexes m).owner = t ∧ ∀ u, .locked u m ∈ post → u = t := by
  have hInv : Dispatching s ∧ Held m tr s := by
    refine hRun.induct (fun tr s => Dispatching s ∧ Held m tr s) ⟨hStarted.dispatching, ?_⟩
      fun tr s l s' es h hInit hs => ?_
    · intro t pre post hNil
      simp at hNil
    · have hStep := step_cases hs
      exact ⟨h.1.step hStep, h.2.step (hStep.owner h.1 hInit)⟩
  exact (hInv.2 t pre post hTr hHeld).2

-- ---------------------------------------------------------------------------
-- Brackets
-- ---------------------------------------------------------------------------

omit [TaskConfig] in
/-- `t` has more returned locks than unlocks of `m`. -/
def InBracket (t m : Nat) (tr : List Event) : Prop :=
  tally (unlockedBy t m) tr < tally (lockedBy t m) tr

/-- Every unlock of `m` closes a bracket of the task that makes it. -/
def Paired (m : Nat) (tr : List Event) : Prop :=
  ∀ t pre, pre ++ [.unlocked t m] <+: tr → InBracket t m pre

/-- No unlock of `m` is made inside two or more brackets. -/
def Flat (m : Nat) (tr : List Event) : Prop :=
  ∀ t pre, pre ++ [.unlocked t m] <+: tr →
    tally (lockedBy t m) pre ≤ tally (unlockedBy t m) pre + 1

omit [TaskConfig] in
theorem tally_lockedBy_other (hLocked : ∀ u, .locked u m ∉ es) :
    tally (lockedBy t m) es = 0 := by
  refine Runs.tally_eq_zero fun e he => ?_
  cases e with
  | locked u n =>
    simp only [lockedBy]
    refine if_neg ?_
    rintro ⟨rfl, rfl⟩
    exact hLocked u he
  | _ => rfl

omit [TaskConfig] in
theorem tally_unlockedBy_other (hUnlocked : ∀ u, .unlocked u m ∉ es) :
    tally (unlockedBy t m) es = 0 := by
  refine Runs.tally_eq_zero fun e he => ?_
  cases e with
  | unlocked u n =>
    simp only [unlockedBy]
    refine if_neg ?_
    rintro ⟨rfl, rfl⟩
    exact hUnlocked u he
  | _ => rfl

/-- Whoever is inside a bracket owns the mutex. -/
def Bracketed (m : Nat) (tr : List Event) (s : System) : Prop :=
  ∀ t, InBracket t m tr → t ≠ rtoskMutexNoOwner ∧ (s.mutexes m).owner = t

omit [TaskConfig] in
theorem Bracketed.step (h : Bracketed m tr s) {cur : Nat}
    (hOwner : OwnerStep m cur (s.mutexes m).owner (s'.mutexes m).owner es)
    (hPaired : Paired m (tr ++ es)) (hFlat : Flat m (tr ++ es)) : Bracketed m (tr ++ es) s' := by
  intro t hIn
  unfold InBracket at hIn
  simp only [tally_append] at hIn
  generalize ho' : (s'.mutexes m).owner = owner' at hOwner
  cases hOwner with
  | other hLocked hUnlocked =>
    rw [tally_lockedBy_other hLocked, tally_unlockedBy_other hUnlocked] at hIn
    exact h t hIn
  | lock hCur hFree =>
    by_cases ht : t = cur
    · subst ht
      exact ⟨hCur, rfl⟩
    · have hOld : InBracket t m tr := by
        simpa [tally, lockedBy, unlockedBy, Ne.symm ht, InBracket] using hIn
      obtain ⟨hTask, hOwn⟩ := h t hOld
      rw [hOwn] at hFree
      exact absurd hFree (not_or.mpr ⟨hTask, ht⟩)
  | unlock hOwn =>
    have hOne := hFlat cur tr (List.prefix_refl _)
    by_cases ht : t = cur
    · subst ht
      simp only [tally, lockedBy, unlockedBy, List.map_cons, List.map_nil, List.sum_cons,
        List.sum_nil, and_self, if_true] at hIn hOne
      omega
    · have hOld : InBracket t m tr := by
        simpa [tally, lockedBy, unlockedBy, Ne.symm ht, InBracket] using hIn
      exact absurd ((h t hOld).2.symm.trans hOwn) ht
  | stray hOther =>
    exact absurd (h cur (hPaired cur tr (List.prefix_refl _))).2 hOther

/-- A lock by the owner returns at once. -/
theorem relock_returns (hDispatching : Dispatching s)
    (hOwner : (s.mutexes m).owner = s.kernel.currentTask)
    (hStep : StepCase s (.call (.mutexLock (some m))) s' es) :
    s'.pc s.kernel.currentTask = .user ∧ es = [.locked s.kernel.currentTask m] ∧
      s'.mutexes = s.mutexes ∧ s'.kernel.toTaskTable = s.kernel.toTaskTable := by
  cases hStep with
  | @perform _ c _ exit _ hThread hAt hCall =>
    have hOwned : (s.mutexes m).owner ≠ rtoskMutexNoOwner := by
      rw [hOwner]
      exact hDispatching.user_ne_noWaiter hThread.2.1
    obtain rfl : c = .mutexLock (some m) := by
      rcases hAt with ⟨hLabel, -⟩ | ⟨hLabel, -⟩
      · injection hLabel with hc
        exact hc.symm
      · cases hLabel
    cases hCall with
    | null _ hNull => cases hNull
    | lockFree _ hFree => exact absurd hFree hOwned
    | lockOwn =>
      exact ⟨Function.update_self .., rfl, Function.update_eq_self .., bracket_toTaskTable ..⟩
    | lockBlock _ _ hOther => exact absurd hOwner hOther
  | isr _ hIsr => cases hIsr

/-- An unlock by the owner frees the mutex. -/
theorem unlock_frees (hOwner : (s.mutexes m).owner = s.kernel.currentTask)
    (hStep : StepCase s (.call (.mutexUnlock (some m))) s' es) :
    (s'.mutexes m).owner = rtoskMutexNoOwner ∧ es = [.unlocked s.kernel.currentTask m] := by
  cases hStep with
  | @perform _ c _ _ _ _ hAt hCall =>
    obtain rfl : c = .mutexUnlock (some m) := by
      rcases hAt with ⟨hLabel, -⟩ | ⟨hLabel, -⟩
      · injection hLabel with hc
        exact hc.symm
      · cases hLabel
    cases hCall with
    | null _ hNull => cases hNull
    | unlockStray _ hOther => exact absurd hOwner hOther
    | unlockWake | unlockNone => exact ⟨by simp [setPc, setMutex], rfl⟩
  | isr _ hIsr => cases hIsr

/-- **Re-locking.** A lock of a mutex the caller owns returns at once, and
nothing counts the locks: an unlock by the owner frees the mutex. In runs in
which every unlock closes a bracket, as long as none is made inside two or more,
whoever has more returned locks than unlocks is the owner, and two tasks are
never inside brackets of one mutex; the first unlock made inside two or more
frees the mutex although its task is still inside one. -/
theorem relock (hStarted : Started s₀)
    (hRun : Runs.Run System.step (fun _ l => l.initialises ≠ some (.mutex m)) s₀ tr s) :
    ((s.mutexes m).owner = s.kernel.currentTask →
      ∀ s' es, s.step (.call (.mutexLock (some m))) = some (s', es) →
        s'.pc s.kernel.currentTask = .user ∧ es = [.locked s.kernel.currentTask m] ∧
        s'.mutexes = s.mutexes ∧ s'.kernel.toTaskTable = s.kernel.toTaskTable) ∧
    ((s.mutexes m).owner = s.kernel.currentTask →
      ∀ s' es, s.step (.call (.mutexUnlock (some m))) = some (s', es) →
        (s'.mutexes m).owner = rtoskMutexNoOwner ∧ es = [.unlocked s.kernel.currentTask m]) ∧
    (Paired m tr → Flat m tr →
      (∀ t, InBracket t m tr → (s.mutexes m).owner = t) ∧
      (∀ t u, InBracket t m tr → InBracket u m tr → t = u) ∧
      ∀ l s' es, l.initialises ≠ some (.mutex m) → s.step l = some (s', es) →
        ∀ t, .unlocked t m ∈ es →
          tally (unlockedBy t m) tr + 2 ≤ tally (lockedBy t m) tr →
          InBracket t m (tr ++ es) ∧ (s'.mutexes m).owner ≠ t) := by
  have hInv : Dispatching s ∧ (Paired m tr → Flat m tr → Bracketed m tr s) := by
    refine hRun.induct
      (fun tr s => Dispatching s ∧ (Paired m tr → Flat m tr → Bracketed m tr s))
      ⟨hStarted.dispatching, fun _ _ t hIn => absurd hIn (Nat.lt_irrefl 0)⟩
      fun tr s l s' es h hInit hs => ?_
    have hStep := step_cases hs
    refine ⟨h.1.step hStep, fun hPaired hFlat => ?_⟩
    have hPre : tr <+: tr ++ es := List.prefix_append tr es
    exact (h.2 (fun t pre hp => hPaired t pre (hp.trans hPre))
      fun t pre hp => hFlat t pre (hp.trans hPre)).step (hStep.owner h.1 hInit) hPaired hFlat
  refine ⟨fun hOwner s' es hs => relock_returns hInv.1 hOwner (step_cases hs),
    fun hOwner s' es hs => unlock_frees hOwner (step_cases hs), fun hPaired hFlat => ?_⟩
  have hBracketed := hInv.2 hPaired hFlat
  refine ⟨fun t hIn => (hBracketed t hIn).2,
    fun t u ht hu => (hBracketed t ht).2.symm.trans (hBracketed u hu).2,
    fun l s' es hInit hs t hMem hDeep => ?_⟩
  obtain ⟨hTask, hOwn⟩ := hBracketed t (by unfold InBracket; omega)
  have hStep := (step_cases hs).owner hInv.1 hInit
  generalize ho : (s.mutexes m).owner = owner at hStep
  generalize ho' : (s'.mutexes m).owner = owner' at hStep
  cases hStep with
  | other _ hUnlocked => exact absurd hMem (hUnlocked t)
  | lock _ _ => cases List.mem_singleton.mp hMem
  | unlock _ =>
    injection List.mem_singleton.mp hMem with hCur
    subst hCur
    refine ⟨?_, hTask.symm⟩
    simp only [InBracket, tally, List.map_append, List.sum_append, List.map_cons, List.map_nil,
      List.sum_cons, List.sum_nil, lockedBy, unlockedBy, and_self, if_true] at hDeep ⊢
    omega
  | stray hOther =>
    injection List.mem_singleton.mp hMem with hCur
    subst hCur
    exact absurd (ho.symm.trans hOwn) hOther

end

-- ---------------------------------------------------------------------------
-- Two contenders
-- ---------------------------------------------------------------------------

/-- Task `0` runs first; task `1` outranks it. -/
def contenders : System :=
  boot [1, 2] (fun _ => rtoskSemaphoreInit 0)
    (fun _ => ⟨fun _ => 0, 1, 2, 0, 0, 0, rtoskQueueNoWaiter⟩)

theorem contenders_started : Started contenders :=
  boot_started (by decide) (fun _ => rfl) fun _ => ⟨rfl, rfl, rfl, rfl⟩

/-- Task `0` holds the mutex, is preempted, and task `1` tries to lock it. -/
theorem mutualExclusion_contenders :
    ∃ tr s, Runs.Run System.step (fun _ l => l.initialises ≠ some (.mutex 0)) contenders tr s ∧
      tr = [.locked 0 0, .switched 1, .switched 0] ∧ (s.mutexes 0).owner = 0 := by
  obtain ⟨tr, s, hRun, hTr⟩ :=
    Runs.exists_run_of_exec System.step
      (fun _ l => l.initialises ≠ some (.mutex 0)) contenders
      [.call (.mutexLock (some 0)), .tick, .pendSv, .scan, .scan, .pendSvExit,
        .call (.mutexLock (some 0)), .yield, .pendSv, .scan, .scan, .pendSvExit]
      (fun tr _ => tr = [.locked 0 0, .switched 1, .switched 0])
      (by decide)
  refine ⟨tr, s, hRun, hTr, ?_⟩
  have hSplit : tr = [] ++ .locked 0 0 :: [.switched 1, .switched 0] := hTr
  exact (mutualExclusion contenders_started hRun hSplit (by decide)).1

/-- Task `0` locks twice, unlocks once and yields; task `1` locks. -/
def overlapLabels : List Label :=
  [.call (.mutexLock (some 0)), .call (.mutexLock (some 0)), .call (.mutexUnlock (some 0)),
    .yield, .pendSv, .scan, .scan, .pendSvExit, .call (.mutexLock (some 0))]

/-- Task `0` has locked twice and not unlocked yet. -/
theorem relock_contenders :
    ∃ tr s, Runs.Run System.step (fun _ l => l.initialises ≠ some (.mutex 0)) contenders tr s ∧
      InBracket 0 0 tr ∧ (s.mutexes 0).owner = 0 := by
  obtain ⟨tr, s, hRun, hTr⟩ :=
    Runs.exists_run_of_exec System.step
      (fun _ l => l.initialises ≠ some (.mutex 0)) contenders
      (overlapLabels.take 2)
      (fun tr _ => tr = [.locked 0 0, .locked 0 0]) (by decide)
  have hIn : InBracket 0 0 tr := by
    rw [hTr]
    unfold InBracket
    decide
  have hNone : ∀ t pre, ¬ pre ++ [.unlocked t 0] <+: tr := by
    intro t pre hPre
    have hMem : Event.unlocked t 0 ∈ tr := hPre.subset (by simp)
    simp [hTr] at hMem
  have hRelock := (relock contenders_started hRun).2.2
    (fun t pre hPre => absurd hPre (hNone t pre)) fun t pre hPre => absurd hPre (hNone t pre)
  exact ⟨tr, s, hRun, hIn, hRelock.1 0 hIn⟩

/-- **Overlapping brackets.** The inner unlock of task `0` frees the mutex; task
`1` locks it while the outer bracket of task `0` is still open. -/
theorem relock_overlap :
    ∃ tr s, Runs.Run System.step (fun _ l => l.initialises ≠ some (.mutex 0)) contenders tr s ∧
      Paired 0 tr ∧ InBracket 0 0 tr ∧ InBracket 1 0 tr ∧ (s.mutexes 0).owner = 1 := by
  obtain ⟨tr, s, hRun, hTr, hOwner⟩ :=
    Runs.exists_run_of_exec System.step
      (fun _ l => l.initialises ≠ some (.mutex 0)) contenders
      overlapLabels (fun tr s => tr = [.locked 0 0, .locked 0 0, .unlocked 0 0, .switched 1,
        .locked 1 0] ∧ (s.mutexes 0).owner = 1)
      (by decide)
  refine ⟨tr, s, hRun, ?_, ?_, ?_, hOwner⟩
  · rw [hTr]
    rintro t pre ⟨post, hPre⟩
    -- the one unlock is the third event
    rcases pre with _ | ⟨a, _ | ⟨b, _ | ⟨c, _ | ⟨d, _ | ⟨e, pre⟩⟩⟩⟩⟩ <;> simp at hPre
    obtain ⟨rfl, rfl, rfl, -⟩ := hPre
    unfold InBracket
    decide
  · rw [hTr]
    unfold InBracket
    decide
  · rw [hTr]
    unfold InBracket
    decide

end System

end TinyRtos
