import TinyRtos.Lib.WholeLines
import TinyRtos.Osi.Transmit
import TinyRtos.Results.Exclusion

/-!
# TinyRTOS — lines stay whole

The TX mutex is there so that no other task can write until a line is out.

* `lines_whole` — along every run, whatever the tasks and the interrupts do
  between two bytes, what is transmitted is whole lines in the order in which
  the mutex was obtained, and then the beginning of at most one; and every task
  has its own lines written once, in its own order, but for the one it is at.
-/

namespace TinyRtos

namespace Transmit

open WholeLines

def Event.transmitted : Event → Option UInt8
  | .transmit _ c => some c
  | _ => none

def Event.begun : Event → Option (Nat × List UInt8)
  | .began t bytes => some (t, bytes)
  | _ => none

def Event.ended : Event → Option (Nat × List UInt8)
  | .finished t bytes => some (t, bytes)
  | _ => none

/-- The bytes on the line. -/
def transmitted (tr : List Event) : List UInt8 := tr.filterMap Event.transmitted

/-- The lines that are complete, with their writers. -/
def finished (tr : List Event) : List (Nat × List UInt8) := tr.filterMap Event.ended

/-- The lines of one task. -/
def linesOf (t : Nat) (lines : List (Nat × List UInt8)) : List (List UInt8) :=
  lines.filterMap fun l => if l.1 = t then some l.2 else none

section

variable {tx : Nat} {c c' c₀ : Transmit} {l : TinyRtos.Label} {sys' : System}
  {es : List TinyRtos.Event} {tr : List Event}

variable [TaskConfig]

/-- Only an unlock unlocks. -/
theorem unlocked_of_step {s s' : System} {t : Nat} (h : s.step l = some (s', es))
    (hMem : .unlocked t tx ∈ es) : l = .call (.mutexUnlock (some tx)) := by
  cases System.step_cases h with
  | perform hThread hAt hCall =>
    rcases hAt with ⟨rfl, -⟩ | ⟨-, -, hRetries⟩
    · cases hCall <;> simp_all
    · cases hCall <;> simp_all [Call.retries]
  | isr _ hIsr => cases hIsr <;> simp_all
  | _ => simp_all

omit [TaskConfig] in
theorem uses_of_initialises (h : l.initialises = some (.mutex tx)) : l.uses tx = true := by
  unfold TinyRtos.Label.initialises at h
  split at h
  · cases h
  · obtain rfl := Obj.mutex.inj (Option.some.inj h)
    exact decide_eq_true rfl
  · cases h
  · cases h

/-- What `Transmit.onSys` does: a step of the kernel, after which the running
task is past its lock if that has returned. -/
theorem onSys_eq (h : c.onSys tx l = some c') :
    ∃ es, c.sys.step l = some (c'.sys, es) ∧
      c'.writer = if .locked c.current tx ∈ es then
        Function.update c.writer c.current (c.writer c.current).locked else c.writer := by
  unfold onSys at h
  cases hStep : c.sys.step l with
  | none =>
    rw [hStep] at h
    cases h
  | some r =>
    obtain ⟨sys, es⟩ := r
    simp only [hStep, Option.some.injEq] at h
    subst h
    refine ⟨es, rfl, ?_⟩
    split <;> rfl

/-- The task that is being written for has the mutex. -/
structure Holding (tx : Nat) (c : Transmit) (cur : Option (Current Nat UInt8)) : Prop where
  writing : ∀ t written left,
    c.writer t = .writing written left ↔ cur = some ⟨t, written, left⟩
  owner   : ∀ k, cur = some k →
    k.writer ≠ rtoskMutexNoOwner ∧ (c.sys.mutexes tx).owner = k.writer

omit [TaskConfig] in
/-- The current task gets the mutex: no other line is being written then. -/
theorem Holding.obtain {cur : Option (Current Nat UInt8)} (h : Holding tx c cur)
    {bytes : List UInt8} (hAt : c.writer c.current = .locking bytes)
    (hFree : (c.sys.mutexes tx).owner = rtoskMutexNoOwner ∨
      (c.sys.mutexes tx).owner = c.current) : cur = none := by
  cases hCur : cur with
  | none => rfl
  | some k =>
    exfalso
    obtain ⟨hTask, hOwn⟩ := h.owner k hCur
    have hSame : k.writer = c.current := by
      rcases hFree with hFree | hFree
      · exact absurd (hOwn.symm.trans hFree) hTask
      · exact hOwn.symm.trans hFree
    have hWriting := (h.writing k.writer k.written k.left).mpr hCur
    rw [hSame, hAt] at hWriting
    cases hWriting

/-- A step of the kernel, but for an unlock: all stays as it is, or the current
task goes on from its lock. -/
theorem Holding.onSys {cur : Option (Current Nat UInt8)} (h : Holding tx c cur)
    (hDispatching : System.Dispatching c.sys) (hStep : c.onSys tx l = some c')
    (hUnlock : l ≠ .call (.mutexUnlock (some tx))) (hInit : l.initialises ≠ some (.mutex tx)) :
    (∀ t, (c'.writer t).line? = (c.writer t).line?) ∧
      (Holding tx c' cur ∨
        ∃ bytes, cur = none ∧ Holding tx c' (some ⟨c.current, [], bytes⟩)) := by
  obtain ⟨es, hs, hWriter⟩ := onSys_eq hStep
  have hOwner := (System.step_cases hs).owner hDispatching hInit
  generalize hOwn : (c.sys.mutexes tx).owner = owner at hOwner
  generalize hOwn' : (c'.sys.mutexes tx).owner = owner' at hOwner
  by_cases hLocked : .locked c.current tx ∈ es
  · rw [if_pos hLocked] at hWriter
    obtain ⟨hFree, hNow, hTask⟩ : (owner = rtoskMutexNoOwner ∨ owner = c.current) ∧
        owner' = c.current ∧ c.current ≠ rtoskMutexNoOwner := by
      cases hOwner with
      | other hNot _ => exact absurd hLocked (hNot _)
      | lock hCur hFree => exact ⟨hFree, rfl, hCur⟩
      | unlock _ => cases List.mem_singleton.mp hLocked
      | stray _ => cases List.mem_singleton.mp hLocked
    subst hOwn
    cases hAt : c.writer c.current with
    | locking bytes =>
      rw [hAt] at hWriter
      have hNone := h.obtain hAt hFree
      subst hNone
      refine ⟨fun t => ?_, Or.inr ⟨bytes, rfl, fun t written left => ?_, fun k hk => ?_⟩⟩
      · rw [hWriter]
        by_cases ht : t = c.current
        · subst ht
          rw [Function.update_self, hAt]
          rfl
        · rw [Function.update_of_ne ht]
      · rw [hWriter]
        by_cases ht : t = c.current
        · subst ht
          simp [Writer.locked]
        · rw [Function.update_of_ne ht, h.writing]
          simp [Ne.symm ht]
      · obtain rfl := Option.some.inj hk
        exact ⟨hTask, hOwn'.trans hNow⟩
    | idle | writing _ _ =>
      have hSame : c'.writer = c.writer := by
        rw [hWriter, hAt]
        exact Function.update_eq_self_iff.mpr hAt.symm
      refine ⟨fun t => by rw [hSame], Or.inl ⟨by rw [hSame]; exact h.writing, fun k hk => ?_⟩⟩
      obtain ⟨hk₁, hk₂⟩ := h.owner k hk
      refine ⟨hk₁, hOwn'.trans (hNow.trans ?_)⟩
      rcases hFree with hFree | hFree
      · exact absurd (hk₂.symm.trans hFree) hk₁
      · exact hFree.symm.trans hk₂
  · rw [if_neg hLocked] at hWriter
    have hSame : owner' = owner := by
      cases hOwner with
      | other _ _ => rfl
      | lock _ _ => exact absurd (List.mem_singleton.mpr rfl) hLocked
      | unlock _ => exact absurd (unlocked_of_step hs (List.mem_singleton.mpr rfl)) hUnlock
      | stray _ => exact absurd (unlocked_of_step hs (List.mem_singleton.mpr rfl)) hUnlock
    refine ⟨fun t => by rw [hWriter], Or.inl ⟨by rw [hWriter]; exact h.writing, fun k hk => ?_⟩⟩
    rw [hOwn', hSame, ← hOwn]
    exact h.owner k hk

omit [TaskConfig] in
/-- A task that is not at a line goes to where it is still not written. -/
theorem Holding.setWriter {cur : Option (Current Nat UInt8)} (h : Holding tx c cur) {w : Writer}
    (hBefore : ∀ written left, c.writer c.current ≠ .writing written left)
    (hAfter : ∀ written left, w ≠ .writing written left) : Holding tx (c.setWriter w) cur := by
  refine ⟨fun t written left => ?_, h.owner⟩
  rw [← h.writing]
  by_cases ht : t = c.current
  · subst ht
    simp [Transmit.setWriter, hBefore, hAfter]
  · simp [Transmit.setWriter, Function.update_of_ne ht]

/-- What holds along every run. -/
structure Lined (tx : Nat) (tr : List Event) (c : Transmit) : Prop where
  dispatching : System.Dispatching c.sys
  lines       : ∃ cur, Holding tx c cur ∧ Whole (finished tr) cur (transmitted tr)
  queued      : ∀ t, linesOf t (tr.filterMap Event.begun) =
    linesOf t (finished tr) ++ (c.writer t).line?.toList

theorem onSys_dispatching (h : System.Dispatching c.sys) (hStep : c.onSys tx l = some c') :
    System.Dispatching c'.sys := by
  obtain ⟨es, hs, -⟩ := onSys_eq hStep
  exact h.step (System.step_cases hs)

theorem Lined.sys (h : Lined tx tr c) (hUses : l.uses tx = false)
    (hStep : c.onSys tx l = some c') : Lined tx tr c' := by
  obtain ⟨cur, hHolding, hWhole⟩ := h.lines
  have hUnlock : l ≠ .call (.mutexUnlock (some tx)) := by
    rintro rfl
    simp [TinyRtos.Label.uses] at hUses
  have hInit : l.initialises ≠ some (.mutex tx) := fun hInit =>
    Bool.false_ne_true (hUses.symm.trans (uses_of_initialises hInit))
  obtain ⟨hLines, hNext⟩ := hHolding.onSys h.dispatching hStep hUnlock hInit
  refine ⟨onSys_dispatching h.dispatching hStep, ?_, fun t => ?_⟩
  · rcases hNext with hNext | ⟨bytes, rfl, hNext⟩
    · exact ⟨cur, hNext, hWhole⟩
    · exact ⟨_, hNext, hWhole.begin c.current bytes⟩
  · rw [hLines]
    exact h.queued t

theorem Lined.lock (h : Lined tx tr c) {bytes : List UInt8} (hIdle : c.writer c.current = .idle)
    (hStep : (c.setWriter (.locking bytes)).onSys tx (.call (.mutexLock (some tx))) = some c') :
    Lined tx (tr ++ [.began c.current bytes]) c' := by
  obtain ⟨cur, hHolding, hWhole⟩ := h.lines
  have hSet := hHolding.setWriter (w := .locking bytes) (by simp [hIdle]) (by simp)
  obtain ⟨hLines, hNext⟩ := hSet.onSys h.dispatching hStep (by simp) (by simp [TinyRtos.Label.initialises])
  refine ⟨onSys_dispatching (c := c.setWriter (.locking bytes)) h.dispatching hStep, ?_,
    fun t => ?_⟩
  · have hSilent : finished (tr ++ [.began c.current bytes]) = finished tr ∧
        transmitted (tr ++ [.began c.current bytes]) = transmitted tr := by
      simp [finished, transmitted, List.filterMap_cons, Event.ended, Event.transmitted]
    rw [hSilent.1, hSilent.2]
    rcases hNext with hNext | ⟨line, rfl, hNext⟩
    · exact ⟨cur, hNext, hWhole⟩
    · exact ⟨_, hNext, hWhole.begin c.current line⟩
  · rw [hLines]
    have hQueued := h.queued t
    by_cases ht : t = c.current
    · subst ht
      rw [hIdle] at hQueued
      simpa [linesOf, finished, List.filterMap_cons, Event.begun, Event.ended, Transmit.setWriter, Writer.line?]
        using hQueued
    · simpa [linesOf, finished, List.filterMap_cons, Event.begun, Event.ended, Transmit.setWriter,
        Function.update_of_ne ht, Ne.symm ht] using hQueued

theorem Lined.writeChar (h : Lined tx tr c) {written left : List UInt8} {b : UInt8}
    (hAt : c.writer c.current = .writing written (b :: left)) :
    Lined tx (tr ++ [.transmit c.current b]) (c.setWriter (.writing (written ++ [b]) left)) := by
  obtain ⟨cur, hHolding, hWhole⟩ := h.lines
  obtain rfl := (hHolding.writing _ _ _).mp hAt
  refine ⟨h.dispatching, ⟨some ⟨c.current, written ++ [b], left⟩, ⟨fun t written' left' => ?_,
    fun k hk => ?_⟩, ?_⟩, fun t => ?_⟩
  · by_cases ht : t = c.current
    · subst ht
      simp [Transmit.setWriter]
    · simp [Transmit.setWriter, Function.update_of_ne ht, hHolding.writing, Ne.symm ht]
  · obtain rfl := Option.some.inj hk
    exact hHolding.owner ⟨c.current, written, b :: left⟩ rfl
  · simpa [finished, transmitted, List.filterMap_cons, Event.ended, Event.transmitted] using hWhole.write
  · have hQueued := h.queued t
    by_cases ht : t = c.current
    · subst ht
      rw [hAt] at hQueued
      simpa [linesOf, finished, List.filterMap_cons, Event.begun, Event.ended, Transmit.setWriter, Writer.line?]
        using hQueued
    · simpa [linesOf, finished, List.filterMap_cons, Event.begun, Event.ended, Transmit.setWriter,
        Function.update_of_ne ht] using hQueued

theorem Lined.unlock (h : Lined tx tr c) {written : List UInt8}
    (hAt : c.writer c.current = .writing written [])
    (hStep : (c.setWriter .idle).onSys tx (.call (.mutexUnlock (some tx))) = some c') :
    Lined tx (tr ++ [.finished c.current written]) c' := by
  obtain ⟨cur, hHolding, hWhole⟩ := h.lines
  obtain rfl := (hHolding.writing _ _ _).mp hAt
  obtain ⟨es, hs, hWriter⟩ := onSys_eq hStep
  have hSame : c'.writer = (c.setWriter .idle).writer := by
    rw [hWriter]
    split
    · refine Function.update_eq_self_iff.mpr ?_
      simp [Transmit.setWriter, Transmit.current, Writer.locked]
    · rfl
  refine ⟨onSys_dispatching (c := c.setWriter .idle) h.dispatching hStep,
    ⟨none, ⟨fun t written' left' => ?_, fun k hk => ?_⟩, ?_⟩, fun t => ?_⟩
  · rw [hSame]
    by_cases ht : t = c.current
    · subst ht
      simp [Transmit.setWriter]
    · simp [Transmit.setWriter, Function.update_of_ne ht, hHolding.writing, Ne.symm ht]
  · cases hk
  · simpa [finished, transmitted, List.filterMap_cons, Event.ended, Event.transmitted] using hWhole.finish
  · rw [hSame]
    have hQueued := h.queued t
    by_cases ht : t = c.current
    · subst ht
      rw [hAt] at hQueued
      simpa [linesOf, finished, List.filterMap_cons, Event.begun, Event.ended, Transmit.setWriter, Writer.line?]
        using hQueued
    · simpa [linesOf, finished, List.filterMap_cons, Event.begun, Event.ended, Transmit.setWriter,
        Function.update_of_ne ht, Ne.symm ht] using hQueued

theorem Lined.step (h : Lined tx tr c) {l : Label} {es : List Event}
    (hs : c.step tx l = some (c', es)) : Lined tx (tr ++ es) c' := by
  cases l with
  | sys l =>
    simp only [Transmit.step] at hs
    split at hs
    · cases hs
    · rename_i hOther
      obtain ⟨c₁, hStep, hEq⟩ := Option.map_eq_some_iff.mp hs
      cases hEq
      rw [List.append_nil]
      exact h.sys (Bool.eq_false_iff.mpr (not_or.mp hOther).1) hStep
  | lock bytes =>
    simp only [Transmit.step] at hs
    split at hs
    · rename_i hIdle
      obtain ⟨c₁, hStep, hEq⟩ := Option.map_eq_some_iff.mp hs
      cases hEq
      exact h.lock hIdle hStep
    · cases hs
  | writeChar =>
    simp only [Transmit.step] at hs
    split at hs
    · rename_i hAt
      split at hs
      · cases hs
        exact h.writeChar hAt
      · cases hs
    · cases hs
  | unlock =>
    simp only [Transmit.step] at hs
    split at hs
    · rename_i hAt
      obtain ⟨c₁, hStep, hEq⟩ := Option.map_eq_some_iff.mp hs
      cases hEq
      exact h.unlock hAt hStep
    · cases hs

theorem lined_run (hStarted : System.Started c₀.sys) (hIdle : ∀ t, c₀.writer t = .idle)
    {G : Transmit → Label → Prop} (hRun : Runs.Run (step tx) G c₀ tr c) : Lined tx tr c := by
  refine hRun.induct (Lined tx) ⟨hStarted.dispatching, ?_, fun t => ?_⟩
    fun _ _ _ _ _ h _ hs => h.step hs
  · refine ⟨none, ⟨by simp [hIdle], fun k hk => ?_⟩, whole_nil⟩
    cases hk
  · rw [hIdle]
    rfl

/-- **Lines stay whole.** What was transmitted along a run is the lines that are
finished, one behind the other, and then the beginning of the line of the one
task that is at it; and of every task all lines it has begun are among them in
its order, but for the one it is at. -/
theorem lines_whole (hStarted : System.Started c₀.sys) (hIdle : ∀ t, c₀.writer t = .idle)
    (hRun : Runs.Run (step tx) (fun _ _ => True) c₀ tr c) :
    (∃ written, transmitted tr = (finished tr).flatMap Prod.snd ++ written ∧
      (written ≠ [] → ∃ t left, c.writer t = .writing written left)) ∧
    (∀ t u written left written' left', c.writer t = .writing written left →
      c.writer u = .writing written' left' → t = u) ∧
    ∀ t, linesOf t (tr.filterMap Event.begun) =
      linesOf t (finished tr) ++ (c.writer t).line?.toList := by
  have hInv := lined_run hStarted hIdle hRun
  obtain ⟨cur, hHolding, hWhole⟩ := hInv.lines
  refine ⟨⟨_, hWhole, fun hNe => ?_⟩, fun t u _ _ _ _ ht hu => ?_, hInv.queued⟩
  · cases hCur : cur with
    | none =>
      rw [hCur] at hNe
      exact absurd rfl hNe
    | some k => exact ⟨k.writer, k.left, (hHolding.writing _ _ _).mpr hCur⟩
  · have hBoth := ((hHolding.writing _ _ _).mp ht).symm.trans ((hHolding.writing _ _ _).mp hu)
    exact congrArg Current.writer (Option.some.inj hBoth)

end

-- ---------------------------------------------------------------------------
-- Two writers
-- ---------------------------------------------------------------------------

/-- Task `0` is interrupted in its line; task `1` waits with its own. -/
def interruptedLine : List Label :=
  [.lock [0x61, 0x62], .writeChar, .sys .tick, .sys .pendSv, .sys .scan, .sys .scan,
    .sys .pendSvExit, .lock [0x63], .sys .yield, .sys .pendSv, .sys .scan, .sys .scan,
    .sys .pendSvExit, .writeChar, .unlock]

theorem lines_whole_interrupted :
    ∃ tr c, Runs.Run (step 0) (fun _ _ => True) ⟨System.contenders, fun _ => .idle⟩ tr c ∧
      transmitted tr = [0x61, 0x62] ∧ [[0x63]] = (c.writer 1).line?.toList := by
  obtain ⟨tr, c, hRun, hTr⟩ :=
    Runs.exists_run_of_exec (step 0) (fun _ _ => True) ⟨System.contenders, fun _ => .idle⟩
      interruptedLine
      (fun tr _ => tr = [.began 0 [0x61, 0x62], .transmit 0 0x61, .began 1 [0x63],
        .transmit 0 0x62, .finished 0 [0x61, 0x62]])
      (by decide)
  have hLines := (lines_whole System.contenders_started (fun _ => rfl) hRun).2.2 1
  rw [hTr] at hLines
  exact ⟨tr, c, hRun, by rw [hTr]; rfl, hLines⟩

end Transmit

end TinyRtos
