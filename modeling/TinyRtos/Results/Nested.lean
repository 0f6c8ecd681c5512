import TinyRtos.Kernel.Nested
import TinyRtos.Results.Atomic

/-!
# TinyRTOS — the tick is atomic

A handler that gives or sends inside the tick makes a task READY, and so does
the tick: in whichever order they do so, the table is the same. `rest` is what is
left of a tick, and handlers pass through it (`Passes`); seen through it (`view`)
the tick is made at its first statement.

## Results

* `rest_make`     — a statement of the tick leaves less of it, and changes nothing
  otherwise.
* `rest_passes`   — handlers and what is left of a tick commute.
* `nested_atomic` — the system with handlers inside the tick, and calls taken
  apart into their statements, has the runs of `System.step`.
-/

namespace TinyRtos

namespace Nested

-- ---------------------------------------------------------------------------
-- What is left of a tick
-- ---------------------------------------------------------------------------

section Table

variable {now : UInt32} {i w : Nat} {k : TaskTable}

/-- The due sleepers from index `i` on are made READY. -/
def wakeFrom (now : UInt32) (i : Nat) (k : TaskTable) : TaskTable :=
  { k with tasks := fun j =>
      if i ≤ j ∧ j < k.taskCount ∧ Due now (k.tasks j) then { k.tasks j with state := .ready }
      else k.tasks j }

theorem updateBlocked_eq (now : UInt32) (k : TaskTable) :
    (rtoskTaskUpdateBlocked now k).1 = wakeFrom now 0 k := by
  have hTasks : (rtoskTaskUpdateBlocked now k).1.tasks = (wakeFrom now 0 k).tasks := by
    funext j
    rw [rtoskTaskUpdateBlocked_tasks]
    simp [wakeFrom]
  have hCount := rtoskTaskUpdateBlocked_taskCount now k
  have hCur := rtoskTaskUpdateBlocked_currentTask now k
  have hIdle := rtoskTaskUpdateBlocked_idleReady now k
  cases hTable : (rtoskTaskUpdateBlocked now k).1
  simp only [hTable] at hTasks hCount hCur hIdle
  subst hTasks hCount hCur hIdle
  rfl

theorem wakeFrom_end (h : k.taskCount ≤ i) : wakeFrom now i k = k := by
  have hTasks : (wakeFrom now i k).tasks = k.tasks := by
    funext j
    refine if_neg fun hj => ?_
    have hLt := hj.2.1
    omega
  exact congrArg (fun tasks => { k with tasks := tasks }) hTasks

theorem wakeFrom_skip (h : ¬ Due now (k.tasks i)) :
    wakeFrom now i k = wakeFrom now (i + 1) k := by
  unfold wakeFrom
  congr 1
  funext j
  by_cases hj : j = i
  · subst hj
    simp [h]
  · have hLe : i ≤ j ↔ i + 1 ≤ j := by omega
    simp only [hLe]

theorem wakeFrom_wake (hi : i < k.taskCount) (h : Due now (k.tasks i)) :
    wakeFrom now i k = wakeFrom now (i + 1) (k.setState i .ready) := by
  unfold wakeFrom TaskTable.setState
  congr 1
  funext j
  by_cases hj : j = i
  · subst hj
    simp [h, hi]
  · have hLe : i ≤ j ↔ i + 1 ≤ j := by omega
    simp only [hLe, Function.update_of_ne hj]

/-- **A task that a handler makes READY is READY**, before the tick gets to it or
after. -/
theorem wakeFrom_setReady :
    wakeFrom now i (rtoskTaskSetReady w k) = rtoskTaskSetReady w (wakeFrom now i k) := by
  have hCount : (wakeFrom now i k).taskCount = k.taskCount := rfl
  unfold rtoskTaskSetReady
  rw [hCount]
  split
  · rfl
  · unfold wakeFrom TaskTable.setState
    congr 1
    funext j
    by_cases hj : j = w
    · subst hj
      have hAwake : ¬ Due now { k.tasks j with state := .ready } := fun hDue => by cases hDue.1
      simp only [Function.update_self, hAwake, and_false, if_false]
      split <;> rfl
    · simp only [Function.update_of_ne hj]

theorem setState_setReady :
    (rtoskTaskSetReady w k).setState i .ready = rtoskTaskSetReady w (k.setState i .ready) := by
  unfold rtoskTaskSetReady
  rw [TaskTable.setState_taskCount]
  split
  · rfl
  · by_cases hSame : i = w
    · rw [hSame]
    · unfold TaskTable.setState
      simp [Function.update_of_ne hSame, Function.update_of_ne (Ne.symm hSame),
        Function.update_comm hSame]

end Table

/-- What is left of the tick at a statement. -/
def rest : TickAt → Kernel → Kernel
  | .count, k => rtoskKernelTick k
  | .testInit, k =>
    if k.kernelInit = false then k else rtoskPortYield (k.onTable (wakeFrom k.systicks 0))
  | .testCount now i, k | .testState now i, k => rtoskPortYield (k.onTable (wakeFrom now i))
  | .testWake now i, k =>
    rtoskPortYield (k.onTable fun table => wakeFrom now (i + 1)
      (if wakeTickReached now (table.tasks i).wakeTick then table.setState i .ready else table))
  | .setReady now i, k =>
    rtoskPortYield (k.onTable fun table => wakeFrom now (i + 1) (table.setState i .ready))
  | .yield, k => rtoskPortYield k

/-- Likewise where there may be none. -/
def restOf : Option TickAt → Kernel → Kernel
  | none => id
  | some stmt => rest stmt

/-- In a round of the loop there is a task to look at. -/
def InTable (count : Nat) : TickAt → Prop
  | .testState _ i | .testWake _ i | .setReady _ i => i < count
  | _ => True

/-- How many statements are left at most. -/
def left (count : Nat) : Option TickAt → Nat
  | none => 0
  | some .yield => 1
  | some (.testCount _ i) => 4 * (count - i) + 2
  | some (.testState _ i) => 4 * (count - i) + 1
  | some (.testWake _ i) => 4 * (count - i)
  | some (.setReady _ i) => 4 * (count - i) - 1
  | some .testInit => 4 * count + 3
  | some .count => 4 * count + 4

section Make

variable {k : Kernel} {stmt : TickAt}

theorem make_taskCount (k : Kernel) (stmt : TickAt) : (make k stmt).1.taskCount = k.taskCount := by
  cases stmt <;> rfl

/-- **A statement of the tick leaves the rest of it.** -/
theorem rest_make (h : InTable k.taskCount stmt) :
    restOf (make k stmt).2 (make k stmt).1 = rest stmt k := by
  cases stmt with
  | count =>
    simp only [make, restOf, rest, rtoskKernelTick, updateBlocked_eq]
    rfl
  | testInit =>
    simp only [make, rest]
    split
    · rfl
    · rfl
  | testCount now i =>
    simp only [make, rest]
    split
    · rfl
    · rename_i hEnd
      have hNone : k.onTable (wakeFrom now i) = k := by
        unfold Kernel.onTable
        rw [wakeFrom_end (Nat.le_of_not_lt hEnd)]
      rw [hNone]
      rfl
  | testState now i =>
    simp only [make, rest]
    split
    · rename_i hBlocked
      simp only [restOf, rest, Kernel.onTable]
      split
      · rename_i hReached
        rw [wakeFrom_wake h ⟨hBlocked, hReached⟩]
      · rename_i hEarly
        rw [wakeFrom_skip fun hDue => hEarly hDue.2]
    · rename_i hAwake
      simp only [restOf, rest, Kernel.onTable]
      rw [wakeFrom_skip fun hDue => hAwake hDue.1]
  | testWake now i =>
    simp only [make, rest]
    split
    · rename_i hReached
      simp only [restOf, rest, Kernel.onTable, if_pos hReached]
    · rename_i hEarly
      simp only [restOf, rest, Kernel.onTable, if_neg hEarly]
  | setReady | yield => rfl

theorem inTable_make (h : InTable k.taskCount stmt) {next : TickAt}
    (hNext : (make k stmt).2 = some next) : InTable (make k stmt).1.taskCount next := by
  rw [make_taskCount]
  cases stmt with
  | count | setReady =>
    cases hNext
    trivial
  | yield => cases hNext
  | testInit =>
    simp only [make] at hNext
    split at hNext
    · cases hNext
    · cases hNext
      trivial
  | testCount now i =>
    simp only [make] at hNext
    split at hNext
    · rename_i hLt
      cases hNext
      exact hLt
    · cases hNext
      trivial
  | testState now i | testWake now i =>
    simp only [make] at hNext
    split at hNext
    · cases hNext
      exact h
    · cases hNext
      trivial

theorem left_make (h : InTable k.taskCount stmt) :
    left k.taskCount (make k stmt).2 < left k.taskCount (some stmt) := by
  cases stmt with
  | count => simp [make, left]
  | yield => simp [make, left]
  | testInit =>
    simp only [make]
    split
    · simp [left]
    · simp [left]
  | testCount now i =>
    simp only [make]
    split
    · simp [left]
    · simp only [left]
      omega
  | testState now i | testWake now i =>
    have hi : i < k.taskCount := h
    simp only [make]
    split
    · simp only [left]
      omega
    · simp only [left]
      omega
  | setReady now i =>
    have hi : i < k.taskCount := h
    simp only [make, left]
    omega

end Make

-- ---------------------------------------------------------------------------
-- Handlers inside the tick
-- ---------------------------------------------------------------------------

/-- `g` does not mind a handler that wakes a task. -/
structure Passes (g : Kernel → Kernel) : Prop where
  wake : ∀ k w, g (rtoskPortYield (k.onTable (rtoskTaskSetReady w))) =
    rtoskPortYield ((g k).onTable (rtoskTaskSetReady w))
  primask : ∀ k, (g k).primask = k.primask

/-- What a tick does to the table, and the switch it requests. -/
theorem passes_yield {g : TaskTable → TaskTable}
    (h : ∀ w k, g (rtoskTaskSetReady w k) = rtoskTaskSetReady w (g k)) :
    Passes fun k => rtoskPortYield (k.onTable g) := by
  refine ⟨fun k w => ?_, fun k => rfl⟩
  simp only [Kernel.onTable, rtoskPortYield, h]

theorem rest_testInit_passes : Passes (rest .testInit) := by
  have hOff {k : Kernel} (h : k.kernelInit = false) : rest .testInit k = k := if_pos h
  have hOn {k : Kernel} (h : k.kernelInit ≠ false) :
      rest .testInit k = rtoskPortYield (k.onTable (wakeFrom k.systicks 0)) := if_neg h
  refine ⟨fun k w => ?_, fun k => ?_⟩
  · have hSame : (rtoskPortYield (k.onTable (rtoskTaskSetReady w))).kernelInit = k.kernelInit := rfl
    by_cases hInit : k.kernelInit = false
    · rw [hOff hInit, hOff (hSame.trans hInit)]
    · rw [hOn hInit, hOn (hSame.trans_ne hInit)]
      exact (passes_yield fun _ _ => wakeFrom_setReady).wake k w
  · by_cases hInit : k.kernelInit = false
    · rw [hOff hInit]
    · rw [hOn hInit]
      rfl

/-- **Handlers and what is left of a tick commute.** -/
theorem rest_passes (stmt : TickAt) : Passes (rest stmt) := by
  cases stmt with
  | count =>
    have hCount : ∀ k : Kernel,
        rest .count k = rest .testInit { k with systicks := k.systicks + 1 } :=
      fun k => (rest_make (show InTable k.taskCount .count from trivial)).symm
    refine ⟨fun k w => ?_, fun k => ?_⟩
    · rw [hCount, hCount]
      exact rest_testInit_passes.wake { k with systicks := k.systicks + 1 } w
    · rw [hCount]
      exact rest_testInit_passes.primask _
  | testInit => exact rest_testInit_passes
  | testCount now i | testState now i => exact passes_yield fun _ _ => wakeFrom_setReady
  | testWake now i =>
    refine passes_yield fun w k => ?_
    rw [rtoskTaskSetReady_wakeTick]
    split
    · rw [setState_setReady, wakeFrom_setReady]
    · exact wakeFrom_setReady
  | setReady now i =>
    refine passes_yield fun w k => ?_
    rw [setState_setReady, wakeFrom_setReady]
  | yield => exact passes_yield (g := id) fun _ _ => rfl

theorem restOf_passes (tick : Option TickAt) : Passes (restOf tick) := by
  cases tick with
  | none => exact ⟨fun _ _ => rfl, fun _ => rfl⟩
  | some stmt => exact rest_passes stmt

section Handlers

variable {g : Kernel → Kernel} {s : System}

theorem giveFromIsr_onKernel (h : Passes g) (sem : Option Nat) :
    (s.onKernel g).giveFromIsr sem =
      ((s.giveFromIsr sem).1.onKernel g, (s.giveFromIsr sem).2) := by
  match sem with
  | none => rfl
  | some i =>
    have hGive : rtoskSemaphoreGiveFromIsr (s.sems i) (g s.kernel) =
        ((rtoskSemaphoreGiveFromIsr (s.sems i) s.kernel).1,
          g (rtoskSemaphoreGiveFromIsr (s.sems i) s.kernel).2) := by
      unfold rtoskSemaphoreGiveFromIsr
      split
      · simp only [h.wake]
      · rfl
    simp only [System.giveFromIsr, System.onKernel, System.setSemaphore, hGive]

theorem sendFromIsr_onKernel (h : Passes g) (queue : Option Nat) (item : Option (Nat → UInt8)) :
    (s.onKernel g).sendFromIsr queue item =
      ((s.sendFromIsr queue item).1.onKernel g, (s.sendFromIsr queue item).2) := by
  match queue, item with
  | none, _ | some _, none => rfl
  | some q, some item =>
    have hSend : rtoskQueueSendFromIsr (s.queues q) item (g s.kernel) =
        ((rtoskQueueSendFromIsr (s.queues q) item s.kernel).1,
          g (rtoskQueueSendFromIsr (s.queues q) item s.kernel).2.1,
          (rtoskQueueSendFromIsr (s.queues q) item s.kernel).2.2) := by
      by_cases hFull : (s.queues q).capacity ≤ (s.queues q).count
      · simp only [rtoskQueueSendFromIsr, if_pos hFull]
      · by_cases hWaiter : (s.queues q).waitingTask ≠ rtoskQueueNoWaiter
        · simp only [queueSendFromIsr_waiter hFull hWaiter, h.wake]
        · simp only [queueSendFromIsr_none hFull hWaiter]
    simp only [System.sendFromIsr, System.onKernel, System.setQueue, hSend]

end Handlers

-- ---------------------------------------------------------------------------
-- The tick as one step
-- ---------------------------------------------------------------------------

/-- The system with the tick that is under way made. -/
def view (n : Nested) : Stepwise :=
  { n.calls with sys := n.calls.sys.onKernel (restOf n.tick) }

/-- The tick that is under way looks at tasks of the table. -/
def Looks (n : Nested) : Prop :=
  ∀ stmt, n.tick = some stmt → InTable n.calls.sys.kernel.taskCount stmt

theorem looks_none (calls : Stepwise) : Looks ⟨calls, none⟩ :=
  fun _ hStmt => absurd hStmt (Option.some_ne_none _).symm

variable {n n' : Nested}

theorem view_advance {stmt : TickAt} (hTick : n.tick = some stmt) (h : Looks n) :
    view (n.advance stmt) = view n := by
  have hRest : (n.calls.sys.onKernel fun k => (make k stmt).1).onKernel
      (restOf (make n.calls.sys.kernel stmt).2) = n.calls.sys.onKernel (restOf n.tick) := by
    rw [hTick]
    exact congrArg (fun k => { n.calls.sys with kernel := k }) (rest_make (h stmt hTick))
  exact congrArg (fun sys => { n.calls with sys := sys }) hRest

theorem Looks.advance {stmt : TickAt} (h : Looks n) (hTick : n.tick = some stmt) :
    Looks (n.advance stmt) :=
  fun _ hNext => inTable_make (h stmt hTick) hNext

theorem eq_tick {l : Stepwise.Label} (h : isTick l = true) : l = .sys .tick := by
  cases l with
  | go => cases h
  | sys l =>
    cases l with
    | tick => rfl
    | _ => cases h

theorem handler_of_nests {l : TinyRtos.Label} (h : nests (.sys l) = true) :
    l.actor = .handler := by
  cases l with
  | semaphoreGiveFromIsr | queueSendFromIsr => rfl
  | _ => cases h

section

variable [TaskConfig] {G : TinyRtos.Label → Prop} {es : List Event}

theorem step_onKernel {g : Kernel → Kernel} {s s' : System} {l : TinyRtos.Label}
    (hPasses : Passes g) (hNests : nests (.sys l) = true) (hStep : s.step l = some (s', es)) :
    (s.onKernel g).step l = some (s'.onKernel g, es) := by
  have hMask : (s.onKernel g).kernel.Unmasked ↔ s.kernel.Unmasked := by
    unfold Kernel.Unmasked
    rw [System.onKernel_kernel, hPasses.primask]
  cases l with
  | semaphoreGiveFromIsr sem =>
    simp only [System.step] at hStep
    split at hStep
    · rename_i hUnmasked
      simp only [System.step, if_pos (hMask.mpr hUnmasked), giveFromIsr_onKernel hPasses]
      rw [Option.some.inj hStep]
    · cases hStep
  | queueSendFromIsr queue item =>
    simp only [System.step] at hStep
    split at hStep
    · rename_i hUnmasked
      simp only [System.step, if_pos (hMask.mpr hUnmasked), sendFromIsr_onKernel hPasses]
      rw [Option.some.inj hStep]
    · cases hStep
  | _ => cases hNests

/-- A handler's step of `Stepwise.step` is one of `System.step`. -/
theorem step_handler {l : TinyRtos.Label} (h : l.actor = .handler) (f : Stepwise) :
    f.step (.sys l) = (f.sys.step l).map fun r => ({ f with sys := r.1 }, r.2) := by
  cases l with
  | semaphoreGiveFromIsr | queueSendFromIsr | tick =>
    simp [Stepwise.step, TinyRtos.Label.actor, Stepwise.opens]
  | _ => cases h

/-- **A handler inside the tick is one after it.** -/
theorem view_nests {l : Stepwise.Label} {calls : Stepwise} (hNests : nests l = true)
    (hStep : n.calls.step l = some (calls, es)) :
    (view n).step l = some (view { n with calls := calls }, es) ∧
      calls.sys.kernel.taskCount = n.calls.sys.kernel.taskCount := by
  cases l with
  | go => cases hNests
  | sys l =>
    have hHandler := handler_of_nests hNests
    rw [step_handler hHandler] at hStep
    obtain ⟨⟨s, es'⟩, hSys, hEq⟩ := Option.map_eq_some_iff.mp hStep
    cases hEq
    refine ⟨?_, (System.step_cases hSys).setup.taskCount⟩
    rw [step_handler hHandler]
    exact congrArg (Option.map _) (step_onKernel (restOf_passes n.tick) hNests hSys)

/-- SysTick begins: the tick is made. -/
theorem step_tick (f : Stepwise) :
    f.step (.sys .tick) =
      if f.sys.kernel.Unmasked then some (view ⟨f, some .count⟩, []) else none := by
  rw [step_handler rfl]
  simp only [System.step]
  split
  · rfl
  · rfl

/-- **Every step is one of `Stepwise.step`**, or not seen there. -/
theorem Looks.step (h : Looks n) {l : Label} (hG : Meets G n l)
    (hStep : n.step l = some (n', es)) :
    Looks n' ∧ ((view n' = view n ∧ es = []) ∨
      ∃ m, Stepwise.Meets G (view n) m ∧ (view n).step m = some (view n', es)) := by
  cases l with
  | go =>
    obtain ⟨stmt, hTick, hEq⟩ := Option.map_eq_some_iff.mp hStep
    cases hEq
    exact ⟨h.advance hTick, Or.inl ⟨view_advance hTick h, rfl⟩⟩
  | tick =>
    obtain ⟨calls, tick⟩ := n
    simp only [Nested.step] at hStep
    split at hStep
    · rename_i hOn
      obtain rfl : tick = none := Option.isNone_iff_eq_none.mp hOn.1
      cases hStep
      refine ⟨fun stmt hStmt => ?_, Or.inr ⟨.sys .tick, hG, (step_tick calls).trans (if_pos hOn.2)⟩⟩
      cases hStmt
      trivial
    · cases hStep
  | calls l =>
    obtain ⟨calls, tick⟩ := n
    simp only [Nested.step] at hStep
    split at hStep
    · cases hStep
    · rename_i hAllowed
      obtain ⟨⟨calls', es'⟩, hCalls, hEq⟩ := Option.map_eq_some_iff.mp hStep
      cases hEq
      cases tick with
      | none => exact ⟨looks_none _, Or.inr ⟨l, hG, hCalls⟩⟩
      | some stmt =>
        have hNests : nests l = true := by
          by_contra hNot
          exact hAllowed (Or.inr ⟨rfl, Bool.eq_false_iff.mpr hNot⟩)
        obtain ⟨hView, hCount⟩ := view_nests (n := ⟨calls, some stmt⟩) hNests hCalls
        refine ⟨fun stmt' hStmt => ?_, Or.inr ⟨l, hG, hView⟩⟩
        show InTable calls'.sys.kernel.taskCount stmt'
        rw [hCount]
        exact h stmt' hStmt

/-- **The tick ends**, left alone. -/
theorem Looks.ends (h : Looks n) : Runs.Goes Nested.step .go n [] ⟨view n, none⟩ := by
  generalize hLeft : left n.calls.sys.kernel.taskCount n.tick = m
  induction m using Nat.strong_induction_on generalizing n with
  | _ m ih =>
    cases hTick : n.tick with
    | none =>
      have hDone : n = ⟨view n, none⟩ := by
        obtain ⟨calls, tick⟩ := n
        obtain rfl : tick = none := hTick
        rfl
      rw [← hDone]
      exact Runs.Goes.refl Label.go n
    | some stmt =>
      have hStep : n.step .go = some (n.advance stmt, []) := by
        simp only [Nested.step, hTick, Option.map_some]
      have hLess : left (n.advance stmt).calls.sys.kernel.taskCount (n.advance stmt).tick < m := by
        rw [← hLeft, hTick]
        have hCount : (n.advance stmt).calls.sys.kernel.taskCount =
            n.calls.sys.kernel.taskCount := make_taskCount _ stmt
        rw [hCount]
        exact left_make (h stmt hTick)
      have hRest := ih _ hLess (h.advance hTick) rfl
      rw [view_advance hTick h] at hRest
      exact Runs.Goes.cons hStep hRest

-- ---------------------------------------------------------------------------
-- Runs
-- ---------------------------------------------------------------------------

section

variable {s₀ s : System} {tr : List Event}

/-- Every run is one of calls. -/
theorem calls_run (hRun : Runs.Run step (Meets G) (idle s₀) tr n) :
    Looks n ∧ Runs.Run Stepwise.step (Stepwise.Meets G) (Stepwise.idle s₀) tr (view n) :=
  hRun.simulate view Looks (looks_none _) fun _ _ _ _ h hG hStep => h.step hG hStep

/-- A step of a call, or a whole tick. -/
theorem run_calls {l : Stepwise.Label} {f f' : Stepwise}
    (hRun : Runs.Run step (Meets G) (idle s₀) tr ⟨f, none⟩) (hG : Stepwise.Meets G f l)
    (hStep : f.step l = some (f', es)) :
    Runs.Run step (Meets G) (idle s₀) (tr ++ es) ⟨f', none⟩ := by
  by_cases hTick : isTick l = true
  · obtain rfl := eq_tick hTick
    rw [step_tick] at hStep
    split at hStep
    · rename_i hUnmasked
      cases hStep
      have hMeets : Meets G ⟨f, none⟩ .tick := hG
      have hBegin : (⟨f, none⟩ : Nested).step .tick = some (⟨f, some .count⟩, []) :=
        if_pos ⟨rfl, hUnmasked⟩
      have hLooks : Looks ⟨f, some .count⟩ := fun stmt hStmt => by
        cases hStmt
        trivial
      have hGo : ∀ n, Meets G n .go := fun _ => trivial
      have hDone := (hRun.next hMeets hBegin).goes hGo hLooks.ends
      rw [List.append_nil] at hDone
      exact hDone
    · cases hStep
  · have hCalls : (⟨f, none⟩ : Nested).step (.calls l) = some (⟨f', none⟩, es) := by
      have hAllowed : ¬ (isTick l = true ∨
          (none : Option TickAt).isSome = true ∧ nests l = false) := by
        rintro (hAt | ⟨hAt, -⟩)
        · exact hTick hAt
        · cases hAt
      simp only [Nested.step, if_neg hAllowed, hStep, Option.map_some]
    have hMeets : Meets G ⟨f, none⟩ (.calls l) := hG
    exact hRun.next hMeets hCalls

/-- **Handlers run inside the tick.** Calls taken apart into their statements,
and the tick into its own with other handlers in between, have the same runs as
`System.step`: a run that ends with no tick under way and outside of critical
sections is a run of the system; a tick under way, left alone, ends; and every
run of the system is such a run. -/
theorem nested_atomic (hStarted : s₀.Started) (hBit : Critical.IsBit s₀.kernel.primask) :
    (∀ tr n, Runs.Run step (Meets G) (idle s₀) tr n →
      (n.tick = none → ¬ n.calls.Inside →
        Runs.Run System.step (fun _ => G) s₀ tr n.calls.sys) ∧
      ∃ n', n'.tick = none ∧ Runs.Goes step .go n [] n') ∧
    ∀ tr s, Runs.Run System.step (fun _ => G) s₀ tr s →
      Runs.Run step (Meets G) (idle s₀) tr (idle s) := by
  refine ⟨fun tr n hRun => ?_, fun tr s hRun => ?_⟩
  · obtain ⟨hLooks, hCalls⟩ := calls_run hRun
    refine ⟨fun hNone hOut => ?_, _, rfl, hLooks.ends⟩
    have hView : view n = n.calls := by
      unfold view
      rw [hNone]
      rfl
    rw [hView] at hCalls
    exact Stepwise.outside_run hStarted hBit hCalls hOut
  · have hCalls := Stepwise.idle_run hStarted hBit hRun
    have hAll : ∀ {tr f}, Runs.Run Stepwise.step (Stepwise.Meets G) (Stepwise.idle s₀) tr f →
        Runs.Run step (Meets G) (idle s₀) tr ⟨f, none⟩ := by
      intro tr f hRun
      induction hRun with
      | start => exact .start
      | next _ hG hStep ih => exact run_calls ih hG hStep
    exact hAll hCalls

end

end

-- ---------------------------------------------------------------------------
-- A give inside the tick
-- ---------------------------------------------------------------------------

/-- A call that yields, and the switch after it, with two tasks. -/
def blocking (c : Call) : List Label :=
  .calls (.sys (.call c)) :: List.replicate 9 (.calls .go) ++
    .calls (.sys .yield) :: Stepwise.switch.map .calls

/-- One task waits for a semaphore, the other sleeps; the tick finds the sleeper,
and a handler gives. -/
def giveInTick : List Label :=
  blocking (.semaphoreTake (some 0)) ++ blocking (.sleepMs 1) ++
    .tick :: List.replicate 6 .go ++
    .calls (.sys (.semaphoreGiveFromIsr (some 0))) :: List.replicate 4 .go

theorem nested_atomic_giveInTick :
    ∃ tr n, Runs.Run step (Meets fun _ => True) (idle System.contenders) tr n ∧
      n.tick = none ∧ (n.calls.sys.kernel.tasks 0).state = .ready ∧
      (n.calls.sys.kernel.tasks 1).state = .ready ∧
      Runs.Run System.step (fun _ _ => True) System.contenders tr n.calls.sys := by
  obtain ⟨tr, n, hRun, hNone, hOut, hFirst, hSecond⟩ :=
    Runs.exists_run_of_exec step (Meets fun _ => True) (idle System.contenders) giveInTick
      (fun _ n => n.tick.isNone = true ∧ ¬ n.calls.Inside ∧
        (n.calls.sys.kernel.tasks 0).state = .ready ∧
        (n.calls.sys.kernel.tasks 1).state = .ready)
      (by decide +kernel)
  have hTick := Option.isNone_iff_eq_none.mp hNone
  have hAtomic := nested_atomic (G := fun _ => True) System.contenders_started (Or.inl rfl)
  exact ⟨tr, n, hRun, hTick, hFirst, hSecond, (hAtomic.1 tr n hRun).1 hTick hOut⟩

end Nested

end TinyRtos
