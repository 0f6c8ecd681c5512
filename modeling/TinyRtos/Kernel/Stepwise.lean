import TinyRtos.Kernel.Critical
import TinyRtos.Lib.Atomic

/-!
# TinyRTOS — the running system, statement by statement

`System.step` makes the critical section of a call in one step. Here the calls
of all tasks are taken apart: `rtosk_kernel_enter_critical` and
`rtosk_kernel_exit_critical` into their statements, and between them the code of
the call. Between any two of these an interrupt handler runs, PendSV begins or
goes on, or another task, somewhere in a call of its own, if PRIMASK and the
scheduler let it.

* `sys l` — any step of `System.step`, but that a call with a critical section
  is only begun by it;
* `go` — the next statement of the current task in its call.

A history has the events of a critical section when the code inside it runs
(`Call.events`).
-/

namespace TinyRtos

/-- The call has a critical section, or is half of one. -/
def Call.bracketed (c : Call) : Bool := (Api.call c).hasSection || c.isCritical

/-- What the code inside the critical section of `c` has done, from `s` to `s'`. -/
def Call.events (c : Call) (s s' : System) (exit : Exit) : List Event :=
  match c with
  | .semaphoreTake (some i) => if exit = .returns then [.took s.kernel.currentTask i] else []
  | .semaphoreGive (some i) => [.gave i (s.sems i) (s'.sems i)]
  | .mutexLock (some m) => if exit = .returns then [.locked s.kernel.currentTask m] else []
  | .mutexUnlock (some m) => [.unlocked s.kernel.currentTask m]
  | .queueSend (some q) (some item) =>
    if (s.queues q).capacity ≤ (s.queues q).count then []
    else [.sent q (RingBuffer.item item (s.queues q).itemSize.toNat)]
  | .queueReceive (some q) (some item) =>
    .receiving s.kernel.currentTask q ::
      if 0 < (s.queues q).count then
        [.received s.kernel.currentTask q
          (RingBuffer.item ((s.queues q).popItem item).2 (s.queues q).itemSize.toNat)]
      else []
  | _ => []

/-- The next statement of a task in a call. -/
inductive Stmt
  | entering (stmt : Critical.EnterAt)
  | body
  | exiting (stmt : Critical.ExitAt) (exit : Exit)

/-- The first statement of a call. -/
def Call.first : Call → Stmt
  | .exitCritical => .exiting .test .returns
  | _ => .entering .getPrimask

/-- The call has begun to mask or unmask. -/
def Stmt.inside (c : Call) : Stmt → Bool
  | .entering .getPrimask | .entering (.disableIrq _) => false
  | .exiting .test _ => !c.isCritical
  | _ => true

structure Stepwise where
  sys : System
  stmt : Nat → Option (Call × Stmt)

namespace Stepwise

inductive Label
  | sys (l : TinyRtos.Label)
  | go

/-- Task `t` has made a statement. -/
def put (t : Nat) (stmt : Option (Call × Stmt)) (sys : System) (f : Stepwise) : Stepwise :=
  { sys := sys, stmt := Function.update f.stmt t stmt }

/-- Task `t` is through with the critical section of `c`. -/
def leave (t : Nat) (c : Call) (exit : Exit) (sys : System) (f : Stepwise) : Stepwise :=
  f.put t none (sys.setPc t (exit.pc c))

section

variable {t : Nat} {c : Call} {exit : Exit} {s : System} {f : Stepwise}

@[simp] theorem put_sys (x : Option (Call × Stmt)) : (f.put t x s).sys = s := rfl
@[simp] theorem put_stmt (x : Option (Call × Stmt)) : (f.put t x s).stmt t = x :=
  Function.update_self ..
@[simp] theorem put_put (x y : Option (Call × Stmt)) (s' : System) :
    (f.put t x s).put t y s' = f.put t y s' := by
  simp [put]
@[simp] theorem put_leave (x : Option (Call × Stmt)) (s' : System) :
    (f.put t x s).leave t c exit s' = f.leave t c exit s' := by
  simp [leave]

end

/-- A statement of task `t`, which is at it in call `c`. -/
def make [TaskConfig] (t : Nat) (c : Call) (f : Stepwise) : Stmt → Stepwise × List Event
  | .entering .getPrimask =>
    (f.put t (some (c, .entering (.disableIrq f.sys.kernel.primask))) f.sys, [])
  | .entering (.disableIrq primask) =>
    (f.put t (some (c, .entering (.savePrimask primask))) (f.sys.onKernel Kernel.disableIrq), [])
  | .entering (.savePrimask primask) =>
    (f.put t (some (c, .entering .nest)) (f.sys.onKernel (Kernel.savePrimask primask)), [])
  | .entering .nest =>
    let sys := f.sys.onKernel Kernel.nest
    if c.isCritical then (f.leave t c .returns sys, []) else (f.put t (some (c, .body)) sys, [])
  | .body =>
    let (sys, exit) := (Api.call c).body f.sys
    (f.put t (some (c, .exiting .test exit)) sys, c.events f.sys sys exit)
  | .exiting .test exit =>
    if f.sys.kernel.criticalNesting = 0 then (f.leave t c exit f.sys, [])
    else (f.put t (some (c, .exiting .unnest exit)) f.sys, [])
  | .exiting .unnest exit =>
    (f.put t (some (c, .exiting .retest exit)) (f.sys.onKernel Kernel.unnest), [])
  | .exiting .retest exit =>
    if f.sys.kernel.criticalNesting = 0 then
      (f.put t (some (c, .exiting .irqRestore exit)) f.sys, [])
    else (f.leave t c exit f.sys, [])
  | .exiting .irqRestore exit =>
    (f.leave t c exit (f.sys.onKernel fun k => rtoskPortIrqRestore k.criticalPrimask k), [])

/-- The call with a critical section that the current task begins with `l`, or
comes round to in its loop. -/
def opens (f : Stepwise) (l : TinyRtos.Label) : Option Call :=
  match l, f.sys.pc f.sys.kernel.currentTask with
  | .call c, .user => if c.bracketed then some c else none
  | .resume, .yielded c => if c.retries && c.bracketed then some c else none
  | _, _ => none

def step [TaskConfig] (f : Stepwise) : Label → Option (Stepwise × List Event)
  | .sys l =>
    if l.actor = .thread ∧ (f.stmt f.sys.kernel.currentTask).isSome then none
    else
      match f.opens l with
      | some c =>
        if f.sys.Thread then
          some (f.put f.sys.kernel.currentTask (some (c, c.first)) f.sys, [])
        else none
      | none => (f.sys.step l).map fun r => ({ f with sys := r.1 }, r.2)
  | .go =>
    match f.stmt f.sys.kernel.currentTask with
    | none => none
    | some (c, stmt) =>
      if f.sys.Thread then some (f.make f.sys.kernel.currentTask c stmt) else none

/-- The current task has masked interrupts in a call and not unmasked them yet. -/
def Inside (f : Stepwise) : Prop :=
  (f.stmt f.sys.kernel.currentTask).any (fun p => p.2.inside p.1) = true

instance (f : Stepwise) : Decidable f.Inside := inferInstanceAs (Decidable (_ = _))

/-- What tasks and interrupts do meets `G`. -/
def Meets (G : TinyRtos.Label → Prop) (_ : Stepwise) : Label → Prop
  | .sys l => G l
  | .go => True

instance {G : TinyRtos.Label → Prop} [DecidablePred G] (f : Stepwise) (l : Label) :
    Decidable (Meets G f l) :=
  match l with
  | .sys l => inferInstanceAs (Decidable (G l))
  | .go => inferInstanceAs (Decidable True)

/-- No task is in a call. -/
def idle (s : System) : Stepwise := ⟨s, fun _ => none⟩

end Stepwise

end TinyRtos
