import TinyRtos.Kernel.Stepwise

/-!
# TinyRTOS — handlers inside the tick

`rtosk_port_configure_exceptions` gives SysTick the lowest priority but PendSV's,
so the handlers that give and send run inside `rtosk_kernel_tick` too, between
any two of its statements. PendSV and the tasks wait until it is through.

* `calls l` — any step of `Stepwise.step` but the tick; with a tick under way
  only those of other handlers;
* `tick` — SysTick;
* `go` — the next statement of the tick.
-/

namespace TinyRtos

/-- The next statement of `rtosk_kernel_tick` and of the loop it calls; `now` is
`current_tick`. -/
inductive TickAt
  | count
  | testInit
  | testCount (now : UInt32) (i : Nat)
  | testState (now : UInt32) (i : Nat)
  | testWake (now : UInt32) (i : Nat)
  | setReady (now : UInt32) (i : Nat)
  | yield

structure Nested where
  calls : Stepwise
  tick : Option TickAt

namespace Nested

inductive Label
  | calls (l : Stepwise.Label)
  | tick
  | go

/-- A statement of the tick, and the next one. -/
def make (k : Kernel) : TickAt → Kernel × Option TickAt
  | .count => ({ k with systicks := k.systicks + 1 }, some .testInit)
  | .testInit => (k, if k.kernelInit = false then none else some (.testCount k.systicks 0))
  | .testCount now i => (k, if i < k.taskCount then some (.testState now i) else some .yield)
  | .testState now i =>
    (k, if (k.tasks i).state = .blocked then some (.testWake now i)
      else some (.testCount now (i + 1)))
  | .testWake now i =>
    (k, if wakeTickReached now (k.tasks i).wakeTick then some (.setReady now i)
      else some (.testCount now (i + 1)))
  | .setReady now i =>
    (k.onTable fun table => table.setState i .ready, some (.testCount now (i + 1)))
  | .yield => (rtoskPortYield k, none)

/-- The tick makes `stmt`. -/
def advance (stmt : TickAt) (n : Nested) : Nested where
  calls := { n.calls with sys := n.calls.sys.onKernel fun k => (make k stmt).1 }
  tick := (make n.calls.sys.kernel stmt).2

/-- `l` is a handler's, other than the tick. -/
def nests : Stepwise.Label → Bool
  | .sys (.semaphoreGiveFromIsr _) | .sys (.queueSendFromIsr _ _) => true
  | _ => false

def isTick : Stepwise.Label → Bool
  | .sys .tick => true
  | _ => false

def step [TaskConfig] (n : Nested) : Label → Option (Nested × List Event)
  | .calls l =>
    if isTick l ∨ n.tick.isSome ∧ nests l = false then none
    else (n.calls.step l).map fun r => ({ n with calls := r.1 }, r.2)
  | .tick =>
    if n.tick.isNone ∧ n.calls.sys.kernel.Unmasked then some ({ n with tick := some .count }, [])
    else none
  | .go => n.tick.map fun stmt => (n.advance stmt, [])

/-- What tasks and interrupts do meets `G`. -/
def Meets (G : TinyRtos.Label → Prop) (n : Nested) : Label → Prop
  | .calls l => Stepwise.Meets G n.calls l
  | .tick => G .tick
  | .go => True

instance {G : TinyRtos.Label → Prop} [DecidablePred G] (n : Nested) (l : Label) :
    Decidable (Meets G n l) :=
  match l with
  | .calls l => inferInstanceAs (Decidable (Stepwise.Meets G n.calls l))
  | .tick => inferInstanceAs (Decidable (G .tick))
  | .go => inferInstanceAs (Decidable True)

/-- No task is in a call and no tick under way. -/
def idle (s : System) : Nested := ⟨Stepwise.idle s, none⟩

end Nested

end TinyRtos
