import TinyRtos.Kernel.System

/-!
# TinyRTOS — delays in the running system (`kernel.c`)

`rtosk_kernel_delay_ms` blocks nobody: the task stays READY and compares the tick
count with the one it began at, again and again. `Delaying` is the running system
with the locals of the tasks that are in that loop. A task may be preempted
between any two looks, for any time, and others may delay meanwhile.
-/

namespace TinyRtos

/-- The locals of `rtosk_kernel_delay_ms`. -/
structure Delay where
  start : UInt32
  ms : UInt32
  deriving DecidableEq, Repr

structure Delaying where
  sys : System
  delays : Nat → Option Delay

namespace Delaying

/-- `look` is one evaluation of the loop's condition. -/
inductive Label
  | sys (l : TinyRtos.Label)
  | delayMs (ms : UInt32)
  | look

inductive Event
  | ticked
  | began (t : Nat) (ms : UInt32)
  | looked (t : Nat)
  | returned (t : Nat)
  deriving DecidableEq, Repr

def current (c : Delaying) : Nat := c.sys.kernel.currentTask

def setDelay (d : Option Delay) (c : Delaying) : Delaying :=
  { c with delays := Function.update c.delays c.current d }

/-- What a step of the kernel is to a delay. -/
def ticks : TinyRtos.Label → List Event
  | .tick => [.ticked]
  | _ => []

variable [TaskConfig]

def step (c : Delaying) : Label → Option (Delaying × List Event)
  | .sys l =>
    -- a task in the loop makes no other call
    if l.isCall ∧ c.delays c.current ≠ none then none
    else (c.sys.step l).map fun r => ({ c with sys := r.1 }, ticks l)
  | .delayMs ms =>
    match c.sys.pc c.current, c.delays c.current with
    | .user, none =>
      if c.sys.Thread then
        some (c.setDelay (some ⟨c.sys.kernel.systicks, ms⟩), [.began c.current ms])
      else none
    | _, _ => none
  | .look =>
    match c.delays c.current with
    | none => none
    | some d =>
      if c.sys.Thread then
        if c.sys.kernel.systicks - d.start < d.ms then some (c, [.looked c.current])
        else some (c.setDelay none, [.returned c.current])
      else none

end Delaying

end TinyRtos
