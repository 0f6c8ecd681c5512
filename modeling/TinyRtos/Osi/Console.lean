import TinyRtos.Kernel.Waiting
import TinyRtos.Osi.Shell

/-!
# TinyRTOS — the OSI task in the running system (`osi.c`, `usart3.c`)

`Console` is the running system with the OSI task's locals and with what is left
of the body of its loop for the byte it has received. USART3's interrupt may
come between any two steps; the task may be preempted wherever it is, and waits
in `rtosk_queue_receive`. Its queue is `static`: no one else uses it.

In the body the task also takes the TX mutex, by calls of the kernel. What it
asks the kernel for is part of the label (`env`).
-/

namespace TinyRtos

/-- The call uses queue `q`. -/
def Call.usesQueue (q : Nat) : Call → Bool
  | .queueInit (some p) _ _ _ | .queueSend (some p) _ | .queueReceive (some p) _ => p = q
  | _ => false

/-- The step is part of a use of queue `q`. -/
def Label.usesQueue (q : Nat) (s : System) : Label → Bool
  | .call c => c.usesQueue q
  | .resume =>
    match s.pc s.kernel.currentTask with
    | .yielded c => c.usesQueue q
    | _ => false
  | .queueSendFromIsr (some p) _ => p = q
  | _ => false

structure Console where
  sys : System
  osi : Osi
  todo : List Osi.Event

namespace Console

/-- `interrupt c` — `USART3_IRQHandler` with RXNE set and `c` in RDR. -/
inductive Label
  | sys (l : TinyRtos.Label)
  | interrupt (c : UInt8)
  | receive (item : Nat → UInt8) (env : Env)
  | retry (env : Env)
  | act

/-- `refused` is a byte that the queue had no room for; the callback does not
look at what `rtosk_queue_send_from_isr` returns. -/
inductive Event
  | kernel (e : TinyRtos.Event)
  | refused (c : UInt8)
  | did (e : Osi.Event)
  deriving DecidableEq

def current (c : Console) : Nat := c.sys.kernel.currentTask

section

variable [TaskConfig] (t q : Nat)

/-- The round of `rtosk_queue_receive` is over: with a byte, or not. -/
def handle (env : Env) (c : Console) (r : System × List TinyRtos.Event) :
    Console × List Event :=
  let c := { c with sys := r.1 }
  let c :=
    match r.2 with
    | [_, .received _ _ [byte]] =>
      let (osi, todo) := Osi.rtoskOsiTask c.osi ⟨byte, env⟩
      { c with osi := osi, todo := todo }
    | _ => c
  (c, r.2.map .kernel)

def step (c : Console) : Label → Option (Console × List Event)
  | .sys l =>
    if l.usesQueue q c.sys then none
    else (c.sys.step l).map fun r => ({ c with sys := r.1 }, r.2.map .kernel)
  | .interrupt byte =>
    (c.sys.step (.queueSendFromIsr (some q) (some fun _ => byte))).map fun r =>
      ({ c with sys := r.1 }, if r.2 = [] then [.refused byte] else r.2.map .kernel)
  | .receive item env =>
    if c.current = t ∧ c.todo = [] then
      (c.sys.step (.call (.queueReceive (some q) (some item)))).map (c.handle env)
    else none
  | .retry env =>
    if c.current = t ∧ c.todo = [] then
      match c.sys.pc c.current with
      | .yielded (.queueReceive (some p) (some _)) =>
        if p = q then (c.sys.step .resume).map (c.handle env) else none
      | _ => none
    else none
  | .act =>
    if c.current = t ∧ c.sys.Thread then
      match c.todo with
      | e :: todo => some ({ c with todo := todo }, [.did e])
      | [] => none
    else none

end

end Console

end TinyRtos
