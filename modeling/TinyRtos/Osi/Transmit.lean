import TinyRtos.Kernel.Dispatch
import TinyRtos.Osi.Shell

/-!
# TinyRTOS — writing under the TX mutex (`osi.c`, `dispatcher.c`)

`rtosk_osi_usart3_write_locked` and `dispatch_bytes` lock a mutex, write bytes
with `rtosk_bsp_f756zg_usart3_write_char`, and unlock it; so does the echo of a
byte. `Transmit` is the running system with the place of every task in such a
function; any number of tasks may be in one, and everything else goes on
between two bytes. No one else uses the mutex, which is `static`.

`rtosk_bsp_f756zg_usart3_write_char` waits until the transmitter is empty; it is
the step that stores the byte.
-/

namespace TinyRtos

/-- Where a task is: elsewhere, in `rtosk_mutex_lock`, or between that and
`rtosk_mutex_unlock`. -/
inductive Writer
  | idle
  | locking (bytes : List UInt8)
  | writing (written left : List UInt8)
  deriving DecidableEq, Repr

namespace Writer

/-- The lock has returned. -/
def locked : Writer → Writer
  | .locking bytes => .writing [] bytes
  | w => w

/-- The bytes that are to be on the line in the end. -/
def line? : Writer → Option (List UInt8)
  | .idle => none
  | .locking bytes => some bytes
  | .writing written left => some (written ++ left)

end Writer

/-- The call uses mutex `tx`. -/
def Label.uses (tx : Nat) : Label → Bool
  | .call (.mutexInit (some m)) | .call (.mutexLock (some m)) | .call (.mutexUnlock (some m)) =>
    m = tx
  | _ => false

structure Transmit where
  sys : System
  writer : Nat → Writer

namespace Transmit

/-- `lock bytes` — the running task begins to write: the bytes are those that
`rtosk_bsp_f756zg_usart3_write_string` makes of a string, or as they are. -/
inductive Label
  | sys (l : TinyRtos.Label)
  | lock (bytes : List UInt8)
  | writeChar
  | unlock

inductive Event
  | began (t : Nat) (bytes : List UInt8)
  | transmit (t : Nat) (c : UInt8)
  | finished (t : Nat) (bytes : List UInt8)
  deriving DecidableEq, Repr

def current (c : Transmit) : Nat := c.sys.kernel.currentTask

def setWriter (w : Writer) (c : Transmit) : Transmit :=
  { c with writer := Function.update c.writer c.current w }

section

variable [TaskConfig] (tx : Nat)

/-- A step of the kernel, in which the running task may get the mutex. -/
def onSys (l : TinyRtos.Label) (c : Transmit) : Option Transmit :=
  match c.sys.step l with
  | none => none
  | some (sys, es) =>
    let c' := if .locked c.current tx ∈ es then c.setWriter (c.writer c.current).locked else c
    some { c' with sys := sys }

def step (c : Transmit) : Label → Option (Transmit × List Event)
  | .sys l =>
    -- a task that writes makes no other call
    if l.uses tx ∨ (l.isCall ∧ c.writer c.current ≠ .idle) then none
    else (c.onSys tx l).map fun c' => (c', [])
  | .lock bytes =>
    if c.writer c.current = .idle then
      ((c.setWriter (.locking bytes)).onSys tx (.call (.mutexLock (some tx)))).map fun c' =>
        (c', [.began c.current bytes])
    else none
  | .writeChar =>
    match c.writer c.current with
    | .writing written (b :: left) =>
      if c.sys.Thread then
        some (c.setWriter (.writing (written ++ [b]) left), [.transmit c.current b])
      else none
    | _ => none
  | .unlock =>
    match c.writer c.current with
    | .writing written [] =>
      ((c.setWriter .idle).onSys tx (.call (.mutexUnlock (some tx)))).map fun c' =>
        (c', [.finished c.current written])
    | _ => none

end

end Transmit

end TinyRtos
