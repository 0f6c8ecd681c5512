import TinyRtos.Kernel.System
import TinyRtos.Lib.SharedWord
import Mathlib.Data.BitVec

/-!
# TinyRTOS — the on-board LEDs (`led.c`)

The three LEDs are pins `0`, `7` and `14` of port B. Each of the two functions
loads `GPIOB->ODR`, changes the bit of one LED and stores the register, with
nothing to keep other tasks from doing so in between. `Leds` is the running
system with that register and the copies of the tasks that are in one of the
functions.
-/

namespace TinyRtos

/-- `LED_2`, the last of `bsp_led_t`. -/
def led2 : Nat := 2

/-- `1U << (led * 7UL)`. -/
def ledBit (led : Nat) : BitVec 32 := BitVec.twoPow 32 (led * 7)

/-- What `rtosk_bsp_f756zg_set_on_board_led` stores for what it loads; `none` is
its early return. No `led` is below `LED_0`. -/
def rtoskBspF756zgSetOnBoardLed (led : Nat) (state : UInt8) : Option (BitVec 32 → BitVec 32) :=
  if led > led2 then none
  else if state = 1 then some fun odr => odr ||| ledBit led
  else if state = 0 then some fun odr => odr &&& ~~~ledBit led
  else none

def rtoskBspF756zgToggleOnBoardLed (led : Nat) : Option (BitVec 32 → BitVec 32) :=
  if led > led2 then none
  else some fun odr => odr ^^^ ledBit led

/-- A call of `led.c`. -/
inductive LedCall
  | setOnBoardLed (led : Nat) (state : UInt8)
  | toggleOnBoardLed (led : Nat)
  deriving DecidableEq, Repr

namespace LedCall

def led : LedCall → Nat
  | .setOnBoardLed led _ | .toggleOnBoardLed led => led

def access : LedCall → Option (BitVec 32 → BitVec 32)
  | .setOnBoardLed led state => rtoskBspF756zgSetOnBoardLed led state
  | .toggleOnBoardLed led => rtoskBspF756zgToggleOnBoardLed led

/-- What a call past its checks stores. -/
def odr (call : LedCall) : BitVec 32 → BitVec 32 := call.access.getD id

end LedCall

structure Leds where
  sys : System
  odr : SharedWord Nat LedCall (BitVec 32)

namespace Leds

/-- `load` and `store` are the two accesses of one call to `GPIOB->ODR`. -/
inductive Label
  | sys (l : TinyRtos.Label)
  | load (call : LedCall)
  | store

inductive Event
  | stored (t : Nat) (call : LedCall)
  deriving DecidableEq, Repr

def current (c : Leds) : Nat := c.sys.kernel.currentTask

variable [TaskConfig]

def step (c : Leds) : Label → Option (Leds × List Event)
  | .sys l =>
    -- a task between its two accesses makes no call
    if l.isCall ∧ c.odr.loaded c.current ≠ none then none
    else (c.sys.step l).map fun r => ({ c with sys := r.1 }, [])
  | .load call =>
    match c.sys.pc c.current, c.odr.loaded c.current with
    | .user, none =>
      if c.sys.Thread then
        if call.access.isSome then some ({ c with odr := c.odr.load c.current call }, [])
        -- the early return
        else some (c, [])
      else none
    | _, _ => none
  | .store =>
    match c.odr.loaded c.current with
    | none => none
    | some (call, _) =>
      if c.sys.Thread then
        some ({ c with odr := c.odr.store LedCall.odr c.current }, [.stored c.current call])
      else none

end Leds

end TinyRtos
