import TinyRtos.Osi.Shell
import TinyRtos.Port.Machine

/-!
# TinyRTOS — the HardFault report (`fault.c`, `port.c`)

`HardFault_Handler` finds the frame of the code that faulted, and
`rtosk_fault_hardfault_handler` writes it to USART3 with the fault status
registers, before it stops. Interrupts are off, so that the bytes go out in one
piece; they are the value of the functions below, as they leave the transmitter.
-/

namespace TinyRtos

-- ---------------------------------------------------------------------------
-- Pieces
-- ---------------------------------------------------------------------------

/-- `1UL << i`. -/
def oneShl (i : UInt32) : UInt32 := 1 <<< i

/-- `fault_write`. -/
def faultWrite (s : String) : List UInt8 := rtoskBspF756zgUsart3WriteString (ascii s)

/-- `hex[i]`. -/
def faultHex (i : Nat) : UInt8 := (ascii "0123456789ABCDEF").getD i 0

def faultWriteHex32 (value : UInt32) : List UInt8 :=
  faultWrite "0x" ++
    ([28, 24, 20, 16, 12, 8, 4, 0] : List UInt32).map fun i =>
      faultHex ((value >>> i) &&& 0xF).toNat

def faultWriteReg (name : String) (value : UInt32) : List UInt8 :=
  faultWrite name ++ faultWrite " : " ++ faultWriteHex32 value ++ faultWrite "\r\n"

def faultWriteFlag (reg mask : UInt32) (name : String) : List UInt8 :=
  if reg &&& mask ≠ 0 then faultWrite "  - " ++ faultWrite name else []

-- ---------------------------------------------------------------------------
-- Decoding
-- ---------------------------------------------------------------------------

def faultDecodeExcReturn (excReturn : UInt32) : List UInt8 :=
  faultWrite "EXC_RETURN DECODE:\r\n" ++
  (if excReturn &&& oneShl 2 ≠ 0 then faultWrite "  - stack used: PSP\r\n"
    else faultWrite "  - stack used: MSP\r\n") ++
  (if excReturn &&& oneShl 3 ≠ 0 then faultWrite "  - return mode: THREAD\r\n"
    else faultWrite "  - return mode: HANDLER\r\n") ++
  (if excReturn &&& oneShl 4 ≠ 0 then faultWrite "  - frame type: BASIC\r\n"
    else faultWrite "  - frame type: EXTENDED/FPU\r\n")

/-- The bits of CFSR that are named. -/
def cfsrFlags : List (UInt32 × String) := [
  (oneShl 0, "IACCVIOL: instruction access violation"),
  (oneShl 1, "DACCVIOL: data access violation"),
  (oneShl 3, "MUNSTKERR: fault during exception unstacking"),
  (oneShl 4, "MSTKERR: fault during exception stacking"),
  (oneShl 5, "MLSPERR: lazy FP stacking fault"),
  (oneShl 7, "MMARVALID: MMFAR contains valid address"),
  (oneShl 8, "IBUSERR: instruction bus error"),
  (oneShl 9, "PRECISERR: precise data bus error"),
  (oneShl 10, "IMPRECISERR: imprecise data bus error"),
  (oneShl 11, "UNSTKERR: bus fault during exception unstacking"),
  (oneShl 12, "STKERR: bus fault during exception stacking"),
  (oneShl 13, "LSPERR: lazy FP bus fault"),
  (oneShl 15, "BFARVALID: BFAR contains valid address"),
  (oneShl 16, "UNDEFINSTR: undefined instruction"),
  (oneShl 17, "INVSTATE: invalid EPSR/Thumb state"),
  (oneShl 18, "INVPC: invalid exception return"),
  (oneShl 19, "NOCP: coprocessor access fault"),
  (oneShl 24, "UNALIGNED: unaligned access"),
  (oneShl 25, "DIVBYZERO: divide by zero")]

def faultDecodeCfsr (cfsr : UInt32) : List UInt8 :=
  faultWrite "CFSR DECODE:\r\n" ++ cfsrFlags.flatMap fun flag => faultWriteFlag cfsr flag.1 flag.2

/-- The bits of HFSR that are named. -/
def hfsrFlags : List (UInt32 × String) := [
  (oneShl 1, "VECTTBL: fault during vector table read"),
  (oneShl 30, "FORCED: configurable fault escalated to HardFault"),
  (oneShl 31, "DEBUGEVT: debug event caused HardFault")]

def faultDecodeHfsr (hfsr : UInt32) : List UInt8 :=
  faultWrite "\r\nHFSR DECODE:\r\n" ++
    hfsrFlags.flatMap fun flag => faultWriteFlag hfsr flag.1 flag.2

def faultPrintFaultSummary (cfsr hfsr : UInt32) : List UInt8 :=
  faultWrite "\r\nLIKELY CAUSE:\r\n" ++
  if cfsr &&& oneShl 16 ≠ 0 then faultWrite "  undefined instruction executed.\r\n"
  else if cfsr &&& oneShl 18 ≠ 0 then
    faultWrite "  invalid exception return or corrupted stack frame.\r\n"
  else if cfsr &&& oneShl 1 ≠ 0 then faultWrite "  invalid data memory access.\r\n"
  else if cfsr &&& oneShl 9 ≠ 0 then faultWrite "  precise bus fault. Check BFAR if valid.\r\n"
  else if cfsr &&& oneShl 24 ≠ 0 then faultWrite "  unaligned memory access.\r\n"
  else if cfsr &&& oneShl 25 ≠ 0 then faultWrite "  divide by zero.\r\n"
  else if hfsr &&& oneShl 30 ≠ 0 then
    faultWrite "  configurable fault escalated to HardFault.\r\n"
  else faultWrite "  unknown. check PC, LR, CFSR, and HFSR.\r\n"

-- ---------------------------------------------------------------------------
-- The handlers
-- ---------------------------------------------------------------------------

/-- The registers of the system control block that are read. -/
structure Scb where
  cfsr : UInt32
  hfsr : UInt32
  dfsr : UInt32
  afsr : UInt32
  mmfar : UInt32
  bfar : UInt32
  deriving DecidableEq, Repr

def rtoskFaultHardfaultHandler (stackedRegisters : Fin 8 → UInt32) (excReturn : UInt32)
    (scb : Scb) : List UInt8 :=
  List.flatten [
    faultWrite "\r\n",
    faultWrite "========================================\r\n",
    faultWrite "           TinyRTOS HARDFAULT           \r\n",
    faultWrite "========================================\r\n",
    faultWriteReg "EXC_RETURN" excReturn,
    faultWriteReg "R0 " (stackedRegisters 0),
    faultWriteReg "R1 " (stackedRegisters 1),
    faultWriteReg "R2 " (stackedRegisters 2),
    faultWriteReg "R3 " (stackedRegisters 3),
    faultWriteReg "R12" (stackedRegisters 4),
    faultWriteReg "LR " (stackedRegisters 5),
    faultWriteReg "PC " (stackedRegisters 6),
    faultWriteReg "xPSR" (stackedRegisters 7),
    faultWrite "----------------------------------------\r\n",
    faultWriteReg "CFSR" scb.cfsr,
    faultWriteReg "HFSR" scb.hfsr,
    faultWriteReg "DFSR" scb.dfsr,
    faultWriteReg "AFSR" scb.afsr,
    faultWriteReg "MMFAR" scb.mmfar,
    faultWriteReg "BFAR" scb.bfar,
    faultWrite "----------------------------------------\r\n",
    faultDecodeExcReturn excReturn,
    faultDecodeCfsr scb.cfsr,
    faultDecodeHfsr scb.hfsr,
    faultPrintFaultSummary scb.cfsr scb.hfsr,
    faultWrite "========================================\r\n",
    faultWrite "SYSTEM HALTED.\r\n"]

/-- `HardFault_Handler`: the frame is where the stack pointer in use was. -/
def hardFaultHandler (lr : UInt32) (msp psp : Nat) (mem : Nat → UInt32) (scb : Scb) :
    List UInt8 :=
  let r0 := if lr &&& 4 = 0 then msp else psp
  rtoskFaultHardfaultHandler (Memory.load mem r0 8) lr scb

/-- A task faults: exception entry, and the handler. -/
def Machine.hardFault (msp : Nat) (scb : Scb) (m : Machine) : List UInt8 :=
  let (m, lr) := m.exceptionEntry
  hardFaultHandler lr msp m.psp m.mem scb

end TinyRtos
