import TinyRtos.Lib.Reader
import TinyRtos.Port.Fault

/-!
# TinyRTOS — what the HardFault report tells

The report is text for a person, with no separator between the flags. `readReport`
reads it back; `hardFault_reports` says that it finds every register as it was,
of the flags those that are set, and the cause that the summary names. When a
task faults, these are the registers of the task: with floating point in use or
not, whatever its stack pointer.
-/

namespace TinyRtos

open Reader

-- ---------------------------------------------------------------------------
-- Reports
-- ---------------------------------------------------------------------------

/-- What the summary may name. -/
inductive FaultCause
  | undefinedInstruction
  | invalidReturn
  | dataAccess
  | preciseBus
  | unaligned
  | divideByZero
  | forced
  | unknown
  deriving DecidableEq, Repr

def FaultCause.text : FaultCause → String
  | .undefinedInstruction => "  undefined instruction executed.\r\n"
  | .invalidReturn => "  invalid exception return or corrupted stack frame.\r\n"
  | .dataAccess => "  invalid data memory access.\r\n"
  | .preciseBus => "  precise bus fault. Check BFAR if valid.\r\n"
  | .unaligned => "  unaligned memory access.\r\n"
  | .divideByZero => "  divide by zero.\r\n"
  | .forced => "  configurable fault escalated to HardFault.\r\n"
  | .unknown => "  unknown. check PC, LR, CFSR, and HFSR.\r\n"

/-- The causes that a bit of CFSR stands for, the likeliest first. -/
def FaultCause.likely : List (UInt32 × FaultCause) :=
  [(oneShl 16, .undefinedInstruction), (oneShl 18, .invalidReturn), (oneShl 1, .dataAccess),
    (oneShl 9, .preciseBus), (oneShl 24, .unaligned), (oneShl 25, .divideByZero)]

def likelyCause (cfsr hfsr : UInt32) : FaultCause :=
  match FaultCause.likely.find? fun p => cfsr &&& p.1 ≠ 0 with
  | some p => p.2
  | none => if hfsr &&& oneShl 30 ≠ 0 then .forced else .unknown

/-- What a reader learns. -/
structure FaultReport where
  excReturn : UInt32
  stacked : List UInt32
  scb : Scb
  usesPsp : Bool
  threadMode : Bool
  basicFrame : Bool
  cfsr : List Bool
  hfsr : List Bool
  cause : FaultCause
  deriving DecidableEq, Repr

/-- The report of a fault. -/
def faultReport (stackedRegisters : Fin 8 → UInt32) (excReturn : UInt32) (scb : Scb) :
    FaultReport where
  excReturn := excReturn
  stacked := List.ofFn stackedRegisters
  scb := scb
  usesPsp := excReturn &&& oneShl 2 ≠ 0
  threadMode := excReturn &&& oneShl 3 ≠ 0
  basicFrame := excReturn &&& oneShl 4 ≠ 0
  cfsr := cfsrFlags.map fun flag => scb.cfsr &&& flag.1 ≠ 0
  hfsr := hfsrFlags.map fun flag => scb.hfsr &&& flag.1 ≠ 0
  cause := likelyCause scb.cfsr scb.hfsr

-- ---------------------------------------------------------------------------
-- Reading them
-- ---------------------------------------------------------------------------

def faultDigit (c : UInt8) : Option Nat := (List.range 16).find? fun i => faultHex i = c

def readReg (name : String) : StateT (List UInt8) Option UInt32 := do
  literal (faultWrite name)
  literal (faultWrite " : ")
  literal (faultWrite "0x")
  let value ← number faultDigit 16 8 0
  literal (faultWrite "\r\n")
  pure (UInt32.ofNat value)

/-- One of two lines. -/
def readEither (yes no : String) : StateT (List UInt8) Option Bool :=
  oneOf [(faultWrite yes, true), (faultWrite no, false)]

/-- How a flag is written. -/
def flagText (flag : UInt32 × String) : List UInt8 := faultWrite "  - " ++ faultWrite flag.2

def readFlags (flags : List (UInt32 × String)) (stop : String) :
    StateT (List UInt8) Option (List Bool) :=
  flagsUntil (faultWrite stop) (flags.map flagText)

def FaultCause.all : List FaultCause := likely.map Prod.snd ++ [.forced, .unknown]

def readCause : StateT (List UInt8) Option FaultCause :=
  oneOf (FaultCause.all.map fun cause => (faultWrite cause.text, cause))

def readReport : StateT (List UInt8) Option FaultReport := do
  literal (faultWrite "\r\n")
  literal (faultWrite "========================================\r\n")
  literal (faultWrite "           TinyRTOS HARDFAULT           \r\n")
  literal (faultWrite "========================================\r\n")
  let excReturn ← readReg "EXC_RETURN"
  let r0 ← readReg "R0 "
  let r1 ← readReg "R1 "
  let r2 ← readReg "R2 "
  let r3 ← readReg "R3 "
  let r12 ← readReg "R12"
  let lr ← readReg "LR "
  let pc ← readReg "PC "
  let xpsr ← readReg "xPSR"
  literal (faultWrite "----------------------------------------\r\n")
  let cfsr ← readReg "CFSR"
  let hfsr ← readReg "HFSR"
  let dfsr ← readReg "DFSR"
  let afsr ← readReg "AFSR"
  let mmfar ← readReg "MMFAR"
  let bfar ← readReg "BFAR"
  literal (faultWrite "----------------------------------------\r\n")
  literal (faultWrite "EXC_RETURN DECODE:\r\n")
  let usesPsp ← readEither "  - stack used: PSP\r\n" "  - stack used: MSP\r\n"
  let threadMode ← readEither "  - return mode: THREAD\r\n" "  - return mode: HANDLER\r\n"
  let basicFrame ← readEither "  - frame type: BASIC\r\n" "  - frame type: EXTENDED/FPU\r\n"
  literal (faultWrite "CFSR DECODE:\r\n")
  let cfsrSet ← readFlags cfsrFlags "\r\nHFSR DECODE:\r\n"
  let hfsrSet ← readFlags hfsrFlags "\r\nLIKELY CAUSE:\r\n"
  let cause ← readCause
  literal (faultWrite "========================================\r\n")
  literal (faultWrite "SYSTEM HALTED.\r\n")
  pure {
    excReturn := excReturn
    stacked := [r0, r1, r2, r3, r12, lr, pc, xpsr]
    scb := ⟨cfsr, hfsr, dfsr, afsr, mmfar, bfar⟩
    usesPsp := usesPsp
    threadMode := threadMode
    basicFrame := basicFrame
    cfsr := cfsrSet
    hfsr := hfsrSet
    cause := cause }

-- ---------------------------------------------------------------------------
-- Pieces
-- ---------------------------------------------------------------------------

theorem faultDigit_hex (d : Nat) (hd : d < 16) : faultDigit (faultHex d) = some d := by
  revert d
  decide +kernel

/-- Four bits of a word. -/
theorem nibble_toNat (value : UInt32) {i : UInt32} {n : Nat} (hi : i.toNat = 4 * n) (hn : n < 8) :
    ((value >>> i) &&& 0xF).toNat = value.toNat / 16 ^ n % 16 := by
  have hShift : i.toNat % 32 = 4 * n := by omega
  rw [UInt32.toNat_and, UInt32.toNat_shiftRight, hShift, Nat.shiftRight_eq_div_pow,
    show (2 : Nat) ^ (4 * n) = 16 ^ n by rw [Nat.pow_mul]]
  exact Nat.and_two_pow_sub_one_eq_mod _ 4

theorem hexDigits_eq (value : UInt32) :
    (([28, 24, 20, 16, 12, 8, 4, 0] : List UInt32).map fun i =>
      faultHex ((value >>> i) &&& 0xF).toNat) = (numeral 16 8 value.toNat).map faultHex := by
  have hDigit : ∀ (i : UInt32) (n : Nat), i.toNat = 4 * n → n < 8 →
      ((value >>> i) &&& 0xF).toNat = value.toNat / 16 ^ n % 16 :=
    fun i n hi hn => nibble_toNat value hi hn
  have hNumeral : numeral 16 8 value.toNat =
      [7, 6, 5, 4, 3, 2, 1, 0].map fun n => value.toNat / 16 ^ n % 16 := rfl
  rw [hNumeral]
  simp only [List.map_cons, List.map_nil, hDigit 28 7 rfl (by decide), hDigit 24 6 rfl (by decide),
    hDigit 20 5 rfl (by decide), hDigit 16 4 rfl (by decide), hDigit 12 3 rfl (by decide),
    hDigit 8 2 rfl (by decide), hDigit 4 1 rfl (by decide), hDigit 0 0 rfl (by decide)]

theorem reads_reg (name : String) (value : UInt32) :
    Reads (readReg name) (faultWriteReg name value) value := by
  have hText : faultWriteReg name value = List.flatten [faultWrite name, faultWrite " : ",
      faultWrite "0x", (numeral 16 8 value.toNat).map faultHex, faultWrite "\r\n"] := by
    simp only [faultWriteReg, faultWriteHex32, hexDigits_eq, List.flatten_cons, List.flatten_nil,
      List.append_assoc, List.append_nil]
  have hValue : UInt32.ofNat (0 * 16 ^ 8 + value.toNat % 16 ^ 8) = value := by
    rw [Nat.zero_mul, Nat.zero_add, Nat.mod_eq_of_lt (value.toNat_lt.trans_eq (by decide)),
      UInt32.ofNat_toNat]
  rw [hText]
  refine (reads_literal _).seq <| (reads_literal _).seq <| (reads_literal _).seq ?_
  refine (reads_numeral (by decide) faultDigit_hex 8 value.toNat 0).seq ?_
  refine (reads_literal _).seq ?_
  rw [hValue]
  exact reads_pure value

theorem reads_either {yes no : String} (hApart : Apart (faultWrite yes) (faultWrite no))
    (p : Prop) [Decidable p] :
    Reads (readEither yes no) (if p then faultWrite yes else faultWrite no) (decide p) := by
  have hPairs : ([(faultWrite yes, true), (faultWrite no, false)].map Prod.fst).Pairwise Apart := by
    simpa using hApart
  by_cases hp : p
  · rw [if_pos hp, decide_eq_true hp]
    exact reads_oneOf hPairs (by simp)
  · rw [if_neg hp, decide_eq_false hp]
    exact reads_oneOf hPairs (by simp)

theorem reads_readFlags {flags : List (UInt32 × String)} {stop : String}
    (hApart : (flags.map flagText ++ [faultWrite stop]).Pairwise Apart) (reg : UInt32) :
    Reads (readFlags flags stop)
      ((flags.flatMap fun flag => faultWriteFlag reg flag.1 flag.2) ++ faultWrite stop)
      (flags.map fun flag => reg &&& flag.1 ≠ 0) := by
  have hPieces : ((flags.map fun flag => (flagText flag, decide (reg &&& flag.1 ≠ 0))).map
      Prod.fst ++ [faultWrite stop]).Pairwise Apart := by
    simpa [List.map_map, Function.comp_def] using hApart
  have hReads := reads_flags hPieces
  have hText : flagged (flags.map fun flag => (flagText flag, decide (reg &&& flag.1 ≠ 0))) =
      flags.flatMap fun flag => faultWriteFlag reg flag.1 flag.2 := by
    unfold flagged
    rw [List.flatMap_map]
    refine List.flatMap_congr fun flag _ => ?_
    simp only [faultWriteFlag, flagText, decide_eq_true_eq]
  rw [hText] at hReads
  simpa [List.map_map, Function.comp_def, readFlags] using hReads

-- ---------------------------------------------------------------------------
-- Whole reports
-- ---------------------------------------------------------------------------

theorem faultPrintFaultSummary_eq (cfsr hfsr : UInt32) :
    faultPrintFaultSummary cfsr hfsr =
      faultWrite "\r\nLIKELY CAUSE:\r\n" ++ faultWrite (likelyCause cfsr hfsr).text := by
  unfold faultPrintFaultSummary likelyCause FaultCause.likely
  congr 1
  -- one case for each test of the source
  split_ifs <;> simp [FaultCause.text, *]

/-- The pieces of the report, as they are read. -/
theorem report_pieces (stackedRegisters : Fin 8 → UInt32) (excReturn : UInt32) (scb : Scb) :
    rtoskFaultHardfaultHandler stackedRegisters excReturn scb = List.flatten [
      faultWrite "\r\n",
      faultWrite "========================================\r\n",
      faultWrite "           TinyRTOS HARDFAULT           \r\n",
      faultWrite "========================================\r\n",
      faultWriteReg "EXC_RETURN" excReturn,
      faultWriteReg "R0 " (stackedRegisters 0),
      faultWriteReg "R1 " (stackedRegisters 1),
      faultWriteReg "R2 " (stackedRegisters 2),
      faultWriteReg "R3 " (stackedRegisters 3),
      faultWriteReg "R12" (stackedRegisters 4),
      faultWriteReg "LR " (stackedRegisters 5),
      faultWriteReg "PC " (stackedRegisters 6),
      faultWriteReg "xPSR" (stackedRegisters 7),
      faultWrite "----------------------------------------\r\n",
      faultWriteReg "CFSR" scb.cfsr,
      faultWriteReg "HFSR" scb.hfsr,
      faultWriteReg "DFSR" scb.dfsr,
      faultWriteReg "AFSR" scb.afsr,
      faultWriteReg "MMFAR" scb.mmfar,
      faultWriteReg "BFAR" scb.bfar,
      faultWrite "----------------------------------------\r\n",
      faultWrite "EXC_RETURN DECODE:\r\n",
      if excReturn &&& oneShl 2 ≠ 0 then faultWrite "  - stack used: PSP\r\n"
        else faultWrite "  - stack used: MSP\r\n",
      if excReturn &&& oneShl 3 ≠ 0 then faultWrite "  - return mode: THREAD\r\n"
        else faultWrite "  - return mode: HANDLER\r\n",
      if excReturn &&& oneShl 4 ≠ 0 then faultWrite "  - frame type: BASIC\r\n"
        else faultWrite "  - frame type: EXTENDED/FPU\r\n",
      faultWrite "CFSR DECODE:\r\n",
      (cfsrFlags.flatMap fun flag => faultWriteFlag scb.cfsr flag.1 flag.2) ++
        faultWrite "\r\nHFSR DECODE:\r\n",
      (hfsrFlags.flatMap fun flag => faultWriteFlag scb.hfsr flag.1 flag.2) ++
        faultWrite "\r\nLIKELY CAUSE:\r\n",
      faultWrite (likelyCause scb.cfsr scb.hfsr).text,
      faultWrite "========================================\r\n",
      faultWrite "SYSTEM HALTED.\r\n"] := by
  simp only [rtoskFaultHardfaultHandler, faultDecodeExcReturn, faultDecodeCfsr, faultDecodeHfsr,
    faultPrintFaultSummary_eq, List.flatten_cons, List.flatten_nil, List.append_assoc,
    List.append_nil]

theorem reads_cause (cause : FaultCause) : Reads readCause (faultWrite cause.text) cause := by
  have hApart : ((FaultCause.all.map fun cause => (faultWrite cause.text, cause)).map
      Prod.fst).Pairwise Apart := by decide +kernel
  refine reads_oneOf hApart ?_
  cases cause <;> simp [FaultCause.all, FaultCause.likely]

theorem cfsrFlags_apart :
    (cfsrFlags.map flagText ++ [faultWrite "\r\nHFSR DECODE:\r\n"]).Pairwise Apart := by
  decide +kernel

theorem hfsrFlags_apart :
    (hfsrFlags.map flagText ++ [faultWrite "\r\nLIKELY CAUSE:\r\n"]).Pairwise Apart := by
  decide +kernel

/-- **The report can be read back.** -/
theorem reads_report (stackedRegisters : Fin 8 → UInt32) (excReturn : UInt32) (scb : Scb) :
    Reads readReport (rtoskFaultHardfaultHandler stackedRegisters excReturn scb)
      (faultReport stackedRegisters excReturn scb) := by
  rw [report_pieces]
  unfold readReport
  refine (reads_literal _).seq <| (reads_literal _).seq <| (reads_literal _).seq <|
    (reads_literal _).seq ?_
  -- the registers
  refine (reads_reg _ _).seq <| (reads_reg _ _).seq <| (reads_reg _ _).seq <|
    (reads_reg _ _).seq <| (reads_reg _ _).seq <| (reads_reg _ _).seq <| (reads_reg _ _).seq <|
    (reads_reg _ _).seq <| (reads_reg _ _).seq <| (reads_literal _).seq ?_
  refine (reads_reg _ _).seq <| (reads_reg _ _).seq <| (reads_reg _ _).seq <|
    (reads_reg _ _).seq <| (reads_reg _ _).seq <| (reads_reg _ _).seq <| (reads_literal _).seq ?_
  -- what is said about them
  refine (reads_literal _).seq <| (reads_either (by decide +kernel) _).seq <|
    (reads_either (by decide +kernel) _).seq <| (reads_either (by decide +kernel) _).seq ?_
  refine (reads_literal _).seq <| (reads_readFlags cfsrFlags_apart _).seq <|
    (reads_readFlags hfsrFlags_apart _).seq <| (reads_cause _).seq ?_
  refine (reads_literal _).seq <| (reads_literal _).seq ?_
  exact reads_pure _

-- ---------------------------------------------------------------------------
-- A task that faults
-- ---------------------------------------------------------------------------

/-- The frame as a task's registers go into it at an exception. -/
def Machine.stackedFrame (m : Machine) : Fin 8 → UInt32 :=
  Function.update m.frame 7 (Machine.stackedXpsr (m.frame 7) (m.psp % 2 = 1))

/-- Exception entry leaves the task's registers at its stack pointer, below those
of the floating point unit. -/
theorem exceptionEntry_frame (m : Machine) :
    Memory.load m.exceptionEntry.1.mem m.exceptionEntry.1.psp 8 = m.stackedFrame := by
  unfold Machine.exceptionEntry
  by_cases hFpca : m.fpca = true
  · simp only [if_pos hFpca]
    rw [Memory.load_store_of_disjoint _ _ (Or.inl le_rfl), Memory.load_store]
    rfl
  · simp only [if_neg hFpca]
    rw [Memory.load_store]
    rfl

/-- The handler finds that frame. -/
theorem hardFault_eq (m : Machine) (msp : Nat) (scb : Scb) :
    m.hardFault msp scb =
      rtoskFaultHardfaultHandler m.stackedFrame (excReturn m.fpca) scb := by
  have hPsp : excReturn m.fpca &&& 4 ≠ 0 := by cases m.fpca <;> decide
  show hardFaultHandler (excReturn m.fpca) msp m.exceptionEntry.1.psp m.exceptionEntry.1.mem scb = _
  simp only [hardFaultHandler, if_neg hPsp, exceptionEntry_frame]

/-- **What the report of a fault tells.** Whatever faulted, `readReport` finds the
frame at the stack pointer that was in use, and the status registers. If it was
a task, these are its registers at the fault, and the frame type says whether it
used floating point. -/
theorem hardFault_reports :
    (∀ (lr : UInt32) (msp psp : Nat) (mem : Nat → UInt32) (scb : Scb),
      Reads readReport (hardFaultHandler lr msp psp mem scb)
        (faultReport (Memory.load mem (if lr &&& 4 = 0 then msp else psp) 8) lr scb)) ∧
    ∀ (m : Machine) (msp : Nat) (scb : Scb),
      Reads readReport (m.hardFault msp scb) {
        excReturn := excReturn m.fpca
        stacked := List.ofFn m.stackedFrame
        scb := scb
        usesPsp := true
        threadMode := true
        basicFrame := !m.fpca
        cfsr := cfsrFlags.map fun flag => scb.cfsr &&& flag.1 ≠ 0
        hfsr := hfsrFlags.map fun flag => scb.hfsr &&& flag.1 ≠ 0
        cause := likelyCause scb.cfsr scb.hfsr } := by
  refine ⟨fun lr msp psp mem scb => reads_report _ lr scb, fun m msp scb => ?_⟩
  have hReport := reads_report m.stackedFrame (excReturn m.fpca) scb
  rw [← hardFault_eq m msp scb] at hReport
  unfold faultReport at hReport
  cases hFpca : m.fpca with
  | true =>
    rw [hFpca] at hReport
    exact hReport
  | false =>
    rw [hFpca] at hReport
    exact hReport

end TinyRtos
