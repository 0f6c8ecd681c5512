import TinyRtos.Kernel.Task
import TinyRtos.Lib.Runs

/-!
# TinyRTOS — the OSI shell (`osi.c`, `usart3.c`)

`rtosk_osi_task` reads bytes from a queue, edits a command line in a buffer, and
runs the line when a byte terminates it. `Osi` is the locals of the task; the
body of its loop is `rtoskOsiTask`, a function of the state and of the byte that
`rtosk_queue_receive` returned. The events are what it does to the outside: the
bytes it transmits, the prompt, the commands it invokes, and where it stores
into its buffer.

A string is the list of its bytes without the NUL. What a command reports about
the kernel is part of the input (`Env`), and so are the two fixed texts that
only name the product. The TX mutex is not modelled: the OSI task is the only
one that takes it. The commands `fault` and `reboot` return.
-/

namespace TinyRtos

-- ---------------------------------------------------------------------------
-- Strings
-- ---------------------------------------------------------------------------

/-- The bytes of a string literal. -/
def ascii (s : String) : List UInt8 := s.toList.map fun c => UInt8.ofNat c.toNat

/-- `%lu`. -/
def decimal (n : UInt32) : List UInt8 := (Nat.toDigits 10 n.toNat).map fun c => UInt8.ofNat c.toNat

/-- `%-6s`, for a field of `width`. -/
def padRight (width : Nat) (s : List UInt8) : List UInt8 :=
  s ++ List.replicate (width - s.length) 0x20

/-- `%03lu`, for a field of `width`. -/
def padZeros (width : Nat) (s : List UInt8) : List UInt8 :=
  List.replicate (width - s.length) 0x30 ++ s

/-- What `snprintf` leaves in a buffer of `size` bytes. -/
def snprintf (size : Nat) (text : List UInt8) : List UInt8 := text.take (size - 1)

/-- `rtosk_bsp_f756zg_usart3_write_string`: the bytes it transmits. -/
def rtoskBspF756zgUsart3WriteString (s : List UInt8) : List UInt8 :=
  (s.takeWhile fun c => c ≠ 0).flatMap fun c => if c = 0x0A then [0x0D, c] else [c]

def rtoskTaskStateToString : TaskState → List UInt8
  | .ready => ascii "READY"
  | .blocked => ascii "SLEEP"
  | .blockedOnSemaphore => ascii "SEM"
  | .blockedOnQueue => ascii "QUEUE"
  | .blockedOnMutex => ascii "MUTEX"
  | .idle => ascii "IDLE"

-- ---------------------------------------------------------------------------
-- Commands
-- ---------------------------------------------------------------------------

/-- `osi_cmd_t`. -/
inductive OsiCmd
  | unknown
  | help
  | tasks
  | ticks
  | uptime
  | freq
  | about
  | fault
  | reboot
  deriving DecidableEq, Repr

/-- The commands from index `1` on, in the order of the enumeration. -/
def OsiCmd.named : List OsiCmd :=
  [.help, .tasks, .ticks, .uptime, .freq, .about, .fault, .reboot]

/-- `OSI_COMMAND_LITERALS`. -/
def osiCommandLiterals : OsiCmd → List UInt8
  | .unknown => ascii "unknown"
  | .help => ascii "help"
  | .tasks => ascii "tasks"
  | .ticks => ascii "ticks"
  | .uptime => ascii "uptime"
  | .freq => ascii "freq"
  | .about => ascii "about"
  | .fault => ascii "fault"
  | .reboot => ascii "reboot"

/-- `rtosk_task_info_t`, less the wake tick, which is not printed. -/
structure TaskInfo where
  index : UInt32
  priority : UInt32
  state : TaskState
  stackUsedWords : UInt32
  stackFreeWords : UInt32
  name : List UInt8

/-- What the kernel tells a command, and the text of `about`. -/
structure Env where
  taskInfo : Nat → Option TaskInfo
  ticks : UInt32
  cpuFreq : UInt32
  about : List UInt8

/-- A line of the `tasks` command. -/
def taskLine (info : TaskInfo) : List UInt8 :=
  snprintf 128 (decimal info.index ++ ascii "   " ++ decimal info.priority ++ ascii "    " ++
    padRight 6 (rtoskTaskStateToString info.state) ++ ascii "  " ++
    decimal (info.stackUsedWords * 4) ++ ascii "B   " ++
    decimal (info.stackFreeWords * 4) ++ ascii "B   " ++ info.name ++ ascii "\r\n")

/-- `osi_invoke`: the strings it writes. -/
def osiInvoke [TaskConfig] (env : Env) (cmd : OsiCmd) (cmdLiteral : List UInt8) :
    List (List UInt8) :=
  match cmd with
  | .help => ascii "\rcommands:\r\n" :: OsiCmd.named.flatMap fun cmd =>
      [ascii "  ", osiCommandLiterals cmd, ascii "\r\n"]
  | .tasks => ascii "\rID  PRI  STATE   USED  FREE  NAME\r\n" ::
      ascii "-----------------------------------\r\n" ::
      (List.range rtoskTotalTaskSlots).filterMap fun i => (env.taskInfo i).map taskLine
  | .ticks => [snprintf 48 (ascii "\rticks: " ++ decimal env.ticks ++ ascii "\r\n")]
  | .uptime => [snprintf 64 (ascii "\ruptime: " ++ decimal (env.ticks / 1000) ++ ascii "." ++
      padZeros 3 (decimal (env.ticks % 1000)) ++ ascii " sec\r\n")]
  | .freq => [snprintf 64 (ascii "\rcpu: " ++ decimal env.cpuFreq ++ ascii " Hz\r\n")]
  | .about => [env.about]
  | .fault => [ascii "\rtriggering HardFault..."]
  | .reboot => [ascii "\rrebooting...\r\n"]
  | .unknown => [ascii "\runknown command: ", cmdLiteral, ascii "\r\n"]

-- ---------------------------------------------------------------------------
-- The task
-- ---------------------------------------------------------------------------

/-- `RTOSK_OSI_CMD_BUFFER_SIZE`. -/
def rtoskOsiCmdBufferSize : Nat := 128

/-- The locals of `rtosk_osi_task`: `cmd` is the buffer and what lies behind
it. -/
structure Osi where
  cmd : Nat → UInt8
  len : Nat
  sawCr : Bool

namespace Osi

inductive Event
  | transmit (c : UInt8)
  | prompt
  | invoke (cmd : OsiCmd)
  | store (index : Nat)
  deriving DecidableEq, Repr

/-- A byte from the queue, and what the kernel tells while it is handled. -/
structure Received where
  byte : UInt8
  env : Env

/-- The locals before the loop; the buffer is not initialised. -/
def start (cmd : Nat → UInt8) : Osi where
  cmd := cmd
  len := 0
  sawCr := false

/-- `cmd[index] = c`. -/
def store (index : Nat) (c : UInt8) (s : Osi) : Osi :=
  { s with cmd := Function.update s.cmd index c }

/-- The string that begins at `cmd`. -/
def cString (cmd : Nat → UInt8) : List UInt8 :=
  ((List.range rtoskOsiCmdBufferSize).map cmd).takeWhile fun c => c ≠ 0

/-- `rtosk_osi_usart3_write_locked`. -/
def rtoskOsiUsart3WriteLocked (s : List UInt8) : List Event :=
  (rtoskBspF756zgUsart3WriteString s).map .transmit

def writePrompt : List Event := rtoskOsiUsart3WriteLocked (ascii "> ") ++ [.prompt]

/-- `rtosk_osi_dispatch_command`; `strcmp` compares up to the NUL. -/
def rtoskOsiDispatchCommand (cmd : List UInt8) : OsiCmd :=
  (OsiCmd.named.find? fun i => cmd = osiCommandLiterals i).getD .unknown

section

variable [TaskConfig]

/-- The end of a line: the two terminators do the same here. -/
def endLine (env : Env) (s : Osi) : Osi × List Event :=
  let newline := rtoskOsiUsart3WriteLocked (ascii "\r\n")
  if 0 < s.len then
    let stored := s.store s.len 0
    let line := cString stored.cmd
    let cmd := rtoskOsiDispatchCommand line
    ({ stored with len := 0 },
      newline ++ [.store s.len, .invoke cmd] ++
        (osiInvoke env cmd line).flatMap rtoskOsiUsart3WriteLocked ++ writePrompt)
  else (s, newline ++ writePrompt)

/-- The body of the loop of `rtosk_osi_task`. -/
def rtoskOsiTask (s : Osi) (rx : Received) : Osi × List Event :=
  let c := rx.byte
  if c = 0x0D then endLine rx.env { s with sawCr := true }
  else if c = 0x0A then
    if s.sawCr then ({ s with sawCr := false }, [])
    else endLine rx.env s
  else
    let s := { s with sawCr := false }
    if c = 0x08 ∨ c = 0x7F then
      if 0 < s.len then
        ({ s with len := s.len - 1 }, rtoskOsiUsart3WriteLocked (ascii "\x08 \x08"))
      else (s, [])
    else if s.len < rtoskOsiCmdBufferSize - 1 then
      ({ s.store s.len c with len := s.len + 1 }, [.store s.len, .transmit c])
    else (s, [])

end

/-- `rtosk_osi_task` before the loop. -/
def bootEvents (banner : List UInt8) : List Event :=
  rtoskOsiUsart3WriteLocked banner ++ writePrompt

end Osi

end TinyRtos
