import TinyRtos.Lib.Runs
import TinyRtos.Lib.WaitSlots
import TinyRtos.Lib.RingBuffer
import TinyRtos.Lib.FirstMax
import TinyRtos.Lib.Memory
import TinyRtos.Lib.HighWater
import TinyRtos.Lib.Reader
import TinyRtos.Lib.LineEditor
import TinyRtos.Lib.Terminal
import TinyRtos.Lib.XorSum
import TinyRtos.Lib.WholeLines
import TinyRtos.Lib.DigitalLine
import TinyRtos.Lib.ExactInt
import TinyRtos.Lib.SharedWord
import TinyRtos.Kernel.Task
import TinyRtos.Kernel.Kernel
import TinyRtos.Kernel.Semaphore
import TinyRtos.Kernel.Mutex
import TinyRtos.Kernel.Queue
import TinyRtos.Kernel.Scheduler
import TinyRtos.Kernel.System
import TinyRtos.Kernel.Dispatch
import TinyRtos.Kernel.Delay
import TinyRtos.Bsp.Led
import TinyRtos.Kernel.Waiting
import TinyRtos.Kernel.Control
import TinyRtos.Kernel.Registry
import TinyRtos.Kernel.Taking
import TinyRtos.Kernel.Critical
import TinyRtos.Kernel.Sends
import TinyRtos.Kernel.SendsApart
import TinyRtos.Port.Stack
import TinyRtos.Port.Machine
import TinyRtos.Port.Start
import TinyRtos.Port.Startup
import TinyRtos.Port.StartPhase
import TinyRtos.Port.Switching
import TinyRtos.Port.Fault
import TinyRtos.Osi.Shell
import TinyRtos.Osi.Editing
import TinyRtos.Osi.Transmit
import TinyRtos.Osi.Console
import TinyRtos.Port.StackUsage
import TinyRtos.Gui.Primitives
import TinyRtos.Gui.Parser
import TinyRtos.Gui.Renderer
import TinyRtos.Gui.Scene
import TinyRtos.Results.RoundRobin
import TinyRtos.Results.Preemption
import TinyRtos.Results.Waiters
import TinyRtos.Results.Permits
import TinyRtos.Results.Exclusion
import TinyRtos.Results.Lines
import TinyRtos.Results.GuiTasks
import TinyRtos.Results.Console
import TinyRtos.Results.Critical
import TinyRtos.Results.Atomic
import TinyRtos.Results.Nested
import TinyRtos.Results.Fifo
import TinyRtos.Results.IsrSends
import TinyRtos.Results.ContextSwitch
import TinyRtos.Results.ExcReturn
import TinyRtos.Results.StackUsage
import TinyRtos.Results.Fault
import TinyRtos.Results.StartPhase
import TinyRtos.Results.Boot
import TinyRtos.Results.FirstTask
import TinyRtos.Results.Selection
import TinyRtos.Results.Latency
import TinyRtos.Results.Sleep
import TinyRtos.Results.Delay
import TinyRtos.Results.Takes
import TinyRtos.Results.Shell
import TinyRtos.Results.Prompt
import TinyRtos.Results.GuiProtocol
import TinyRtos.Results.GuiLine
import TinyRtos.Results.GuiScene
import TinyRtos.Results.Leds
