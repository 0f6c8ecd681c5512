import TinyRtos.Lib.XorSum

/-!
# TinyRTOS — drawing commands on the wire (`common.h`, `primitives.c`)

The GUI example draws on another machine: a drawing call becomes a packet of two
start bytes, the command, the number of payload bytes, the payload and a
checksum, and `gui_write` transmits it. `Draw` is a drawing call; `guiDraw` is
the function that is called for it, with the bytes that go out.
-/

namespace TinyRtos

namespace Gui

/-- `TINYRTOS_FRAMEBUFFER_WIDTH`. -/
def tinyrtosFramebufferWidth : UInt32 := 0xff

/-- `TINYRTOS_FRAMEBUFFER_HEIGHT`. -/
def tinyrtosFramebufferHeight : UInt32 := (tinyrtosFramebufferWidth * 9) / 16

/-- `TINYRTOS_RENDER_SCALE`. -/
def tinyrtosRenderScale : UInt32 := 4

/-- `TINYRTOS_GUI_SOF0`. -/
def sof0 : UInt8 := 0xA5

/-- `TINYRTOS_GUI_SOF1`. -/
def sof1 : UInt8 := 0x5A

/-- `TINYRTOS_GUI_CMD_CLEAR`. -/
def cmdClear : UInt8 := 0x01

/-- `TINYRTOS_GUI_CMD_PIXEL`. -/
def cmdPixel : UInt8 := 0x02

/-- `TINYRTOS_GUI_CMD_LINE`. -/
def cmdLine : UInt8 := 0x03

/-- `TINYRTOS_GUI_CMD_PRESENT`. -/
def cmdPresent : UInt8 := 0x04

def checksum (buf : List UInt8) : UInt8 := buf.foldl (fun c b => c ^^^ b) 0

theorem checksum_eq (buf : List UInt8) : checksum buf = XorSum.xorSum buf := rfl

/-- The function `gui_write` points to, if it points to one: the bytes that are
transmitted for the bytes it is given. -/
abbrev WriteFn := List UInt8 → List UInt8

/-- `dispatch_bytes` transmits every byte as it is; it does not go through
`write_string`. -/
def dispatchBytes : WriteFn := fun data => data

/-- `send_cmd` up to the call of `gui_write`. -/
def packet (cmd : UInt8) (payload : List UInt8) : List UInt8 :=
  let packet := [sof0, sof1, cmd, UInt8.ofNat payload.length] ++ payload
  packet ++ [checksum (packet.drop 2)]

def sendCmd (guiWrite : Option WriteFn) (cmd : UInt8) (payload : List UInt8) : List UInt8 :=
  match guiWrite with
  | none => []
  | some write => write (packet cmd payload)

section

variable (guiWrite : Option WriteFn)

def guiClear (color : UInt8) : List UInt8 := sendCmd guiWrite cmdClear [color]

def guiDrawPixel (x y color : UInt8) : List UInt8 := sendCmd guiWrite cmdPixel [x, y, color]

def guiDrawLine (x0 y0 x1 y1 color : UInt8) : List UInt8 :=
  sendCmd guiWrite cmdLine [x0, y0, x1, y1, color]

def guiPresent : List UInt8 := sendCmd guiWrite cmdPresent []

end

/-- A drawing call. -/
inductive Draw
  | clear (color : UInt8)
  | pixel (x y color : UInt8)
  | line (x0 y0 x1 y1 color : UInt8)
  | present
  deriving DecidableEq, Repr

namespace Draw

def cmd : Draw → UInt8
  | .clear _ => cmdClear
  | .pixel .. => cmdPixel
  | .line .. => cmdLine
  | .present => cmdPresent

def payload : Draw → List UInt8
  | .clear color => [color]
  | .pixel x y color => [x, y, color]
  | .line x0 y0 x1 y1 color => [x0, y0, x1, y1, color]
  | .present => []

end Draw

def guiDraw (guiWrite : Option WriteFn) : Draw → List UInt8
  | .clear color => guiClear guiWrite color
  | .pixel x y color => guiDrawPixel guiWrite x y color
  | .line x0 y0 x1 y1 color => guiDrawLine guiWrite x0 y0 x1 y1 color
  | .present => guiPresent guiWrite

theorem guiDraw_eq (d : Draw) :
    guiDraw (some dispatchBytes) d = packet d.cmd d.payload := by
  cases d <;> rfl

theorem packet_eq (cmd : UInt8) (payload : List UInt8) :
    packet cmd payload = sof0 :: sof1 :: cmd :: UInt8.ofNat payload.length ::
      (payload ++ [cmd ^^^ UInt8.ofNat payload.length ^^^ XorSum.xorSum payload]) := by
  simp [packet, checksum_eq, UInt8.xor_assoc]

theorem Draw.payload_length (d : Draw) : d.payload.length ≤ 5 := by
  cases d <;> simp [payload]

end Gui

end TinyRtos
