import TinyRtos.Gui.Parser
import TinyRtos.Lib.DigitalLine
import Mathlib.Algebra.Order.Group.Unbundled.Int

/-!
# TinyRTOS — the renderer (`renderer.c`)

A GUI pixel is a square of `scale` pixels of the window. SDL is a parameter: a
state `σ`, the calls the renderer makes (`Sdl`), and what is documented of them
(`Sdl.Draws`). It draws on a target, which `SDL_RenderPresent` shows; what the
target holds after that is not specified. `Canvas` is the plainest such SDL.

`gui_renderer_draw_line` is a loop without a bound. `drawLineLoop` is given one
by `fuel` and returns nothing if that runs out; its integers are those of the
code as long as nothing overflows, which `LineState.InRange` says.
-/

namespace TinyRtos

namespace Gui

structure Rgb where
  r : UInt8
  g : UInt8
  b : UInt8
  deriving DecidableEq, Repr

/-- `rgb332_decode`: three bits of red, three of green, two of blue. -/
def rgb332Decode (c : UInt8) : Rgb where
  r := (((c.toUInt32 >>> 5) &&& 0x07) * 255 / 7).toUInt8
  g := (((c.toUInt32 >>> 2) &&& 0x07) * 255 / 7).toUInt8
  b := ((c.toUInt32 &&& 0x03) * 255 / 3).toUInt8

-- ---------------------------------------------------------------------------
-- SDL
-- ---------------------------------------------------------------------------

/-- The calls of SDL on a renderer and its window, and what can be seen of the
two: the colour to draw in, and the pixels of the target and of the window. -/
class Sdl (σ : Type) where
  setRenderDrawColor : UInt8 → UInt8 → UInt8 → UInt8 → σ → σ
  renderClear : σ → σ
  renderFillRect : Int → Int → Int → Int → σ → σ
  renderPresent : σ → σ
  drawColor : σ → Rgb
  target : σ → Nat → Nat → Rgb
  window : σ → Nat → Nat → Rgb

/-- What is documented of the calls, for a window of `w` by `h` pixels, when they
succeed. Nothing is said of the target after it was presented. -/
structure Sdl.Draws (σ : Type) [Sdl σ] (w h : Nat) : Prop where
  color : ∀ (s : σ) r g b, drawColor (setRenderDrawColor r g b 255 s) = ⟨r, g, b⟩
  color_target : ∀ (s : σ) r g b a, ∀ px < w, ∀ py < h,
    target (setRenderDrawColor r g b a s) px py = target s px py
  color_window : ∀ (s : σ) r g b a, ∀ px < w, ∀ py < h,
    window (setRenderDrawColor r g b a s) px py = window s px py
  clear_target : ∀ s : σ, ∀ px < w, ∀ py < h, target (renderClear s) px py = drawColor s
  fill_target : ∀ (s : σ) (x y rw rh : Int), ∀ px < w, ∀ py < h,
    target (renderFillRect x y rw rh s) px py =
      if (x ≤ px ∧ px < x + rw) ∧ (y ≤ py ∧ py < y + rh) then drawColor s else target s px py
  fill_window : ∀ (s : σ) (x y rw rh : Int), ∀ px < w, ∀ py < h,
    window (renderFillRect x y rw rh s) px py = window s px py
  present_window : ∀ s : σ, ∀ px < w, ∀ py < h, window (renderPresent s) px py = target s px py

/-- Two buffers, which `SDL_RenderPresent` exchanges. -/
structure Canvas where
  color : Rgb
  back : Nat → Nat → Rgb
  front : Nat → Nat → Rgb

instance : Sdl Canvas where
  setRenderDrawColor r g b _ s := { s with color := ⟨r, g, b⟩ }
  renderClear s := { s with back := fun _ _ => s.color }
  renderFillRect x y w h s :=
    { s with back := fun px py =>
        if (x ≤ px ∧ px < x + w) ∧ (y ≤ py ∧ py < y + h) then s.color else s.back px py }
  renderPresent s := { s with front := s.back, back := s.front }
  drawColor s := s.color
  target s := s.back
  window s := s.front

/-- A canvas does what is documented, whatever the size of its window. -/
theorem canvas_draws (w h : Nat) : Sdl.Draws Canvas w h where
  color _ _ _ _ := rfl
  color_target _ _ _ _ _ _ _ _ _ := rfl
  color_window _ _ _ _ _ _ _ _ _ := rfl
  clear_target _ _ _ _ _ := rfl
  fill_target _ _ _ _ _ _ _ _ _ := rfl
  fill_window _ _ _ _ _ _ _ _ _ := rfl
  present_window _ _ _ _ _ := rfl

-- ---------------------------------------------------------------------------
-- The renderer
-- ---------------------------------------------------------------------------

/-- `gui_renderer_t`; `sdl` is what its two pointers lead to. The window was
made: its sides are positive numbers of type `int`. -/
structure Renderer (σ : Type) where
  width : UInt32
  height : UInt32
  scale : UInt32
  sdl : σ
  scale_pos : 0 < scale.toNat
  width_fits : width.toNat * scale.toNat < 2 ^ 31
  height_fits : height.toNat * scale.toNat < 2 ^ 31

namespace Renderer

variable {σ : Type}

/-- `gui_renderer_init` as `main` calls it, when SDL succeeds. -/
def guiRendererInit (sdl : σ) : Renderer σ where
  width := tinyrtosFramebufferWidth
  height := tinyrtosFramebufferHeight
  scale := tinyrtosRenderScale
  sdl := sdl
  scale_pos := by decide
  width_fits := by decide
  height_fits := by decide

/-- The conversion of `uint32_t` to `int32_t`. -/
def toInt (x : UInt32) : Int := x.toInt32.toInt

/-- The conversion of `int32_t` to `uint32_t`. -/
def toUInt (x : Int) : UInt32 := UInt32.ofInt x

section

variable [Sdl σ]

/-- `gui_renderer_clear_color`: the byte is a grey level here, no RGB332 colour. -/
def guiRendererClearColor (color : UInt8) (r : Renderer σ) : Renderer σ :=
  { r with sdl := Sdl.renderClear (Sdl.setRenderDrawColor color color color 255 r.sdl) }

def guiRendererPresent (r : Renderer σ) : Renderer σ :=
  { r with sdl := Sdl.renderPresent r.sdl }

/-- `gui_renderer_draw_pixel`: the products are taken modulo `2 ^ 32`. -/
def guiRendererDrawPixel (x y : UInt32) (color : UInt8) (r : Renderer σ) : Renderer σ :=
  if r.width ≤ x ∨ r.height ≤ y then r
  else
    let c := rgb332Decode color
    let sdl := Sdl.setRenderDrawColor c.r c.g c.b 255 r.sdl
    { r with sdl := Sdl.renderFillRect (toInt (x * r.scale)) (toInt (y * r.scale)) (toInt r.scale)
                      (toInt r.scale) sdl }

end

/-- The variables of `gui_renderer_draw_line` that its loop does not change. -/
structure Line where
  ix1 : Int
  iy1 : Int
  dx : Int
  sx : Int
  dy : Int
  sy : Int

/-- Those it does. -/
structure LineState where
  ix0 : Int
  iy0 : Int
  err : Int

def Line.of (x0 y0 x1 y1 : UInt32) : Line :=
  let ix0 := toInt x0
  let iy0 := toInt y0
  let ix1 := toInt x1
  let iy1 := toInt y1
  { ix1 := ix1
    iy1 := iy1
    dx := if ix0 < ix1 then ix1 - ix0 else ix0 - ix1
    sx := if ix0 < ix1 then 1 else -1
    dy := if iy0 < iy1 then iy0 - iy1 else iy1 - iy0
    sy := if iy0 < iy1 then 1 else -1 }

def Line.start (l : Line) (x0 y0 : UInt32) : LineState :=
  { ix0 := toInt x0, iy0 := toInt y0, err := l.dx + l.dy }

/-- The loop from `e2 = err << 1` on. -/
def Line.next (l : Line) (s : LineState) : LineState :=
  let e2 := s.err * 2
  let s := if l.dy ≤ e2 then { s with err := s.err + l.dy, ix0 := s.ix0 + l.sx } else s
  if e2 ≤ l.dx then { s with err := s.err + l.dx, iy0 := s.iy0 + l.sy } else s

/-- The range of `int32_t`. -/
def Fits (n : Int) : Prop := -2 ^ 31 ≤ n ∧ n < 2 ^ 31

/-- Nothing that a round computes from the state leaves the range of `int32_t`;
`err + dy` is what `err` is between its two additions. -/
structure LineState.InRange (s : LineState) (l : Line) : Prop where
  e2 : Fits (s.err * 2)
  ix0 : Fits s.ix0
  iy0 : Fits s.iy0
  dx : Fits l.dx
  dy : Fits l.dy
  between : Fits (s.err + l.dy)

section

variable [Sdl σ]

/-- The loop of `gui_renderer_draw_line`: draw, break at the end, go on. -/
def drawLineLoop (l : Line) (color : UInt8) :
    Nat → LineState → Renderer σ → Option (Renderer σ)
  | 0, _, _ => none
  | fuel + 1, s, r =>
    let r := r.guiRendererDrawPixel (toUInt s.ix0) (toUInt s.iy0) color
    if s.ix0 = l.ix1 ∧ s.iy0 = l.iy1 then some r else drawLineLoop l color fuel (l.next s) r

def guiRendererDrawLine (fuel : Nat) (x0 y0 x1 y1 : UInt32) (color : UInt8) (r : Renderer σ) :
    Option (Renderer σ) :=
  let l := Line.of x0 y0 x1 y1
  drawLineLoop l color fuel (l.start x0 y0) r

/-- What `exec_cmd` calls; the coordinates of a packet are bytes. -/
def exec (fuel : Nat) (r : Renderer σ) : Draw → Option (Renderer σ)
  | .clear color => some (r.guiRendererClearColor color)
  | .pixel x y color => some (r.guiRendererDrawPixel x.toUInt32 y.toUInt32 color)
  | .line x0 y0 x1 y1 color =>
    r.guiRendererDrawLine fuel x0.toUInt32 y0.toUInt32 x1.toUInt32 y1.toUInt32 color
  | .present => some r.guiRendererPresent

/-- The calls of the renderer in order. -/
def execAll (fuel : Nat) (r : Renderer σ) (draws : List Draw) : Option (Renderer σ) :=
  draws.foldlM (exec fuel) r

end

end Renderer

end Gui

end TinyRtos
