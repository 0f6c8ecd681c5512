import TinyRtos.Gui.Primitives

/-!
# TinyRTOS — the picture (`scene.c`)

A cube turns in front of the viewer. `project` is fixed-point arithmetic: the
sines are in units of 1/128 and every intermediate value is cut down to
`int16_t`. `>>` shifts in copies of the sign. The coordinates that
`scene_render` sends are cut down to `uint8_t`.

The division by `z2 + d` is undefined for zero; `/` gives zero there.
-/

namespace TinyRtos

namespace Gui

/-- `vec3_t`. -/
structure Vec3 where
  x : Int16
  y : Int16
  z : Int16
  deriving DecidableEq, Repr

/-- `vec2_t`. -/
structure Vec2 where
  x : Int16
  y : Int16
  deriving DecidableEq, Repr

/-- `RGB332`. -/
def rgb332 (r g b : UInt32) : UInt8 :=
  (((r &&& 0x07) <<< 5) ||| ((g &&& 0x07) <<< 2) ||| (b &&& 0x03)).toUInt8

/-- `CUBE`. -/
def cube : Vector Vec3 8 :=
  #v[⟨-16, -16, -16⟩, ⟨16, -16, -16⟩, ⟨16, 16, -16⟩, ⟨-16, 16, -16⟩,
    ⟨-16, -16, 16⟩, ⟨16, -16, 16⟩, ⟨16, 16, 16⟩, ⟨-16, 16, 16⟩]

/-- `EDGES`: which corners an edge joins. -/
def edges : Vector (Fin 8 × Fin 8) 12 :=
  #v[(0, 1), (1, 2), (2, 3), (3, 0), (4, 5), (5, 6), (6, 7), (7, 4), (0, 4), (1, 5), (2, 6), (3, 7)]

/-- `SIN_LUT`. -/
def sinLut : Vector Int8 64 :=
  #v[0, 12, 25, 37, 49, 60, 71, 81, 90, 98, 106, 112, 118, 122, 125, 127,
    127, 127, 125, 122, 118, 112, 106, 98, 90, 81, 71, 60, 49, 37, 25, 12,
    0, -12, -25, -37, -49, -60, -71, -81, -90, -98, -106, -112, -118, -122, -125, -127,
    -127, -127, -125, -122, -118, -112, -106, -98, -90, -81, -71, -60, -49, -37, -25, -12]

/-- `EDGE_COLORS`. -/
def edgeColors : Vector UInt8 12 :=
  #v[rgb332 7 0 0, rgb332 0 7 0, rgb332 0 0 3, rgb332 7 7 0,
    rgb332 7 0 3, rgb332 0 7 3, rgb332 7 3 0, rgb332 3 7 0,
    rgb332 3 0 3, rgb332 0 3 3, rgb332 7 7 7, rgb332 4 4 7]

def fsin (a : UInt8) : Int16 := (sinLut.get (Fin.ofNat 64 (a.toUInt32 &&& 63).toNat)).toInt16

def fcos (a : UInt8) : Int16 :=
  (sinLut.get (Fin.ofNat 64 ((a.toUInt32 + 16) &&& 63).toNat)).toInt16

/-- The centre of the frame, from a side of it, and so far from there. The sides
are unsigned, and so is the sum. -/
def fromCentre (side : UInt32) (offset : Int16) : Int16 :=
  (side / 2 + offset.toInt32.toUInt32).toUInt16.toInt16

def project (p : Vec3) (ax ay : UInt8) : Vec2 :=
  let sx := (fsin ax).toInt32
  let cx := (fcos ax).toInt32
  let sy := (fsin ay).toInt32
  let cy := (fcos ay).toInt32
  let y1 := ((p.y.toInt32 * cx - p.z.toInt32 * sx) >>> 7).toInt16
  let z1 := ((p.y.toInt32 * sx + p.z.toInt32 * cx) >>> 7).toInt16
  let x2 := ((p.x.toInt32 * cy + z1.toInt32 * sy) >>> 7).toInt16
  let z2 := ((-p.x.toInt32 * sy + z1.toInt32 * cy) >>> 7).toInt16
  let d : Int16 := 96
  let s := ((d.toInt32 * 64) / (z2.toInt32 + d.toInt32)).toInt16
  { x := fromCentre tinyrtosFramebufferWidth ((x2.toInt32 * s.toInt32) >>> 6).toInt16
    y := fromCentre tinyrtosFramebufferHeight ((y1.toInt32 * s.toInt32) >>> 6).toInt16 }

/-- The bytes that one call transmits, and `angle` after it. -/
def sceneRender (guiWrite : Option WriteFn) (angle : UInt8) : List UInt8 × UInt8 :=
  let p := cube.map fun corner => project corner angle (angle + 11)
  let lines := (List.finRange 12).flatMap fun i =>
    let a := (edges.get i).1
    let b := (edges.get i).2
    guiDrawLine guiWrite (p.get a).x.toUInt16.toUInt8 (p.get a).y.toUInt16.toUInt8
      (p.get b).x.toUInt16.toUInt8 (p.get b).y.toUInt16.toUInt8 (edgeColors.get i)
  (guiClear guiWrite 0 ++ lines ++ guiPresent guiWrite, angle + 1)

/-- What so many passes of the dispatcher's loop transmit. -/
def sceneFrames (guiWrite : Option WriteFn) : Nat → UInt8 → List UInt8
  | 0, _ => []
  | n + 1, angle =>
    (sceneRender guiWrite angle).1 ++ sceneFrames guiWrite n (sceneRender guiWrite angle).2

end Gui

end TinyRtos
