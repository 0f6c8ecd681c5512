import TinyRtos.Gui.Scene
import TinyRtos.Lib.ExactInt
import TinyRtos.Results.GuiLine
import TinyRtos.Results.GuiProtocol

/-!
# TinyRTOS — the cube on the screen

* `corners_exact` — for every angle the corners are computed exactly, in spite
  of the narrow types, the division is by what is positive, and the corners lie
  inside the frame;
* `frames_shown` — whatever the number of passes, nothing is lost on the line,
  and the window of the renderer at its other end shows the edges at the angle of
  the last, if SDL does what is documented.
-/

namespace TinyRtos

namespace Gui

open ExactInt

-- ---------------------------------------------------------------------------
-- The corners
-- ---------------------------------------------------------------------------

/-- A corner after the turns about the x axis and the y axis; `/` rounds down. -/
structure Turned where
  x : Int
  y : Int
  z : Int

def turn (p : Vec3) (ax ay : UInt8) : Turned :=
  let z1 := (p.y.toInt * (fsin ax).toInt + p.z.toInt * (fcos ax).toInt) / 128
  { x := (p.x.toInt * (fcos ay).toInt + z1 * (fsin ay).toInt) / 128
    y := (p.y.toInt * (fcos ax).toInt - p.z.toInt * (fsin ax).toInt) / 128
    z := (-p.x.toInt * (fsin ay).toInt + z1 * (fcos ay).toInt) / 128 }

/-- Where it is seen from a distance of 96. -/
def Turned.seen (q : Turned) : Int × Int :=
  let s := 96 * 64 / (q.z + 96)
  (127 + q.x * s / 64, 71 + q.y * s / 64)

/-- The corners of the cube are that near to its centre. -/
def Vec3.Small (p : Vec3) : Prop := |p.x.toInt| ≤ 16 ∧ |p.y.toInt| ≤ 16 ∧ |p.z.toInt| ≤ 16

theorem cube_small (i : Fin 8) : (cube.get i).Small := by
  unfold Vec3.Small
  revert i
  decide

theorem sinLut_bounds : ∀ i, |(sinLut.get i).toInt16.toInt| ≤ 127 := by decide

theorem holds_fsin (a : UInt8) : Holds (fsin a).toInt32 (fsin a).toInt 127 := by
  refine ⟨Int16.toInt_toInt32 _, ?_⟩
  unfold fsin
  exact sinLut_bounds _

theorem holds_fcos (a : UInt8) : Holds (fcos a).toInt32 (fcos a).toInt 127 := by
  refine ⟨Int16.toInt_toInt32 _, ?_⟩
  unfold fcos
  exact sinLut_bounds _

/-- The detour over the unsigned types. -/
theorem toInt16_unsigned (offset : Int16) :
    offset.toInt32.toUInt32.toUInt16.toInt16 = offset := by
  refine Eq.trans ?_ (Int16.toInt16_toInt32 offset)
  refine Int16.toBitVec_inj.mp ?_
  exact (BitVec.signExtend_eq_setWidth_of_le offset.toInt32.toBitVec (by decide)).symm

theorem toInt_narrow {x : UInt32} (h : x.toNat < 2 ^ 15) : x.toUInt16.toInt16.toInt = x.toNat := by
  show (x.toBitVec.setWidth 16).toInt = _
  rw [BitVec.toInt_setWidth, UInt32.toNat_toBitVec]
  exact Int.bmod_eq_of_le_mul_two (by push_cast; omega) (by push_cast; omega)

theorem fromCentre_exact (side : UInt32) {offset : Int16} {n : Int} {A : Nat}
    (h : Holds offset.toInt32 n A) (hSide : side.toNat ≤ 255) (hFits : A ≤ 127) :
    (fromCentre side offset).toInt = side.toNat / 2 + n := by
  obtain ⟨hLow, hHigh⟩ := h.bounds
  have hHalf : (side / 2).toNat = side.toNat / 2 := by simp
  have hExact := h.exact
  rw [Int16.toInt_toInt32] at hExact
  rw [fromCentre, UInt32.toUInt16_add, UInt16.toInt16_add, toInt16_unsigned, Int16.toInt_add,
    hExact, toInt_narrow, hHalf]
  · push_cast
    exact Int.bmod_eq_of_le (by omega) (by omega)
  · rw [hHalf]
    omega

/-- What the distance makes of a length: at most double. -/
theorem holds_scale {z : Int16} {n : Int} (h : Holds z.toInt32 n 48) :
    Holds (((96 : Int16).toInt32 * 64) / (z.toInt32 + (96 : Int16).toInt32)).toInt16.toInt32
      (96 * 64 / (n + 96)) 128 := by
  obtain ⟨hLow, hHigh⟩ := h.bounds
  have hD : Holds (96 : Int16).toInt32 96 96 := ⟨rfl, by decide⟩
  have hUnit : Holds (64 : Int32) 64 64 := ⟨rfl, by decide⟩
  have hDivisor : 48 ≤ n + 96 := by omega
  have hQuotient := (hD.mul hUnit (by decide)).div (h.add hD (by decide)) (by decide)
    (by omega) (by decide)
  have hBound : |96 * 64 / (n + 96)| ≤ 128 := by
    rw [abs_of_nonneg (Int.ediv_nonneg (by decide) (by omega))]
    exact Int.ediv_le_of_le_mul (by omega) (by omega)
  exact Holds.toInt16 ⟨hQuotient.exact, hBound⟩ (by decide)

/-- The narrow types hold what is computed. -/
theorem Vec3.Small.project {p : Vec3} (h : p.Small) (ax ay : UInt8) :
    (Gui.project p ax ay).x.toInt = (turn p ax ay).seen.1 ∧
      (Gui.project p ax ay).y.toInt = (turn p ax ay).seen.2 ∧ 48 ≤ (turn p ax ay).z + 96 ∧
      (31 ≤ (turn p ax ay).seen.1 ∧ (turn p ax ay).seen.1 ≤ 223) ∧
      (7 ≤ (turn p ax ay).seen.2 ∧ (turn p ax ay).seen.2 ≤ 135) := by
  obtain ⟨hx, hy, hz⟩ := h
  have hX : Holds p.x.toInt32 p.x.toInt 16 := ⟨Int16.toInt_toInt32 _, hx⟩
  have hY : Holds p.y.toInt32 p.y.toInt 16 := ⟨Int16.toInt_toInt32 _, hy⟩
  have hZ : Holds p.z.toInt32 p.z.toInt 16 := ⟨Int16.toInt_toInt32 _, hz⟩
  have hSx := holds_fsin ax
  have hCx := holds_fcos ax
  have hSy := holds_fsin ay
  have hCy := holds_fcos ay
  have hY1 := (((hY.mul hCx (by decide)).sub (hZ.mul hSx (by decide)) (by decide)).shiftRight
    (k := 7) (j := 7) (C := 32) (by decide) (by decide)).toInt16 (by decide)
  have hZ1 := (((hY.mul hSx (by decide)).add (hZ.mul hCx (by decide)) (by decide)).shiftRight
    (k := 7) (j := 7) (C := 32) (by decide) (by decide)).toInt16 (by decide)
  have hX2 := (((hX.mul hCy (by decide)).add (hZ1.mul hSy (by decide)) (by decide)).shiftRight
    (k := 7) (j := 7) (C := 48) (by decide) (by decide)).toInt16 (by decide)
  have hZ2 := ((((hX.neg (by decide)).mul hSy (by decide)).add (hZ1.mul hCy (by decide))
    (by decide)).shiftRight (k := 7) (j := 7) (C := 48) (by decide) (by decide)).toInt16 (by decide)
  have hS := holds_scale hZ2
  have hSeenX := ((hX2.mul hS (by decide)).shiftRight (k := 6) (j := 6) (C := 96) (by decide)
    (by decide)).toInt16 (by decide)
  have hSeenY := ((hY1.mul hS (by decide)).shiftRight (k := 6) (j := 6) (C := 64) (by decide)
    (by decide)).toInt16 (by decide)
  have hCornerX := fromCentre_exact tinyrtosFramebufferWidth hSeenX (by decide) (by decide)
  have hCornerY := fromCentre_exact tinyrtosFramebufferHeight hSeenY (by decide) (by decide)
  have hWidth : (tinyrtosFramebufferWidth.toNat : Int) / 2 = 127 := by decide
  have hHeight : (tinyrtosFramebufferHeight.toNat : Int) / 2 = 71 := by decide
  rw [hWidth] at hCornerX
  rw [hHeight] at hCornerY
  obtain ⟨hLowX, hHighX⟩ := hSeenX.bounds
  obtain ⟨hLowY, hHighY⟩ := hSeenY.bounds
  obtain ⟨hLowZ, -⟩ := hZ2.bounds
  refine ⟨hCornerX, hCornerY, ?_, ⟨?_, ?_⟩, ?_, ?_⟩
  · exact Int.add_le_add_right hLowZ 96
  · exact le_add_of_sub_left_le hLowX
  · exact add_le_of_le_sub_left hHighX
  · exact le_add_of_sub_left_le hLowY
  · exact add_le_of_le_sub_left hHighY

/-- Where corner `i` of the cube is seen. -/
def cornerAt (angle : UInt8) (i : Fin 8) : Int × Int :=
  (turn (cube.get i) angle (angle + 11)).seen

/-- **The corners are exact.** For every angle the narrow types hold what is
computed, nothing is divided by zero, and every corner is inside the frame. -/
theorem corners_exact (angle : UInt8) (i : Fin 8) :
    (project (cube.get i) angle (angle + 11)).x.toInt = (cornerAt angle i).1 ∧
      (project (cube.get i) angle (angle + 11)).y.toInt = (cornerAt angle i).2 ∧
      48 ≤ (turn (cube.get i) angle (angle + 11)).z + 96 ∧
      (31 ≤ (cornerAt angle i).1 ∧ (cornerAt angle i).1 ≤ 223) ∧
      (7 ≤ (cornerAt angle i).2 ∧ (cornerAt angle i).2 ≤ 135) :=
  (cube_small i).project angle (angle + 11)

-- ---------------------------------------------------------------------------
-- Strokes
-- ---------------------------------------------------------------------------

/-- The arguments of `gui_draw_line`. -/
structure Stroke where
  x0 : UInt8
  y0 : UInt8
  x1 : UInt8
  y1 : UInt8
  color : UInt8

namespace Stroke

def draw (l : Stroke) : Draw := .line l.x0 l.y0 l.x1 l.y1 l.color

def pixels (l : Stroke) : List (Nat × Nat) :=
  Renderer.linePixels l.x0.toUInt32 l.y0.toUInt32 l.x1.toUInt32 l.y1.toUInt32

theorem small (l : Stroke) :
    Renderer.Small l.x0.toUInt32 l.y0.toUInt32 l.x1.toUInt32 l.y1.toUInt32 := by
  refine ⟨?_, ?_, ?_, ?_⟩
  all_goals exact lt_trans (UInt8.toNat_lt _) (by decide)

theorem steps_lt (l : Stroke) :
    Renderer.steps l.x0.toUInt32 l.y0.toUInt32 l.x1.toUInt32 l.y1.toUInt32 < 256 :=
  Nat.max_lt.mpr ⟨Renderer.extent_lt (UInt8.toNat_lt _) (UInt8.toNat_lt _),
    Renderer.extent_lt (UInt8.toNat_lt _) (UInt8.toNat_lt _)⟩

end Stroke

/-- The strokes one over the other: what is seen at a GUI pixel. -/
def painted (q : Nat × Nat) (below : Rgb) (strokes : List Stroke) : Rgb :=
  strokes.foldl (fun c l => if q ∈ l.pixels then rgb332Decode l.color else c) below

section

variable {σ : Type}

/-- The sides are those of the frame. -/
structure Framed (r : Renderer σ) : Prop where
  width  : r.width = tinyrtosFramebufferWidth
  height : r.height = tinyrtosFramebufferHeight
  scale  : r.scale = tinyrtosRenderScale

theorem Framed.of_same {r r' : Renderer σ} (h : Framed r) (hSame : Renderer.SameFrame r r') :
    Framed r' :=
  ⟨hSame.width.trans h.width, hSame.height.trans h.height, hSame.scale.trans h.scale⟩

variable [Sdl σ] (fuel : Nat)

theorem execAll_cons (r : Renderer σ) (d : Draw) (draws : List Draw) :
    r.execAll fuel (d :: draws) = (r.exec fuel d).bind fun r' => r'.execAll fuel draws := by
  unfold Renderer.execAll
  rw [List.foldlM_cons]
  rfl

theorem execAll_append (r : Renderer σ) (draws draws' : List Draw) :
    r.execAll fuel (draws ++ draws') =
      (r.execAll fuel draws).bind fun r' => r'.execAll fuel draws' := by
  unfold Renderer.execAll
  rw [List.foldlM_append]
  rfl

/-- The strokes are painted one over the other. -/
theorem Framed.strokes (hSdl : Sdl.Draws σ 1020 572) {r : Renderer σ} (h : Framed r)
    (strokes : List Stroke) :
    ∃ r', r.execAll (256 + fuel) (strokes.map Stroke.draw) = some r' ∧ Framed r' ∧
      ∀ px < 1020, ∀ py < 572, Sdl.target r'.sdl px py =
        painted (px / 4, py / 4) (Sdl.target r.sdl px py) strokes := by
  induction strokes generalizing r with
  | nil => exact ⟨r, rfl, h, fun _ _ _ _ => rfl⟩
  | cons l rest ih =>
    have hDraw := l.small.drawLine l.color r
      (lt_of_lt_of_le l.steps_lt (Nat.le_add_right 256 fuel))
    have hSame := Renderer.drawPixels_sameFrame l.color l.pixels r
    obtain ⟨r', hRun, h', hTarget⟩ := ih (h.of_same hSame)
    refine ⟨r', ?_, h', fun px hpx py hpy => ?_⟩
    · rw [List.map_cons, execAll_cons]
      refine Eq.trans ?_ hRun
      rw [Stroke.draw, Renderer.exec, hDraw]
      rfl
    · have hLine := l.small.linePixels_target hSdl l.color r hpx hpy
      rw [h.width, h.height, h.scale] at hLine
      have hInside : px / tinyrtosRenderScale.toNat < tinyrtosFramebufferWidth.toNat ∧
          py / tinyrtosRenderScale.toNat < tinyrtosFramebufferHeight.toNat := by
        show px / 4 < 255 ∧ py / 4 < 143
        omega
      rw [hTarget px hpx py hpy, painted, painted, List.foldl_cons]
      congr 1
      refine hLine.trans (if_congr ?_ rfl rfl)
      exact ⟨fun hq => hq.2.2, fun hq => ⟨hInside.1, hInside.2, hq⟩⟩

/-- A picture: the calls for one frame. -/
def frameDraws (background : UInt8) (strokes : List Stroke) : List Draw :=
  .clear background :: (strokes.map Stroke.draw ++ [.present])

/-- What the target held before does not matter: a frame begins with a clear. -/
theorem Framed.frame (hSdl : Sdl.Draws σ 1020 572) {r : Renderer σ} (h : Framed r)
    (background : UInt8) (strokes : List Stroke) :
    ∃ r', r.execAll (256 + fuel) (frameDraws background strokes) = some r' ∧ Framed r' ∧
      ∀ px < 1020, ∀ py < 572, Sdl.window r'.sdl px py =
        painted (px / 4, py / 4) ⟨background, background, background⟩ strokes := by
  have hClear : Framed (r.guiRendererClearColor background) := ⟨h.width, h.height, h.scale⟩
  obtain ⟨r', hRun, h', hTarget⟩ := hClear.strokes fuel hSdl strokes
  refine ⟨r'.guiRendererPresent, ?_, ⟨h'.width, h'.height, h'.scale⟩, fun px hpx py hpy => ?_⟩
  · rw [frameDraws, execAll_cons, Renderer.exec, Option.bind_some, execAll_append, hRun]
    rfl
  · have hCleared : Sdl.target (r.guiRendererClearColor background).sdl px py =
        ⟨background, background, background⟩ :=
      (hSdl.clear_target _ px hpx py hpy).trans (hSdl.color ..)
    refine (hSdl.present_window _ px hpx py hpy).trans ?_
    rw [hTarget px hpx py hpy, hCleared]

end

-- ---------------------------------------------------------------------------
-- The cube
-- ---------------------------------------------------------------------------

/-- The edges of the cube, between its corners as they are seen. -/
def cubeStrokes (angle : UInt8) : List Stroke :=
  (List.finRange 12).map fun i =>
    { x0 := UInt8.ofInt (cornerAt angle (edges.get i).1).1
      y0 := UInt8.ofInt (cornerAt angle (edges.get i).1).2
      x1 := UInt8.ofInt (cornerAt angle (edges.get i).2).1
      y1 := UInt8.ofInt (cornerAt angle (edges.get i).2).2
      color := edgeColors.get i }

/-- The cut to `uint8_t`. -/
theorem toUInt8_exact {v : Int16} {n : Int} (h : v.toInt = n) :
    v.toUInt16.toUInt8 = UInt8.ofInt n := by
  subst h
  refine UInt8.toNat_inj.mp ?_
  show v.toBitVec.toNat % 2 ^ 8 = (v.toInt % 2 ^ 8).toNat % 2 ^ 8
  rw [← Int16.toInt_toBitVec, BitVec.toInt_eq_toNat_cond]
  split <;> omega

theorem sceneRender_eq (angle : UInt8) :
    sceneRender (some dispatchBytes) angle =
      (Parser.onLine ((frameDraws 0 (cubeStrokes angle)).map fun d => ([], d)), angle + 1) := by
  have hX (i : Fin 8) := toUInt8_exact ((cube_small i).project angle (angle + 11)).1
  have hY (i : Fin 8) := toUInt8_exact ((cube_small i).project angle (angle + 11)).2.1
  have hGet (i : Fin 8) : (cube.map fun corner => project corner angle (angle + 11)).get i =
      project (cube.get i) angle (angle + 11) := by simp [Vector.get]
  simp only [sceneRender, hGet, hX, hY]
  simp [Parser.onLine, frameDraws, cubeStrokes, List.flatMap_map, guiDraw, Stroke.draw,
    cornerAt]

/-- The calls of so many passes. -/
def passes : Nat → UInt8 → List Draw
  | 0, _ => []
  | n + 1, angle => frameDraws 0 (cubeStrokes angle) ++ passes n (angle + 1)

theorem sceneFrames_eq (n : Nat) (angle : UInt8) :
    sceneFrames (some dispatchBytes) n angle =
      Parser.onLine ((passes n angle).map fun d => ([], d)) := by
  induction n generalizing angle with
  | zero => rfl
  | succ n ih =>
    rw [sceneFrames, sceneRender_eq]
    simp only [ih, passes, Parser.onLine, List.map_append, List.flatMap_append]

/-- After so many passes the window shows the last. -/
theorem Framed.passes {σ : Type} [Sdl σ] (fuel : Nat) (hSdl : Sdl.Draws σ 1020 572) (n : Nat)
    {r : Renderer σ} (h : Framed r) (angle : UInt8) :
    ∃ r', r.execAll (256 + fuel) (passes (n + 1) angle) = some r' ∧ Framed r' ∧
      ∀ px < 1020, ∀ py < 572, Sdl.window r'.sdl px py =
        painted (px / 4, py / 4) ⟨0, 0, 0⟩ (cubeStrokes (angle + UInt8.ofNat n)) := by
  induction n generalizing r angle with
  | zero =>
    obtain ⟨r', hRun, h', hWindow⟩ := h.frame fuel hSdl 0 (cubeStrokes angle)
    refine ⟨r', ?_, h', ?_⟩
    · rw [Gui.passes, Gui.passes, List.append_nil, hRun]
    · simpa using hWindow
  | succ n ih =>
    obtain ⟨r₁, hRun₁, h₁, -⟩ := h.frame fuel hSdl 0 (cubeStrokes angle)
    obtain ⟨r', hRun, h', hWindow⟩ := ih h₁ (angle + 1)
    refine ⟨r', ?_, h', ?_⟩
    · rw [Gui.passes, execAll_append, hRun₁, Option.bind_some, hRun]
    · have hNext : angle + 1 + UInt8.ofNat n = angle + UInt8.ofNat (n + 1) := by
        rw [UInt8.add_assoc, UInt8.add_comm 1, UInt8.ofNat_add]
        rfl
      rwa [← hNext]

/-- What the passes transmit is read back as the calls they make. -/
theorem passes_read (n : Nat) (angle : UInt8) :
    (Parser.ready.run (sceneFrames (some dispatchBytes) n angle)).2 = passes n angle := by
  have hNoise : ∀ f ∈ (passes n angle).map fun d => (([] : List UInt8), d), sof0 ∉ f.1 := by
    intro f hf
    obtain ⟨d, -, rfl⟩ := List.mem_map.mp hf
    exact List.not_mem_nil
  rw [sceneFrames_eq, (Parser.run_onLine rfl rfl hNoise).1, List.map_map]
  exact List.map_id _

/-- **From the angle to the window.** What so many passes of the dispatcher
transmit is read without a loss, every line ends, and every pixel of the window
then shows the topmost of the edges at the last angle, or the background; the
angle starts over after 256 passes. -/
theorem frames_shown {σ : Type} [Sdl σ] (hSdl : Sdl.Draws σ 1020 572) (fuel n : Nat) (sdl : σ) :
    (Parser.ready.run (sceneFrames (some dispatchBytes) (n + 1) 0)).2 = passes (n + 1) 0 ∧
      ∃ r, (Renderer.guiRendererInit sdl).execAll (256 + fuel)
          (Parser.ready.run (sceneFrames (some dispatchBytes) (n + 1) 0)).2 = some r ∧
        ∀ px < 1020, ∀ py < 572, Sdl.window r.sdl px py =
          painted (px / 4, py / 4) ⟨0, 0, 0⟩ (cubeStrokes (UInt8.ofNat n)) := by
  have hFramed : Framed (Renderer.guiRendererInit sdl) := ⟨rfl, rfl, rfl⟩
  obtain ⟨r, hRun, -, hWindow⟩ := hFramed.passes fuel hSdl n 0
  rw [UInt8.zero_add] at hWindow
  rw [passes_read]
  exact ⟨rfl, r, hRun, hWindow⟩

/-- After the second pass, on an edge of the cube. -/
theorem frames_shown_second :
    ∃ r, (Renderer.guiRendererInit Renderer.darkCanvas).execAll 256
        (Parser.ready.run (sceneFrames (some dispatchBytes) 2 0)).2 = some r ∧
      Sdl.window r.sdl 522 205 = ⟨0, 109, 255⟩ := by
  obtain ⟨-, r, hRun, hWindow⟩ := frames_shown (canvas_draws 1020 572) 0 1 Renderer.darkCanvas
  refine ⟨r, hRun, (hWindow 522 (by decide) 205 (by decide)).trans ?_⟩
  decide +kernel

end Gui

end TinyRtos
