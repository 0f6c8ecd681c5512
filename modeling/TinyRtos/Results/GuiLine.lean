import TinyRtos.Gui.Renderer
import Mathlib.Tactic.Linarith

/-!
# TinyRTOS — what a line looks like

`gui_renderer_draw_line` steps along the digital line between its two ends, for
all coordinates below `2 ^ 29` and in every direction. The coordinates of a
packet are bytes.

* `drawLine_ends` — the loop ends, after one pixel for each point of the line,
  and no integer overflows on the way, whatever SDL does;
* `drawLine_paints` — if SDL fills rectangles, what is painted is the line, as
  far as it is inside the window, and nothing else.
-/

namespace TinyRtos

namespace Gui

namespace Renderer

open DigitalLine

-- ---------------------------------------------------------------------------
-- Conversions
-- ---------------------------------------------------------------------------

theorem toInt_eq {x : UInt32} (h : x.toNat < 2 ^ 31) : toInt x = x.toNat := by
  show x.toBitVec.toInt = _
  rw [BitVec.toInt_eq_toNat_of_lt (show 2 * x.toNat < 2 ^ 32 by omega)]
  rfl

theorem toUInt_natCast (n : Nat) : toUInt n = UInt32.ofNat n := by
  refine UInt32.toNat_inj.mp ?_
  rw [UInt32.toNat_ofNat']
  show ((n : Int) % 2 ^ 32).toNat % 2 ^ 32 = n % 2 ^ 32
  omega

-- ---------------------------------------------------------------------------
-- The points of a line
-- ---------------------------------------------------------------------------

/-- How far it is from `a` to `b`. -/
def extent (a b : Nat) : Nat := if a < b then b - a else a - b

/-- `k` units from `a` towards `b`. -/
def along (a b k : Nat) : Nat := if a < b then a + k else a - k

theorem along_zero (a b : Nat) : along a b 0 = a := by
  unfold along
  split <;> rfl

theorem along_extent (a b : Nat) : along a b (extent a b) = b := by
  unfold along extent
  split <;> omega

/-- One unit more, with the sign that `sx` and `sy` have. -/
theorem along_succ {a b k : Nat} (hk : k + 1 ≤ extent a b) :
    (along a b (k + 1) : Int) = along a b k + if a < b then 1 else -1 := by
  unfold extent at hk
  unfold along
  by_cases hab : a < b
  · simp only [if_pos hab] at hk ⊢
    omega
  · simp only [if_neg hab] at hk ⊢
    omega

/-- Within the extent the units are distinct. -/
theorem along_inj {a b k k' : Nat} (hk : k ≤ extent a b) (hk' : k' ≤ extent a b)
    (h : along a b k = along a b k') : k = k' := by
  unfold along at h
  unfold extent at hk hk'
  by_cases hab : a < b
  · simp only [if_pos hab] at hk hk' h
    omega
  · simp only [if_neg hab] at hk hk' h
    omega

/-- Within the extent one stays between the two ends. -/
theorem along_le {a b k : Nat} (hk : k ≤ extent a b) :
    along a b k ≤ max a b ∧ min a b ≤ along a b k := by
  unfold extent at hk
  unfold along
  by_cases hab : a < b
  · simp only [if_pos hab] at hk ⊢
    omega
  · simp only [if_neg hab] at hk ⊢
    omega

theorem extent_lt {a b m : Nat} (ha : a < m) (hb : b < m) : extent a b < m := by
  unfold extent
  split <;> omega

/-- The pixel that is drawn after `n` steps. -/
def linePoint (x0 y0 x1 y1 n : Nat) : Nat × Nat :=
  let q := point (extent x0 x1) (extent y0 y1) n
  (along x0 x1 q.1, along y0 y1 q.2)

/-- The number of steps. -/
def lineLength (x0 y0 x1 y1 : Nat) : Nat := max (extent x0 x1) (extent y0 y1)

theorem linePoint_zero (x0 y0 x1 y1 : Nat) : linePoint x0 y0 x1 y1 0 = (x0, y0) :=
  Prod.ext (along_zero x0 x1) (along_zero y0 y1)

theorem linePoint_last (x0 y0 x1 y1 : Nat) :
    linePoint x0 y0 x1 y1 (lineLength x0 y0 x1 y1) = (x1, y1) := by
  unfold linePoint lineLength
  rw [point_last]
  exact Prod.ext (along_extent x0 x1) (along_extent y0 y1)

/-- The far end is not reached early. -/
theorem linePoint_ne_last {x0 y0 x1 y1 n : Nat} (hn : n < lineLength x0 y0 x1 y1) :
    linePoint x0 y0 x1 y1 n ≠ (x1, y1) := by
  intro hEq
  obtain ⟨hX, hY⟩ := point_le (Nat.le_of_lt hn)
  have hFirst : along x0 x1 (point (extent x0 x1) (extent y0 y1) n).1 = x1 :=
    congrArg Prod.fst hEq
  have hSecond : along y0 y1 (point (extent x0 x1) (extent y0 y1) n).2 = y1 :=
    congrArg Prod.snd hEq
  refine point_ne_last hn (Prod.ext ?_ ?_)
  · exact along_inj hX (Nat.le_refl _) (hFirst.trans (along_extent x0 x1).symm)
  · exact along_inj hY (Nat.le_refl _) (hSecond.trans (along_extent y0 y1).symm)

-- ---------------------------------------------------------------------------
-- The loop
-- ---------------------------------------------------------------------------

section

variable {x0 y0 x1 y1 : UInt32}

/-- The point the loop is at after `n` steps. -/
def pointAt (x0 y0 x1 y1 : UInt32) (n : Nat) : Nat × Nat :=
  point (extent x0.toNat x1.toNat) (extent y0.toNat y1.toNat) n

def pixelAt (x0 y0 x1 y1 : UInt32) (n : Nat) : Nat × Nat :=
  linePoint x0.toNat y0.toNat x1.toNat y1.toNat n

def steps (x0 y0 x1 y1 : UInt32) : Nat :=
  lineLength x0.toNat y0.toNat x1.toNat y1.toNat

/-- The variables of the loop after `n` steps: `err` is what the two
comparisons are about. -/
def stateAt (x0 y0 x1 y1 : UInt32) (n : Nat) : LineState where
  ix0 := (pixelAt x0 y0 x1 y1 n).1
  iy0 := (pixelAt x0 y0 x1 y1 n).2
  err := ((pointAt x0 y0 x1 y1 n).2 + 1) * (extent x0.toNat x1.toNat) -
    ((pointAt x0 y0 x1 y1 n).1 + 1) * (extent y0.toNat y1.toNat)

/-- The coordinates are small enough for the sums of the loop. -/
structure Small (x0 y0 x1 y1 : UInt32) : Prop where
  x0 : x0.toNat < 2 ^ 29
  y0 : y0.toNat < 2 ^ 29
  x1 : x1.toNat < 2 ^ 29
  y1 : y1.toNat < 2 ^ 29

theorem Small.line (h : Small x0 y0 x1 y1) :
    Line.of x0 y0 x1 y1 =
      { ix1 := x1.toNat
        iy1 := y1.toNat
        dx := extent x0.toNat x1.toNat
        sx := if x0.toNat < x1.toNat then 1 else -1
        dy := -extent y0.toNat y1.toNat
        sy := if y0.toNat < y1.toNat then 1 else -1 } := by
  obtain ⟨hx0, hy0, hx1, hy1⟩ := h
  have hX : (if x0.toNat < x1.toNat then (x1.toNat : Int) - x0.toNat
      else (x0.toNat : Int) - x1.toNat) = extent x0.toNat x1.toNat := by
    unfold extent
    split <;> omega
  have hY : (if y0.toNat < y1.toNat then (y0.toNat : Int) - y1.toNat
      else (y1.toNat : Int) - y0.toNat) = -extent y0.toNat y1.toNat := by
    unfold extent
    split <;> omega
  simp only [Line.of, toInt_eq (show x0.toNat < 2 ^ 31 by omega),
    toInt_eq (show y0.toNat < 2 ^ 31 by omega), toInt_eq (show x1.toNat < 2 ^ 31 by omega),
    toInt_eq (show y1.toNat < 2 ^ 31 by omega), Int.ofNat_lt, hX, hY]

theorem Small.start (h : Small x0 y0 x1 y1) :
    (Line.of x0 y0 x1 y1).start x0 y0 = stateAt x0 y0 x1 y1 0 := by
  have hx0 := h.x0
  have hy0 := h.y0
  simp only [Line.start, stateAt, pixelAt, linePoint_zero, h.line,
    toInt_eq (show x0.toNat < 2 ^ 31 by omega), toInt_eq (show y0.toNat < 2 ^ 31 by omega)]
  simp only [pointAt, point]
  refine congrArg _ ?_
  omega

/-- `e2 >= dy` is the comparison of the digital line that steps along `x`. -/
theorem compare_dy (X Y i j : Nat) :
    -(Y : Int) ≤ ((j + 1) * X - (i + 1) * Y) * 2 ↔ (2 * i + 1) * Y ≤ 2 * (j + 1) * X := by
  rw [← Int.ofNat_le]
  push_cast
  constructor <;> intro h <;> linarith

/-- `e2 <= dx` is the one that steps along `y`. -/
theorem compare_dx (X Y i j : Nat) :
    (((j + 1) * X - (i + 1) * Y) * 2 : Int) ≤ X ↔ (2 * j + 1) * X ≤ 2 * (i + 1) * Y := by
  rw [← Int.ofNat_le]
  push_cast
  constructor <;> intro h <;> linarith

/-- A step of the loop is a step along the digital line. -/
theorem Small.next (h : Small x0 y0 x1 y1) {n : Nat} (hn : n < steps x0 y0 x1 y1) :
    (Line.of x0 y0 x1 y1).next (stateAt x0 y0 x1 y1 n) = stateAt x0 y0 x1 y1 (n + 1) := by
  obtain ⟨hX, hY⟩ := point_le (X := extent x0.toNat x1.toNat) (Y := extent y0.toNat y1.toNat)
    (show n + 1 ≤ _ from hn)
  rw [point] at hX hY
  simp only [stateAt, pixelAt, linePoint, pointAt, point, h.line, Line.next]
  generalize point (extent x0.toNat x1.toNat) (extent y0.toNat y1.toNat) n = q at hX hY ⊢
  obtain ⟨i, j⟩ := q
  simp only [DigitalLine.next, compare_dy, compare_dx] at hX hY ⊢
  by_cases hRight : (2 * i + 1) * extent y0.toNat y1.toNat ≤ 2 * (j + 1) * extent x0.toNat x1.toNat
  · by_cases hDown :
        (2 * j + 1) * extent x0.toNat x1.toNat ≤ 2 * (i + 1) * extent y0.toNat y1.toNat
    · simp only [if_pos hRight, if_pos hDown] at hX hY ⊢
      rw [along_succ hX, along_succ hY]
      refine congrArg _ ?_
      push_cast
      ring
    · simp only [if_pos hRight, if_neg hDown] at hX hY ⊢
      rw [along_succ hX]
      refine congrArg _ ?_
      push_cast
      ring
  · by_cases hDown :
        (2 * j + 1) * extent x0.toNat x1.toNat ≤ 2 * (i + 1) * extent y0.toNat y1.toNat
    · simp only [if_neg hRight, if_pos hDown] at hX hY ⊢
      rw [along_succ hY]
      refine congrArg _ ?_
      push_cast
      ring
    · simp only [if_neg hRight, if_neg hDown]

/-- `err` stays between the two extents. -/
theorem err_bounds (x0 y0 x1 y1 : UInt32) (n : Nat) :
    -(3 * steps x0 y0 x1 y1 : Int) ≤ (stateAt x0 y0 x1 y1 n).err * 2 ∧
      (stateAt x0 y0 x1 y1 n).err * 2 ≤ 3 * steps x0 y0 x1 y1 := by
  simp only [stateAt, pointAt, steps, lineLength]
  generalize extent x0.toNat x1.toNat = X
  generalize extent y0.toNat y1.toNat = Y
  rcases Nat.le_total Y X with hFlat | hSteep
  · obtain ⟨hColumn, hAbove, hBelow⟩ := point_near hFlat n
    rw [hColumn, Nat.max_eq_left hFlat]
    zify at hAbove hBelow hFlat
    constructor <;> linarith
  · obtain ⟨hColumn, hAbove, hBelow⟩ := point_near hSteep n
    rw [point_swap Y X, Nat.max_eq_right hSteep]
    simp only [Prod.fst_swap, Prod.snd_swap, hColumn]
    zify at hAbove hBelow hSteep
    constructor <;> linarith

theorem Small.steps_lt (h : Small x0 y0 x1 y1) : steps x0 y0 x1 y1 < 2 ^ 29 :=
  Nat.max_lt.mpr ⟨extent_lt h.x0 h.x1, extent_lt h.y0 h.y1⟩

/-- No pixel is beyond the larger of the two ends. -/
theorem pixelAt_le {n : Nat} (hn : n ≤ steps x0 y0 x1 y1) :
    (pixelAt x0 y0 x1 y1 n).1 ≤ max x0.toNat x1.toNat ∧
      (pixelAt x0 y0 x1 y1 n).2 ≤ max y0.toNat y1.toNat :=
  ⟨(along_le (point_le hn).1).1, (along_le (point_le hn).2).1⟩

theorem Small.pixelAt_lt (h : Small x0 y0 x1 y1) {n : Nat} (hn : n ≤ steps x0 y0 x1 y1) :
    (pixelAt x0 y0 x1 y1 n).1 < 2 ^ 29 ∧ (pixelAt x0 y0 x1 y1 n).2 < 2 ^ 29 :=
  ⟨lt_of_le_of_lt (pixelAt_le hn).1 (Nat.max_lt.mpr ⟨h.x0, h.x1⟩),
    lt_of_le_of_lt (pixelAt_le hn).2 (Nat.max_lt.mpr ⟨h.y0, h.y1⟩)⟩

/-- Between its additions `err` is lower by `dy`, which is no more than the steps. -/
theorem Small.inRange (h : Small x0 y0 x1 y1) {n : Nat} (hn : n ≤ steps x0 y0 x1 y1) :
    (stateAt x0 y0 x1 y1 n).InRange (Line.of x0 y0 x1 y1) := by
  have hErr := err_bounds x0 y0 x1 y1 n
  have hSteps := h.steps_lt
  obtain ⟨hX, hY⟩ := h.pixelAt_lt hn
  have hDx : extent x0.toNat x1.toNat ≤ steps x0 y0 x1 y1 := le_max_left ..
  have hDy : extent y0.toNat y1.toNat ≤ steps x0 y0 x1 y1 := le_max_right ..
  rw [h.line]
  refine ⟨⟨by omega, by omega⟩, ?_, ?_, ?_, ?_, ?_⟩
  · show Fits (pixelAt x0 y0 x1 y1 n).1
    exact ⟨by omega, by omega⟩
  · show Fits (pixelAt x0 y0 x1 y1 n).2
    exact ⟨by omega, by omega⟩
  · show Fits (extent x0.toNat x1.toNat)
    exact ⟨by omega, by omega⟩
  · show Fits (-extent y0.toNat y1.toNat)
    exact ⟨by omega, by omega⟩
  · show Fits ((stateAt x0 y0 x1 y1 n).err + -extent y0.toNat y1.toNat)
    exact ⟨by omega, by omega⟩

variable {σ : Type} [Sdl σ]

/-- Draw the pixels one after the other. -/
def drawPixels (color : UInt8) (pixels : List (Nat × Nat)) (r : Renderer σ) : Renderer σ :=
  pixels.foldl
    (fun r q => r.guiRendererDrawPixel (UInt32.ofNat q.1) (UInt32.ofNat q.2) color) r

/-- The loop breaks at the last point. -/
theorem Small.atEnd_iff (h : Small x0 y0 x1 y1) {n : Nat} (hn : n ≤ steps x0 y0 x1 y1) :
    ((stateAt x0 y0 x1 y1 n).ix0 = (Line.of x0 y0 x1 y1).ix1 ∧
      (stateAt x0 y0 x1 y1 n).iy0 = (Line.of x0 y0 x1 y1).iy1) ↔ n = steps x0 y0 x1 y1 := by
  simp only [h.line, stateAt, Int.natCast_inj]
  constructor
  · rintro ⟨hX, hY⟩
    by_contra hNe
    exact linePoint_ne_last (lt_of_le_of_ne hn hNe) (Prod.ext hX hY)
  · rintro rfl
    have hLast := linePoint_last x0.toNat y0.toNat x1.toNat y1.toNat
    exact ⟨congrArg Prod.fst hLast, congrArg Prod.snd hLast⟩

/-- With `k` steps to go the loop draws the remaining `k + 1` pixels. -/
theorem Small.loop (h : Small x0 y0 x1 y1) (color : UInt8) (k : Nat) :
    ∀ {n fuel : Nat} (r : Renderer σ), n + k = steps x0 y0 x1 y1 → k < fuel →
      drawLineLoop (Line.of x0 y0 x1 y1) color fuel (stateAt x0 y0 x1 y1 n) r =
        some (drawPixels color ((List.range' n (k + 1)).map (pixelAt x0 y0 x1 y1)) r) := by
  induction k with
  | zero =>
    intro n fuel r hn hFuel
    obtain ⟨fuel, rfl⟩ := Nat.exists_eq_add_of_le' hFuel
    rw [drawLineLoop, if_pos ((h.atEnd_iff (n := n) (by omega)).mpr hn)]
    simp only [stateAt, toUInt_natCast]
    rfl
  | succ k ih =>
    intro n fuel r hn hFuel
    obtain ⟨fuel, rfl⟩ := Nat.exists_eq_add_of_le' (show 1 ≤ fuel by omega)
    rw [drawLineLoop, if_neg (fun hEnd => by
      have := (h.atEnd_iff (by omega)).mp hEnd
      omega), h.next (by omega), ih _ (by omega) (by omega)]
    simp only [stateAt, toUInt_natCast]
    rfl

/-- The pixels of a line, from one end to the other. -/
def linePixels (x0 y0 x1 y1 : UInt32) : List (Nat × Nat) :=
  (List.range (steps x0 y0 x1 y1 + 1)).map (pixelAt x0 y0 x1 y1)

/-- The whole line is drawn, whatever fuel is left. -/
theorem Small.drawLine (h : Small x0 y0 x1 y1) (color : UInt8) (r : Renderer σ) {fuel : Nat}
    (hFuel : steps x0 y0 x1 y1 < fuel) :
    r.guiRendererDrawLine fuel x0 y0 x1 y1 color =
      some (drawPixels color (linePixels x0 y0 x1 y1) r) := by
  simp only [guiRendererDrawLine, h.start]
  rw [h.loop color _ r (Nat.zero_add _) hFuel, linePixels, List.range_eq_range']

/-- How far a pixel is from the line through the two ends, times the distance
of these: the area that the three points span. -/
def offLine (x0 y0 x1 y1 : UInt32) (q : Nat × Nat) : Int :=
  |((q.2 : Int) - y0.toNat) * ((x1.toNat : Int) - x0.toNat) -
    ((q.1 : Int) - x0.toNat) * ((y1.toNat : Int) - y0.toNat)|

theorem along_sub {a b k : Nat} (hk : k ≤ extent a b) :
    ((along a b k : Int) - a) = (if a < b then 1 else -1) * k := by
  unfold extent at hk
  unfold along
  by_cases hab : a < b
  · simp only [if_pos hab] at hk ⊢
    omega
  · simp only [if_neg hab] at hk ⊢
    omega

/-- The directions of a line do not matter to the area. -/
theorem abs_sub_of_signs {a b c d σ τ : Int} (hσ : σ = 1 ∨ σ = -1) (hτ : τ = 1 ∨ τ = -1) :
    |τ * a * (σ * b) - σ * c * (τ * d)| = |a * b - c * d| := by
  have hFactor : τ * a * (σ * b) - σ * c * (τ * d) = σ * (τ * (a * b - c * d)) := by ring
  rw [hFactor, abs_mul, abs_mul]
  rcases hσ with rfl | rfl <;> rcases hτ with rfl | rfl <;> simp

/-- A step of at most one unit moves by at most one. -/
theorem along_adjacent {a b k k' : Nat} (hk' : k' ≤ extent a b) (h : k' = k ∨ k' = k + 1) :
    extent (along a b k) (along a b k') ≤ 1 := by
  unfold extent at hk'
  unfold along
  by_cases hab : a < b
  · simp only [if_pos hab] at hk' ⊢
    unfold extent
    split <;> omega
  · simp only [if_neg hab] at hk' ⊢
    unfold extent
    split <;> omega

/-- The distance of the digital line, in every direction. -/
theorem offLine_pixelAt (x0 y0 x1 y1 : UInt32) {n : Nat} (hn : n ≤ steps x0 y0 x1 y1) :
    2 * offLine x0 y0 x1 y1 (pixelAt x0 y0 x1 y1 n) ≤ steps x0 y0 x1 y1 := by
  obtain ⟨hX, hY⟩ := point_le hn
  have hDist := point_dist (extent x0.toNat x1.toNat) (extent y0.toNat y1.toNat) n
  have hX1 := along_sub (Nat.le_refl (extent x0.toNat x1.toNat))
  have hY1 := along_sub (Nat.le_refl (extent y0.toNat y1.toNat))
  rw [along_extent] at hX1 hY1
  simp only [offLine, pixelAt, linePoint, along_sub hX, along_sub hY, hX1, hY1]
  refine le_trans (le_of_eq ?_) hDist
  have hSign : ∀ a b : Nat, (if a < b then 1 else -1 : Int) = 1 ∨
      (if a < b then 1 else -1 : Int) = -1 := fun a b => by
    split
    · exact Or.inl rfl
    · exact Or.inr rfl
  rw [abs_sub_of_signs (hSign x0.toNat x1.toNat) (hSign y0.toNat y1.toNat)]

/-- Two pixels in a row. -/
theorem pixelAt_adjacent {n : Nat} (hn : n < steps x0 y0 x1 y1) :
    pixelAt x0 y0 x1 y1 n ≠ pixelAt x0 y0 x1 y1 (n + 1) ∧
      extent (pixelAt x0 y0 x1 y1 n).1 (pixelAt x0 y0 x1 y1 (n + 1)).1 ≤ 1 ∧
      extent (pixelAt x0 y0 x1 y1 n).2 (pixelAt x0 y0 x1 y1 (n + 1)).2 ≤ 1 := by
  obtain ⟨hX, hY⟩ := point_le (Nat.le_of_lt hn)
  obtain ⟨hX', hY'⟩ := point_le (X := extent x0.toNat x1.toNat) (Y := extent y0.toNat y1.toNat)
    (show n + 1 ≤ _ from hn)
  obtain ⟨hFirst, hSecond, hNe⟩ := point_adjacent (extent x0.toNat x1.toNat)
    (extent y0.toNat y1.toNat) n
  refine ⟨fun hEq => hNe (Prod.ext ?_ ?_), along_adjacent hX' hFirst, along_adjacent hY' hSecond⟩
  · exact (along_inj hX hX' (congrArg Prod.fst hEq)).symm
  · exact (along_inj hY hY' (congrArg Prod.snd hEq)).symm

/-- **The loop ends.** From `(x0, y0)` to `(x1, y1)` one pixel is drawn for each
unit of the longer side, the next one always a neighbour of the one before, none
more than half a unit away from the line, and every integer of the loop is in
the range of its type. -/
theorem drawLine_ends (x0 y0 x1 y1 : UInt32) (color : UInt8) (r : Renderer σ)
    (h : Small x0 y0 x1 y1) :
    (∀ fuel, steps x0 y0 x1 y1 < fuel → r.guiRendererDrawLine fuel x0 y0 x1 y1 color =
      some (drawPixels color (linePixels x0 y0 x1 y1) r)) ∧
    (∀ n, n ≤ steps x0 y0 x1 y1 →
      ((Line.of x0 y0 x1 y1).next^[n] ((Line.of x0 y0 x1 y1).start x0 y0)).InRange
        (Line.of x0 y0 x1 y1)) ∧
    (linePixels x0 y0 x1 y1).head? = some (x0.toNat, y0.toNat) ∧
    (linePixels x0 y0 x1 y1).getLast? = some (x1.toNat, y1.toNat) ∧
    (linePixels x0 y0 x1 y1).IsChain (fun q q' =>
      q ≠ q' ∧ extent q.1 q'.1 ≤ 1 ∧ extent q.2 q'.2 ≤ 1) ∧
    ∀ q ∈ linePixels x0 y0 x1 y1, 2 * offLine x0 y0 x1 y1 q ≤ steps x0 y0 x1 y1 := by
  refine ⟨fun fuel hFuel => h.drawLine color r hFuel, fun n hn => ?_, ?_, ?_, ?_, ?_⟩
  · have hState : (Line.of x0 y0 x1 y1).next^[n] ((Line.of x0 y0 x1 y1).start x0 y0) =
        stateAt x0 y0 x1 y1 n := by
      induction n with
      | zero => exact h.start
      | succ n ih => rw [Function.iterate_succ_apply', ih (by omega), h.next hn]
    rw [hState]
    exact h.inRange hn
  · simp [linePixels, List.head?_range, pixelAt, linePoint_zero]
  · simp [linePixels, List.getLast?_range, pixelAt, steps, linePoint_last]
  · rw [List.isChain_iff_getElem]
    intro i hi
    rw [linePixels, List.length_map, List.length_range] at hi
    simp only [linePixels, List.getElem_map, List.getElem_range]
    exact pixelAt_adjacent (by omega)
  · intro q hq
    obtain ⟨n, hn, rfl⟩ := List.mem_map.mp hq
    exact offLine_pixelAt x0 y0 x1 y1 (Nat.lt_succ_iff.mp (List.mem_range.mp hn))

/-- All black. -/
def darkCanvas : Canvas := ⟨⟨0, 0, 0⟩, fun _ _ => ⟨0, 0, 0⟩, fun _ _ => ⟨0, 0, 0⟩⟩

theorem drawLine_ends_shallow :
    (linePixels 0 0 5 2).getLast? = some (5, 2) ∧
      linePixels 0 0 5 2 = [(0, 0), (1, 0), (2, 1), (3, 1), (4, 2), (5, 2)] :=
  ⟨(drawLine_ends 0 0 5 2 0xFF (guiRendererInit darkCanvas)
    ⟨by decide, by decide, by decide, by decide⟩).2.2.2.1, by decide⟩

end

-- ---------------------------------------------------------------------------
-- Painting
-- ---------------------------------------------------------------------------

section

variable {σ : Type} {W H : Nat}

/-- The window pixel is part of the GUI pixel, and this one is inside. -/
def Covers (r : Renderer σ) (q : Nat × Nat) (px py : Nat) : Prop :=
  q.1 < r.width.toNat ∧ q.2 < r.height.toNat ∧ px / r.scale.toNat = q.1 ∧ py / r.scale.toNat = q.2

instance (r : Renderer σ) (q : Nat × Nat) (px py : Nat) : Decidable (r.Covers q px py) :=
  inferInstanceAs (Decidable (_ ∧ _ ∧ _ ∧ _))

/-- The two differ in what SDL does for them only. -/
structure SameFrame (r r' : Renderer σ) : Prop where
  width  : r'.width = r.width
  height : r'.height = r.height
  scale  : r'.scale = r.scale

theorem SameFrame.refl (r : Renderer σ) : SameFrame r r := ⟨rfl, rfl, rfl⟩

theorem SameFrame.trans {r r' r'' : Renderer σ} (h : SameFrame r r') (h' : SameFrame r' r'') :
    SameFrame r r'' :=
  ⟨h'.width.trans h.width, h'.height.trans h.height, h'.scale.trans h.scale⟩

theorem SameFrame.covers {r r' : Renderer σ} (h : SameFrame r r') (q : Nat × Nat) (px py : Nat) :
    r'.Covers q px py ↔ r.Covers q px py := by
  unfold Covers
  rw [h.width, h.height, h.scale]

/-- One side of a GUI pixel. -/
theorem side_iff {x extent scale : UInt32} (hPos : 0 < scale.toNat)
    (hFits : extent.toNat * scale.toNat < 2 ^ 31) (hIn : x < extent) (p : Nat) :
    (toInt (x * scale) ≤ p ∧ (p : Int) < toInt (x * scale) + toInt scale) ↔
      p / scale.toNat = x.toNat := by
  have hLt : x.toNat + 1 ≤ extent.toNat := hIn
  have hEnd : (x.toNat + 1) * scale.toNat ≤ extent.toNat * scale.toNat :=
    Nat.mul_le_mul_right _ hLt
  have hExpand : (x.toNat + 1) * scale.toNat = x.toNat * scale.toNat + scale.toNat := by ring
  have hMul : (x * scale).toNat = x.toNat * scale.toNat := by
    rw [UInt32.toNat_mul]
    exact Nat.mod_eq_of_lt (by omega)
  rw [toInt_eq (by omega), toInt_eq (by omega), hMul, Nat.div_eq_iff hPos]
  omega

variable [Sdl σ]

theorem drawPixel_sameFrame (x y : UInt32) (color : UInt8) (r : Renderer σ) :
    SameFrame r (r.guiRendererDrawPixel x y color) := by
  unfold guiRendererDrawPixel
  split <;> exact ⟨rfl, rfl, rfl⟩

theorem drawPixels_sameFrame (color : UInt8) (pixels : List (Nat × Nat)) (r : Renderer σ) :
    SameFrame r (drawPixels color pixels r) := by
  induction pixels generalizing r with
  | nil => exact .refl r
  | cons q rest ih => exact (drawPixel_sameFrame _ _ color r).trans (ih _)

/-- The window shows what it showed. -/
theorem drawPixel_window (hSdl : Sdl.Draws σ W H) (x y : UInt32) (color : UInt8) (r : Renderer σ)
    {px py : Nat} (hpx : px < W) (hpy : py < H) :
    Sdl.window (r.guiRendererDrawPixel x y color).sdl px py = Sdl.window r.sdl px py := by
  unfold guiRendererDrawPixel
  split
  · rfl
  · exact (hSdl.fill_window _ _ _ _ _ px hpx py hpy).trans
      (hSdl.color_window _ _ _ _ _ px hpx py hpy)

theorem drawPixels_window (hSdl : Sdl.Draws σ W H) (color : UInt8) (pixels : List (Nat × Nat))
    (r : Renderer σ) {px py : Nat} (hpx : px < W) (hpy : py < H) :
    Sdl.window (drawPixels color pixels r).sdl px py = Sdl.window r.sdl px py := by
  induction pixels generalizing r with
  | nil => rfl
  | cons q rest ih => exact (ih _).trans (drawPixel_window hSdl _ _ color r hpx hpy)

/-- A GUI pixel is painted, unless it is outside. -/
theorem drawPixel_target (hSdl : Sdl.Draws σ W H) {q : Nat × Nat} (hX : q.1 < 2 ^ 32)
    (hY : q.2 < 2 ^ 32) (color : UInt8) (r : Renderer σ) {px py : Nat} (hpx : px < W)
    (hpy : py < H) :
    Sdl.target (r.guiRendererDrawPixel (UInt32.ofNat q.1) (UInt32.ofNat q.2) color).sdl px py =
      if r.Covers q px py then rgb332Decode color else Sdl.target r.sdl px py := by
  have hX' : (UInt32.ofNat q.1).toNat = q.1 := UInt32.toNat_ofNat_of_lt' hX
  have hY' : (UInt32.ofNat q.2).toNat = q.2 := UInt32.toNat_ofNat_of_lt' hY
  unfold guiRendererDrawPixel
  by_cases hOut : r.width ≤ UInt32.ofNat q.1 ∨ r.height ≤ UInt32.ofNat q.2
  · rw [if_pos hOut, if_neg]
    rintro ⟨hInX, hInY, -, -⟩
    rw [UInt32.le_iff_toNat_le, UInt32.le_iff_toNat_le, hX', hY'] at hOut
    omega
  · rw [if_neg hOut]
    obtain ⟨hInX, hInY⟩ := not_or.mp hOut
    have hLtX := UInt32.not_le.mp hInX
    have hLtY := UInt32.not_le.mp hInY
    have hSideX := side_iff r.scale_pos r.width_fits hLtX px
    have hSideY := side_iff r.scale_pos r.height_fits hLtY py
    rw [hX'] at hSideX
    rw [hY'] at hSideY
    have hInside : q.1 < r.width.toNat ∧ q.2 < r.height.toNat := by
      rw [UInt32.lt_iff_toNat_lt, hX'] at hLtX
      rw [UInt32.lt_iff_toNat_lt, hY'] at hLtY
      exact ⟨hLtX, hLtY⟩
    simp only [hSdl.fill_target _ _ _ _ _ px hpx py hpy, hSdl.color,
      hSdl.color_target _ _ _ _ _ px hpx py hpy, hSideX, hSideY]
    refine if_congr ?_ rfl rfl
    unfold Covers
    tauto

/-- What so many pixels of one colour leave behind. -/
theorem drawPixels_target (hSdl : Sdl.Draws σ W H) (color : UInt8) (pixels : List (Nat × Nat))
    (hPixels : ∀ q ∈ pixels, q.1 < 2 ^ 32 ∧ q.2 < 2 ^ 32) (r : Renderer σ) {px py : Nat}
    (hpx : px < W) (hpy : py < H) :
    Sdl.target (drawPixels color pixels r).sdl px py =
      if ∃ q ∈ pixels, r.Covers q px py then rgb332Decode color else Sdl.target r.sdl px py := by
  induction pixels generalizing r with
  | nil => simp [drawPixels]
  | cons q rest ih =>
    obtain ⟨hX, hY⟩ := hPixels q (List.mem_cons_self ..)
    have hRest := ih (fun q hq => hPixels q (List.mem_cons_of_mem _ hq))
      (r.guiRendererDrawPixel (UInt32.ofNat q.1) (UInt32.ofNat q.2) color)
    simp only [(drawPixel_sameFrame _ _ color r).covers, drawPixel_target hSdl hX hY color r hpx hpy]
      at hRest
    refine hRest.trans ?_
    by_cases hHead : r.Covers q px py
    · rw [if_pos hHead, ite_self, if_pos ⟨q, List.mem_cons_self .., hHead⟩]
    · rw [if_neg hHead]
      refine if_congr ?_ rfl rfl
      rw [List.exists_mem_cons_iff, or_iff_right hHead]

/-- What a line leaves behind. -/
theorem Small.linePixels_target (hSdl : Sdl.Draws σ W H) {x0 y0 x1 y1 : UInt32}
    (h : Small x0 y0 x1 y1) (color : UInt8) (r : Renderer σ) {px py : Nat} (hpx : px < W)
    (hpy : py < H) :
    Sdl.target (drawPixels color (linePixels x0 y0 x1 y1) r).sdl px py =
      if px / r.scale.toNat < r.width.toNat ∧ py / r.scale.toNat < r.height.toNat ∧
          (px / r.scale.toNat, py / r.scale.toNat) ∈ linePixels x0 y0 x1 y1 then
        rgb332Decode color
      else Sdl.target r.sdl px py := by
  rw [drawPixels_target hSdl _ _ _ _ hpx hpy]
  · refine if_congr ?_ rfl rfl
    constructor
    · rintro ⟨q, hq, hX, hY, hqx, hqy⟩
      rw [hqx, hqy]
      exact ⟨hX, hY, hq⟩
    · rintro ⟨hX, hY, hq⟩
      exact ⟨_, hq, hX, hY, rfl, rfl⟩
  · intro q hq
    obtain ⟨n, hn, rfl⟩ := List.mem_map.mp hq
    have hLt := h.pixelAt_lt (Nat.lt_succ_iff.mp (List.mem_range.mp hn))
    omega

/-- **A line is painted and nothing else.** A pixel of the target gets the colour
if the GUI pixel that it belongs to is one of the line and inside; every other
keeps its own, and the window shows what it showed. -/
theorem drawLine_paints (hSdl : Sdl.Draws σ W H) (x0 y0 x1 y1 : UInt32) (color : UInt8)
    (r : Renderer σ) (h : Small x0 y0 x1 y1) :
    ∃ r', (∀ fuel, steps x0 y0 x1 y1 < fuel →
        r.guiRendererDrawLine fuel x0 y0 x1 y1 color = some r') ∧ SameFrame r r' ∧
      ∀ px < W, ∀ py < H,
        Sdl.window r'.sdl px py = Sdl.window r.sdl px py ∧
        Sdl.target r'.sdl px py =
          if px / r.scale.toNat < r.width.toNat ∧ py / r.scale.toNat < r.height.toNat ∧
              (px / r.scale.toNat, py / r.scale.toNat) ∈ linePixels x0 y0 x1 y1 then
            rgb332Decode color
          else Sdl.target r.sdl px py :=
  ⟨_, fun _ hFuel => h.drawLine color r hFuel, drawPixels_sameFrame .., fun _ hpx _ hpy =>
    ⟨drawPixels_window hSdl color _ r hpx hpy, h.linePixels_target hSdl color r hpx hpy⟩⟩

end

theorem drawLine_paints_shallow :
    ∃ r', (guiRendererInit darkCanvas).guiRendererDrawLine 6 0 0 5 2 0xFF = some r' ∧
      Sdl.target r'.sdl 11 7 = ⟨255, 255, 255⟩ ∧ Sdl.window r'.sdl 11 7 = ⟨0, 0, 0⟩ := by
  obtain ⟨r', hDraw, -, hPixels⟩ := drawLine_paints (canvas_draws 1020 572) 0 0 5 2 0xFF
    (guiRendererInit darkCanvas) ⟨by decide, by decide, by decide, by decide⟩
  obtain ⟨hWindow, hTarget⟩ := hPixels 11 (by decide) 7 (by decide)
  exact ⟨r', hDraw 6 (by decide), hTarget.trans (by decide), hWindow⟩

end Renderer

end Gui

end TinyRtos
