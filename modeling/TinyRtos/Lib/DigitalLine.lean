import Mathlib.Algebra.Order.Ring.Abs
import Mathlib.Algebra.Order.Ring.Int
import Mathlib.Algebra.Order.Ring.Nat
import Mathlib.Data.Prod.Basic
import Mathlib.Tactic.Linarith
import Mathlib.Tactic.Ring
import Mathlib.Tactic.Zify

/-!
# Digital lines

The line from the origin to `(X, Y)` in the quarter plane, drawn by a stepper
that goes one unit along an axis, or along both at once, and decides which by a
comparison of integers. `point X Y n` is where it is after `n` steps.

* `point_swap` — the two axes are treated alike;
* `point_near` — along the longer axis it makes a step each time;
* `point_dist` — it stays within half a unit of the true line;
* `point_last`, `point_ne_last` — it arrives at `(X, Y)`, after `max X Y` steps
  and not before;
* `point_adjacent` — two points in a row are neighbours.
-/

namespace DigitalLine

def next (X Y : Nat) (q : Nat × Nat) : Nat × Nat :=
  (if (2 * q.1 + 1) * Y ≤ 2 * (q.2 + 1) * X then q.1 + 1 else q.1,
    if (2 * q.2 + 1) * X ≤ 2 * (q.1 + 1) * Y then q.2 + 1 else q.2)

def point (X Y : Nat) : Nat → Nat × Nat
  | 0 => (0, 0)
  | n + 1 => next X Y (point X Y n)

theorem next_swap (X Y : Nat) (q : Nat × Nat) : next Y X q.swap = (next X Y q).swap := rfl

theorem point_swap (X Y n : Nat) : point Y X n = (point X Y n).swap := by
  induction n with
  | zero => rfl
  | succ n ih => rw [point, point, ih, next_swap]

/-- Column `n` of a flat line: the distance to the true line, times `2 * X`, is
`X` at most. -/
structure Near (X Y n : Nat) (q : Nat × Nat) : Prop where
  column : q.1 = n
  above  : 2 * (q.2 * X) ≤ 2 * (n * Y) + X
  below  : 2 * (n * Y) ≤ 2 * (q.2 * X) + X

variable {X Y n : Nat}

theorem near_next {q : Nat × Nat} (hFlat : Y ≤ X) (h : Near X Y n q) :
    Near X Y (n + 1) (next X Y q) := by
  obtain ⟨i, j⟩ := q
  obtain ⟨rfl, hAbove, hBelow⟩ := h
  -- what the comparisons are about, without the products
  have hColumn : (2 * i + 1) * Y = 2 * (i * Y) + Y := by ring
  have hRow : (2 * j + 1) * X = 2 * (j * X) + X := by ring
  have hColumn' : 2 * (i + 1) * Y = 2 * (i * Y) + 2 * Y := by ring
  have hRow' : 2 * (j + 1) * X = 2 * (j * X) + 2 * X := by ring
  have hX : (j + 1) * X = j * X + X := by ring
  have hY : (i + 1) * Y = i * Y + Y := by ring
  have hNext : next X Y (i, j) =
      (i + 1, if 2 * (j * X) + X ≤ 2 * (i * Y) + 2 * Y then j + 1 else j) := by
    simp only [next, hColumn, hRow, hColumn', hRow'] at hAbove hBelow ⊢
    rw [if_pos (by omega)]
  rw [hNext]
  simp only at hAbove hBelow
  split
  · refine ⟨rfl, ?_, ?_⟩
    · simp only [hX, hY]
      omega
    · simp only [hX, hY]
      omega
  · refine ⟨rfl, ?_, ?_⟩
    · simp only [hY]
      omega
    · simp only [hY]
      omega

/-- **Near the line.** A flat line has one point in each column. -/
theorem point_near (hFlat : Y ≤ X) (n : Nat) : Near X Y n (point X Y n) := by
  induction n with
  | zero => exact ⟨rfl, by simp [point], by simp [point]⟩
  | succ n ih => exact near_next hFlat ih

/-- **Half a unit.** No point is further from the true line than that. -/
theorem point_dist (X Y n : Nat) :
    2 * |((point X Y n).2 * X - (point X Y n).1 * Y : Int)| ≤ max X Y := by
  have hScale : ∀ a b : Int, 2 * |a| ≤ b ↔ -b ≤ 2 * a ∧ 2 * a ≤ b := fun a b => by
    rw [show 2 * |a| = |2 * a| by rw [abs_mul, abs_two], abs_le]
  rw [hScale]
  rcases Nat.le_total Y X with hFlat | hSteep
  · obtain ⟨hColumn, hAbove, hBelow⟩ := point_near hFlat n
    rw [hColumn, Nat.max_eq_left hFlat]
    zify at hAbove hBelow
    constructor <;> linarith
  · obtain ⟨hColumn, hAbove, hBelow⟩ := point_near hSteep n
    rw [point_swap Y X, Nat.max_eq_right hSteep]
    simp only [Prod.fst_swap, Prod.snd_swap, hColumn]
    zify at hAbove hBelow
    constructor <;> linarith

/-- Up to the last column it does not leave the box. -/
theorem Near.le {q : Nat × Nat} (h : Near X Y n q) (hn : n ≤ X) (hPos : 0 < X) : q.2 ≤ Y := by
  have hMul : n * Y ≤ X * Y := Nat.mul_le_mul_right Y hn
  have hAbove := h.above
  by_contra hGt
  have hMul' : (Y + 1) * X ≤ q.2 * X := Nat.mul_le_mul_right X (by omega)
  have hExpand : (Y + 1) * X = X * Y + X := by ring
  omega

theorem near_last {q : Nat × Nat} (h : Near X Y X q) (hPos : 0 < X) : q = (X, Y) := by
  have hLe := h.le (Nat.le_refl X) hPos
  refine Prod.ext h.column (Nat.le_antisymm hLe ?_)
  have hBelow := h.below
  by_contra hLt
  have hMul : (q.2 + 1) * X ≤ Y * X := Nat.mul_le_mul_right X (by omega)
  have hExpand : (q.2 + 1) * X = q.2 * X + X := by ring
  have hComm : Y * X = X * Y := Nat.mul_comm Y X
  omega

theorem point_last_of_le (hFlat : Y ≤ X) : point X Y X = (X, Y) := by
  rcases Nat.eq_zero_or_pos X with rfl | hPos
  · obtain rfl : Y = 0 := Nat.le_zero.mp hFlat
    rfl
  · exact near_last (point_near hFlat X) hPos

/-- **It arrives.** -/
theorem point_last (X Y : Nat) : point X Y (max X Y) = (X, Y) := by
  rcases Nat.le_total Y X with hFlat | hSteep
  · rw [Nat.max_eq_left hFlat]
    exact point_last_of_le hFlat
  · rw [Nat.max_eq_right hSteep, point_swap, point_last_of_le hSteep]
    rfl

/-- Where it is along the longer axis. -/
theorem point_major (X Y n : Nat) :
    (Y ≤ X → (point X Y n).1 = n) ∧ (X ≤ Y → (point X Y n).2 = n) := by
  refine ⟨fun hFlat => (point_near hFlat n).column, fun hSteep => ?_⟩
  rw [point_swap]
  exact (point_near hSteep n).column

/-- **It does not arrive before.** -/
theorem point_ne_last (hn : n < max X Y) : point X Y n ≠ (X, Y) := by
  intro hEq
  obtain ⟨hFlat, hSteep⟩ := point_major X Y n
  rw [hEq] at hFlat hSteep
  rcases Nat.le_total Y X with h | h
  · have hColumn := hFlat h
    rw [Nat.max_eq_left h] at hn
    simp only at hColumn
    omega
  · have hRow := hSteep h
    rw [Nat.max_eq_right h] at hn
    simp only at hRow
    omega

/-- It stays in the box. -/
theorem point_le (hn : n ≤ max X Y) : (point X Y n).1 ≤ X ∧ (point X Y n).2 ≤ Y := by
  rcases Nat.eq_zero_or_pos (max X Y) with hZero | hPos
  · obtain rfl : n = 0 := by omega
    exact ⟨Nat.zero_le _, Nat.zero_le _⟩
  · rcases Nat.le_total Y X with h | h
    · rw [Nat.max_eq_left h] at hn hPos
      have hNear := point_near h n
      exact ⟨hNear.column.trans_le hn, hNear.le hn hPos⟩
    · rw [Nat.max_eq_right h] at hn hPos
      have hNear := point_near h n
      rw [point_swap]
      exact ⟨hNear.le hn hPos, hNear.column.trans_le hn⟩

/-- **Neighbours.** A step goes one unit along an axis or along both. -/
theorem point_adjacent (X Y n : Nat) :
    ((point X Y (n + 1)).1 = (point X Y n).1 ∨ (point X Y (n + 1)).1 = (point X Y n).1 + 1) ∧
      ((point X Y (n + 1)).2 = (point X Y n).2 ∨ (point X Y (n + 1)).2 = (point X Y n).2 + 1) ∧
      point X Y (n + 1) ≠ point X Y n := by
  refine ⟨?_, ?_, fun hEq => ?_⟩
  · simp only [point, next]
    split
    · exact Or.inr rfl
    · exact Or.inl rfl
  · simp only [point, next]
    split
    · exact Or.inr rfl
    · exact Or.inl rfl
  · obtain ⟨hFlat, hSteep⟩ := point_major X Y n
    obtain ⟨hFlat', hSteep'⟩ := point_major X Y (n + 1)
    rw [hEq] at hFlat' hSteep'
    rcases Nat.le_total Y X with h | h
    · have hOld := hFlat h
      have hNew := hFlat' h
      omega
    · have hOld := hSteep h
      have hNew := hSteep' h
      omega

end DigitalLine
