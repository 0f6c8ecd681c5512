import Mathlib.Algebra.Order.Ring.Abs
import Mathlib.Tactic.Linarith

/-!
# Exact machine integers

`Holds x n bound` says that a machine integer is an exact integer and how far
from zero that may be. The operations keep it while the bound of the result is
in range: so no single value has to be computed to see that none overflows.
-/

namespace TinyRtos

namespace ExactInt

structure Holds (x : Int32) (n : Int) (bound : Nat) : Prop where
  exact : x.toInt = n
  small : |n| ≤ bound

variable {x y : Int32} {m n : Int} {A B C : Nat}

theorem bmod_exact {w : Nat} (h : |n| ≤ B) (hB : 2 * B < 2 ^ w) : n.bmod (2 ^ w) = n := by
  obtain ⟨hLow, hHigh⟩ := abs_le.mp h
  refine Int.bmod_eq_of_le_mul_two ?_ ?_
  · push_cast
    have hCast : (2 * B : Int) < 2 ^ w := by exact_mod_cast hB
    omega
  · push_cast
    have hCast : (2 * B : Int) < 2 ^ w := by exact_mod_cast hB
    omega

theorem Holds.bounds (h : Holds x n A) : -A ≤ n ∧ n ≤ A := abs_le.mp h.small

theorem Holds.mul (hx : Holds x m A) (hy : Holds y n B) (hFits : 2 * (A * B) < 2 ^ 32) :
    Holds (x * y) (m * n) (A * B) := by
  have hAbs : |m * n| ≤ (A * B : Nat) := by
    rw [abs_mul]
    push_cast
    exact mul_le_mul hx.small hy.small (abs_nonneg n) (Int.natCast_nonneg A)
  refine ⟨?_, hAbs⟩
  rw [Int32.toInt_mul, hx.exact, hy.exact]
  exact bmod_exact hAbs hFits

theorem Holds.add (hx : Holds x m A) (hy : Holds y n B) (hFits : 2 * (A + B) < 2 ^ 32) :
    Holds (x + y) (m + n) (A + B) := by
  have hAbs : |m + n| ≤ (A + B : Nat) := by
    push_cast
    exact (abs_add_le m n).trans (add_le_add hx.small hy.small)
  refine ⟨?_, hAbs⟩
  rw [Int32.toInt_add, hx.exact, hy.exact]
  exact bmod_exact hAbs hFits

theorem Holds.neg (hx : Holds x m A) (hFits : 2 * A < 2 ^ 32) : Holds (-x) (-m) A := by
  have hAbs : |-m| ≤ (A : Int) := by
    rw [abs_neg]
    exact hx.small
  refine ⟨?_, hAbs⟩
  rw [Int32.toInt_neg, hx.exact]
  exact bmod_exact hAbs hFits

theorem Holds.sub (hx : Holds x m A) (hy : Holds y n B) (hFits : 2 * (A + B) < 2 ^ 32) :
    Holds (x - y) (m - n) (A + B) := by
  have hAbs : |m - n| ≤ (A + B : Nat) := by
    push_cast
    exact (abs_sub m n).trans (add_le_add hx.small hy.small)
  refine ⟨?_, hAbs⟩
  rw [Int32.toInt_sub, hx.exact, hy.exact]
  exact bmod_exact hAbs hFits

/-- The shift rounds down, and away from zero by less than one. -/
theorem Holds.shiftRight (hx : Holds x m A) {k : Int32} {j : Nat}
    (hk : (k.toBitVec.smod 32).toNat = j) (hFits : A ≤ C * 2 ^ j) :
    Holds (x >>> k) (m / 2 ^ j) C := by
  have hPos : (0 : Int) < 2 ^ j := by positivity
  have hFits' : (A : Int) ≤ C * 2 ^ j := by exact_mod_cast hFits
  obtain ⟨hLow, hHigh⟩ := hx.bounds
  refine ⟨?_, abs_le.mpr ⟨?_, ?_⟩⟩
  · rw [← Int32.toInt_toBitVec, Int32.toBitVec_shiftRight, BitVec.toInt_sshiftRight', hk,
      Int32.toInt_toBitVec, hx.exact, Int.shiftRight_eq_div_pow]
    push_cast
    rfl
  · rw [Int.le_ediv_iff_mul_le hPos]
    linarith
  · exact Int.ediv_le_of_le_mul hPos (hHigh.trans hFits')

/-- Nothing is lost in `int16_t`. -/
theorem Holds.toInt16 (hx : Holds x m A) (hFits : 2 * A < 2 ^ 16) :
    Holds x.toInt16.toInt32 m A := by
  refine ⟨?_, hx.small⟩
  rw [Int16.toInt_toInt32, Int32.toInt_toInt16, hx.exact]
  exact bmod_exact hx.small hFits

/-- A division by what is positive. -/
theorem Holds.div (hx : Holds x m A) (hy : Holds y n B) (hx0 : 0 ≤ m) (hy0 : 0 < n)
    (hFits : 2 * A < 2 ^ 32) : Holds (x / y) (m / n) A := by
  have hAbs : |m / n| ≤ (A : Int) := by
    rw [abs_of_nonneg (Int.ediv_nonneg hx0 hy0.le)]
    exact (Int.ediv_le_self n hx0).trans hx.bounds.2
  refine ⟨?_, hAbs⟩
  rw [Int32.toInt_div, hx.exact, hy.exact, Int.tdiv_eq_ediv_of_nonneg hx0]
  exact bmod_exact hAbs hFits

end ExactInt

end TinyRtos
