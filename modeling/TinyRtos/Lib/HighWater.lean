import Mathlib.Logic.Function.Basic
import Mathlib.Order.Lattice
import Mathlib.Order.MinMax

/-!
# High-water marks

A block of `n` words is filled with a mark, and whoever uses it stores other
words in it, from its end down. The first word that is not the mark then says
how much of the block has ever been used.

* `FirstUsed.store` — a store moves the first used word down to where it goes,
  and never up;
* `unused_store` — with stores of the mark itself there is at least no word
  below the lowest store that looks used;
* `count_between` — one that looks for the first used word, word by word, while
  others go on storing, ends between where it is in the end and where it was at
  the beginning.
-/

namespace HighWater

variable {α : Type*} {mark : α} {block block' : Nat → α} {n low low' : Nat}

/-- The words before `low` carry the mark. -/
def Unused (mark : α) (block : Nat → α) (low : Nat) : Prop := ∀ i < low, block i = mark

/-- Of the `n` words, the one at `low` is the first that does not; if `low = n`
there is none. -/
structure FirstUsed (mark : α) (block : Nat → α) (n low : Nat) : Prop where
  le     : low ≤ n
  unused : Unused mark block low
  used   : low < n → block low ≠ mark

theorem firstUsed_filled (n : Nat) (h : Unused mark block n) : FirstUsed mark block n n :=
  ⟨le_rfl, h, fun hLt => absurd hLt (lt_irrefl n)⟩

theorem FirstUsed.le_of_unused (h : FirstUsed mark block n low) (hUnused : Unused mark block low')
    (hLe : low' ≤ n) : low' ≤ low := by
  by_contra hNot
  have hLt : low < low' := Nat.lt_of_not_le hNot
  exact h.used (hLt.trans_le hLe) (hUnused low hLt)

theorem FirstUsed.unique (h : FirstUsed mark block n low) (h' : FirstUsed mark block n low') :
    low = low' :=
  le_antisymm (h'.le_of_unused h.unused h.le) (h.le_of_unused h'.unused h'.le)

/-- It depends on the block's words only. -/
theorem Unused.congr (h : Unused mark block low) (hSame : ∀ i < low, block' i = block i) :
    Unused mark block' low := fun i hi => (hSame i hi).trans (h i hi)

theorem FirstUsed.congr (h : FirstUsed mark block n low) (hSame : ∀ i < n, block' i = block i) :
    FirstUsed mark block' n low := by
  refine ⟨h.le, h.unused.congr fun i hi => hSame i (lt_of_lt_of_le hi h.le), fun hLt => ?_⟩
  rw [hSame low hLt]
  exact h.used hLt

-- ---------------------------------------------------------------------------
-- Stores
-- ---------------------------------------------------------------------------

theorem unused_store (h : Unused mark block low) (i : Nat) (w : α) :
    Unused mark (Function.update block i w) (min low i) := by
  intro j hj
  rw [Function.update_of_ne (ne_of_lt (lt_of_lt_of_le hj (min_le_right low i)))]
  exact h j (lt_of_lt_of_le hj (min_le_left low i))

/-- **A store moves the first used word down, if at all.** -/
theorem FirstUsed.store (h : FirstUsed mark block n low) {i : Nat} {w : α} (hw : w ≠ mark) :
    FirstUsed mark (Function.update block i w) n (min low i) := by
  refine ⟨(min_le_left low i).trans h.le, unused_store h.unused i w, fun hLt => ?_⟩
  by_cases hi : i ≤ low
  · rw [min_eq_right hi, Function.update_self]
    exact hw
  · have hLow : low < i := Nat.lt_of_not_le hi
    rw [min_eq_left hLow.le] at hLt ⊢
    rw [Function.update_of_ne hLow.ne]
    exact h.used hLt

-- ---------------------------------------------------------------------------
-- Looking for it while others store
-- ---------------------------------------------------------------------------

/-- A word that looks unused has looked so before. -/
def Fades (mark : α) (block block' : Nat → α) (n : Nat) : Prop :=
  ∀ i < n, block' i = mark → block i = mark

theorem Fades.refl : Fades mark block block n := fun _ _ h => h

theorem Fades.trans {block'' : Nat → α} (h : Fades mark block block' n)
    (h' : Fades mark block' block'' n) : Fades mark block block'' n :=
  fun i hi hMark => h i hi (h' i hi hMark)

theorem fades_congr (hSame : ∀ i < n, block' i = block i) : Fades mark block block' n :=
  fun i hi hMark => (hSame i hi).symm.trans hMark

theorem fades_store (i : Nat) {w : α} (hw : w ≠ mark) :
    Fades mark block (Function.update block i w) n := by
  intro j _ hj
  by_cases hji : j = i
  · rw [hji, Function.update_self] at hj
    exact absurd hj hw
  · rw [Function.update_of_ne hji] at hj
    exact hj

/-- One more word has been looked at, and carried the mark. -/
theorem Fades.next {k : Nat} (h : Fades mark block block' n) (hCount : Unused mark block k)
    (hk : k < n) (hLook : block' k = mark) : Unused mark block (k + 1) := by
  intro i hi
  rcases Nat.lt_succ_iff_lt_or_eq.mp hi with hLt | rfl
  · exact hCount i hLt
  · exact h i hk hLook

/-- **The count ends in between.** `block` is the block when the count began and
`block'` when it came to its end, at word `k`. -/
theorem count_between {k : Nat} (hStart : FirstUsed mark block n low)
    (hEnd : FirstUsed mark block' n low') (hCount : Unused mark block k) (hLe : k ≤ n)
    (hStop : k < n → block' k ≠ mark) : low' ≤ k ∧ k ≤ low := by
  refine ⟨?_, hStart.le_of_unused hCount hLe⟩
  by_contra hNot
  have hLt : k < low' := Nat.lt_of_not_le hNot
  exact hStop (hLt.trans_le hEnd.le) (hEnd.unused k hLt)

end HighWater
