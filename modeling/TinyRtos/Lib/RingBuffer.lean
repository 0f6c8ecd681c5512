import Mathlib.Data.List.Basic
import Mathlib.Logic.Function.Basic
import Mathlib.Data.List.Range
import Mathlib.Data.Nat.ModEq

/-!
# Ring buffers over a slab of memory

Two layers, both free of any particular representation:

* **Ring.** `contents n cells tail count` is the FIFO view of `count` cells of
  a ring of `n` cells, read from `tail`. Writing the cell `count` places behind
  the tail appends to the view (`contents_push`); stepping over the tail cell
  drops its head (`contents_pop`). The full/empty ambiguity of a ring does not
  arise, because `count` is part of the view.
* **Slab.** A memory is cut into cells of `size` elements each; `blit` copies
  an item into memory and `slabCell` reads a cell back. A blit onto cell `j` is
  an update of the cell view at `j` (`slabCell_blit`), for every element size.
-/

namespace RingBuffer

variable {α : Type*}

-- ---------------------------------------------------------------------------
-- Ring positions
-- ---------------------------------------------------------------------------

/-- The position after `i`, with a comparison in place of a division. -/
def next (n i : Nat) : Nat := if n ≤ i + 1 then 0 else i + 1

theorem next_lt {n i : Nat} (hi : i < n) : next n i < n := by
  unfold next
  split <;> omega

/-- For positions of the ring `next` is addition modulo the capacity. -/
theorem next_eq_mod {n i : Nat} (hi : i < n) : next n i = (i + 1) % n := by
  unfold next
  split
  · have : i + 1 = n := by omega
    rw [this, Nat.mod_self]
  · exact (Nat.mod_eq_of_lt (by omega)).symm

/-- `next` moves the write position along with the count. -/
theorem next_mod {n tail count : Nat} (hn : 0 < n) :
    next n ((tail + count) % n) = (tail + (count + 1)) % n := by
  rw [next_eq_mod (Nat.mod_lt _ hn), Nat.mod_add_mod, Nat.add_assoc]

/-- Dropping the tail cell leaves the write position in place. -/
theorem mod_pop {n tail count : Nat} (ht : tail < n) :
    (tail + (count + 1)) % n = (next n tail + count) % n := by
  rw [next_eq_mod ht, Nat.mod_add_mod]
  congr 1
  omega

/-- Distinct places behind the tail are distinct cells. -/
theorem mod_place_ne {n tail i j : Nat} (hi : i < j) (hj : j < n) :
    (tail + i) % n ≠ (tail + j) % n := by
  intro hEq
  have hMod : Nat.ModEq n i j := Nat.ModEq.add_left_cancel' tail hEq
  have : i = j := by
    have hi' := Nat.mod_eq_of_lt (lt_trans hi hj)
    have hj' := Nat.mod_eq_of_lt hj
    unfold Nat.ModEq at hMod
    omega
  omega

-- ---------------------------------------------------------------------------
-- The FIFO view
-- ---------------------------------------------------------------------------

/-- The `count` cells from `tail` on, oldest first. -/
def contents (n : Nat) (cells : Nat → α) (tail count : Nat) : List α :=
  (List.range count).map fun i => cells ((tail + i) % n)

@[simp] theorem contents_zero (n : Nat) (cells : Nat → α) (tail : Nat) :
    contents n cells tail 0 = [] := rfl

@[simp] theorem contents_length (n : Nat) (cells : Nat → α) (tail count : Nat) :
    (contents n cells tail count).length = count := by
  simp [contents]

/-- Writing the cell behind the occupied ones appends to the view. -/
theorem contents_push {n tail count : Nat} (cells : Nat → α) (x : α)
    (hRoom : count < n) :
    contents n (Function.update cells ((tail + count) % n) x) tail (count + 1) =
      contents n cells tail count ++ [x] := by
  unfold contents
  rw [List.range_succ, List.map_append]
  congr 1
  · apply List.map_congr_left
    intro i hi
    exact Function.update_of_ne (mod_place_ne (List.mem_range.mp hi) hRoom) _ _
  · simp

/-- The view starts with the tail cell; stepping over it drops that one. -/
theorem contents_pop {n tail : Nat} (cells : Nat → α) (count : Nat) (ht : tail < n) :
    contents n cells tail (count + 1) =
      cells tail :: contents n cells (next n tail) count := by
  unfold contents
  rw [List.range_succ_eq_map, List.map_cons, List.map_map]
  congr 1
  · rw [Nat.add_zero, Nat.mod_eq_of_lt ht]
  · apply List.map_congr_left
    intro i _
    simp only [Function.comp_apply, Nat.succ_eq_add_one]
    rw [mod_pop ht]

-- ---------------------------------------------------------------------------
-- Slabs
-- ---------------------------------------------------------------------------

/-- Copy `size` elements of `src` to `mem` from offset `off` on. -/
def blit (mem : Nat → α) (off : Nat) (src : Nat → α) (size : Nat) : Nat → α :=
  fun a => if off ≤ a ∧ a < off + size then src (a - off) else mem a

/-- The elements of an item. -/
def item (src : Nat → α) (size : Nat) : List α := (List.range size).map src

/-- The `j`-th cell of a memory cut into cells of `size` elements. -/
def slabCell (mem : Nat → α) (size j : Nat) : List α :=
  item (fun k => mem (j * size + k)) size

theorem blit_zero (mem : Nat → α) (off : Nat) (src : Nat → α) : blit mem off src 0 = mem := by
  funext a
  unfold blit
  rw [if_neg (by omega)]

/-- Copying one element more is one more write. -/
theorem blit_succ (mem : Nat → α) (off : Nat) (src : Nat → α) (size : Nat) :
    blit mem off src (size + 1) =
      Function.update (blit mem off src size) (off + size) (src size) := by
  funext a
  by_cases ha : a = off + size
  · subst ha
    rw [Function.update_self]
    unfold blit
    rw [if_pos (by omega)]
    congr 1
    omega
  · rw [Function.update_of_ne ha]
    unfold blit
    by_cases hIn : off ≤ a ∧ a < off + size
    · rw [if_pos hIn, if_pos (by omega)]
    · rw [if_neg hIn, if_neg (by omega)]

/-- What was copied to the start of a memory is read back from it. -/
theorem item_blit_zero (mem : Nat → α) (src : Nat → α) (size : Nat) :
    item (blit mem 0 src size) size = item src size := by
  apply List.map_congr_left
  intro k hk
  have hk' := List.mem_range.mp hk
  unfold blit
  rw [if_pos (by omega), Nat.sub_zero]

/-- Cells do not overlap: a blit onto cell `j` updates the cell view at `j`
only. -/
theorem slabCell_blit (mem : Nat → α) (src : Nat → α) (size j : Nat) :
    slabCell (blit mem (j * size) src size) size =
      Function.update (slabCell mem size) j (item src size) := by
  funext i
  by_cases hij : i = j
  · subst hij
    rw [Function.update_self]
    apply List.map_congr_left
    intro k hk
    have hk' := List.mem_range.mp hk
    unfold blit
    rw [if_pos (by omega)]
    congr 1
    omega
  · rw [Function.update_of_ne hij]
    apply List.map_congr_left
    intro k hk
    have hk' := List.mem_range.mp hk
    unfold blit
    rw [if_neg]
    rintro ⟨hLo, hHi⟩
    -- the address lies in cell `i`, hence in no other
    rcases Nat.lt_or_gt_of_ne hij with hlt | hgt
    · have := Nat.mul_le_mul_right size (Nat.succ_le_of_lt hlt)
      rw [Nat.succ_mul] at this
      omega
    · have := Nat.mul_le_mul_right size (Nat.succ_le_of_lt hgt)
      rw [Nat.succ_mul] at this
      omega

end RingBuffer
