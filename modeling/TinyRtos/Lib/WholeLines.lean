import Mathlib.Data.List.Basic

/-!
# Lines that are written one after the other

Several writers share an output; a line is written item by item. `WholeLines`
says that the output is made of whole lines, and of the beginning of the line
that is being written, if one is. It is kept when a writer begins a line while
none is being written, writes the next item of its own, or ends a line that is
complete: so that is what a lock has to give.
-/

namespace WholeLines

variable {α β : Type*} {lines : List (α × List β)} {out : List β}

/-- A line that is being written: by whom, what of it is written, what is left. -/
structure Current (α β : Type*) where
  writer : α
  written : List β
  left : List β

/-- The output consists of `lines` and the written part of `current`. -/
def Whole (lines : List (α × List β)) (current : Option (Current α β)) (out : List β) : Prop :=
  out = lines.flatMap Prod.snd ++ (current.map Current.written).getD []

theorem whole_nil : Whole ([] : List (α × List β)) none [] := rfl

theorem Whole.begin (h : Whole lines none out) (writer : α) (line : List β) :
    Whole lines (some ⟨writer, [], line⟩) out := h

theorem Whole.write {writer : α} {written left : List β} {b : β}
    (h : Whole lines (some ⟨writer, written, b :: left⟩) out) :
    Whole lines (some ⟨writer, written ++ [b], left⟩) (out ++ [b]) := by
  unfold Whole at h ⊢
  rw [h]
  simp

theorem Whole.finish {writer : α} {written : List β}
    (h : Whole lines (some ⟨writer, written, []⟩) out) :
    Whole (lines ++ [(writer, written)]) none out := by
  unfold Whole at h ⊢
  rw [h]
  simp

end WholeLines
