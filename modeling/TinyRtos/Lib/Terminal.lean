import Mathlib.Data.Int.Order.Basic
import Mathlib.Data.List.GetD
import Mathlib.Logic.Function.Basic

/-!
# A line of a terminal

A line of unbounded width, with a cursor. A printable character is written at
the cursor, which advances; a backspace moves the cursor left and leaves the
line alone. Columns are counted from where somebody began to write, and the
ones before it are negative: a backspace too many would show.

`Shows text line` — the line reads `text`, blank behind it, with the cursor
behind the text. `Shows.write` and `Shows.erase` are what typing a character and
rubbing one out do to it. `put` is how an ASCII terminal takes a byte, as far as
printable characters and the backspace go.
-/

namespace Terminal

/-- Cells and cursor. -/
structure Line (α : Type*) where
  cells : Int → α
  cursor : Int

variable {α : Type*}

namespace Line

def write (c : α) (line : Line α) : Line α :=
  { cells := Function.update line.cells line.cursor c, cursor := line.cursor + 1 }

def left (line : Line α) : Line α := { line with cursor := line.cursor - 1 }

end Line

/-- The text begins at column `0`, is followed by blanks, and the cursor is
behind it. -/
structure Shows (blank : α) (text : List α) (line : Line α) : Prop where
  cursor : line.cursor = text.length
  cells  : ∀ i : Nat, line.cells i = text.getD i blank

/-- The columns before column `0` are as they were. -/
def SameBefore (line line' : Line α) : Prop := ∀ i < 0, line'.cells i = line.cells i

variable {blank : α} {text : List α} {line : Line α}

theorem getD_concat (text : List α) (c blank : α) (i : Nat) :
    (text ++ [c]).getD i blank = if i = text.length then c else text.getD i blank := by
  rcases Nat.lt_trichotomy i text.length with hlt | rfl | hgt
  · rw [if_neg (Nat.ne_of_lt hlt), List.getD_append _ _ _ _ hlt]
  · simp
  · have hLen : (text ++ [c]).length ≤ i := by
      rw [List.length_append, List.length_singleton]
      exact hgt
    rw [if_neg (Nat.ne_of_gt hgt), List.getD_eq_default _ _ hLen,
      List.getD_eq_default _ _ (Nat.le_of_lt hgt)]

theorem Shows.write (h : Shows blank text line) (c : α) :
    Shows blank (text ++ [c]) (line.write c) := by
  refine ⟨?_, fun i => ?_⟩
  · show line.cursor + 1 = _
    rw [h.cursor, List.length_append, List.length_singleton]
    rfl
  · show Function.update line.cells line.cursor c i = _
    rw [h.cursor, getD_concat]
    by_cases hi : i = text.length
    · rw [hi, Function.update_self, if_pos rfl]
    · rw [Function.update_of_ne (by exact_mod_cast hi), if_neg hi, h.cells]

/-- Back, blank, back. -/
theorem Shows.erase {c : α} (h : Shows blank (text ++ [c]) line) :
    Shows blank text (line.left.write blank).left := by
  have hCursor : line.left.cursor = text.length := by
    show line.cursor - 1 = _
    rw [h.cursor, List.length_append, List.length_singleton]
    omega
  refine ⟨?_, fun i => ?_⟩
  · show line.left.cursor + 1 - 1 = _
    omega
  · show Function.update line.cells line.left.cursor blank i = _
    rw [hCursor]
    by_cases hi : i = text.length
    · rw [hi, Function.update_self, List.getD_eq_default _ _ (Nat.le_refl _)]
    · rw [Function.update_of_ne (by exact_mod_cast hi), h.cells, getD_concat, if_neg hi]

theorem Line.write_before {line : Line α} (hCursor : 0 ≤ line.cursor) (c : α) :
    SameBefore line (line.write c) := by
  intro i hi
  exact Function.update_of_ne (by omega) _ _

-- ---------------------------------------------------------------------------
-- Bytes
-- ---------------------------------------------------------------------------

def Printable (c : UInt8) : Prop := 0x20 ≤ c ∧ c ≤ 0x7E

instance : DecidablePred Printable := fun _ => inferInstanceAs (Decidable (_ ∧ _))

/-- A byte that arrives at an ASCII terminal. -/
def put (line : Line UInt8) (c : UInt8) : Line UInt8 :=
  if c = 0x08 then line.left
  else if Printable c then line.write c
  else line

theorem put_of_printable {c : UInt8} (hc : Printable c) (line : Line UInt8) :
    put line c = line.write c := by
  have hne : c ≠ 0x08 := by
    rintro rfl
    exact absurd hc (by decide)
  unfold put
  rw [if_neg hne, if_pos hc]

end Terminal
