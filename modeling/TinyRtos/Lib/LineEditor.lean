import Mathlib.Data.List.Basic
import Mathlib.Data.List.Induction

/-!
# Line editing

What a line editor makes of a stream of keys, without an editor: the stream is
split at the keys that end a line, and each terminated piece is edited from
left to right, where some keys erase the last one that was kept and the others
are kept as long as there is room.

* `contents` — the edited lines that are not empty, in order;
* `kept` — the edited line that is still open;
* `contents_concat`, `kept_concat` — what one more key changes, so that an
  editor that works key by key can be compared with the split;
* `contents_mono` — more keys add lines behind.
-/

namespace LineEditor

variable {α : Type*}

/-- The keys that end a line, the keys that erase, and the room for a line. -/
structure Keys (α : Type*) where
  isEnd : α → Bool
  erases : α → Bool
  room : Nat

-- ---------------------------------------------------------------------------
-- Splitting
-- ---------------------------------------------------------------------------

/-- The pieces of a stream that are terminated. -/
def terminated (isEnd : α → Bool) (input : List α) : List (List α) :=
  (input.splitOnP isEnd).dropLast

/-- The piece behind the last key that ends a line. -/
def pending (isEnd : α → Bool) (input : List α) : List α :=
  (input.splitOnP isEnd).getLast (List.splitOnP_ne_nil isEnd input)

variable {isEnd : α → Bool}

theorem terminated_append_pending (input : List α) :
    terminated isEnd input ++ [pending isEnd input] = input.splitOnP isEnd :=
  List.dropLast_concat_getLast (List.splitOnP_ne_nil isEnd input)

/-- How a stream splits says what is terminated and what is not. -/
theorem eq_of_splitOnP {input : List α} (pieces : List (List α)) {rest : List α}
    (h : input.splitOnP isEnd = pieces ++ [rest]) :
    terminated isEnd input = pieces ∧ pending isEnd input = rest := by
  rw [← terminated_append_pending] at h
  obtain ⟨hPieces, hRest⟩ := List.append_inj' h rfl
  exact ⟨hPieces, List.singleton_inj.mp hRest⟩

theorem splitOnP_concat (isEnd : α → Bool) (input : List α) (c : α) :
    (input ++ [c]).splitOnP isEnd =
      if isEnd c then terminated isEnd input ++ [pending isEnd input] ++ [[]]
      else terminated isEnd input ++ [pending isEnd input ++ [c]] := by
  by_cases hEnd : isEnd c = true
  · rw [if_pos hEnd, List.splitOnP_append_cons input [] hEnd, terminated_append_pending]
    rfl
  · rw [if_neg hEnd]
    induction input with
    | nil => simp [List.splitOnP_cons_eq_if_modifyHead, hEnd, terminated, pending]
    | cons x rest ih =>
      -- the head of the split of `rest` grows by `x`, unless `x` ends a line
      have hOld := List.splitOnP_cons_eq_if_modifyHead (p := isEnd) x rest
      rw [← terminated_append_pending rest] at hOld
      rw [List.cons_append, List.splitOnP_cons_eq_if_modifyHead, ih]
      by_cases hx : isEnd x = true
      · rw [if_pos hx] at hOld ⊢
        obtain ⟨hPieces, hRest⟩ := eq_of_splitOnP ([] :: terminated isEnd rest) hOld
        rw [hPieces, hRest]
        rfl
      · rw [if_neg hx] at hOld ⊢
        cases hPieces : terminated isEnd rest with
        | nil =>
          rw [hPieces] at hOld
          obtain ⟨hNone, hRest⟩ := eq_of_splitOnP [] hOld
          rw [hNone, hRest]
          rfl
        | cons piece more =>
          rw [hPieces] at hOld
          obtain ⟨hSome, hRest⟩ := eq_of_splitOnP ((x :: piece) :: more) hOld
          rw [hSome, hRest]
          rfl

theorem terminated_concat (input : List α) (c : α) :
    terminated isEnd (input ++ [c]) =
      if isEnd c then terminated isEnd input ++ [pending isEnd input]
      else terminated isEnd input := by
  have hSplit := splitOnP_concat isEnd input c
  split
  · rename_i hEnd
    rw [if_pos hEnd] at hSplit
    exact (eq_of_splitOnP _ hSplit).1
  · rename_i hKey
    rw [if_neg hKey] at hSplit
    exact (eq_of_splitOnP _ hSplit).1

theorem pending_concat (input : List α) (c : α) :
    pending isEnd (input ++ [c]) = if isEnd c then [] else pending isEnd input ++ [c] := by
  have hSplit := splitOnP_concat isEnd input c
  split
  · rename_i hEnd
    rw [if_pos hEnd] at hSplit
    exact (eq_of_splitOnP _ hSplit).2
  · rename_i hKey
    rw [if_neg hKey] at hSplit
    exact (eq_of_splitOnP _ hSplit).2

@[simp] theorem terminated_nil : terminated isEnd [] = [] := rfl

@[simp] theorem pending_nil : pending isEnd [] = [] := rfl

-- ---------------------------------------------------------------------------
-- Editing
-- ---------------------------------------------------------------------------

/-- What one key does to the open line. -/
def editKey (k : Keys α) (line : List α) (c : α) : List α :=
  if k.erases c then line.dropLast
  else if line.length < k.room then line ++ [c]
  else line

/-- Edit a piece from left to right. -/
def edit (k : Keys α) (piece : List α) : List α := piece.foldl (editKey k) []

theorem edit_concat (k : Keys α) (piece : List α) (c : α) :
    edit k (piece ++ [c]) = editKey k (edit k piece) c := by
  unfold edit
  rw [List.foldl_append, List.foldl_cons, List.foldl_nil]

theorem edit_length_le (k : Keys α) (piece : List α) : (edit k piece).length ≤ k.room := by
  induction piece using List.reverseRecOn with
  | nil => exact Nat.zero_le _
  | append_singleton before c ih =>
    rw [edit_concat]
    unfold editKey
    split
    · rw [List.length_dropLast]
      omega
    · split
      · rw [List.length_append, List.length_singleton]
        omega
      · exact ih

-- ---------------------------------------------------------------------------
-- The lines of a stream
-- ---------------------------------------------------------------------------

variable (k : Keys α)

/-- The open line. -/
def kept (input : List α) : List α := edit k (pending k.isEnd input)

/-- The lines that are not empty. -/
def contents (input : List α) : List (List α) :=
  ((terminated k.isEnd input).map (edit k)).filter fun line => !line.isEmpty

@[simp] theorem kept_nil : kept k [] = [] := rfl

@[simp] theorem contents_nil : contents k [] = [] := rfl

theorem kept_concat (input : List α) (c : α) :
    kept k (input ++ [c]) = if k.isEnd c then [] else editKey k (kept k input) c := by
  unfold kept
  rw [pending_concat]
  split
  · rfl
  · exact edit_concat k _ c

theorem contents_concat (input : List α) (c : α) :
    contents k (input ++ [c]) =
      if k.isEnd c ∧ kept k input ≠ [] then contents k input ++ [kept k input]
      else contents k input := by
  unfold contents
  rw [terminated_concat]
  by_cases hEnd : k.isEnd c = true
  · rw [if_pos hEnd, List.map_append, List.filter_append]
    by_cases hLine : kept k input = []
    · rw [if_neg fun h => h.2 hLine]
      simp [show edit k (pending k.isEnd input) = [] from hLine]
    · rw [if_pos ⟨hEnd, hLine⟩]
      simp [show edit k (pending k.isEnd input) ≠ [] from hLine, kept]
  · rw [if_neg hEnd, if_neg fun h => hEnd h.1]

/-- What is typed later adds lines behind. -/
theorem contents_mono (input input' : List α) :
    contents k input <+: contents k (input ++ input') := by
  induction input' using List.reverseRecOn with
  | nil => simp
  | append_singleton before c ih =>
    rw [← List.append_assoc, contents_concat]
    split
    · exact ih.trans (List.prefix_append _ _)
    · exact ih

theorem kept_length_le (input : List α) : (kept k input).length ≤ k.room :=
  edit_length_le k _

end LineEditor
