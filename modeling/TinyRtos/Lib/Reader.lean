import Mathlib.Data.Nat.ModEq
import Mathlib.Data.List.Infix
import Mathlib.Tactic.Ring

/-!
# Reading a text back

A reader takes a value off the front of a text, or fails. `Reads r text b` says
that `r` finds `b` in `text`, whatever follows: so it is a statement about texts
that are put together, and goes along with how they are (`Reads.seq`).

* `literal` — a fixed piece of text;
* `number` — a number with a fixed number of digits (`reads_numeral`);
* `oneOf` — one of several pieces, none of which begins another (`Apart`);
* `flagsUntil` — pieces that may be missing, in a fixed order, up to one that is
  there (`reads_flags`). Nothing separates them.
-/

namespace Reader

variable {α β γ : Type}

/-- `r` finds `b` in `text`. -/
def Reads (r : StateT (List α) Option β) (text : List α) (b : β) : Prop :=
  ∀ rest, r (text ++ rest) = some (b, rest)

theorem reads_pure (b : β) : Reads (pure b : StateT (List α) Option β) [] b := fun _ => rfl

/-- One piece, and what follows it. -/
theorem Reads.seq {r : StateT (List α) Option β} {f : β → StateT (List α) Option γ}
    {piece : List α} {pieces : List (List α)} {b : β} {c : γ} (h : Reads r piece b)
    (hRest : Reads (f b) pieces.flatten c) : Reads (r >>= f) (piece :: pieces).flatten c := by
  intro rest
  rw [List.flatten_cons, List.append_assoc]
  show (r (piece ++ (pieces.flatten ++ rest)) >>= fun p => f p.1 p.2) = _
  rw [h]
  exact hRest rest

-- ---------------------------------------------------------------------------
-- Literals
-- ---------------------------------------------------------------------------

variable [DecidableEq α]

/-- What follows `piece` in a text that begins with it. -/
def strip : List α → List α → Option (List α)
  | [], text => some text
  | _ :: _, [] => none
  | a :: piece, b :: text => if a = b then strip piece text else none

theorem strip_append (piece rest : List α) : strip piece (piece ++ rest) = some rest := by
  induction piece with
  | nil => rfl
  | cons a piece ih => simpa [strip] using ih

theorem prefix_of_strip {piece text rest : List α} (h : strip piece text = some rest) :
    piece <+: text := by
  induction piece generalizing text with
  | nil => exact List.nil_prefix
  | cons a piece ih =>
    cases text with
    | nil => cases h
    | cons b text =>
      simp only [strip] at h
      split at h
      · rename_i hab
        rw [hab]
        exact (List.prefix_cons_inj b).mpr (ih h)
      · cases h

def literal (piece : List α) : StateT (List α) Option Unit := fun text =>
  (strip piece text).map fun rest => ((), rest)

theorem reads_literal (piece : List α) : Reads (literal piece) piece () := by
  intro rest
  rw [literal, strip_append, Option.map_some]

-- ---------------------------------------------------------------------------
-- Numbers
-- ---------------------------------------------------------------------------

/-- The last `n` digits of `value` to a base, the first one first. -/
def numeral (base n value : Nat) : List Nat :=
  (List.range n).map fun k => value / base ^ (n - 1 - k) % base

theorem numeral_succ (base n value : Nat) :
    numeral base (n + 1) value = value / base ^ n % base :: numeral base n value := by
  unfold numeral
  rw [List.range_succ_eq_map, List.map_cons, List.map_map]
  congr 1
  refine List.map_congr_left fun k _ => ?_
  show value / base ^ (n + 1 - 1 - (k + 1)) % base = _
  rw [show n + 1 - 1 - (k + 1) = n - 1 - k by omega]

/-- Read `n` digits, behind `value`. -/
def number (digit : α → Option Nat) (base : Nat) : Nat → Nat → StateT (List α) Option Nat
  | 0, value => pure value
  | n + 1, value => fun text =>
    match text with
    | [] => none
    | a :: text => (digit a).bind fun d => number digit base n (value * base + d) text

omit [DecidableEq α] in
theorem reads_numeral {digit : α → Option Nat} {base : Nat} {glyph : Nat → α}
    (hBase : 0 < base) (hDigit : ∀ d < base, digit (glyph d) = some d) (n value before : Nat) :
    Reads (number digit base n before) ((numeral base n value).map glyph)
      (before * base ^ n + value % base ^ n) := by
  induction n generalizing before with
  | zero =>
    have hValue : before * base ^ 0 + value % base ^ 0 = before := by simp [Nat.mod_one]
    rw [hValue]
    exact reads_pure before
  | succ n ih =>
    intro rest
    have hFirst := hDigit _ (Nat.mod_lt (value / base ^ n) hBase)
    have hValue : (before * base + value / base ^ n % base) * base ^ n + value % base ^ n =
        before * base ^ (n + 1) + value % base ^ (n + 1) := by
      rw [Nat.mod_pow_succ]
      ring
    rw [numeral_succ, List.map_cons, List.cons_append]
    show (digit _).bind _ = _
    rw [hFirst, Option.bind_some, ih, hValue]

-- ---------------------------------------------------------------------------
-- Choices
-- ---------------------------------------------------------------------------

/-- Neither begins the other. -/
def Apart (x y : List α) : Prop := ¬ x <+: y ∧ ¬ y <+: x

instance (x y : List α) : Decidable (Apart x y) := inferInstanceAs (Decidable (_ ∧ _))

/-- A piece is not found where another one is. -/
theorem strip_of_apart {x y : List α} (h : Apart x y) (rest : List α) :
    strip x (y ++ rest) = none := by
  cases hStrip : strip x (y ++ rest) with
  | none => rfl
  | some more =>
    exfalso
    rcases List.prefix_or_prefix_of_prefix (prefix_of_strip hStrip)
      (List.prefix_append y rest) with hx | hy
    · exact h.1 hx
    · exact h.2 hy

/-- The first piece of a table that the text begins with. -/
def oneOf : List (List α × β) → StateT (List α) Option β
  | [] => fun _ => none
  | (piece, b) :: table => fun text =>
    match strip piece text with
    | some rest => some (b, rest)
    | none => oneOf table text

theorem reads_oneOf {table : List (List α × β)} (hApart : (table.map Prod.fst).Pairwise Apart)
    {piece : List α} {b : β} (hMem : (piece, b) ∈ table) : Reads (oneOf table) piece b := by
  induction table with
  | nil => exact absurd hMem List.not_mem_nil
  | cons first table ih =>
    obtain ⟨hFirst, hRest⟩ := List.pairwise_cons.mp hApart
    intro rest
    rcases List.mem_cons.mp hMem with rfl | hMem
    · simp only [oneOf, strip_append]
    · have hPiece : piece ∈ table.map Prod.fst := List.mem_map.mpr ⟨_, hMem, rfl⟩
      simp only [oneOf, strip_of_apart (hFirst _ hPiece)]
      exact ih hRest hMem rest

-- ---------------------------------------------------------------------------
-- Flags
-- ---------------------------------------------------------------------------

/-- Of the pieces, which are there, in their order; then `stop`. -/
def flagsUntil (stop : List α) : List (List α) → StateT (List α) Option (List Bool)
  | [] => do
    literal stop
    pure []
  | piece :: pieces => fun text =>
    match strip piece text with
    | some rest => (flagsUntil stop pieces rest).map fun p => (true :: p.1, p.2)
    | none => (flagsUntil stop pieces text).map fun p => (false :: p.1, p.2)

/-- The pieces whose flag is set. -/
def flagged (flags : List (List α × Bool)) : List α :=
  flags.flatMap fun p => if p.2 then p.1 else []

omit [DecidableEq α] in
/-- The text goes on with a later piece, or with the end. -/
theorem flagged_begins (flags : List (List α × Bool)) (stop rest : List α) :
    ∃ piece ∈ flags.map Prod.fst ++ [stop], ∃ more, flagged flags ++ stop ++ rest = piece ++ more := by
  induction flags with
  | nil => exact ⟨stop, by simp, rest, rfl⟩
  | cons first flags ih =>
    obtain ⟨piece, set⟩ := first
    cases set with
    | true =>
      refine ⟨piece, by simp, flagged flags ++ stop ++ rest, ?_⟩
      simp [flagged]
    | false =>
      obtain ⟨later, hMem, more, hEq⟩ := ih
      exact ⟨later, by simp only [List.map_cons, List.cons_append]; exact List.mem_cons_of_mem _ hMem,
        more, by simpa [flagged] using hEq⟩

theorem reads_flags {flags : List (List α × Bool)} {stop : List α}
    (hApart : (flags.map Prod.fst ++ [stop]).Pairwise Apart) :
    Reads (flagsUntil stop (flags.map Prod.fst)) (flagged flags ++ stop) (flags.map Prod.snd) := by
  induction flags with
  | nil =>
    intro rest
    show (literal stop (stop ++ rest) >>= fun p => some ([], p.2)) = _
    rw [reads_literal stop rest]
    rfl
  | cons first flags ih =>
    obtain ⟨piece, set⟩ := first
    rw [List.map_cons, List.cons_append] at hApart
    obtain ⟨hFirst, hRest⟩ := List.pairwise_cons.mp hApart
    intro rest
    have hTail := ih hRest rest
    cases set with
    | true =>
      have hText : flagged ((piece, true) :: flags) ++ stop ++ rest =
          piece ++ (flagged flags ++ stop ++ rest) := by simp [flagged]
      simp only [List.map_cons, flagsUntil, hText, strip_append, hTail, Option.map_some]
    | false =>
      have hText : flagged ((piece, false) :: flags) ++ stop ++ rest =
          flagged flags ++ stop ++ rest := by simp [flagged]
      have hNot : strip piece (flagged flags ++ stop ++ rest) = none := by
        obtain ⟨later, hMem, more, hEq⟩ := flagged_begins flags stop rest
        rw [hEq]
        exact strip_of_apart (hFirst later hMem) more
      simp only [List.map_cons, flagsUntil, hText, hNot, hTail, Option.map_some]

end Reader
