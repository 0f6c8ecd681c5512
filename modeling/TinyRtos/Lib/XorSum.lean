import Mathlib.Data.List.Basic

/-!
# Exclusive-or checksums

The exclusive or of a list of bytes, as a check appended to a message.

* `xorSum_append` — the sum of two messages in a row;
* `xorSum_self` — a message followed by its sum adds up to nothing;
* `xorSum_replace`, `xorSum_set` — the sum sees every change of a single byte.
-/

namespace XorSum

def xorSum (bytes : List UInt8) : UInt8 := bytes.foldl (· ^^^ ·) 0

theorem foldl_xor (a : UInt8) (bytes : List UInt8) :
    bytes.foldl (· ^^^ ·) a = a ^^^ xorSum bytes := by
  unfold xorSum
  induction bytes generalizing a with
  | nil => simp
  | cons b rest ih =>
    rw [List.foldl_cons, List.foldl_cons, ih, ih (0 ^^^ b), UInt8.zero_xor, UInt8.xor_assoc]

@[simp] theorem xorSum_nil : xorSum [] = 0 := rfl

@[simp] theorem xorSum_cons (b : UInt8) (bytes : List UInt8) :
    xorSum (b :: bytes) = b ^^^ xorSum bytes := by
  show (bytes.foldl (· ^^^ ·) (0 ^^^ b)) = _
  rw [foldl_xor, UInt8.zero_xor]

theorem xorSum_append (bytes bytes' : List UInt8) :
    xorSum (bytes ++ bytes') = xorSum bytes ^^^ xorSum bytes' := by
  induction bytes with
  | nil => simp
  | cons b rest ih => rw [List.cons_append, xorSum_cons, xorSum_cons, ih, UInt8.xor_assoc]

/-- The sum of a message that is read byte by byte. -/
theorem xorSum_concat (bytes : List UInt8) (b : UInt8) :
    xorSum (bytes ++ [b]) = xorSum bytes ^^^ b := by
  rw [xorSum_append, xorSum_cons, xorSum_nil, UInt8.xor_zero]

theorem xorSum_self (bytes : List UInt8) : xorSum (bytes ++ [xorSum bytes]) = 0 := by
  rw [xorSum_concat, UInt8.xor_self]

/-- **A single byte is not changed unnoticed.** -/
theorem xorSum_replace (before after : List UInt8) (b b' : UInt8) :
    xorSum (before ++ b' :: after) = xorSum (before ++ b :: after) ↔ b' = b := by
  simp only [xorSum_append, xorSum_cons]
  rw [UInt8.xor_right_inj, UInt8.xor_left_inj]

theorem xorSum_set {bytes : List UInt8} {i : Nat} {b b' : UInt8} (h : bytes[i]? = some b) :
    xorSum (bytes.set i b') = xorSum bytes ↔ b' = b := by
  obtain ⟨hLt, rfl⟩ := List.getElem?_eq_some_iff.mp h
  have hSplit : bytes = bytes.take i ++ bytes[i] :: bytes.drop (i + 1) := by
    rw [List.getElem_cons_drop, List.take_append_drop]
  rw [List.set_eq_take_append_cons_drop, if_pos hLt]
  conv_lhs => rhs; rw [hSplit]
  exact xorSum_replace _ _ _ _

end XorSum
