import TinyRtos.Osi.Editing
import Mathlib.Data.List.TakeWhile

/-!
# TinyRTOS — what the shell executes

The reference takes the whole stream: split it at CR and LF, edit each piece,
and look every line that is not empty up among the command literals. The shell
compares with `strcmp`, which stops at a NUL, and a NUL byte may be typed. So the
two agree on a stream (`invoked_eq_iff`) exactly if no line begins with a command
literal and a NUL (`CutShort`). On every stream the buffer is written inside its
bounds.
-/

namespace TinyRtos.Osi

open LineEditor

-- ---------------------------------------------------------------------------
-- The reference
-- ---------------------------------------------------------------------------

/-- The command a line names: its bytes are the literal's. -/
def commandOf (line : List UInt8) : OsiCmd :=
  (OsiCmd.named.find? fun cmd => osiCommandLiterals cmd = line).getD .unknown

/-- The commands of a stream. -/
def reference (input : List UInt8) : List OsiCmd := (contents keys input).map commandOf

def Event.invoked : Event → Option OsiCmd
  | .invoke cmd => some cmd
  | _ => none

/-- The commands the shell invokes. -/
def invoked (es : List Event) : List OsiCmd := es.filterMap Event.invoked

/-- A command literal, a NUL, and anything behind it. -/
def CutShort (line : List UInt8) : Prop :=
  ∃ cmd ∈ OsiCmd.named, osiCommandLiterals cmd ++ [0] <+: line

-- ---------------------------------------------------------------------------
-- `strcmp`
-- ---------------------------------------------------------------------------

theorem literal_no_nul {cmd : OsiCmd} (hNamed : cmd ∈ OsiCmd.named) :
    (0 : UInt8) ∉ osiCommandLiterals cmd := by
  revert cmd
  decide

theorem takeWhile_eq_self_of_no_nul {l : List UInt8} (h : (0 : UInt8) ∉ l) :
    (l.takeWhile fun c => c ≠ 0) = l := by
  rw [List.takeWhile_eq_self_iff]
  intro c hc
  have : c ≠ 0 := fun hZero => h (hZero ▸ hc)
  simpa using this

/-- A line with a NUL is the string before it, the NUL, and a rest. -/
theorem split_at_nul {l : List UInt8} (h : (0 : UInt8) ∈ l) :
    ∃ rest, l = (l.takeWhile fun c => c ≠ 0) ++ 0 :: rest := by
  induction l with
  | nil => cases h
  | cons c l ih =>
    by_cases hc : c = 0
    · subst hc
      exact ⟨l, by simp⟩
    · obtain ⟨rest, hRest⟩ := ih ((List.mem_cons.mp h).resolve_left (Ne.symm hc))
      refine ⟨rest, ?_⟩
      rw [List.takeWhile_cons_of_pos (by simpa using hc), List.cons_append, ← hRest]

theorem find?_named_eq_unknown {p : OsiCmd → Bool} :
    (OsiCmd.named.find? p).getD .unknown = .unknown ↔ ∀ cmd ∈ OsiCmd.named, p cmd = false := by
  cases hFind : OsiCmd.named.find? p with
  | none =>
    simp only [Option.getD_none, true_iff]
    intro cmd hNamed
    exact Bool.eq_false_iff.mpr (List.find?_eq_none.mp hFind cmd hNamed)
  | some cmd =>
    have hNamed := List.mem_of_find?_eq_some hFind
    have hFound := List.find?_some hFind
    constructor
    · rintro rfl
      exact absurd hNamed (by decide)
    · intro hNone
      rw [hNone cmd hNamed] at hFound
      cases hFound

/-- **Comparing up to the NUL is comparing lines**, but for the lines that are
cut short. -/
theorem dispatch_eq_iff (line : List UInt8) :
    rtoskOsiDispatchCommand (line.takeWhile fun c => c ≠ 0) = commandOf line ↔
      ¬ CutShort line := by
  by_cases hNul : (0 : UInt8) ∈ line
  · obtain ⟨rest, hSplit⟩ := split_at_nul hNul
    have hUnknown : commandOf line = .unknown := by
      refine find?_named_eq_unknown.mpr fun cmd hNamed => decide_eq_false fun hEq => ?_
      exact literal_no_nul hNamed (hEq ▸ hNul)
    rw [hUnknown, rtoskOsiDispatchCommand, find?_named_eq_unknown]
    constructor
    · rintro hNone ⟨cmd, hNamed, more, hMore⟩
      refine absurd (hNone cmd hNamed) (by
        rw [decide_eq_false_iff_not, not_not, ← hMore, List.append_assoc, List.takeWhile_append,
          takeWhile_eq_self_of_no_nul (literal_no_nul hNamed)]
        simp)
    · intro hCut cmd hNamed
      refine decide_eq_false fun hEq => hCut ⟨cmd, hNamed, rest, ?_⟩
      rw [← hEq, List.append_assoc]
      exact hSplit.symm
  · rw [takeWhile_eq_self_of_no_nul hNul]
    refine iff_of_true ?_ ?_
    · simp only [rtoskOsiDispatchCommand, commandOf, eq_comm]
    · rintro ⟨cmd, -, hPrefix⟩
      exact hNul (hPrefix.subset (by simp))

-- ---------------------------------------------------------------------------
-- Streams
-- ---------------------------------------------------------------------------

@[simp] theorem invoked_append (es es' : List Event) :
    invoked (es ++ es') = invoked es ++ invoked es' := List.filterMap_append

theorem Silent.invoked {es : List Event} (h : Silent es) : invoked es = [] := by
  rw [Osi.invoked, List.filterMap_eq_nil_iff]
  intro e he
  obtain ⟨c, rfl⟩ := h e he
  rfl

theorem Silent.not_store {es : List Event} (h : Silent es) (i : Nat) : .store i ∉ es := by
  intro hi
  obtain ⟨c, hc⟩ := h _ hi
  cases hc

section

variable [TaskConfig]

/-- Terminating a line that is not empty runs it. -/
theorem endLine_invoked (env : Env) {s : Osi} (hLen : s.len < rtoskOsiCmdBufferSize) :
    invoked (endLine env s).2 =
      if 0 < s.len then [rtoskOsiDispatchCommand (s.line.takeWhile fun c => c ≠ 0)] else [] := by
  obtain ⟨before, after, hBefore, hAfter, hEvents⟩ := endLine_events env s
  rw [hEvents, cString_store hLen]
  simp only [invoked_append, hBefore.invoked, hAfter.invoked]
  split <;> rfl

theorem endLine_store (env : Env) {s : Osi} {i : Nat} (hStore : .store i ∈ (endLine env s).2) :
    i = s.len := by
  obtain ⟨before, after, hBefore, hAfter, hEvents⟩ := endLine_events env s
  rw [hEvents] at hStore
  simp only [List.mem_append, List.mem_singleton, reduceCtorEq, or_false] at hStore
  rcases hStore with (hOld | hNew) | hOld
  · exact absurd hOld (hBefore.not_store i)
  · split at hNew
    · simpa using hNew
    · cases hNew
  · exact absurd hOld (hAfter.not_store i)

/-- What one byte makes the shell invoke. -/
theorem step_invoked {input : List UInt8} {s : Osi} (h : Edits input s) (rx : Received) :
    (contents keys (input ++ [rx.byte])).map
        (fun line => rtoskOsiDispatchCommand (line.takeWhile fun c => c ≠ 0)) =
      (contents keys input).map
        (fun line => rtoskOsiDispatchCommand (line.takeWhile fun c => c ≠ 0)) ++
      invoked (rtoskOsiTask s rx).2 := by
  have hCase := step_cases s rx
  generalize (rtoskOsiTask s rx).1 = s', (rtoskOsiTask s rx).2 = es at hCase
  rw [contents_concat]
  cases hCase with
  | ended hEnd =>
    have hRun := endLine_invoked rx.env (s := { s with sawCr := rx.byte = 0x0D }) h.len_lt
    rw [hRun]
    by_cases hLine : kept keys input = []
    · have hNone : ¬ 0 < s.len := by simp [h.len_eq, hLine]
      rw [if_neg fun hBoth => hBoth.2 hLine, if_neg hNone, List.append_nil]
    · have hSome : 0 < s.len := by
        rw [h.len_eq]
        exact List.length_pos_iff.mpr hLine
      rw [if_pos ⟨hEnd, hLine⟩, if_pos hSome, List.map_append, List.map_singleton, ← h.line]
      rfl
  | swallowed hByte hSaw =>
    rw [if_neg fun hBoth => hBoth.2 (h.kept_of_sawCr hSaw)]
    simp [invoked]
  | erased hKey | nothing hKey | typed hKey =>
    rw [if_neg (by simp [hKey])]
    simp [invoked, Event.invoked]

/-- What one byte makes it store is inside the buffer. -/
theorem step_store {input : List UInt8} {s : Osi} (h : Edits input s) (rx : Received) {i : Nat}
    (hStore : .store i ∈ (rtoskOsiTask s rx).2) : i < rtoskOsiCmdBufferSize := by
  have hLen := h.len_lt
  have hCase := step_cases s rx
  generalize (rtoskOsiTask s rx).1 = s', (rtoskOsiTask s rx).2 = es at hCase hStore
  cases hCase with
  | ended => exact (endLine_store _ hStore).trans_lt hLen
  | swallowed | nothing => cases hStore
  | erased => simp at hStore
  | typed =>
    have hEq : i = s.len := by simpa using hStore
    exact hEq.trans_lt hLen

/-- After every stream, the commands invoked are the contents up to their first
NUL, and every store was inside the buffer. -/
theorem invoked_feed (cmd : Nat → UInt8) (rxs : List Received) :
    let r := Runs.feed rtoskOsiTask (start cmd) rxs
    invoked r.2 = (contents keys (rxs.map Received.byte)).map
        (fun line => rtoskOsiDispatchCommand (line.takeWhile fun c => c ≠ 0)) ∧
      ∀ i, .store i ∈ r.2 → i < rtoskOsiCmdBufferSize := by
  have hRun := Runs.feed_induct rtoskOsiTask (start cmd)
    (fun rxs s es => Edits (rxs.map Received.byte) s ∧
      invoked es = (contents keys (rxs.map Received.byte)).map
        (fun line => rtoskOsiDispatchCommand (line.takeWhile fun c => c ≠ 0)) ∧
      ∀ i, .store i ∈ es → i < rtoskOsiCmdBufferSize)
    ⟨edits_feed cmd [], rfl, fun i hi => by cases hi⟩
    (fun rxs rx s es ⟨hEdits, hInvoked, hStores⟩ => ?_) rxs
  · exact hRun.2
  · rw [List.map_append, List.map_singleton]
    refine ⟨edits_step hEdits rx, ?_, fun i hi => ?_⟩
    · rw [invoked_append, hInvoked, step_invoked hEdits rx]
    · rcases List.mem_append.mp hi with hOld | hNew
      · exact hStores i hOld
      · exact step_store hEdits rx hNew

/-- **The shell executes the lines typed**, on every stream on which no line
begins with a command literal and a NUL, and on no other; and it stays inside its
buffer on all of them. -/
theorem invoked_eq_iff (cmd : Nat → UInt8) (rxs : List Received) :
    let r := Runs.feed rtoskOsiTask (start cmd) rxs
    let input := rxs.map Received.byte
    (r.1.len ≤ 127 ∧ ∀ i, .store i ∈ r.2 → i < 128) ∧
      (invoked r.2 = reference input ↔ ∀ line ∈ contents keys input, ¬ CutShort line) := by
  intro r input
  obtain ⟨hInvoked, hStores⟩ := invoked_feed cmd rxs
  refine ⟨⟨Nat.le_of_lt_succ (edits_feed cmd rxs).len_lt, hStores⟩, ?_⟩
  rw [hInvoked, reference, List.map_inj_left]
  exact forall₂_congr fun line _ => dispatch_eq_iff line

end

-- ---------------------------------------------------------------------------
-- A NUL in a line
-- ---------------------------------------------------------------------------

/-- **`reboot`, a NUL, and one more byte** reboot, and are no command. -/
theorem invoked_nul :
    invoked (Runs.feed rtoskOsiTask (start fun _ => 0)
        (quietly (ascii "reboot" ++ [0x00, 0x78, 0x0D]))).2 = [.reboot] ∧
      reference (ascii "reboot" ++ [0x00, 0x78, 0x0D]) = [.unknown] := by
  decide +kernel

end TinyRtos.Osi
