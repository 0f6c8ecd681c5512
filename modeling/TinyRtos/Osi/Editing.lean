import TinyRtos.Osi.Shell
import TinyRtos.Lib.LineEditor

/-!
# TinyRTOS — what the shell does with a byte

`StepCase` says once what the loop of `rtosk_osi_task` can do with a byte. With
`keys`, the terminators, the erasing keys and the room of the buffer, the task
is a line editor: `Edits` says that the buffer holds the line a stream leaves
open, and `edits_feed` that it does so after every stream.
-/

namespace TinyRtos.Osi

open LineEditor

/-- CR and LF end a line, BS and DEL erase, and the last byte of the buffer is
for the NUL. -/
def keys : Keys UInt8 where
  isEnd c := c = 0x0D || c = 0x0A
  erases c := c = 0x08 || c = 0x7F
  room := rtoskOsiCmdBufferSize - 1

theorem keys_room : keys.room = rtoskOsiCmdBufferSize - 1 := rfl

/-- The open line, as the buffer holds it. -/
def line (s : Osi) : List UInt8 := (List.range s.len).map s.cmd

@[simp] theorem line_length (s : Osi) : s.line.length = s.len := by simp [line]

theorem line_store (s : Osi) (c : UInt8) :
    line { s.store s.len c with len := s.len + 1 } = s.line ++ [c] := by
  unfold line store
  rw [List.range_succ, List.map_append]
  congr 1
  · refine List.map_congr_left fun i hi => Function.update_of_ne ?_ _ _
    exact Nat.ne_of_lt (List.mem_range.mp hi)
  · simp

theorem line_erase (s : Osi) : line { s with len := s.len - 1 } = s.line.dropLast := by
  unfold line
  rw [← List.map_dropLast]
  cases s.len with
  | zero => rfl
  | succ n => rw [List.range_succ, List.dropLast_concat, Nat.add_sub_cancel]

/-- Behind the terminating NUL the buffer does not matter. -/
theorem cString_store {s : Osi} (hLen : s.len < rtoskOsiCmdBufferSize) :
    cString (s.store s.len 0).cmd = s.line.takeWhile fun c => c ≠ 0 := by
  obtain ⟨n, hn⟩ : ∃ n, rtoskOsiCmdBufferSize = s.len + 1 + n :=
    ⟨rtoskOsiCmdBufferSize - (s.len + 1), by omega⟩
  have hOld : (List.range (s.len + 1)).map (s.store s.len 0).cmd = s.line ++ [0] :=
    line_store s 0
  unfold cString
  rw [hn, List.range_add, List.map_append, hOld, List.append_assoc, List.singleton_append,
    List.takeWhile_append]
  split
  · rename_i hAll
    rw [List.takeWhile_cons_of_neg (by simp), List.append_nil]
    exact (List.takeWhile_prefix _).eq_of_length hAll |>.symm
  · rfl

/-- Events that only transmit. -/
def Silent (es : List Event) : Prop := ∀ e ∈ es, ∃ c, e = .transmit c

theorem silent_write (s : List UInt8) : Silent (rtoskOsiUsart3WriteLocked s) := by
  intro e he
  obtain ⟨c, -, rfl⟩ := List.mem_map.mp he
  exact ⟨c, rfl⟩

theorem silent_writes (ss : List (List UInt8)) :
    Silent (ss.flatMap rtoskOsiUsart3WriteLocked) := by
  intro e he
  obtain ⟨s, -, hs⟩ := List.mem_flatMap.mp he
  exact silent_write s e hs

section

variable [TaskConfig] {s : Osi} {rx : Received}

/-- The end of a line runs it, if there is one, and prompts. -/
theorem endLine_events (env : Env) (s : Osi) : ∃ before after, Silent before ∧ Silent after ∧
    (endLine env s).2 = before ++
      (if 0 < s.len then
        [.store s.len, .invoke (rtoskOsiDispatchCommand (cString (s.store s.len 0).cmd))]
      else []) ++ after ++ [.prompt] := by
  refine ⟨rtoskOsiUsart3WriteLocked (ascii "\r\n"),
    (if 0 < s.len then
      (osiInvoke env (rtoskOsiDispatchCommand (cString (s.store s.len 0).cmd))
        (cString (s.store s.len 0).cmd)).flatMap rtoskOsiUsart3WriteLocked
    else []) ++ rtoskOsiUsart3WriteLocked (ascii "> "), silent_write _, ?_, ?_⟩
  · intro e he
    rcases List.mem_append.mp he with hText | hPrompt
    · split at hText
      · exact silent_writes _ e hText
      · cases hText
    · exact silent_write _ e hPrompt
  · simp only [endLine]
    split <;> simp [writePrompt]

/-- What the loop can do with a byte. -/
inductive StepCase (s : Osi) (rx : Received) : Osi → List Event → Prop
  | ended (hEnd : keys.isEnd rx.byte = true) (hFresh : rx.byte = 0x0A → s.sawCr = false) :
      StepCase s rx (endLine rx.env { s with sawCr := rx.byte = 0x0D }).1
        (endLine rx.env { s with sawCr := rx.byte = 0x0D }).2
  | swallowed (hByte : rx.byte = 0x0A) (hSaw : s.sawCr = true) :
      StepCase s rx { s with sawCr := false } []
  | erased (hKey : keys.isEnd rx.byte = false) (hErase : keys.erases rx.byte = true)
      (hSome : 0 < s.len) :
      StepCase s rx { s with sawCr := false, len := s.len - 1 }
        [.transmit 0x08, .transmit 0x20, .transmit 0x08]
  | nothing (hKey : keys.isEnd rx.byte = false)
      (hSame : editKey keys s.line rx.byte = s.line) :
      StepCase s rx { s with sawCr := false } []
  | typed (hKey : keys.isEnd rx.byte = false) (hErase : keys.erases rx.byte = false)
      (hRoom : s.len < rtoskOsiCmdBufferSize - 1) :
      StepCase s rx { s.store s.len rx.byte with sawCr := false, len := s.len + 1 }
        [.store s.len, .transmit rx.byte]

/-- **`StepCase` is complete.** -/
theorem step_cases (s : Osi) (rx : Received) :
    StepCase s rx (rtoskOsiTask s rx).1 (rtoskOsiTask s rx).2 := by
  simp only [rtoskOsiTask]
  by_cases hCr : rx.byte = 0x0D
  · rw [if_pos hCr]
    have hCase : StepCase s rx _ _ := .ended (by simp [keys, hCr]) (by simp [hCr])
    simpa only [hCr, decide_true] using hCase
  · rw [if_neg hCr]
    by_cases hLf : rx.byte = 0x0A
    · rw [if_pos hLf]
      cases hSaw : s.sawCr with
      | true => exact .swallowed hLf hSaw
      | false =>
        have hCase : StepCase s rx _ _ := .ended (by simp [keys, hLf]) fun _ => hSaw
        have hSame : { s with sawCr := decide (rx.byte = 0x0D) } = s := by
          simp [hCr, ← hSaw]
        rw [hSame] at hCase
        exact hCase
    · rw [if_neg hLf]
      have hKey : keys.isEnd rx.byte = false := by simp [keys, hCr, hLf]
      by_cases hErase : rx.byte = 0x08 ∨ rx.byte = 0x7F
      · rw [if_pos hErase]
        have hErases : keys.erases rx.byte = true := by simpa [keys] using hErase
        by_cases hSome : 0 < s.len
        · rw [if_pos hSome]
          exact .erased hKey hErases hSome
        · rw [if_neg hSome]
          refine .nothing hKey ?_
          have hEmpty : s.line = [] := List.eq_nil_of_length_eq_zero (by simp; omega)
          simp [editKey, hErases, hEmpty]
      · rw [if_neg hErase]
        have hErases : keys.erases rx.byte = false := by simpa [keys] using hErase
        by_cases hRoom : s.len < rtoskOsiCmdBufferSize - 1
        · rw [if_pos hRoom]
          exact .typed hKey hErases hRoom
        · rw [if_neg hRoom]
          refine .nothing hKey ?_
          unfold editKey
          rw [hErases, if_neg Bool.false_ne_true, line_length, keys_room, if_neg hRoom]

-- ---------------------------------------------------------------------------
-- The buffer holds the open line
-- ---------------------------------------------------------------------------

/-- After `input`, the buffer holds the open line, and the flag says whether the
last byte was a CR. -/
structure Edits (input : List UInt8) (s : Osi) : Prop where
  line  : s.line = kept keys input
  sawCr : s.sawCr = true ↔ input.getLast? = some 0x0D

variable {input : List UInt8}

omit [TaskConfig] in
theorem Edits.len_eq (h : Edits input s) : s.len = (kept keys input).length := by
  rw [← h.line, line_length]

omit [TaskConfig] in
/-- Right after a CR nothing is typed yet. -/
theorem Edits.kept_of_sawCr (h : Edits input s) (hSaw : s.sawCr = true) :
    kept keys input = [] := by
  obtain ⟨before, rfl⟩ := List.getLast?_eq_some_iff.mp (h.sawCr.mp hSaw)
  rw [kept_concat, if_pos (by decide)]

omit [TaskConfig] in
/-- There is always room for the NUL. -/
theorem Edits.len_lt (h : Edits input s) : s.len < rtoskOsiCmdBufferSize := by
  have hRoom := kept_length_le keys input
  rw [← h.len_eq] at hRoom
  unfold rtoskOsiCmdBufferSize
  exact Nat.lt_succ_of_le hRoom

@[simp] theorem endLine_len (env : Env) (s : Osi) : (endLine env s).1.len = 0 := by
  simp only [endLine]
  split
  · rfl
  · rename_i hNone
    exact Nat.eq_zero_of_not_pos hNone

@[simp] theorem endLine_sawCr (env : Env) (s : Osi) : (endLine env s).1.sawCr = s.sawCr := by
  simp only [endLine]
  split <;> rfl

theorem edits_step (h : Edits input s) (rx : Received) :
    Edits (input ++ [rx.byte]) (rtoskOsiTask s rx).1 := by
  have hEmpty {s : Osi} (hLen : s.len = 0) : s.line = [] :=
    List.eq_nil_of_length_eq_zero (by rw [line_length, hLen])
  have hNotCr (hKey : keys.isEnd rx.byte = false) : rx.byte ≠ 0x0D := by
    rintro hCr
    rw [hCr] at hKey
    cases hKey
  have hCase := step_cases s rx
  generalize (rtoskOsiTask s rx).1 = s', (rtoskOsiTask s rx).2 = es at hCase
  refine ⟨?_, ?_⟩
  · rw [kept_concat]
    cases hCase with
    | ended hEnd => rw [if_pos hEnd, hEmpty (endLine_len _ _)]
    | swallowed hByte hSaw =>
      rw [if_pos (by simp [keys, hByte])]
      exact h.line.trans (h.kept_of_sawCr hSaw)
    | erased hKey hErase hSome =>
      rw [if_neg (by simp [hKey]), ← h.line, editKey, if_pos hErase]
      exact line_erase s
    | nothing hKey hSame =>
      rw [if_neg (by simp [hKey]), ← h.line, hSame]
      rfl
    | typed hKey hErase hRoom =>
      rw [if_neg (by simp [hKey]), ← h.line, editKey, if_neg (by simp [hErase]), line_length,
        keys_room, if_pos hRoom]
      exact line_store s rx.byte
  · rw [List.getLast?_concat, Option.some.injEq]
    cases hCase with
    | ended => simp
    | swallowed hByte => simp [hByte]
    | erased hKey | nothing hKey | typed hKey => simp [hNotCr hKey]

/-- **After every stream the buffer holds the line it leaves open.** -/
theorem edits_feed (cmd : Nat → UInt8) (rxs : List Received) :
    Edits (rxs.map Received.byte) (Runs.feed rtoskOsiTask (start cmd) rxs).1 := by
  refine Runs.feed_induct rtoskOsiTask (start cmd)
    (fun rxs s _ => Edits (rxs.map Received.byte) s) ⟨rfl, by simp [start]⟩
    (fun rxs rx s _ h => ?_) rxs
  rw [List.map_append, List.map_singleton]
  exact edits_step h rx

end

/-- The bytes of a stream, for a kernel that tells nothing. -/
def quietly (bytes : List UInt8) : List Received :=
  bytes.map fun c => ⟨c, ⟨fun _ => none, 0, 0, []⟩⟩

end TinyRtos.Osi
