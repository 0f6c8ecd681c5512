import TinyRtos.Osi.Editing
import TinyRtos.Lib.Terminal
import Mathlib.Data.List.DropRight

/-!
# TinyRTOS — what the user of the shell sees

The bytes transmitted since the last prompt (`sincePrompt`) are put on a terminal
whose line is blank behind the prompt. `prompt_shows`: whatever was typed, the
line reads as the buffer does, and the cursor is behind it. An echo writes a
character and `"\b \b"` rubs one out; nothing else is transmitted between two
prompts. An echoed line may read `"> "` too, which is why a prompt is an event of
its own; it stands directly behind the two bytes it is about (`PromptsWritten`).
-/

namespace TinyRtos.Osi

open LineEditor Terminal

/-- Printable ASCII, BS, DEL, CR and LF. -/
def Typed (c : UInt8) : Prop :=
  Printable c ∨ c = 0x08 ∨ c = 0x7F ∨ c = 0x0D ∨ c = 0x0A

def Event.transmitted : Event → Option UInt8
  | .transmit c => some c
  | _ => none

/-- The bytes transmitted since the last prompt. -/
def sincePrompt (es : List Event) : List UInt8 :=
  (es.rtakeWhile fun e => e ≠ .prompt).filterMap Event.transmitted

@[simp] theorem sincePrompt_prompt (es : List Event) : sincePrompt (es ++ [.prompt]) = [] := by
  simp [sincePrompt]

theorem sincePrompt_append {es' : List Event} (h : .prompt ∉ es') (es : List Event) :
    sincePrompt (es ++ es') = sincePrompt es ++ es'.filterMap Event.transmitted := by
  induction es' using List.reverseRecOn with
  | nil => simp
  | append_singleton before e ih =>
    have hBefore : .prompt ∉ before := fun hMem => h (List.mem_append_left _ hMem)
    have hne : e ≠ .prompt := fun hEq => h (by simp [hEq])
    rw [← List.append_assoc, sincePrompt, List.rtakeWhile_concat_pos _ _ _ (by simpa using hne),
      List.filterMap_append, List.filterMap_append, ← List.append_assoc]
    congr 1
    exact ih hBefore

theorem not_prompt_mem_of_silent {es : List Event} (h : Silent es) : .prompt ∉ es := by
  intro hMem
  obtain ⟨c, hc⟩ := h _ hMem
  cases hc

/-- Every prompt comes directly after the transmitted bytes `"> "`. -/
def PromptsWritten (es : List Event) : Prop :=
  ∀ before after, es = before ++ .prompt :: after →
    [.transmit 0x3E, .transmit 0x20] <:+ before

theorem promptsWritten_of_not_mem {es : List Event} (h : .prompt ∉ es) : PromptsWritten es := by
  rintro before after rfl
  exact absurd (List.mem_append_right before (List.mem_cons_self ..)) h

/-- The only place where the code prompts. -/
theorem promptsWritten_writePrompt {es : List Event} (h : .prompt ∉ es) :
    PromptsWritten (es ++ writePrompt) := by
  have hBytes : rtoskOsiUsart3WriteLocked (ascii "> ") = [.transmit 0x3E, .transmit 0x20] := by
    decide
  intro before after hEq
  rw [writePrompt, hBytes, ← List.append_assoc] at hEq
  rcases Runs.split_concat hEq with ⟨mid, hOld⟩ | ⟨rfl, -⟩
  · have hMem : Event.prompt ∈ es ++ [.transmit 0x3E, .transmit 0x20] := by
      rw [hOld]
      exact List.mem_append_right before (List.mem_cons_self ..)
    simp [h] at hMem
  · exact List.suffix_append ..

theorem promptsWritten_boot (banner : List UInt8) : PromptsWritten (bootEvents banner) :=
  promptsWritten_writePrompt (not_prompt_mem_of_silent (silent_write banner))

-- ---------------------------------------------------------------------------
-- One byte
-- ---------------------------------------------------------------------------

/-- The display: the bytes since the last prompt, on a line that was blank. -/
def display (fresh : Terminal.Line UInt8) (bytes : List UInt8) : Terminal.Line UInt8 :=
  bytes.foldl put fresh

theorem display_append (fresh : Terminal.Line UInt8) (bytes more : List UInt8) :
    display fresh (bytes ++ more) = more.foldl put (display fresh bytes) :=
  List.foldl_append

/-- The terminal shows `text`, from characters and backspaces alone, and what was
left of the prompt's end is untouched. -/
structure Reads (fresh : Terminal.Line UInt8) (text bytes : List UInt8) : Prop where
  shown : Shows 0x20 text (display fresh bytes)
  before : SameBefore fresh (display fresh bytes)
  drawn  : ∀ b ∈ bytes, Printable b ∨ b = 0x08

variable {fresh : Terminal.Line UInt8} {text bytes : List UInt8}

theorem reads_fresh (hFresh : Shows 0x20 [] fresh) : Reads fresh [] [] :=
  ⟨hFresh, fun _ _ => rfl, fun _ hb => by cases hb⟩

/-- An echo adds a character. -/
theorem Reads.echo (h : Reads fresh text bytes) {c : UInt8} (hc : Printable c) :
    Reads fresh (text ++ [c]) (bytes ++ [c]) := by
  have hDisplay : display fresh (bytes ++ [c]) = (display fresh bytes).write c := by
    rw [display_append, List.foldl_cons, List.foldl_nil, put_of_printable hc]
  have hCursor : 0 ≤ (display fresh bytes).cursor := by
    rw [h.shown.cursor]
    exact Int.natCast_nonneg _
  refine ⟨?_, fun i hi => ?_, fun b hb => ?_⟩
  · rw [hDisplay]
    exact h.shown.write c
  · rw [hDisplay, Line.write_before hCursor c i hi]
    exact h.before i hi
  · rcases List.mem_append.mp hb with hOld | hNew
    · exact h.drawn b hOld
    · rw [List.mem_singleton.mp hNew]
      exact Or.inl hc

/-- Back, blank, back removes the last one. -/
theorem Reads.rubOut {c : UInt8} (h : Reads fresh (text ++ [c]) bytes) :
    Reads fresh text (bytes ++ [0x08, 0x20, 0x08]) := by
  have hDisplay : display fresh (bytes ++ [0x08, 0x20, 0x08]) =
      ((display fresh bytes).left.write 0x20).left := by
    rw [display_append]
    rfl
  have hCursor : 0 ≤ (display fresh bytes).left.cursor := by
    show 0 ≤ (display fresh bytes).cursor - 1
    rw [h.shown.cursor, List.length_append, List.length_singleton]
    omega
  refine ⟨?_, fun i hi => ?_, fun b hb => ?_⟩
  · rw [hDisplay]
    exact h.shown.erase
  · rw [hDisplay]
    exact (Line.write_before hCursor 0x20 i hi).trans (h.before i hi)
  · have hNew : ∀ b ∈ [(0x08 : UInt8), 0x20, 0x08], Printable b ∨ b = 0x08 :=
      List.forall_mem_cons.mpr ⟨Or.inr rfl, List.forall_mem_cons.mpr
        ⟨Or.inl (by decide), List.forall_mem_singleton.mpr (Or.inr rfl)⟩⟩
    exact (List.mem_append.mp hb).elim (h.drawn b) (hNew b)

section

variable [TaskConfig] {s : Osi} {rx : Received}

/-- A typed byte takes what is displayed to what the buffer then holds. -/
theorem step_reads (hFresh : Shows 0x20 [] fresh) {es : List Event}
    (h : Reads fresh s.line (sincePrompt es)) (hTyped : Typed rx.byte) :
    Reads fresh (rtoskOsiTask s rx).1.line (sincePrompt (es ++ (rtoskOsiTask s rx).2)) := by
  have hCase := step_cases s rx
  generalize (rtoskOsiTask s rx).1 = s', (rtoskOsiTask s rx).2 = es' at hCase
  cases hCase with
  | ended =>
    obtain ⟨before, after, -, -, hEvents⟩ :=
      endLine_events rx.env { s with sawCr := rx.byte = 0x0D }
    have hLine : (endLine rx.env { s with sawCr := rx.byte = 0x0D }).1.line = [] :=
      List.eq_nil_of_length_eq_zero (by rw [line_length, endLine_len])
    rw [hEvents, hLine, ← List.append_assoc, sincePrompt_prompt]
    exact reads_fresh hFresh
  | swallowed | nothing =>
    rw [List.append_nil]
    exact h
  | erased hKey hErase hSome =>
    rw [sincePrompt_append (by simp)]
    obtain ⟨init, c, hLine⟩ : ∃ init c, s.line = init ++ [c] := by
      rcases List.eq_nil_or_concat s.line with hNil | hSplit
      · have hLen := s.line_length
        rw [hNil] at hLen
        exact absurd hSome (by rw [← hLen]; exact Nat.lt_irrefl 0)
      · simpa using hSplit
    have hErased : line { s with sawCr := false, len := s.len - 1 } = init := by
      rw [show line { s with sawCr := false, len := s.len - 1 } = s.line.dropLast from line_erase s,
        hLine, List.dropLast_concat]
    rw [hErased]
    rw [hLine] at h
    exact h.rubOut
  | typed hKey hErase hRoom =>
    rw [sincePrompt_append (by simp)]
    have hPrintable : Printable rx.byte := by
      rcases hTyped with hYes | hBs | hDel | hCr | hLf
      · exact hYes
      · rw [hBs] at hErase
        cases hErase
      · rw [hDel] at hErase
        cases hErase
      · rw [hCr] at hKey
        cases hKey
      · rw [hLf] at hKey
        cases hKey
    have hLine : line { s.store s.len rx.byte with sawCr := false, len := s.len + 1 } =
        s.line ++ [rx.byte] := line_store s rx.byte
    rw [hLine]
    exact h.echo hPrintable

theorem endLine_promptsWritten (env : Env) (s : Osi) : PromptsWritten (endLine env s).2 := by
  have hNewline := not_prompt_mem_of_silent (silent_write (ascii "\r\n"))
  simp only [endLine]
  split
  · refine promptsWritten_writePrompt ?_
    simp [hNewline, not_prompt_mem_of_silent (silent_writes _)]
  · exact promptsWritten_writePrompt hNewline

theorem step_promptsWritten (s : Osi) (rx : Received) :
    PromptsWritten (rtoskOsiTask s rx).2 := by
  have hCase := step_cases s rx
  generalize (rtoskOsiTask s rx).1 = s', (rtoskOsiTask s rx).2 = es at hCase
  cases hCase with
  | ended => exact endLine_promptsWritten rx.env _
  | swallowed | erased | nothing | typed => exact promptsWritten_of_not_mem (by simp)

/-- The prompts that a byte yields. -/
theorem step_prompts {input : List UInt8} (h : Edits input s) (rx : Received) :
    (rx.byte = 0x0D ∨ rx.byte = 0x0A ∧ input.getLast? ≠ some 0x0D →
        (rtoskOsiTask s rx).2.count .prompt = 1) ∧
      (rx.byte = 0x0A ∧ input.getLast? = some 0x0D → (rtoskOsiTask s rx).2 = []) ∧
      (rx.byte ≠ 0x0D ∧ rx.byte ≠ 0x0A → (rtoskOsiTask s rx).2.count .prompt = 0) := by
  have hCase := step_cases s rx
  generalize (rtoskOsiTask s rx).1 = s', (rtoskOsiTask s rx).2 = es at hCase
  have hEnd (hKey : keys.isEnd rx.byte = false) : rx.byte ≠ 0x0D ∧ rx.byte ≠ 0x0A := by
    simpa [keys] using hKey
  cases hCase with
  | ended hEnds hFresh =>
    obtain ⟨before, after, hBefore, hAfter, hEvents⟩ :=
      endLine_events rx.env { s with sawCr := rx.byte = 0x0D }
    have hOne : (endLine rx.env { s with sawCr := rx.byte = 0x0D }).2.count .prompt = 1 := by
      rw [hEvents]
      simp only [List.count_append, List.count_eq_zero.mpr (not_prompt_mem_of_silent hBefore),
        List.count_eq_zero.mpr (not_prompt_mem_of_silent hAfter)]
      split <;> rfl
    refine ⟨fun _ => hOne, fun hSkipped => ?_, fun hOther => ?_⟩
    · have hSaw := h.sawCr.mpr hSkipped.2
      rw [hFresh hSkipped.1] at hSaw
      cases hSaw
    · simp [keys, hOther.1, hOther.2] at hEnds
  | swallowed hByte hSaw =>
    refine ⟨fun hPrompts => ?_, fun _ => rfl, fun _ => rfl⟩
    rcases hPrompts with hCr | ⟨-, hLast⟩
    · rw [hByte] at hCr
      cases hCr
    · exact absurd (h.sawCr.mp hSaw) hLast
  | erased hKey | nothing hKey | typed hKey =>
    obtain ⟨hCr, hLf⟩ := hEnd hKey
    refine ⟨fun hPrompts => ?_, fun hPrompts => absurd hPrompts.1 hLf, fun _ => by simp⟩
    exact absurd hPrompts (by simp [hCr, hLf])

-- ---------------------------------------------------------------------------
-- Streams
-- ---------------------------------------------------------------------------

/-- **What the user sees is what will be executed.** The bytes since the last
prompt display the buffer; a line's end yields one prompt, the LF of a CR LF
transmits nothing, and each prompt is the bytes `"> "`, transmitted right before. -/
theorem prompt_shows (banner : List UInt8) (cmd : Nat → UInt8) (hFresh : Shows 0x20 [] fresh)
    {rxs : List Received} (hTyped : ∀ rx ∈ rxs, Typed rx.byte) :
    let r := Runs.feed rtoskOsiTask (start cmd) rxs
    let input := rxs.map Received.byte
    Reads fresh r.1.line (sincePrompt (bootEvents banner ++ r.2)) ∧
      PromptsWritten (bootEvents banner) ∧
      ∀ rx : Received,
        PromptsWritten (rtoskOsiTask r.1 rx).2 ∧
        (rx.byte = 0x0D ∨ rx.byte = 0x0A ∧ input.getLast? ≠ some 0x0D →
          (rtoskOsiTask r.1 rx).2.count .prompt = 1) ∧
        (rx.byte = 0x0A ∧ input.getLast? = some 0x0D → (rtoskOsiTask r.1 rx).2 = []) ∧
        (rx.byte ≠ 0x0D ∧ rx.byte ≠ 0x0A → (rtoskOsiTask r.1 rx).2.count .prompt = 0) := by
  refine ⟨?_, promptsWritten_boot banner, fun rx =>
    ⟨step_promptsWritten _ rx, step_prompts (edits_feed cmd rxs) rx⟩⟩
  have hRun := Runs.feed_induct rtoskOsiTask (start cmd)
    (fun rxs s es => (∀ rx ∈ rxs, Typed rx.byte) →
      Reads fresh s.line (sincePrompt (bootEvents banner ++ es)))
    (fun _ => ?_) (fun rxs rx s es ih hAll => ?_) rxs
  · exact hRun hTyped
  · rw [List.append_nil, bootEvents, writePrompt, ← List.append_assoc, sincePrompt_prompt]
    exact reads_fresh hFresh
  · rw [← List.append_assoc]
    exact step_reads hFresh (ih fun rx hrx => hAll rx (List.mem_append_left _ hrx))
      (hAll rx (List.mem_append_right _ (List.mem_singleton_self _)))

end

-- ---------------------------------------------------------------------------
-- Two characters and a delete
-- ---------------------------------------------------------------------------

def blankLine : Terminal.Line UInt8 := ⟨fun _ => 0x20, 0⟩

theorem blankLine_shows : Shows 0x20 [] blankLine := ⟨rfl, fun _ => by simp [blankLine]⟩

/-- CR, LF, `a`, `b`, DEL. -/
def typedBytes : List Received := quietly [0x0D, 0x0A, 0x61, 0x62, 0x7F]

theorem prompt_shows_typed :
    (Runs.feed rtoskOsiTask (start fun _ => 0) typedBytes).1.line = [0x61] ∧
      Reads blankLine (Runs.feed rtoskOsiTask (start fun _ => 0) typedBytes).1.line
        (sincePrompt (bootEvents [] ++ (Runs.feed rtoskOsiTask (start fun _ => 0) typedBytes).2)) :=
  ⟨by decide +kernel, (prompt_shows [] (fun _ => 0) blankLine_shows
    (by unfold Typed typedBytes quietly; decide)).1⟩

end TinyRtos.Osi
