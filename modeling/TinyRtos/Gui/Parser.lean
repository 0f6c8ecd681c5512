import TinyRtos.Gui.Primitives
import TinyRtos.Lib.Runs
import Mathlib.Data.List.GetD

/-!
# TinyRTOS — the renderer's side of the wire (`parser.c`)

`gui_protocol_feed` takes one byte. Its file-scope variables are `Parser`; what
it does to the outside are the calls of the renderer, and where it stores into
its payload buffer.

`decode` is the same seen as a whole: what commands a stream of bytes contains.
The start bytes are looked for from the front; two bytes that begin like a
packet and are none are both dropped, and so is a packet that is too long or
whose checksum is wrong. `run_decode` says that the parser executes just these.
-/

namespace TinyRtos

namespace Gui

/-- `rx_state_t`. -/
inductive RxState
  | sof0
  | sof1
  | cmd
  | len0
  | len1
  | payload
  | checksum
  deriving DecidableEq, Repr

/-- `GUI_MAX_PAYLOAD`. -/
def guiMaxPayload : UInt8 := 32

/-- `payload` is the buffer and what lies behind it; `guiRenderer` says that
`GUI_RENDERER` is set. -/
structure Parser where
  guiRenderer : Bool
  state : RxState
  cmd : UInt8
  len : UInt8
  index : UInt8
  checksum : UInt8
  payload : Nat → UInt8

namespace Parser

inductive Event
  | draw (d : Draw)
  | store (index : Nat)
  deriving DecidableEq, Repr

/-- The file-scope variables before the first byte. -/
def static : Parser where
  guiRenderer := false
  state := .sof0
  cmd := 0
  len := 0
  index := 0
  checksum := 0
  payload := fun _ => 0

def guiProtocolSetRenderer (p : Parser) : Parser := { p with guiRenderer := true }

/-- The call of the renderer that a command and its payload stand for. -/
def command (cmd len : UInt8) (payload : Nat → UInt8) : Option Draw :=
  if cmd = cmdClear then
    if len = 1 then some (.clear (payload 0)) else none
  else if cmd = cmdPixel then
    if len = 3 then some (.pixel (payload 0) (payload 1) (payload 2)) else none
  else if cmd = cmdLine then
    if len = 5 then
      some (.line (payload 0) (payload 1) (payload 2) (payload 3) (payload 4))
    else none
  else if cmd = cmdPresent then
    if len = 0 then some .present else none
  else none

def execCmd (p : Parser) : List Event :=
  if p.guiRenderer = false then []
  else ((command p.cmd p.len p.payload).map Event.draw).toList

def guiProtocolFeed (p : Parser) (byte : UInt8) : Parser × List Event :=
  match p.state with
  | .sof0 => (if byte = sof0 then { p with state := .sof1 } else p, [])
  | .sof1 => ({ p with state := if byte = sof1 then .cmd else .sof0 }, [])
  | .cmd => ({ p with cmd := byte, checksum := byte, state := .len0 }, [])
  | .len0 =>
    let p := { p with len := byte, checksum := p.checksum ^^^ byte }
    if guiMaxPayload < p.len then ({ p with state := .sof0 }, [])
    else ({ p with index := 0, state := if p.len = 0 then .checksum else .payload }, [])
  | .len1 => ({ p with state := .sof0 }, [])
  | .payload =>
    let i := p.index.toNat
    let p := { p with
      payload := Function.update p.payload i byte
      index := p.index + 1
      checksum := p.checksum ^^^ byte }
    (if p.len ≤ p.index then { p with state := .checksum } else p, [.store i])
  | .checksum =>
    ({ p with state := .sof0 }, if byte = p.checksum then p.execCmd else [])

def Event.draw? : Event → Option Draw
  | .draw d => some d
  | .store _ => none

/-- The parser and the commands it has executed after some bytes. -/
def run (p : Parser) (bytes : List UInt8) : Parser × List Draw :=
  let r := Runs.feed guiProtocolFeed p bytes
  (r.1, r.2.filterMap Event.draw?)

-- ---------------------------------------------------------------------------
-- Feeding
-- ---------------------------------------------------------------------------

variable {p : Parser}

@[simp] theorem run_nil (p : Parser) : p.run [] = (p, []) := rfl

theorem run_cons (p : Parser) (b : UInt8) (bytes : List UInt8) :
    p.run (b :: bytes) =
      (((p.guiProtocolFeed b).1.run bytes).1,
        (p.guiProtocolFeed b).2.filterMap Event.draw? ++
          ((p.guiProtocolFeed b).1.run bytes).2) := by
  simp only [run, Runs.feed_cons, List.filterMap_append]

theorem run_append (p : Parser) (bytes bytes' : List UInt8) :
    p.run (bytes ++ bytes') =
      (((p.run bytes).1.run bytes').1, (p.run bytes).2 ++ ((p.run bytes).1.run bytes').2) := by
  simp only [run, Runs.feed_append, List.filterMap_append]

/-- A byte that executes nothing. -/
theorem run_cons_of_silent {b : UInt8} {bytes : List UInt8}
    (h : (p.guiProtocolFeed b).2.filterMap Event.draw? = []) :
    p.run (b :: bytes) = (p.guiProtocolFeed b).1.run bytes := by
  rw [run_cons, h, List.nil_append]

-- ---------------------------------------------------------------------------
-- Inside a packet
-- ---------------------------------------------------------------------------

/-- The parser has read the command `c`, the length `n` and then `read` of a
packet. -/
structure Filling (c n : UInt8) (read : List UInt8) (p : Parser) : Prop where
  room     : n ≤ guiMaxPayload
  le_len   : read.length ≤ n.toNat
  state    : p.state = if read.length < n.toNat then .payload else .checksum
  cmd      : p.cmd = c
  len      : p.len = n
  index    : p.index.toNat = read.length
  checksum : p.checksum = c ^^^ n ^^^ XorSum.xorSum read
  payload  : ∀ i, i < read.length → p.payload i = read.getD i 0

/-- The start bytes. -/
theorem run_start (hState : p.state = .sof0) (hRenderer : p.guiRenderer = true) :
    ∃ p' : Parser, p'.state = .cmd ∧ p'.guiRenderer = true ∧
      ∀ bytes, p.run (sof0 :: sof1 :: bytes) = p'.run bytes := by
  refine ⟨((p.guiProtocolFeed sof0).1.guiProtocolFeed sof1).1, ?_, ?_, fun bytes => ?_⟩
  · simp [guiProtocolFeed, hState]
  · simp [guiProtocolFeed, hState, hRenderer]
  · rw [run_cons_of_silent (by simp [guiProtocolFeed, hState]),
      run_cons_of_silent (by simp [guiProtocolFeed, hState])]

/-- The header of a packet. -/
theorem run_header {c n : UInt8} (hState : p.state = .cmd) (hRoom : n ≤ guiMaxPayload) :
    ∃ p' : Parser, Filling c n [] p' ∧ p'.guiRenderer = p.guiRenderer ∧
      ∀ bytes, p.run (c :: n :: bytes) = p'.run bytes := by
  have hNot : ¬ guiMaxPayload < n := UInt8.not_lt.mpr hRoom
  refine ⟨((p.guiProtocolFeed c).1.guiProtocolFeed n).1, ?_, ?_, fun bytes => ?_⟩
  · simp only [guiProtocolFeed, hState, if_neg hNot]
    refine ⟨hRoom, Nat.zero_le _, ?_, rfl, rfl, rfl, ?_, fun i hi => absurd hi (Nat.not_lt_zero i)⟩
    · by_cases hZero : n = 0
      · subst hZero
        rfl
      · have hPos : 0 < n.toNat :=
          Nat.pos_of_ne_zero fun h => hZero (UInt8.toNat_inj.mp h)
        simp [hZero, hPos]
    · simp
  · simp [guiProtocolFeed, hState, hNot]
  · rw [run_cons_of_silent (by simp [guiProtocolFeed, hState]), run_cons_of_silent]
    simp [guiProtocolFeed, hState, hNot]

/-- One byte of the payload. -/
theorem Filling.feed {c n b : UInt8} {read : List UInt8} (h : Filling c n read p)
    (hMore : read.length < n.toNat) :
    Filling c n (read ++ [b]) (p.guiProtocolFeed b).1 ∧
      (p.guiProtocolFeed b).2 = [.store read.length] ∧
      (p.guiProtocolFeed b).1.guiRenderer = p.guiRenderer := by
  have hState := h.state
  rw [if_pos hMore] at hState
  have hRoom : n.toNat ≤ 32 := h.room
  have hNext : (p.index + 1).toNat = read.length + 1 := by
    rw [UInt8.toNat_add, h.index]
    exact Nat.mod_eq_of_lt (by simp; omega)
  have hFull : p.len ≤ p.index + 1 ↔ ¬ read.length + 1 < n.toNat := by
    rw [UInt8.le_iff_toNat_le, hNext, h.len]
    exact Nat.not_lt.symm
  simp only [guiProtocolFeed, hState, h.index]
  refine ⟨⟨h.room, ?_, ?_, ?_, ?_, ?_, ?_, ?_⟩, trivial, ?_⟩
  · simp; omega
  · rw [List.length_append, List.length_singleton]
    by_cases hLast : read.length + 1 < n.toNat
    · rw [if_neg (hFull.not.mpr (not_not.mpr hLast)), if_pos hLast]
    · rw [if_pos (hFull.mpr hLast), if_neg hLast]
  · split <;> exact h.cmd
  · split <;> exact h.len
  · rw [List.length_append, List.length_singleton, ← hNext]
    split <;> rfl
  · rw [XorSum.xorSum_concat, ← UInt8.xor_assoc, ← h.checksum]
    split <;> rfl
  · intro i hi
    rw [List.length_append, List.length_singleton] at hi
    have hBuffer : Function.update p.payload read.length b i = (read ++ [b]).getD i 0 := by
      by_cases hLast : i = read.length
      · subst hLast
        simp
      · rw [Function.update_of_ne hLast, h.payload i (by omega),
          List.getD_append _ _ _ _ (by omega)]
    split <;> exact hBuffer
  · split <;> rfl

/-- The payload, or what there is of it. -/
theorem Filling.run {c n : UInt8} {read : List UInt8} (h : Filling c n read p)
    (bytes : List UInt8) (hFits : read.length + bytes.length ≤ n.toNat) :
    ∃ p', Filling c n (read ++ bytes) p' ∧ p'.guiRenderer = p.guiRenderer ∧
      ∀ rest, p.run (bytes ++ rest) = p'.run rest := by
  induction bytes generalizing p read with
  | nil => exact ⟨p, by rwa [List.append_nil], rfl, fun _ => rfl⟩
  | cons b bytes ih =>
    rw [List.length_cons] at hFits
    obtain ⟨hNext, hStore, hRenderer⟩ := h.feed (b := b) (by omega)
    obtain ⟨p', h', hRenderer', hRun⟩ := ih hNext (by simp; omega)
    refine ⟨p', ?_, hRenderer'.trans hRenderer, fun rest => ?_⟩
    · rw [List.append_cons]
      exact h'
    · rw [List.cons_append, run_cons_of_silent (by rw [hStore]; rfl)]
      exact hRun rest

/-- The calls of the renderer depend on the payload only. -/
theorem command_congr {c n : UInt8} {payload payload' : Nat → UInt8}
    (h : ∀ i, i < n.toNat → payload i = payload' i) :
    command c n payload = command c n payload' := by
  unfold command
  repeat' split
  all_goals try rfl
  all_goals (rename_i hLen; subst hLen)
  · rw [h 0 (by decide)]
  · rw [h 0 (by decide), h 1 (by decide), h 2 (by decide)]
  · rw [h 0 (by decide), h 1 (by decide), h 2 (by decide), h 3 (by decide), h 4 (by decide)]

/-- What a packet with this header, payload and checksum executes. -/
def executed (c n : UInt8) (payload : List UInt8) (ck : UInt8) : List Draw :=
  if ck = c ^^^ n ^^^ XorSum.xorSum payload then
    (command c n fun i => payload.getD i 0).toList
  else []

/-- The checksum of a packet. -/
theorem Filling.checked {c n k : UInt8} {read : List UInt8} (h : Filling c n read p)
    (hRenderer : p.guiRenderer = true) (hFull : read.length = n.toNat) :
    (p.guiProtocolFeed k).1.state = .sof0 ∧
      (p.guiProtocolFeed k).1.guiRenderer = true ∧
      (p.guiProtocolFeed k).2.filterMap Event.draw? = executed c n read k := by
  have hState := h.state
  rw [if_neg (by omega)] at hState
  have hCommand : command p.cmd p.len p.payload = command c n fun i => read.getD i 0 := by
    rw [h.cmd, h.len]
    exact command_congr fun i hi => h.payload i (by omega)
  simp only [guiProtocolFeed, hState, executed, ← h.checksum, ← hCommand]
  refine ⟨trivial, hRenderer, ?_⟩
  split
  · simp only [execCmd, hRenderer]
    cases command p.cmd p.len p.payload <;> rfl
  · rfl

/-- **A packet** from its first byte to its last, whatever its body. -/
theorem run_packet {c n k : UInt8} {l : List UInt8} (hState : p.state = .sof0)
    (hRenderer : p.guiRenderer = true) (hRoom : n ≤ guiMaxPayload)
    (hLen : l.length = n.toNat) :
    ∃ p' : Parser, p'.state = .sof0 ∧ p'.guiRenderer = true ∧ ∀ rest,
      p.run (sof0 :: sof1 :: c :: n :: (l ++ k :: rest)) =
        ((p'.run rest).1, executed c n l k ++ (p'.run rest).2) := by
  obtain ⟨p₂, hState₂, hRenderer₂, hRun₂⟩ := run_start hState hRenderer
  obtain ⟨p₃, h₃, hRenderer₃, hRun₃⟩ := run_header (c := c) hState₂ hRoom
  obtain ⟨p₄, h₄, hRenderer₄, hRun₄⟩ := h₃.run l (by simp [hLen])
  rw [List.nil_append] at h₄
  have hOn : p₄.guiRenderer = true := hRenderer₄.trans (hRenderer₃.trans hRenderer₂)
  obtain ⟨hEnd, hEndOn, hExec⟩ := h₄.checked (k := k) hOn hLen
  refine ⟨(p₄.guiProtocolFeed k).1, hEnd, hEndOn, fun rest => ?_⟩
  rw [hRun₂, hRun₃, hRun₄, run_cons, hExec]

-- ---------------------------------------------------------------------------
-- A stream as a whole
-- ---------------------------------------------------------------------------

/-- The commands that a stream of bytes contains. -/
def decode : List UInt8 → List Draw
  | a :: b :: rest =>
    if a ≠ sof0 then decode (b :: rest)
    else if b ≠ sof1 then decode rest
    else match rest with
      | c :: n :: body =>
        if guiMaxPayload < n then decode body
        else if body.length ≤ n.toNat then []
        else
          executed c n (body.take n.toNat) (body.getD n.toNat 0) ++
            decode (body.drop (n.toNat + 1))
      | _ => []
  | _ => []
termination_by bytes => bytes.length
decreasing_by
  all_goals simp only [List.length_cons, List.length_drop]
  all_goals omega

/-- A body that is complete: its payload, its checksum and what comes after. -/
theorem split_body {n : UInt8} {body : List UInt8} (h : ¬ body.length ≤ n.toNat) :
    body = body.take n.toNat ++ body.getD n.toNat 0 :: body.drop (n.toNat + 1) := by
  rw [List.getD_eq_getElem _ _ (Nat.lt_of_not_le h), List.getElem_cons_drop, List.take_append_drop]

/-- **The parser executes the commands that the stream contains.** -/
theorem run_decode (hState : p.state = .sof0) (hRenderer : p.guiRenderer = true)
    (bytes : List UInt8) : (p.run bytes).2 = decode bytes := by
  fun_induction decode bytes generalizing p with
  | case1 a b rest ha ih =>
    have hFeed : p.guiProtocolFeed a = (p, []) := by simp [guiProtocolFeed, hState, ha]
    rw [run_cons, hFeed]
    exact ih hState hRenderer
  | case2 a b rest ha hb ih =>
    obtain rfl := not_not.mp ha
    rw [run_cons_of_silent (by simp [guiProtocolFeed, hState]),
      run_cons_of_silent (by simp [guiProtocolFeed, hState])]
    exact ih (by simp [guiProtocolFeed, hState, hb]) (by simp [guiProtocolFeed, hState, hRenderer])
  | case3 a b ha hb c n body hLong ih =>
    obtain rfl := not_not.mp ha
    obtain rfl := not_not.mp hb
    obtain ⟨p', hState', hRenderer', hRun⟩ := run_start hState hRenderer
    rw [hRun, run_cons_of_silent (by simp [guiProtocolFeed, hState']),
      run_cons_of_silent (by simp [guiProtocolFeed, hState', hLong])]
    exact ih (by simp [guiProtocolFeed, hState', hLong])
      (by simp [guiProtocolFeed, hState', hLong, hRenderer'])
  | case4 a b ha hb c n body hRoom hShort =>
    obtain rfl := not_not.mp ha
    obtain rfl := not_not.mp hb
    obtain ⟨p', hState', hRenderer', hRun⟩ := run_start hState hRenderer
    obtain ⟨p₂, h₂, -, hRun₂⟩ := run_header (c := c) hState' (UInt8.not_lt.mp hRoom)
    obtain ⟨p₃, -, -, hRun₃⟩ := h₂.run body (by simpa using hShort)
    have hBody := hRun₃ []
    rw [List.append_nil] at hBody
    rw [hRun, hRun₂, hBody, run_nil]
  | case5 a b ha hb c n body hRoom hFull ih =>
    obtain rfl := not_not.mp ha
    obtain rfl := not_not.mp hb
    obtain ⟨p', hState', hRenderer', hRun⟩ := run_packet (c := c) (k := body.getD n.toNat 0)
      (l := body.take n.toNat) hState hRenderer (UInt8.not_lt.mp hRoom) (by simp; omega)
    rw [split_body hFull, hRun, ih hState' hRenderer', ← split_body hFull]
  | case6 a b rest ha hb hShort =>
    obtain rfl := not_not.mp ha
    obtain rfl := not_not.mp hb
    obtain ⟨p', hState', -, hRun⟩ := run_start hState hRenderer
    rw [hRun]
    match rest with
    | [] => rfl
    | [c] => rw [run_cons_of_silent (by simp [guiProtocolFeed, hState']), run_nil]
    | c :: n :: body => exact absurd rfl (hShort c n body)
  | case7 bytes hShort =>
    match bytes with
    | [] => rfl
    | [a] => rw [run_cons_of_silent (by simp [guiProtocolFeed, hState]), run_nil]
    | a :: b :: rest => exact absurd rfl (hShort a b rest)

end Parser

end Gui

end TinyRtos
