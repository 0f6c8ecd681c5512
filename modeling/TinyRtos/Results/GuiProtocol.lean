import TinyRtos.Gui.Parser

/-!
# TinyRTOS — drawing over a serial line

The bytes of the packets go out through `dispatch_bytes`; the renderer's side
reads whatever arrives. For every stream of bytes, from power-on:

* `executes_decode` — the commands executed are those the stream contains;
* `drawn_roundTrip` — packets are executed, all of them and in order, with any
  bytes between them that do not begin a packet;
* `drawn_sent` — nothing is executed but packets that were sent whole, in the
  order of the stream;
* `corrupted_dropped` — a packet with one byte changed executes nothing, and
  nothing behind it is lost;
* `resync` — a parser that is anywhere finds back after a gap;
* `resync_iff` — when a packet survives the noise before it;
* `stores_inBounds` — the payload buffer is written inside its bounds.
-/

namespace TinyRtos

namespace Gui

namespace Parser

variable {p : Parser}

/-- The renderer is set and no byte has arrived. -/
def ready : Parser := static.guiProtocolSetRenderer

/-- Drawing calls, each after some other bytes: what is on the line. -/
def onLine (frames : List (List UInt8 × Draw)) : List UInt8 :=
  frames.flatMap fun f => f.1 ++ guiDraw (some dispatchBytes) f.2

/-- **What the parser executes** of any stream of bytes. -/
theorem executes_decode (bytes : List UInt8) : (ready.run bytes).2 = decode bytes :=
  run_decode rfl rfl bytes

-- ---------------------------------------------------------------------------
-- Packets
-- ---------------------------------------------------------------------------

theorem command_of_draw (d : Draw) :
    command d.cmd (UInt8.ofNat d.payload.length) (fun i => d.payload.getD i 0) = some d := by
  cases d <;> rfl

/-- What a command was read from. -/
theorem of_command {c n : UInt8} {payload : List UInt8} {d : Draw}
    (hLen : payload.length = n.toNat)
    (h : command c n (fun i => payload.getD i 0) = some d) : d.cmd = c ∧ d.payload = payload := by
  unfold command at h
  repeat' split at h
  all_goals first | cases h; done | skip
  all_goals
    rename_i hCmd hN
    subst hCmd hN
    cases h
    refine ⟨rfl, ?_⟩
  · obtain ⟨a, rfl⟩ := List.length_eq_one_iff.mp hLen
    rfl
  · obtain ⟨a, b, c, rfl⟩ := List.length_eq_three.mp hLen
    rfl
  · match payload, hLen with
    | [a, b, c, d, e], _ => rfl
  · exact (List.length_eq_zero_iff.mp hLen).symm

theorem executed_draw (d : Draw) :
    executed d.cmd (UInt8.ofNat d.payload.length) d.payload
      (d.cmd ^^^ UInt8.ofNat d.payload.length ^^^ XorSum.xorSum d.payload) = [d] := by
  rw [executed, if_pos rfl, command_of_draw]
  rfl

/-- A packet, read from its first byte on. -/
theorem run_draw (hState : p.state = .sof0) (hRenderer : p.guiRenderer = true) (d : Draw) :
    ∃ p' : Parser, p'.state = .sof0 ∧ p'.guiRenderer = true ∧ ∀ rest,
      p.run (guiDraw (some dispatchBytes) d ++ rest) = ((p'.run rest).1, d :: (p'.run rest).2) := by
  have hLen : d.payload.length = (UInt8.ofNat d.payload.length).toNat := by
    cases d <;> rfl
  have hRoom : UInt8.ofNat d.payload.length ≤ guiMaxPayload := by
    have hFive := d.payload_length
    rw [UInt8.le_iff_toNat_le, ← hLen]
    show d.payload.length ≤ 32
    omega
  obtain ⟨p', hState', hRenderer', hRun⟩ := run_packet (c := d.cmd)
    (k := d.cmd ^^^ UInt8.ofNat d.payload.length ^^^ XorSum.xorSum d.payload)
    hState hRenderer hRoom hLen
  refine ⟨p', hState', hRenderer', fun rest => ?_⟩
  rw [executed_draw] at hRun
  rw [guiDraw_eq, packet_eq]
  simpa using hRun rest

/-- Bytes that do not begin a packet. -/
theorem run_noise (hState : p.state = .sof0) {noise : List UInt8} (hNoise : sof0 ∉ noise) :
    p.run noise = (p, []) := by
  induction noise with
  | nil => rfl
  | cons b rest ih =>
    have hb : b ≠ sof0 := fun h => hNoise (h ▸ List.mem_cons_self ..)
    have hFeed : p.guiProtocolFeed b = (p, []) := by simp [guiProtocolFeed, hState, hb]
    rw [run_cons, hFeed, ih fun h => hNoise (List.mem_cons_of_mem _ h)]
    rfl

theorem run_onLine (hState : p.state = .sof0) (hRenderer : p.guiRenderer = true)
    {frames : List (List UInt8 × Draw)} (hNoise : ∀ f ∈ frames, sof0 ∉ f.1) :
    (p.run (onLine frames)).2 = frames.map Prod.snd ∧
      (p.run (onLine frames)).1.state = .sof0 := by
  induction frames generalizing p with
  | nil => exact ⟨rfl, hState⟩
  | cons f rest ih =>
    obtain ⟨p', hState', hRenderer', hRun⟩ := run_draw hState hRenderer f.2
    have hFirst := run_noise hState (hNoise f (List.mem_cons_self ..))
    obtain ⟨hDraws, hEnd⟩ := ih hState' hRenderer' fun g hg => hNoise g (List.mem_cons_of_mem _ hg)
    have hOnLine : onLine (f :: rest) =
        f.1 ++ (guiDraw (some dispatchBytes) f.2 ++ onLine rest) := by
      simp [onLine]
    rw [hOnLine, run_append, hFirst, hRun, List.nil_append, List.map_cons, hDraws]
    exact ⟨rfl, hEnd⟩

/-- **Round trip.** What was drawn is executed, whatever comes between the
packets, as long as it does not look like the beginning of one. -/
theorem drawn_roundTrip (frames : List (List UInt8 × Draw)) (hNoise : ∀ f ∈ frames, sof0 ∉ f.1) :
    (ready.run (onLine frames)).2 = frames.map Prod.snd ∧
      (ready.run (onLine frames)).1.state = .sof0 :=
  run_onLine rfl rfl hNoise

theorem drawn_roundTrip_crossing :
    (ready.run (onLine [([], .clear 0), ([0x5A, 0x00], .line 0xA5 0x5A 4 0 4)])).2 =
      [.clear 0, .line 0xA5 0x5A 4 0 4] :=
  (drawn_roundTrip [([], .clear 0), ([0x5A, 0x00], .line 0xA5 0x5A 4 0 4)] (by decide)).1

-- ---------------------------------------------------------------------------
-- What was executed was sent
-- ---------------------------------------------------------------------------

/-- `draws` were sent in `bytes`, in this order, one after the other. -/
def SentIn (draws : List Draw) (bytes : List UInt8) : Prop :=
  ∃ frames tail, draws = frames.map Prod.snd ∧ bytes = onLine frames ++ tail

theorem SentIn.none (bytes : List UInt8) : SentIn [] bytes := ⟨[], bytes, rfl, rfl⟩

theorem SentIn.after {draws : List Draw} {bytes : List UInt8} (h : SentIn draws bytes)
    (before : List UInt8) : SentIn draws (before ++ bytes) := by
  obtain ⟨frames, tail, rfl, rfl⟩ := h
  cases frames with
  | nil => exact SentIn.none _
  | cons f rest => exact ⟨(before ++ f.1, f.2) :: rest, tail, rfl, by simp [onLine]⟩

theorem SentIn.cons {draws : List Draw} {bytes : List UInt8} (h : SentIn draws bytes) (d : Draw) :
    SentIn (d :: draws) (guiDraw (some dispatchBytes) d ++ bytes) := by
  obtain ⟨frames, tail, rfl, rfl⟩ := h
  exact ⟨([], d) :: frames, tail, rfl, by simp [onLine]⟩

theorem decode_sentIn (bytes : List UInt8) : SentIn (decode bytes) bytes := by
  fun_induction decode bytes with
  | case1 a b rest _ ih => exact ih.after [a]
  | case2 a b rest _ _ ih => exact ih.after [a, b]
  | case3 a b _ _ c n body _ ih => exact ih.after [a, b, c, n]
  | case4 | case6 | case7 => exact SentIn.none _
  | case5 a b ha hb c n body hRoom hFull ih =>
    obtain rfl := not_not.mp ha
    obtain rfl := not_not.mp hb
    have hLen : (body.take n.toNat).length = n.toNat := by
      rw [List.length_take]
      omega
    generalize hPayload : body.take n.toNat = payload at hLen
    have hSplit : sof0 :: sof1 :: c :: n :: body =
        (sof0 :: sof1 :: c :: n :: (payload ++ [body.getD n.toNat 0])) ++
          body.drop (n.toNat + 1) := by
      conv_lhs => rw [split_body hFull, hPayload]
      simp
    rw [hSplit]
    unfold executed
    split
    · rename_i hSum
      cases hCommand : command c n fun i => payload.getD i 0 with
      | none => exact ih.after _
      | some d =>
        obtain ⟨rfl, rfl⟩ := of_command hLen hCommand
        have hPacket : sof0 :: sof1 :: d.cmd :: n :: (d.payload ++ [body.getD n.toNat 0]) =
            guiDraw (some dispatchBytes) d := by
          rw [guiDraw_eq, packet_eq, hLen, UInt8.ofNat_toNat, hSum]
        rw [hPacket]
        exact ih.cons d
    · exact ih.after _

/-- **Nothing is executed that was not sent.** The packets of the commands
executed lie in the stream whole, one behind the other, in their order. -/
theorem drawn_sent (bytes : List UInt8) : SentIn (ready.run bytes).2 bytes := by
  rw [run_decode rfl rfl]
  exact decode_sentIn bytes

-- ---------------------------------------------------------------------------
-- Transmission errors
-- ---------------------------------------------------------------------------

/-- What is behind the start bytes, with its length where it belongs: a command,
a payload and a checksum. -/
theorem body_split {n : UInt8} {body : List UInt8} (hLen : body.length = n.toNat + 3)
    (hAt : body[1]? = some n) :
    ∃ c payload ck, body = c :: n :: (payload ++ [ck]) ∧ payload.length = n.toNat := by
  match body with
  | [] | [_] => cases hAt
  | c :: m :: rest =>
    obtain rfl : m = n := Option.some.inj hAt
    have hRest : rest ≠ [] := by
      rintro rfl
      simp at hLen
    refine ⟨c, rest.dropLast, rest.getLast hRest, ?_, ?_⟩
    · rw [List.dropLast_append_getLast]
    · rw [List.length_dropLast]
      simp at hLen
      omega

theorem xorSum_body (c n : UInt8) (payload : List UInt8) :
    XorSum.xorSum (c :: n :: (payload ++ [c ^^^ n ^^^ XorSum.xorSum payload])) = 0 := by
  have hCheck : c ^^^ n ^^^ XorSum.xorSum payload = XorSum.xorSum (c :: n :: payload) := by
    simp [UInt8.xor_assoc]
  rw [hCheck]
  exact XorSum.xorSum_self (c :: n :: payload)

/-- **A packet with one byte changed**, but for the start bytes and the length,
executes nothing, and what is behind it is read as if it had not been there. -/
theorem corrupted_dropped (d : Draw) {i : Nat} (b : UInt8)
    (hBody : 2 ≤ i) (hLength : i ≠ 3)
    (hChanged : ∃ old ≠ b, (guiDraw (some dispatchBytes) d)[i]? = some old)
    (rest : List UInt8) :
    (ready.run ((guiDraw (some dispatchBytes) d).set i b ++ rest)).2 = (ready.run rest).2 := by
  obtain ⟨old, hNe, hOld⟩ := hChanged
  obtain ⟨i, rfl⟩ := Nat.exists_eq_add_of_le' hBody
  rw [guiDraw_eq, packet_eq] at hOld ⊢
  generalize hN : UInt8.ofNat d.payload.length = n at hOld ⊢
  generalize hB : d.cmd :: n :: (d.payload ++ [d.cmd ^^^ n ^^^ XorSum.xorSum d.payload]) = body
    at hOld ⊢
  have hLen : d.payload.length = n.toNat := by
    rw [← hN]
    cases d <;> rfl
  have hAt : body[i]? = some old := hOld
  -- the packet that arrives has the same length, and another sum
  obtain ⟨c, payload, ck, hArrives, hPayload⟩ := body_split (n := n)
    (show (body.set i b).length = n.toNat + 3 by rw [List.length_set, ← hB]; simp [hLen])
    (by rw [List.getElem?_set_ne (by omega), ← hB]; rfl)
  have hSum : ck ≠ c ^^^ n ^^^ XorSum.xorSum payload := by
    rintro rfl
    refine hNe (((XorSum.xorSum_set hAt).mp ?_).symm)
    rw [hArrives, ← hB, xorSum_body, xorSum_body]
  have hRoom : n ≤ guiMaxPayload := by
    have hFive := d.payload_length
    rw [UInt8.le_iff_toNat_le, ← hLen]
    show d.payload.length ≤ 32
    omega
  obtain ⟨p', hState', hRenderer', hRun⟩ := run_packet (p := ready) (c := c) (k := ck) rfl rfl
    hRoom hPayload
  have hPacket : (sof0 :: sof1 :: body).set (i + 2) b ++ rest =
      sof0 :: sof1 :: c :: n :: (payload ++ ck :: rest) := by
    rw [List.set_cons_succ, List.set_cons_succ, hArrives]
    simp
  rw [hPacket, hRun, executed, if_neg hSum, List.nil_append, run_decode hState' hRenderer',
    run_decode rfl rfl]

theorem corrupted_dropped_colour :
    (ready.run ((guiDraw (some dispatchBytes) (.clear 0)).set 4 0xA5 ++
      guiDraw (some dispatchBytes) .present)).2 = [.present] :=
  (corrupted_dropped (.clear 0) (i := 4) 0xA5 (by decide) (by decide) ⟨0, by decide, rfl⟩
    (guiDraw (some dispatchBytes) .present)).trans (by decide)

-- ---------------------------------------------------------------------------
-- Anywhere in a packet
-- ---------------------------------------------------------------------------

/-- What holds between two bytes. `RX_LEN1` is a state that nothing leads to. -/
structure Sound (p : Parser) : Prop where
  guiRenderer : p.guiRenderer = true
  notLen1     : p.state ≠ .len1
  payload     : p.state = .payload → p.index.toNat < p.len.toNat ∧ p.len.toNat ≤ 32

/-- How many bytes the parser is from the end of the packet it is in, at most. -/
def left (p : Parser) : Nat :=
  match p.state with
  | .sof0 => 0
  | .sof1 => 36
  | .cmd => 35
  | .len0 => 34
  | .len1 => 1
  | .payload => p.len.toNat - p.index.toNat + 1
  | .checksum => 1

theorem ready_sound : Sound ready := ⟨rfl, nofun, nofun⟩

theorem execCmd_no_store (p : Parser) (i : Nat) : .store i ∉ p.execCmd := by
  unfold execCmd
  split
  · exact List.not_mem_nil
  · cases command p.cmd p.len p.payload <;> simp

theorem Sound.of_state (state : RxState) (hState : p.state = state)
    (hRenderer : p.guiRenderer = true) (hOther : state ≠ .len1 ∧ state ≠ .payload) : Sound p :=
  ⟨hRenderer, hState ▸ hOther.1, fun h => absurd (hState.symm.trans h) hOther.2⟩

/-- One byte: the buffer is not overrun, and away from a start byte the end of
the packet comes nearer. -/
theorem Sound.feed (h : Sound p) (b : UInt8) :
    Sound (p.guiProtocolFeed b).1 ∧
      (∀ i, .store i ∈ (p.guiProtocolFeed b).2 → i < 32) ∧
      (b ≠ sof0 → (p.guiProtocolFeed b).1.left ≤ p.left - 1) := by
  obtain ⟨hRenderer, hNot, hPayload⟩ := h
  cases hState : p.state with
  | sof0 =>
    simp only [guiProtocolFeed, hState]
    refine ⟨⟨?_, ?_, ?_⟩, fun _ h => absurd h List.not_mem_nil, fun hb => ?_⟩
    · split <;> exact hRenderer
    · split
      · intro h
        cases h
      · exact hNot
    · split
      · intro h
        cases h
      · exact hPayload
    · rw [if_neg hb]
      simp [left, hState]
  | sof1 =>
    simp only [guiProtocolFeed, hState]
    refine ⟨⟨hRenderer, ?_, ?_⟩, fun _ h => absurd h List.not_mem_nil, fun _ => ?_⟩
    · split <;> (intro h; cases h)
    · split <;> (intro h; cases h)
    · split <;> simp [left, hState]
  | cmd =>
    simp only [guiProtocolFeed, hState]
    exact ⟨.of_state .len0 rfl hRenderer (by decide), fun _ h => absurd h List.not_mem_nil,
      fun _ => by simp [left, hState]⟩
  | len0 =>
    simp only [guiProtocolFeed, hState]
    split
    · exact ⟨.of_state .sof0 rfl hRenderer (by decide), fun _ h => absurd h List.not_mem_nil,
        fun _ => by simp [left]⟩
    · rename_i hRoom
      have hLe : b.toNat ≤ 32 := UInt8.not_lt.mp hRoom
      by_cases hZero : b = 0
      · subst hZero
        exact ⟨.of_state .checksum rfl hRenderer (by decide), fun _ h => absurd h List.not_mem_nil,
          fun _ => by simp [left, hState]⟩
      · have hPos : 0 < b.toNat := Nat.pos_of_ne_zero fun h => hZero (UInt8.toNat_inj.mp h)
        rw [if_neg hZero]
        refine ⟨⟨hRenderer, by simp, fun _ => ⟨hPos, hLe⟩⟩,
          fun _ h => absurd h List.not_mem_nil, fun _ => ?_⟩
        simp only [left, hState]
        show b.toNat - 0 + 1 ≤ 33
        omega
  | len1 => exact absurd hState hNot
  | payload =>
    obtain ⟨hLt, hLe⟩ := hPayload hState
    have hNext : (p.index + 1).toNat = p.index.toNat + 1 := by
      rw [UInt8.toNat_add]
      exact Nat.mod_eq_of_lt (by simp; omega)
    simp only [guiProtocolFeed, hState]
    refine ⟨⟨?_, ?_, fun hOn => ?_⟩, fun i hi => ?_, fun _ => ?_⟩
    · split <;> exact hRenderer
    · split <;> (intro h; cases h)
    · split at hOn
      · cases hOn
      · rename_i hMore
        rw [UInt8.le_iff_toNat_le, hNext] at hMore
        rw [if_neg (by rw [UInt8.le_iff_toNat_le, hNext]; exact hMore)]
        show (p.index + 1).toNat < p.len.toNat ∧ p.len.toNat ≤ 32
        omega
    · obtain rfl : i = p.index.toNat := by simpa using hi
      omega
    · split
      · simp only [left, hState]
        omega
      · simp only [left, hState, hNext]
        omega
  | checksum =>
    simp only [guiProtocolFeed, hState]
    refine ⟨.of_state .sof0 rfl hRenderer (by decide), fun i hi => ?_, fun _ => by simp [left]⟩
    split at hi
    · exact absurd hi (execCmd_no_store p i)
    · cases hi

theorem Sound.run (h : Sound p) (bytes : List UInt8) : Sound (p.run bytes).1 := by
  induction bytes generalizing p with
  | nil => exact h
  | cons b rest ih =>
    rw [run_cons]
    exact ih (h.feed b).1

theorem left_run (h : Sound p) {gap : List UInt8} (hGap : sof0 ∉ gap) :
    (p.run gap).1.left ≤ p.left - gap.length := by
  induction gap generalizing p with
  | nil => exact Nat.le_refl _
  | cons b rest ih =>
    obtain ⟨hNext, -, hNearer⟩ := h.feed b
    have hFirst := hNearer fun hb => hGap (hb ▸ List.mem_cons_self ..)
    have hRest := ih hNext fun hMem => hGap (List.mem_cons_of_mem _ hMem)
    rw [run_cons, List.length_cons]
    simp only
    omega

theorem state_of_left (h : p.left = 0) : p.state = .sof0 := by
  unfold left at h
  split at h
  · assumption
  all_goals omega

/-- Wherever the parser is, it is at most 36 bytes from the end of a packet. -/
theorem left_le (h : Sound p) : p.left ≤ 36 := by
  unfold left
  split
  case h_6 hState =>
    have hLen := (h.payload hState).2
    omega
  all_goals omega

/-- **Finding back.** After any bytes, a gap of 36 bytes without the first start
byte brings the parser back to where it looks for packets: all that are sent
from there on are executed. -/
theorem resync (before gap : List UInt8) (frames : List (List UInt8 × Draw))
    (hGap   : sof0 ∉ gap) (hLong : 36 ≤ gap.length)
    (hNoise : ∀ f ∈ frames, sof0 ∉ f.1) :
    (ready.run (before ++ gap ++ onLine frames)).2 =
      (ready.run (before ++ gap)).2 ++ frames.map Prod.snd := by
  have hBefore := ready_sound.run before
  have hEnd := (ready_sound.run (before ++ gap))
  have hLeft : (ready.run (before ++ gap)).1.left = 0 := by
    have hNear := left_run hBefore hGap
    have hMost := left_le hBefore
    rw [run_append]
    simp only
    omega
  rw [run_append]
  simp only
  rw [(run_onLine (state_of_left hLeft) hEnd.guiRenderer hNoise).1]

theorem resync_afterHeader :
    (ready.run ([0xA5, 0x5A, 0x03, 0x20] ++ List.replicate 36 0 ++
      onLine [([], .present)])).2 = [.present] :=
  (resync [0xA5, 0x5A, 0x03, 0x20] (List.replicate 36 0) [([], .present)] (by decide) (by decide)
    (by decide)).trans (by decide)

/-- **Inside the buffer.** Whatever arrives, the parser stores into its payload
buffer inside its 32 bytes. -/
theorem stores_inBounds (bytes : List UInt8) (i : Nat)
    (h : .store i ∈ (Runs.feed guiProtocolFeed ready bytes).2) : i < 32 := by
  have hInv := Runs.feed_induct guiProtocolFeed ready
    (fun _ p es => Sound p ∧ ∀ i, .store i ∈ es → i < 32) ⟨ready_sound, nofun⟩
    (fun _ b p es hOld => by
      obtain ⟨hNext, hStore, -⟩ := hOld.1.feed b
      refine ⟨hNext, fun i hi => ?_⟩
      rcases List.mem_append.mp hi with hi | hi
      · exact hOld.2 i hi
      · exact hStore i hi) bytes
  exact hInv.2 i h

theorem stores_inBounds_last :
    .store 31 ∈ (Runs.feed guiProtocolFeed ready
      ([0xA5, 0x5A, 0x00, 0x20] ++ List.replicate 32 0)).2 ∧ 31 < 32 :=
  have hLast : .store 31 ∈ (Runs.feed guiProtocolFeed ready
      ([0xA5, 0x5A, 0x00, 0x20] ++ List.replicate 32 0)).2 := by decide
  ⟨hLast, stores_inBounds _ 31 hLast⟩

-- ---------------------------------------------------------------------------
-- Noise that ends with a start byte
-- ---------------------------------------------------------------------------

/-- How many times the first start byte stands at the end. -/
def openStarts (noise : List UInt8) : Nat := (noise.reverse.takeWhile fun b => b = sof0).length

/-- The two start bytes stand nowhere in a row. -/
def NoStart (noise : List UInt8) : Prop := ¬ [sof0, sof1] <:+: noise

theorem openStarts_concat (noise : List UInt8) (b : UInt8) :
    openStarts (noise ++ [b]) = if b = sof0 then openStarts noise + 1 else 0 := by
  unfold openStarts
  by_cases hb : b = sof0
  · simp [hb]
  · simp [hb]

/-- The bytes so far end with the first start byte. -/
theorem exists_concat_of_openStarts {noise : List UInt8} (h : 0 < openStarts noise) :
    ∃ before, noise = before ++ [sof0] := by
  rcases List.eq_nil_or_concat noise with rfl | ⟨before, b, rfl⟩
  · exact absurd h (Nat.lt_irrefl 0)
  · rw [List.concat_eq_append, openStarts_concat] at h
    split at h
    · rename_i hb
      exact ⟨before, by rw [hb, List.concat_eq_append]⟩
    · exact absurd h (Nat.lt_irrefl 0)

/-- After noise the parser looks for the second start byte if it has seen the
first an odd number of times: the second of two is not taken for a first. -/
theorem run_noStart {noise : List UInt8} (hNoise : NoStart noise) :
    (ready.run noise).2 = [] ∧
      (ready.run noise).1.state = if openStarts noise % 2 = 0 then .sof0 else .sof1 := by
  induction noise using List.reverseRecOn with
  | nil => exact ⟨rfl, rfl⟩
  | append_singleton before b ih =>
    have hBefore : NoStart before := fun h => hNoise (h.trans (List.infix_append' [] before [b]))
    obtain ⟨hDraws, hState⟩ := ih hBefore
    rw [run_append, hDraws, run_cons, run_nil, openStarts_concat]
    by_cases hEven : openStarts before % 2 = 0
    · rw [if_pos hEven] at hState
      by_cases hb : b = sof0
      · have hOdd : (openStarts before + 1) % 2 ≠ 0 := by omega
        simp [guiProtocolFeed, hState, hb, hOdd]
      · simp [guiProtocolFeed, hState, hb]
    · rw [if_neg hEven] at hState
      have hNot : b ≠ sof1 := by
        rintro rfl
        have hOpen : 0 < openStarts before := by omega
        obtain ⟨pre, rfl⟩ := exists_concat_of_openStarts hOpen
        exact hNoise ⟨pre, [], by simp⟩
      by_cases hb : b = sof0
      · have hEven' : (openStarts before + 1) % 2 = 0 := by omega
        subst hb
        simp [guiProtocolFeed, hState, hNot, hEven']
      · simp [guiProtocolFeed, hState, hNot, hb]

theorem onLine_length (frames : List (List UInt8 × Draw)) {d : Draw}
    (h : frames.map Prod.snd = [d]) :
    (guiDraw (some dispatchBytes) d).length ≤ (onLine frames).length := by
  obtain ⟨f, rfl⟩ : ∃ f, frames = [f] := by
    rw [← List.length_eq_one_iff, ← List.length_map, h]
    rfl
  obtain rfl : f.2 = d := List.singleton_inj.mp h
  simp [onLine]

/-- **A packet behind noise** without a start is executed exactly if the noise
does not end with the first start byte, an odd number of times. -/
theorem resync_iff (noise : List UInt8) (d : Draw) (hNoise : NoStart noise) :
    (ready.run (noise ++ guiDraw (some dispatchBytes) d)).2 = [d] ↔ openStarts noise % 2 = 0 := by
  obtain ⟨hDraws, hState⟩ := run_noStart hNoise
  have hRenderer := (ready_sound.run noise).guiRenderer
  rw [run_append, hDraws, List.nil_append]
  by_cases hEven : openStarts noise % 2 = 0
  · rw [if_pos hEven] at hState
    obtain ⟨p', -, -, hRun⟩ := run_draw hState hRenderer d
    have hDraw := hRun []
    rw [List.append_nil, run_nil] at hDraw
    rw [hDraw]
    exact iff_of_true rfl hEven
  · rw [if_neg hEven] at hState
    refine iff_of_false (fun hDraw => ?_) hEven
    -- the first byte is used up, and what is left is too short for the packet
    generalize ready.run noise = r at hState hRenderer hDraw
    obtain ⟨rest, hPacket⟩ : ∃ rest, guiDraw (some dispatchBytes) d = sof0 :: rest :=
      ⟨_, by rw [guiDraw_eq, packet_eq]⟩
    have hNot : sof0 ≠ sof1 := by decide
    rw [hPacket, run_cons_of_silent (by simp [guiProtocolFeed, hState]),
      run_decode (by simp [guiProtocolFeed, hState, hNot])
        (by simp [guiProtocolFeed, hState, hRenderer])] at hDraw
    obtain ⟨frames, tail, hFrames, hRest⟩ := decode_sentIn rest
    have hLen := onLine_length frames (hFrames.symm.trans hDraw)
    rw [hPacket, List.length_cons] at hLen
    have hLen' := congrArg List.length hRest
    rw [List.length_append] at hLen'
    omega

theorem resync_iff_open :
    (ready.run ([0x00, 0xA5] ++ guiDraw (some dispatchBytes) .present)).2 ≠ [.present] :=
  (resync_iff [0x00, 0xA5] .present (by unfold NoStart; decide)).not.mpr (by decide)

end Parser

end Gui

end TinyRtos
