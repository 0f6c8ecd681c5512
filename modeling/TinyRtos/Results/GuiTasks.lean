import TinyRtos.Results.GuiProtocol
import TinyRtos.Results.Lines

/-!
# TinyRTOS — drawing from several tasks

Tasks draw at the same time: each packet goes out through `dispatch_bytes` under
the TX mutex, and the renderer's side reads what comes of it.

* `draws_executed` — in every run the parser has executed the packets that are
  out, each once and in the order of the mutex, which is every task's own; and
  of what a task has drawn only the packet it is at can be missing.
-/

namespace TinyRtos

namespace Gui.Parser

/-- The bytes of a drawing call. -/
def drawBytes (d : Draw) : List UInt8 := guiDraw (some dispatchBytes) d

/-- A packet that is cut off executes nothing. -/
theorem decode_truncated (d : Draw) {written left : List UInt8}
    (h : written ++ left = drawBytes d) (hLeft : left ≠ []) : decode written = [] := by
  rw [drawBytes, guiDraw_eq, packet_eq] at h
  have hFive := d.payload_length
  have hLen : (UInt8.ofNat d.payload.length).toNat = d.payload.length := by
    cases d <;> rfl
  fun_cases decode written with
  | case1 a b rest ha =>
    exact absurd (List.cons.inj h).1 ha
  | case2 a b rest ha hb =>
    exact absurd (List.cons.inj (List.cons.inj h).2).1 hb
  | case3 a b ha hb c n body hLong =>
    simp only [List.cons_append, List.cons.injEq] at h
    obtain ⟨-, -, -, rfl, -⟩ := h
    rw [UInt8.lt_iff_toNat_lt, hLen] at hLong
    have hRoom : 32 < d.payload.length := hLong
    omega
  | case4 => rfl
  | case5 a b ha hb c n body hRoom hFull =>
    simp only [List.cons_append, List.cons.injEq] at h
    obtain ⟨-, -, -, rfl, hBody⟩ := h
    have hLengths := congrArg List.length hBody
    have hPos := List.length_pos_iff.mpr hLeft
    rw [hLen] at hFull
    simp only [List.length_append, List.length_singleton] at hLengths
    omega
  | case6 => rfl
  | case7 => rfl

theorem decode_draw (d : Draw) (rest : List UInt8) :
    decode (drawBytes d ++ rest) = d :: decode rest := by
  obtain ⟨p', hState, hRenderer, hRun⟩ := run_draw (p := ready) rfl rfl d
  rw [← run_decode (p := ready) rfl rfl, drawBytes, hRun, run_decode hState hRenderer]

theorem decode_draws (draws : List Draw) (rest : List UInt8) :
    decode (draws.flatMap drawBytes ++ rest) = draws ++ decode rest := by
  induction draws with
  | nil => rfl
  | cons d draws ih => rw [List.flatMap_cons, List.append_assoc, decode_draw, ih, List.cons_append]

end Gui.Parser

namespace Transmit

open Gui Gui.Parser WholeLines

/-- What a task is at writes a packet. -/
def Draws (_ : Transmit) : Label → Prop
  | .lock bytes => ∃ d, bytes = drawBytes d
  | _ => True

instance (c : Transmit) (l : Label) : Decidable (Draws c l) :=
  match l with
  | .lock bytes =>
    decidable_of_iff (((ready.run bytes).2.any fun d => bytes = drawBytes d) = true) <| by
      rw [List.any_eq_true]
      constructor
      · rintro ⟨d, -, hEq⟩
        exact ⟨d, of_decide_eq_true hEq⟩
      · rintro ⟨d, rfl⟩
        refine ⟨d, ?_, decide_eq_true rfl⟩
        have hRun := decode_draw d []
        rw [List.append_nil] at hRun
        rw [run_decode rfl rfl, hRun]
        exact List.mem_cons_self ..
  | .sys _ | .writeChar | .unlock => inferInstanceAs (Decidable True)


/-- What a task is at and has not put out wholly. -/
def unsent : Writer → Option (List UInt8)
  | .idle => none
  | .locking bytes => some bytes
  | .writing written left => if left = [] then none else some (written ++ left)

/-- The packets of one task. -/
def drawsOf (t : Nat) (order : List (Nat × Draw)) : List Draw :=
  order.filterMap fun p => if p.1 = t then some p.2 else none

/-- The lines of packets. -/
def packets (order : List (Nat × Draw)) : List (Nat × List UInt8) :=
  order.map fun p => (p.1, drawBytes p.2)

theorem linesOf_packets (t : Nat) (order : List (Nat × Draw)) :
    linesOf t (packets order) = (drawsOf t order).map drawBytes := by
  unfold linesOf packets drawsOf
  rw [List.filterMap_map, List.map_filterMap]
  refine List.filterMap_congr fun p _ => ?_
  by_cases hp : p.1 = t <;> simp [hp]

theorem packets_flatMap (order : List (Nat × Draw)) :
    (packets order).flatMap Prod.snd = (order.map Prod.snd).flatMap drawBytes := by
  simp [packets, List.flatMap_map]

/-- Lines that are packets, one by one. -/
theorem exists_packets {lines : List (Nat × List UInt8)}
    (h : ∀ p ∈ lines, ∃ d, p.2 = drawBytes d) : ∃ order, lines = packets order := by
  induction lines with
  | nil => exact ⟨[], rfl⟩
  | cons p lines ih =>
    obtain ⟨d, hd⟩ := h p (List.mem_cons_self ..)
    obtain ⟨order, rfl⟩ := ih fun q hq => h q (List.mem_cons_of_mem _ hq)
    exact ⟨(p.1, d) :: order, by simp [packets, ← hd]⟩

theorem mem_linesOf {t : Nat} {line : List UInt8} {lines : List (Nat × List UInt8)} :
    line ∈ linesOf t lines ↔ (t, line) ∈ lines := by
  unfold linesOf
  rw [List.mem_filterMap]
  constructor
  · rintro ⟨⟨u, bytes⟩, hMem, hEq⟩
    split at hEq
    · rename_i hu
      obtain rfl := Option.some.inj hEq
      exact hu ▸ hMem
    · cases hEq
  · intro hMem
    exact ⟨_, hMem, if_pos rfl⟩

section

variable [TaskConfig] {tx : Nat} {c c' c₀ : Transmit} {tr : List Event}

/-- Whatever a task begins is a packet. -/
theorem begun_draws (hRun : Runs.Run (step tx) Draws c₀ tr c) :
    ∀ p ∈ tr.filterMap Event.begun, ∃ d, p.2 = drawBytes d := by
  refine hRun.induct (fun tr _ => ∀ p ∈ tr.filterMap Event.begun, ∃ d, p.2 = drawBytes d)
    (by simp) ?_
  intro tr c l c' es ih hDraws hStep p hp
  rw [List.filterMap_append, List.mem_append] at hp
  rcases hp with hOld | hNew
  · exact ih p hOld
  · cases l with
    | sys l =>
      simp only [Transmit.step] at hStep
      split at hStep
      · cases hStep
      · obtain ⟨c₁, -, hEq⟩ := Option.map_eq_some_iff.mp hStep
        cases hEq
        cases hNew
    | lock bytes =>
      simp only [Transmit.step] at hStep
      split at hStep
      · obtain ⟨c₁, -, hEq⟩ := Option.map_eq_some_iff.mp hStep
        cases hEq
        obtain rfl := List.mem_singleton.mp hNew
        exact hDraws
      · cases hStep
    | writeChar =>
      simp only [Transmit.step] at hStep
      split at hStep
      · split at hStep
        · cases hStep
          cases hNew
        · cases hStep
      · cases hStep
    | unlock =>
      simp only [Transmit.step] at hStep
      split at hStep
      · obtain ⟨c₁, -, hEq⟩ := Option.map_eq_some_iff.mp hStep
        cases hEq
        cases hNew
      · cases hStep

/-- What is out, as packets: those that are finished, and the one that is only
to be unlocked yet. -/
theorem Lined.executed (h : Lined tx tr c)
    (hDraws : ∀ p ∈ tr.filterMap Event.begun, ∃ d, p.2 = drawBytes d) :
    ∃ order, decode (transmitted tr) = order.map Prod.snd ∧ ∀ t,
      linesOf t (packets order) ++ (unsent (c.writer t)).toList =
        linesOf t (finished tr) ++ (c.writer t).line?.toList := by
  have hPacket {t : Nat} {line : List UInt8}
      (hMem : line ∈ linesOf t (finished tr) ++ (c.writer t).line?.toList) :
      ∃ d, line = drawBytes d := by
    rw [← h.queued t, mem_linesOf] at hMem
    exact hDraws _ hMem
  obtain ⟨order, hOrder⟩ : ∃ order, finished tr = packets order :=
    exists_packets fun p hp => hPacket (t := p.1)
      (List.mem_append_left _ (mem_linesOf.mpr hp))
  obtain ⟨cur, hHolding, hWhole⟩ := h.lines
  have hOut : transmitted tr = (order.map Prod.snd).flatMap drawBytes ++
      (cur.map Current.written).getD [] := by
    rw [← packets_flatMap, ← hOrder]
    exact hWhole
  have hOther {t : Nat} (ht : ∀ written left, c.writer t ≠ .writing written left) :
      unsent (c.writer t) = (c.writer t).line? := by
    cases hAt : c.writer t with
    | writing written left => exact absurd hAt (ht written left)
    | idle | locking _ => rfl
  cases cur with
  | none =>
    refine ⟨order, ?_, fun t => ?_⟩
    · rw [hOut, decode_draws]
      simp [decode]
    · rw [hOrder, hOther fun written left hAt => ?_]
      cases (hHolding.writing t written left).mp hAt
  | some k =>
    have hAt := (hHolding.writing k.writer k.written k.left).mpr rfl
    have hFree {t : Nat} (ht : t ≠ k.writer) : ∀ written left,
        c.writer t ≠ .writing written left := by
      intro written left hOne
      have hSame := Option.some.inj ((hHolding.writing t written left).mp hOne)
      exact ht (congrArg Current.writer hSame).symm
    have hLine : k.written ++ k.left ∈
        linesOf k.writer (finished tr) ++ (c.writer k.writer).line?.toList := by
      rw [hAt]
      exact List.mem_append_right _ (List.mem_singleton_self _)
    obtain ⟨d, hd⟩ := hPacket hLine
    by_cases hLeft : k.left = []
    · -- its last byte is out
      rw [hLeft, List.append_nil] at hd
      refine ⟨order ++ [(k.writer, d)], ?_, fun t => ?_⟩
      · have hLast := decode_draw d []
        rw [List.append_nil] at hLast
        rw [hOut, decode_draws, List.map_append]
        simp [hd, hLast, decode]
      · rw [hOrder]
        by_cases ht : t = k.writer
        · subst ht
          simp [packets, linesOf, hAt, unsent, Writer.line?, hLeft, ← hd]
        · rw [hOther (hFree ht)]
          simp [packets, linesOf, Ne.symm ht]
    · refine ⟨order, ?_, fun t => ?_⟩
      · rw [hOut, decode_draws]
        simp [decode_truncated d hd hLeft]
      · rw [hOrder]
        by_cases ht : t = k.writer
        · subst ht
          simp [hAt, unsent, Writer.line?, hLeft]
        · rw [hOther (hFree ht)]

/-- **Drawing from several tasks.** Whoever draws and whoever preempts whom, the
parser has executed the packets that are out, each once, and those of a task in
its order; of all that a task has drawn they are all, but for the packet it is
at. -/
theorem draws_executed (hStarted : System.Started c₀.sys) (hIdle : ∀ t, c₀.writer t = .idle)
    (hRun : Runs.Run (step tx) Draws c₀ tr c) :
    ∃ order, (ready.run (transmitted tr)).2 = order.map Prod.snd ∧ ∀ t,
      linesOf t (tr.filterMap Event.begun) =
        (drawsOf t order).map drawBytes ++ (unsent (c.writer t)).toList := by
  have hLined := lined_run hStarted hIdle hRun
  obtain ⟨order, hDecode, hLines⟩ := hLined.executed (begun_draws hRun)
  refine ⟨order, ?_, fun t => ?_⟩
  · rw [run_decode rfl rfl]
    exact hDecode
  · rw [hLined.queued t, ← hLines t, linesOf_packets]

end

-- ---------------------------------------------------------------------------
-- Two tasks that draw
-- ---------------------------------------------------------------------------

/-- Task `0` is preempted in its packet by task `1`, which wants to draw too. -/
def preemptedPacket : List Label :=
  [.lock (drawBytes (.clear 7)), .writeChar, .sys .tick, .sys .pendSv, .sys .scan, .sys .scan,
    .sys .pendSvExit, .lock (drawBytes .present), .sys .yield, .sys .pendSv, .sys .scan,
    .sys .scan, .sys .pendSvExit] ++ List.replicate 5 .writeChar

theorem draws_executed_preempted :
    ∃ tr c order, Runs.Run (step 0) Draws ⟨System.contenders, fun _ => .idle⟩ tr c ∧
      (ready.run (transmitted tr)).2 = [.clear 7] ∧
      (ready.run (transmitted tr)).2 = order.map Prod.snd ∧
      linesOf 1 (tr.filterMap Event.begun) =
        (drawsOf 1 order).map drawBytes ++ (unsent (c.writer 1)).toList := by
  obtain ⟨tr, c, hRun, hOut⟩ :=
    Runs.exists_run_of_exec (step 0) Draws ⟨System.contenders, fun _ => .idle⟩ preemptedPacket
      (fun tr _ => (ready.run (transmitted tr)).2 = [.clear 7])
      (by decide +kernel)
  obtain ⟨order, hOrder, hLines⟩ := draws_executed System.contenders_started (fun _ => rfl) hRun
  exact ⟨tr, c, order, hRun, hOut, hOrder, hLines 1⟩

end Transmit

end TinyRtos
