import Mathlib.Combinatorics.Enumerative.DoubleCounting
import Mathlib.Data.List.Permutation
import TinyRtos.Kernel.SendsApart

/-!
# TinyRTOS — sends from nested interrupt handlers

`rtosk_queue_send_from_isr` is offered to interrupt handlers, and handlers of
higher priority interrupt each other. A nesting that keeps calls `Apart` is
harmless (`SendsApart`); here every other nesting is shown to do damage.

From the first step that does not keep apart the run is `Doomed`, until the
calls that have begun since compute a slot, and then `Broken` for good: two
calls have copied to one slot, or one has copied past the storage, or more calls
have found room than there was. With items of zeros sent to storage of ones the
damage shows (`Traced`, `Spread`).

## Results

* `deviates`          — a step that does not keep apart dooms or breaks the run.
* `Broken.not_serial` — a broken run is no run of one call after another.
* `in_order_iff`      — a nesting has a serial outcome for all items and all
  storage if and only if it keeps its calls apart.
* `in_order_collision` — a nesting of two calls that does not.
-/

namespace TinyRtos

namespace Sends

variable {items : Nat → Nat → UInt8} {q₀ : Queue} {k₀ : Kernel} {s s' : Sends}
  {tr es : List Event} {l : Label}

-- ---------------------------------------------------------------------------
-- What a statement does to slots
-- ---------------------------------------------------------------------------

/-- Found room, and has no slot yet. -/
def Stmt.finding : Stmt → Nat
  | .setDst => 1
  | _ => 0

/-- Has a slot, which the head has not left behind. -/
def Stmt.copying : Stmt → Bool
  | .copy .. | .advanceHead => true
  | _ => false

/-- The number of calls that have found room. -/
def found (tr : List Event) (s : Sends) : Nat :=
  (slots tr).length + weigh Stmt.finding s.frames

theorem found_cons (tr : List Event) {n : Nat} {stmt : Stmt} {rest : List Frame}
    (hFrames : s.frames = ⟨n, stmt⟩ :: rest) :
    found tr s = (slots tr).length + (stmt.finding + weigh Stmt.finding rest) := by
  unfold found
  rw [hFrames, weigh_cons]

theorem inFlight_frames {n : Nat} {stmt : Stmt} {rest : List Frame}
    (hFrames : s.frames = ⟨n, stmt⟩ :: rest) :
    inFlight s.frames = stmt.inFlight + inFlight rest := by
  rw [hFrames, inFlight_cons]

theorem slots_append (tr es : List Event) : slots (tr ++ es) = slots tr ++ slots es :=
  List.filterMap_append

/-- Two calls have one slot, or a call has its slot behind the storage, or more
calls have found room than there was in the queue `q₀`. -/
def Broken (q₀ : Queue) (tr : List Event) (s : Sends) : Prop :=
  ¬ (slots tr).Nodup ∨ (q₀.capacity * q₀.itemSize).toNat ∈ slots tr ∨
    q₀.capacity.toNat < q₀.count.toNat + found tr s

/-- Calls that have yet to compute their slots will compute a slot that is taken,
or the one behind the storage. -/
structure Doomed (q₀ : Queue) (tr : List Event) (s : Sends) : Prop where
  early : ∃ fs rest, s.frames = fs ++ rest ∧ fs ≠ [] ∧
    ∀ f ∈ fs, f.stmt = .testCount ∨ f.stmt = .setDst
  free  : s.queue.count < s.queue.capacity
  slot  : (s.queue.head * s.queue.itemSize).toNat ∈ slots tr ∨
    (s.queue.head * s.queue.itemSize).toNat = (q₀.capacity * q₀.itemSize).toNat

/-- The number of calls that have found room never falls. -/
theorem found_le (hStep : step items s l = some (s', es)) : found tr s ≤ found (tr ++ es) s' := by
  cases l with
  | interrupt =>
    cases hStep
    simp [found, Stmt.finding, slots]
  | go =>
    cases go_cases hStep with
    | ret hFrames =>
      rw [found_cons tr hFrames, found, slots_append]
      simp [Stmt.finding, slots]
    | _ hFrames =>
      rw [found_cons tr hFrames, found_cons _ (goOn_frames ..), slots_append]
      simp [Stmt.finding, slots, Nat.add_assoc]

theorem Broken.step (h : Broken q₀ tr s) (hStep : Sends.step items s l = some (s', es)) :
    Broken q₀ (tr ++ es) s' := by
  rcases h with hTwice | hBehind | hMany
  · refine Or.inl fun hNodup => hTwice ?_
    rw [slots_append] at hNodup
    exact hNodup.of_append_left
  · refine Or.inr (Or.inl ?_)
    rw [slots_append]
    exact List.mem_append_left _ hBehind
  · have hLe : found tr s ≤ found (tr ++ es) s' := found_le hStep
    exact Or.inr (Or.inr (by omega))

/-- **A doomed run breaks** when its calls compute their slots. -/
theorem Doomed.step (h : Doomed q₀ tr s) (hStep : Sends.step items s l = some (s', es)) :
    Doomed q₀ (tr ++ es) s' ∨ Broken q₀ (tr ++ es) s' := by
  obtain ⟨⟨fs, rest, hFrames, hNe, hEarly⟩, hFree, hSlot⟩ := h
  cases l with
  | interrupt =>
    cases hStep
    refine Or.inl ⟨⟨⟨s.calls, .testCount⟩ :: fs, rest, ?_, List.cons_ne_nil _ _, ?_⟩, hFree, ?_⟩
    · show _ :: s.frames = _
      rw [hFrames]
      rfl
    · intro f hf
      rcases List.mem_cons.mp hf with rfl | hf
      · exact Or.inl rfl
      · exact hEarly f hf
    · rw [slots_append]
      exact hSlot.imp_left (List.mem_append_left _)
  | go =>
    obtain ⟨⟨n, stmt⟩, others, rfl⟩ := List.exists_cons_of_ne_nil hNe
    have hOthers : ∀ f ∈ others, f.stmt = .testCount ∨ f.stmt = .setDst := fun f hf =>
      hEarly f (List.mem_cons_of_mem _ hf)
    rcases hEarly _ (List.mem_cons_self ..) with hStmt | hStmt
    · -- there is room, so the call goes on to compute its slot
      obtain rfl : stmt = .testCount := hStmt
      simp only [Sends.step, go, hFrames, List.cons_append,
        if_neg (UInt32.not_le.mpr hFree)] at hStep
      cases hStep
      refine Or.inl ⟨⟨⟨n, .setDst⟩ :: others, rest, rfl, List.cons_ne_nil _ _, ?_⟩, hFree, ?_⟩
      · intro f hf
        rcases List.mem_cons.mp hf with rfl | hf
        · exact Or.inr rfl
        · exact hOthers f hf
      · rw [List.append_nil]
        exact hSlot
    · obtain rfl : stmt = .setDst := hStmt
      simp only [Sends.step, go, hFrames, List.cons_append] at hStep
      cases hStep
      right
      rw [Broken, slots_append]
      rcases hSlot with hTaken | hBehind
      · refine Or.inl fun hNodup => ?_
        exact (List.nodup_append.mp hNodup).2.2 _ hTaken _ (List.mem_singleton_self _) rfl
      · refine Or.inr (Or.inl ?_)
        rw [← hBehind]
        exact List.mem_append_right _ (List.mem_singleton_self _)

-- ---------------------------------------------------------------------------
-- The first step that does not keep apart
-- ---------------------------------------------------------------------------

variable {s₀ : Sends} {q' : Queue} {k' : Kernel} {n : Nat} {stmt stmt' : Stmt} {rest : List Frame}

/-- In an apart run from `q₀`: the calls that found room are counted or in
flight, and the running call's slot is where the head is. -/
structure Watched (q₀ : Queue) (tr : List Event) (s : Sends) : Prop where
  capacity : s.queue.capacity = q₀.capacity
  itemSize : s.queue.itemSize = q₀.itemSize
  found    : q₀.count.toNat + found tr s = s.queue.count.toNat + inFlight s.frames
  slot     : ∀ f ∈ s.frames.head?, f.stmt.copying = true →
    (s.queue.head * s.queue.itemSize).toNat ∈ slots tr
  under    : ∀ f ∈ s.frames.tail, f.stmt.copying = false

theorem copying_of_exposed {q : Queue} (h : stmt.exposed q = false) : stmt.copying = false := by
  cases stmt with
  | copy | advanceHead => cases h
  | _ => rfl

theorem Watched.goOn (h : Watched q₀ tr s) (hFrames : s.frames = ⟨n, stmt⟩ :: rest)
    (hCapacity : q'.capacity = s.queue.capacity) (hItemSize : q'.itemSize = s.queue.itemSize)
    (hCount : q'.count.toNat + stmt'.inFlight + stmt.finding =
      s.queue.count.toNat + stmt.inFlight + (stmt'.finding + (slots es).length))
    (hSlot : stmt'.copying = true → (q'.head * q'.itemSize).toNat ∈ slots (tr ++ es)) :
    Watched q₀ (tr ++ es) (s.goOn q' k' n stmt' rest) := by
  have hUnder := h.under
  have hFound := h.found
  rw [found_cons tr hFrames, inFlight_frames hFrames] at hFound
  rw [hFrames] at hUnder
  refine ⟨hCapacity.trans h.capacity, hItemSize.trans h.itemSize, ?_, ?_, hUnder⟩
  · rw [found_cons (tr ++ es) (goOn_frames ..), inFlight_frames (goOn_frames ..), slots_append,
      List.length_append, goOn_queue]
    omega
  · rw [goOn_frames]
    intro f hf hCopying
    obtain rfl := Option.some.inj hf
    exact hSlot hCopying

theorem Watched.step (h : Watched q₀ tr s) (hLined : Lined items s₀ tr s) (hApart : Apart s l)
    (hStep : Sends.step items s l = some (s', es)) : Watched q₀ (tr ++ es) s' := by
  cases l with
  | interrupt =>
    cases hStep
    refine ⟨h.capacity, h.itemSize, ?_, nofun, fun f hf => ?_⟩
    · have hFound := h.found
      unfold Sends.found at hFound ⊢
      rw [slots_append, List.length_append, weigh_cons, inFlight_cons]
      show _ + (_ + 0 + (0 + _)) = s.queue.count.toNat + (0 + _)
      omega
    · have hMem : f ∈ s.frames := hf
      have hUnder := h.under
      cases hFrames : s.frames with
      | nil =>
        rw [hFrames] at hMem
        cases hMem
      | cons g rest =>
        rw [hFrames] at hMem hUnder
        rcases List.mem_cons.mp hMem with rfl | hMem
        · exact copying_of_exposed (hApart f (by rw [hFrames]; rfl))
        · exact hUnder f hMem
  | go =>
    have hSlot := h.slot
    cases go_cases hStep with
    | full hFrames | headPast hFrames | headWithin hFrames | waiter hFrames | noWaiter hFrames
    | setReady hFrames | yield hFrames | room hFrames =>
      exact h.goOn hFrames rfl rfl rfl nofun
    | setDst hFrames =>
      refine h.goOn hFrames rfl rfl rfl fun _ => ?_
      rw [slots_append]
      exact List.mem_append_right _ (List.mem_singleton_self _)
    | copyByte hFrames | copyEnd hFrames =>
      refine h.goOn hFrames rfl rfl rfl fun _ => ?_
      rw [List.append_nil]
      exact hSlot _ (by rw [hFrames]; rfl) rfl
    | advanceHead hFrames | wrapHead hFrames | clearWaiter hFrames =>
      exact h.goOn hFrames rfl rfl rfl nofun
    | @incCount n rest hFrames =>
      obtain ⟨b, order, values, hLined⟩ := hLined
      obtain ⟨-, -, hRoom⟩ := hLined.running hFrames
      have hRoom' : s.queue.count.toNat + (1 + inFlight rest) ≤ b.1.capacity.toNat := hRoom
      have hFree : ¬ s.queue.capacity ≤ s.queue.count := by
        rw [hLined.ring.capacity, UInt32.le_iff_toNat_le]
        omega
      exact h.goOn hFrames rfl rfl (Queue.count_succ hFree) nofun
    | @ret n value rest hFrames =>
      have hFound := h.found
      have hUnder := h.under
      rw [found_cons tr hFrames, inFlight_frames hFrames] at hFound
      rw [hFrames] at hUnder
      refine ⟨h.capacity, h.itemSize, ?_, fun f hf hCopying => ?_,
        fun f hf => hUnder f (List.mem_of_mem_tail hf)⟩
      · unfold Sends.found
        rw [slots_append, List.length_append]
        simp only [Stmt.finding, Stmt.inFlight] at hFound
        show q₀.count.toNat + ((slots tr).length + 0 + weigh Stmt.finding rest) =
          s.queue.count.toNat + inFlight rest
        omega
      · rw [hUnder f (List.mem_of_mem_head? hf)] at hCopying
        cases hCopying

/-- **A step that does not keep apart dooms the run, or breaks it.** -/
theorem deviates (h : Watched q₀ tr s) (hLined : Lined items s₀ tr s) (hApart : ¬ Apart s l)
    (hStep : Sends.step items s l = some (s', es)) :
    Doomed q₀ (tr ++ es) s' ∨ Broken q₀ (tr ++ es) s' := by
  obtain ⟨b, order, values, hLined⟩ := hLined
  have hCapacity := hLined.ring.capacity
  cases l with
  | interrupt =>
    cases hStep
    simp only [Apart, not_forall] at hApart
    obtain ⟨⟨n, stmt⟩, hTop, hExposed⟩ := hApart
    obtain ⟨rest, hFrames⟩ : ∃ rest, s.frames = ⟨n, stmt⟩ :: rest :=
      ⟨_, List.eq_cons_of_mem_head? hTop⟩
    obtain ⟨-, hPlaced, hRoom⟩ := hLined.running hFrames
    have hInFlight : stmt.inFlight = 1 := by
      cases stmt with
      | copy | advanceHead | testHead | wrapHead => rfl
      | _ => exact absurd rfl hExposed
    have hFree : s.queue.count < s.queue.capacity := by
      rw [hCapacity, UInt32.lt_iff_toNat_lt]
      omega
    refine Or.inl ⟨⟨[⟨s.calls, .testCount⟩], s.frames, rfl, List.cons_ne_nil _ _, ?_⟩, hFree, ?_⟩
    · intro f hf
      obtain rfl := List.mem_singleton.mp hf
      exact Or.inl rfl
    · rw [slots_append]
      have hBehind : s.queue.head = b.1.capacity →
          (s.queue.head * s.queue.itemSize).toNat = (q₀.capacity * q₀.itemSize).toNat := by
        intro hHead
        rw [hHead, ← hCapacity, h.capacity, h.itemSize]
      cases stmt with
      | copy | advanceHead =>
        exact Or.inl (List.mem_append_left _ (h.slot _ hTop rfl))
      | testHead =>
        obtain ⟨-, hLe, -⟩ := hPlaced
        have hPast : s.queue.capacity ≤ s.queue.head := by
          simpa [Stmt.exposed] using hExposed
        rw [hCapacity] at hPast
        exact Or.inr (hBehind (UInt32.le_antisymm (UInt32.le_iff_toNat_le.mpr hLe) hPast))
      | wrapHead => exact Or.inr (hBehind hPlaced.2.1)
      | _ => exact absurd rfl hExposed
  | go =>
    simp only [Apart, not_forall] at hApart
    obtain ⟨⟨n, stmt⟩, hTop, hStmt, hFree, hFull⟩ := hApart
    obtain rfl : stmt = .testCount := hStmt
    obtain ⟨rest, hFrames⟩ : ∃ rest, s.frames = ⟨n, .testCount⟩ :: rest :=
      ⟨_, List.eq_cons_of_mem_head? hTop⟩
    have hFound := h.found
    simp only [Sends.step, go, hFrames, if_neg (UInt32.not_le.mpr hFree)] at hStep
    cases hStep
    refine Or.inr (Or.inr (Or.inr ?_))
    rw [found_cons tr hFrames, inFlight_frames hFrames] at hFound
    rw [inFlight_frames hFrames, h.capacity] at hFull
    rw [List.append_nil, found_cons tr (goOn_frames ..)]
    simp only [Stmt.finding] at hFound ⊢
    omega

-- ---------------------------------------------------------------------------
-- Sending zeros to storage of ones
-- ---------------------------------------------------------------------------

/-- Every item is a row of zeros. -/
def zeros : Nat → Nat → UInt8 := fun _ _ => 0

/-- Has a slot and is not refused. -/
def Stmt.holding : Stmt → Nat
  | .testCount | .setDst => 0
  | .ret value => if value = 1 then 1 else 0
  | _ => 1

/-- The number of calls that returned 1. -/
def accepted (values : List (Nat × UInt32)) : Nat := (values.filter (·.2 = 1)).length

/-- What zeros sent to storage of ones leave behind: each call that has a slot is
accepted, and the zeros are those of the slots. -/
structure Traced (size : Nat) (tr : List Event) (s : Sends) : Prop where
  itemSize : s.queue.itemSize.toNat = size
  accepted : accepted (returned tr) + weigh Stmt.holding s.frames = (slots tr).length
  within   : ∀ p, s.queue.buffer p = 0 → ∃ d ∈ slots tr, d ≤ p ∧ p < d + size
  cells    : ∀ d ∈ slots tr, (∃ f ∈ s.frames, ∃ i, f.stmt = .copy d i) ∨
    ∀ j < size, s.queue.buffer (d + j) = 0
  copied   : ∀ f ∈ s.frames, ∀ d i, f.stmt = .copy d i →
    d ∈ slots tr ∧ ∀ j < i, s.queue.buffer (d + j) = 0

/-- The running call apart from those it has interrupted. -/
theorem traced_cons {size : Nat} (hFrames : s.frames = ⟨n, stmt⟩ :: rest) :
    Traced size tr s ↔ s.queue.itemSize.toNat = size ∧
      accepted (returned tr) + (stmt.holding + weigh Stmt.holding rest) = (slots tr).length ∧
      (∀ p, s.queue.buffer p = 0 → ∃ d ∈ slots tr, d ≤ p ∧ p < d + size) ∧
      (∀ d ∈ slots tr, (∃ i, stmt = .copy d i) ∨ (∃ f ∈ rest, ∃ i, f.stmt = .copy d i) ∨
        ∀ j < size, s.queue.buffer (d + j) = 0) ∧
      (∀ d i, stmt = .copy d i → d ∈ slots tr ∧ ∀ j < i, s.queue.buffer (d + j) = 0) ∧
      ∀ f ∈ rest, ∀ d i, f.stmt = .copy d i →
        d ∈ slots tr ∧ ∀ j < i, s.queue.buffer (d + j) = 0 := by
  constructor
  · rintro ⟨hItemSize, hAccepted, hWithin, hCells, hCopied⟩
    rw [hFrames] at hAccepted hCells hCopied
    rw [weigh_cons] at hAccepted
    refine ⟨hItemSize, hAccepted, hWithin, fun d hd => ?_, hCopied _ (List.mem_cons_self ..),
      fun f hf => hCopied f (List.mem_cons_of_mem _ hf)⟩
    rcases hCells d hd with ⟨f, hf, hCopying⟩ | hAll
    · rcases List.mem_cons.mp hf with rfl | hf
      · exact Or.inl hCopying
      · exact Or.inr (Or.inl ⟨f, hf, hCopying⟩)
    · exact Or.inr (Or.inr hAll)
  · rintro ⟨hItemSize, hAccepted, hWithin, hCells, hTop, hUnder⟩
    refine ⟨hItemSize, ?_, hWithin, fun d hd => ?_, fun f hf => ?_⟩
    · rw [hFrames, weigh_cons]
      exact hAccepted
    · rw [hFrames]
      rcases hCells d hd with hCopying | ⟨f, hf, hCopying⟩ | hAll
      · exact Or.inl ⟨_, List.mem_cons_self .., hCopying⟩
      · exact Or.inl ⟨f, List.mem_cons_of_mem _ hf, hCopying⟩
      · exact Or.inr hAll
    · rw [hFrames] at hf
      rcases List.mem_cons.mp hf with rfl | hf
      · exact hTop
      · exact hUnder f hf

/-- A statement that copies nothing. -/
theorem Traced.goOn {size : Nat} (h : Traced size tr s) (hFrames : s.frames = ⟨n, stmt⟩ :: rest)
    (hBuffer : q'.buffer = s.queue.buffer) (hItemSize : q'.itemSize = s.queue.itemSize)
    (hNot : ∀ d i, stmt ≠ .copy d i) (hNot' : ∀ d i, stmt' ≠ .copy d i)
    (hHolding : stmt'.holding = stmt.holding) :
    Traced size (tr ++ []) (s.goOn q' k' n stmt' rest) := by
  obtain ⟨hSize, hAccepted, hWithin, hCells, -, hUnder⟩ := (traced_cons hFrames).mp h
  rw [traced_cons (goOn_frames ..), List.append_nil, goOn_queue, hBuffer, hItemSize, hHolding]
  refine ⟨hSize, hAccepted, hWithin, fun d hd => ?_, fun d i hStmt => absurd hStmt (hNot' d i),
    hUnder⟩
  rcases hCells d hd with ⟨i, hStmt⟩ | hOther
  · exact absurd hStmt (hNot d i)
  · exact Or.inr hOther

/-- One byte more is copied. -/
theorem Traced.copyByte {size dst i : Nat} (h : Traced size tr s)
    (hFrames : s.frames = ⟨n, .copy dst i⟩ :: rest) (hMore : i < s.queue.itemSize.toNat) :
    Traced size (tr ++ [])
      (s.goOn { s.queue with buffer := Function.update s.queue.buffer (dst + i) (zeros n i) } k' n
        (.copy dst (i + 1)) rest) := by
  obtain ⟨hSize, hAccepted, hWithin, hCells, hTop, hUnder⟩ := (traced_cons hFrames).mp h
  obtain ⟨hDst, hBytes⟩ := hTop dst i rfl
  have hZero : ∀ p, s.queue.buffer p = 0 →
      Function.update s.queue.buffer (dst + i) (zeros n i) p = 0 := by
    intro p hp
    by_cases hEq : p = dst + i
    · rw [hEq, Function.update_self]
      rfl
    · rw [Function.update_of_ne hEq]
      exact hp
  rw [traced_cons (goOn_frames ..), List.append_nil, goOn_queue]
  refine ⟨hSize, hAccepted, fun p hp => ?_, fun d hd => ?_, fun d j hStmt => ?_,
    fun f hf d j hStmt => ?_⟩
  · by_cases hEq : p = dst + i
    · rw [hSize] at hMore
      exact ⟨dst, hDst, by omega, by omega⟩
    · refine hWithin p ?_
      rw [← hp]
      exact (Function.update_of_ne hEq _ _).symm
  · rcases hCells d hd with ⟨j, hStmt⟩ | hOther | hAll
    · obtain ⟨rfl, rfl⟩ := Stmt.copy.inj hStmt
      exact Or.inl ⟨i + 1, rfl⟩
    · exact Or.inr (Or.inl hOther)
    · exact Or.inr (Or.inr fun j hj => hZero _ (hAll j hj))
  · obtain ⟨rfl, rfl⟩ := Stmt.copy.inj hStmt
    refine ⟨hDst, fun j hj => ?_⟩
    rcases Nat.lt_succ_iff_lt_or_eq.mp hj with hLt | rfl
    · exact hZero _ (hBytes j hLt)
    · exact Function.update_self ..
  · obtain ⟨hSlot, hOld⟩ := hUnder f hf d j hStmt
    exact ⟨hSlot, fun x hx => hZero _ (hOld x hx)⟩

/-- The last byte is copied. -/
theorem Traced.copyEnd {size dst i : Nat} (h : Traced size tr s)
    (hFrames : s.frames = ⟨n, .copy dst i⟩ :: rest) (hDone : ¬ i < s.queue.itemSize.toNat) :
    Traced size (tr ++ []) (s.goOn s.queue k' n .advanceHead rest) := by
  obtain ⟨hSize, hAccepted, hWithin, hCells, hTop, hUnder⟩ := (traced_cons hFrames).mp h
  obtain ⟨-, hBytes⟩ := hTop dst i rfl
  rw [hSize] at hDone
  rw [traced_cons (goOn_frames ..), List.append_nil]
  refine ⟨hSize, hAccepted, hWithin, fun d hd => ?_, nofun, hUnder⟩
  rcases hCells d hd with ⟨j, hStmt⟩ | hOther
  · obtain ⟨rfl, rfl⟩ := Stmt.copy.inj hStmt
    exact Or.inr (Or.inr fun j hj => hBytes j (by omega))
  · exact Or.inr hOther

/-- A call gets its slot. -/
theorem Traced.setDst {size dst : Nat} (h : Traced size tr s)
    (hFrames : s.frames = ⟨n, .setDst⟩ :: rest) :
    Traced size (tr ++ [.slot n dst]) (s.goOn s.queue k' n (.copy dst 0) rest) := by
  obtain ⟨hSize, hAccepted, hWithin, hCells, -, hUnder⟩ := (traced_cons hFrames).mp h
  have hSlots : slots (tr ++ [.slot n dst]) = slots tr ++ [dst] := slots_append ..
  have hReturned : returned (tr ++ [.slot n dst]) = returned tr :=
    (returned_append ..).trans (List.append_nil _)
  rw [traced_cons (goOn_frames ..), hSlots, hReturned]
  refine ⟨hSize, ?_, fun p hp => ?_, fun d hd => ?_, fun d j hStmt => ?_, fun f hf d j hStmt => ?_⟩
  · rw [List.length_append, ← hAccepted]
    simp only [Stmt.holding, List.length_singleton]
    omega
  · obtain ⟨d, hd, hIn⟩ := hWithin p hp
    exact ⟨d, List.mem_append_left _ hd, hIn⟩
  · rcases List.mem_append.mp hd with hd | hd
    · rcases hCells d hd with ⟨i, hStmt⟩ | hOther
      · cases hStmt
      · exact Or.inr hOther
    · obtain rfl := List.mem_singleton.mp hd
      exact Or.inl ⟨0, rfl⟩
  · obtain ⟨rfl, rfl⟩ := Stmt.copy.inj hStmt
    exact ⟨List.mem_append_right _ (List.mem_singleton_self _), nofun⟩
  · obtain ⟨hSlot, hOld⟩ := hUnder f hf d j hStmt
    exact ⟨List.mem_append_left _ hSlot, hOld⟩

/-- A call returns. -/
theorem Traced.ret {size : Nat} {value : UInt32} (h : Traced size tr s)
    (hFrames : s.frames = ⟨n, .ret value⟩ :: rest) :
    Traced size (tr ++ [.returned n value]) { s with frames := rest } := by
  obtain ⟨hSize, hAccepted, hWithin, hCells, -, hUnder⟩ := (traced_cons hFrames).mp h
  have hSlots : slots (tr ++ [.returned n value]) = slots tr :=
    (slots_append ..).trans (List.append_nil _)
  have hReturned : returned (tr ++ [.returned n value]) = returned tr ++ [(n, value)] :=
    returned_append ..
  have hOne : Sends.accepted [(n, value)] = Stmt.holding (.ret value) := by
    unfold Sends.accepted Stmt.holding
    by_cases hValue : value = 1
    · simp [hValue]
    · simp [hValue]
  refine ⟨hSize, ?_, ?_, ?_, ?_⟩
  · rw [hSlots, hReturned, ← hAccepted, ← hOne]
    unfold Sends.accepted
    rw [List.filter_append, List.length_append, Nat.add_assoc]
  · rw [hSlots]
    exact hWithin
  · intro d hd
    rw [hSlots] at hd
    rcases hCells d hd with ⟨i, hStmt⟩ | hOther
    · cases hStmt
    · exact hOther
  · rw [hSlots]
    exact hUnder

theorem Traced.step {size : Nat} (h : Traced size tr s)
    (hStep : Sends.step zeros s l = some (s', es)) : Traced size (tr ++ es) s' := by
  cases l with
  | interrupt =>
    cases hStep
    have hSlots : slots (tr ++ [.began s.calls]) = slots tr :=
      (slots_append ..).trans (List.append_nil _)
    have hReturned : returned (tr ++ [.began s.calls]) = returned tr :=
      (returned_append ..).trans (List.append_nil _)
    have hFrames : ({ s with calls := s.calls + 1, frames := ⟨s.calls, .testCount⟩ :: s.frames } :
        Sends).frames = ⟨s.calls, .testCount⟩ :: s.frames := rfl
    rw [traced_cons hFrames, hSlots, hReturned]
    exact ⟨h.itemSize, (congrArg _ (Nat.zero_add _)).trans h.accepted, h.within,
      fun d hd => Or.inr (h.cells d hd), nofun, h.copied⟩
  | go =>
    cases go_cases hStep with
    | setDst hFrames => exact h.setDst hFrames
    | copyByte hFrames hMore => exact h.copyByte hFrames hMore
    | copyEnd hFrames hDone => exact h.copyEnd hFrames hDone
    | ret hFrames => exact h.ret hFrames
    | full hFrames | room hFrames | advanceHead hFrames | headPast hFrames | headWithin hFrames
    | wrapHead hFrames | incCount hFrames | waiter hFrames | noWaiter hFrames | setReady hFrames
    | clearWaiter hFrames | yield hFrames =>
      exact h.goOn hFrames rfl rfl nofun nofun rfl

-- ---------------------------------------------------------------------------
-- One call after another
-- ---------------------------------------------------------------------------

/-- The first byte of the `i`-th cell that calls on `q₀` fill. -/
def fresh (q₀ : Queue) (i : Nat) : Nat :=
  (q₀.tail.toNat + (q₀.count.toNat + i)) % q₀.capacity.toNat * q₀.itemSize.toNat

/-- No slot holds the first bytes of two of these cells. -/
theorem fresh_inj {d i j : Nat} (hi : q₀.count.toNat + i < q₀.capacity.toNat)
    (hj : q₀.count.toNat + j < q₀.capacity.toNat)
    (hdi : d ≤ fresh q₀ i) (hid : fresh q₀ i < d + q₀.itemSize.toNat)
    (hdj : d ≤ fresh q₀ j) (hjd : fresh q₀ j < d + q₀.itemSize.toNat) : i = j := by
  have hOrder : ∀ x y, fresh q₀ y < fresh q₀ x + q₀.itemSize.toNat →
      (q₀.tail.toNat + (q₀.count.toNat + y)) % q₀.capacity.toNat ≤
        (q₀.tail.toNat + (q₀.count.toNat + x)) % q₀.capacity.toNat := by
    intro x y hLt
    by_contra hNot
    have hMul := Nat.mul_le_mul_right q₀.itemSize.toNat (Nat.succ_le_of_lt (Nat.lt_of_not_le hNot))
    rw [Nat.succ_mul] at hMul
    unfold fresh at hLt
    omega
  have hMod := Nat.le_antisymm (hOrder j i (by omega)) (hOrder i j (by omega))
  rcases Nat.lt_trichotomy i j with hLt | hEq | hLt
  · exact absurd hMod (RingBuffer.mod_place_ne (by omega) hj)
  · exact hEq
  · exact absurd hMod.symm (RingBuffer.mod_place_ne (by omega) hi)

/-- The queue `q` after calls of which `ones` were accepted, one after another:
as many cells are zeroed, and nothing behind the storage. -/
structure Spread (q₀ q : Queue) (ones : Nat) : Prop where
  inv      : q.RingInv
  capacity : q.capacity = q₀.capacity
  itemSize : q.itemSize = q₀.itemSize
  tail     : q.tail = q₀.tail
  count    : q.count.toNat = q₀.count.toNat + ones
  behind   : ∀ p, q₀.capacity.toNat * q₀.itemSize.toNat ≤ p → q.buffer p = 1
  filled   : ∀ i < ones, q.buffer (fresh q₀ i) = 0

theorem Spread.push {q : Queue} {ones : Nat} (hGeo : q₀.Geometry) (h : Spread q₀ q ones)
    (hFree : ¬ q.capacity ≤ q.count) (w : Nat) :
    Spread q₀ { q.pushItem (zeros n) with waitingTask := w } (ones + 1) := by
  have hInv := Queue.pushItem_ring h.inv hFree (zeros n)
  have hHead : q.head.toNat =
      (q₀.tail.toNat + (q₀.count.toNat + ones)) % q₀.capacity.toNat := by
    rw [h.inv.head_eq, h.tail, h.count, h.capacity]
  have hOffset : (q.head * q.itemSize).toNat = fresh q₀ ones := by
    have hLt : q.head.toNat < q₀.capacity.toNat := h.capacity ▸ h.inv.head_lt
    rw [h.itemSize, hGeo.offset hLt, hHead]
    rfl
  have hEnd : fresh q₀ ones + q₀.itemSize.toNat ≤ q₀.capacity.toNat * q₀.itemSize.toNat := by
    have hLt : (q₀.tail.toNat + (q₀.count.toNat + ones)) % q₀.capacity.toNat <
        q₀.capacity.toNat := Nat.mod_lt _ hGeo.capacity_pos
    have hMul := Nat.mul_le_mul_right q₀.itemSize.toNat (Nat.succ_le_of_lt hLt)
    rw [Nat.succ_mul] at hMul
    exact hMul
  have hPos := hGeo.itemSize_pos
  rw [Queue.pushItem_eq] at hInv ⊢
  refine ⟨⟨hInv.head_lt, hInv.tail_lt, hInv.count_le, hInv.head_eq⟩, h.capacity, h.itemSize,
    h.tail, ?_, ?_, ?_⟩
  · show (q.count + 1).toNat = _
    rw [Queue.count_succ hFree, h.count]
    rfl
  · intro p hp
    show RingBuffer.blit q.buffer _ (zeros n) q.itemSize.toNat p = 1
    unfold RingBuffer.blit
    rw [hOffset, h.itemSize, if_neg (by omega)]
    exact h.behind p hp
  · intro i hi
    show RingBuffer.blit q.buffer _ (zeros n) q.itemSize.toNat (fresh q₀ i) = 0
    unfold RingBuffer.blit
    rw [hOffset, h.itemSize]
    split
    · rfl
    · rename_i hOut
      rcases Nat.lt_succ_iff_lt_or_eq.mp hi with hLt | rfl
      · exact h.filled i hLt
      · omega

/-- **What serial calls leave behind.** -/
theorem spread (hGeo : q₀.Geometry) (hRing : q₀.RingInv)
    (hOnes : ∀ p, q₀.buffer p = 1) (k₀ : Kernel) (order : List Nat) :
    Spread q₀ (Runs.feed (send zeros) (q₀, k₀) order).1.1
      (accepted (Runs.feed (send zeros) (q₀, k₀) order).2) := by
  refine Runs.feed_induct (send zeros) (q₀, k₀) (fun _ s values => Spread q₀ s.1 (accepted values))
    ⟨hRing, rfl, rfl, rfl, rfl, fun p _ => hOnes p, nofun⟩ (fun _ n s values h => ?_) order
  obtain ⟨q, k⟩ := s
  have hAppend : ∀ v, accepted (values ++ [(n, v)]) = accepted values + accepted [(n, v)] := by
    intro v
    unfold accepted
    rw [List.filter_append, List.length_append]
  by_cases hFull : q.capacity ≤ q.count
  · rw [send_full hFull, hAppend]
    exact h
  · rw [send_room hFull, hAppend]
    exact h.push hGeo hFull _

/-- **A broken run is no run of one call after another.** -/
theorem Broken.not_serial (hGeo : q₀.Geometry) (hRing : q₀.RingInv)
    (hOnes : ∀ p, q₀.buffer p = 1) (hTraced : Traced q₀.itemSize.toNat tr s)
    (hDone : s.frames = []) (h : Broken q₀ tr s) : ¬ Serial zeros (start q₀ k₀) s tr := by
  rintro ⟨order, values, -, hValues, hFeed⟩
  have hSpread : Spread q₀ s.queue (accepted values) := by
    have hFed := spread hGeo hRing hOnes k₀ order
    rw [show Runs.feed (send zeros) (q₀, k₀) order = ((s.queue, s.kernel), values) from hFeed]
      at hFed
    exact hFed
  have hAccepted : accepted values = (slots tr).length := by
    rw [← hTraced.accepted, hDone]
    exact (hValues.filter _).length_eq
  have hCount : s.queue.count.toNat = q₀.count.toNat + accepted values := hSpread.count
  have hLe : s.queue.count.toNat ≤ s.queue.capacity.toNat := hSpread.inv.count_le
  rw [show s.queue.capacity = q₀.capacity from hSpread.capacity] at hLe
  rcases h with hTwice | hBehind | hMany
  · -- every cell filled has a slot of its own
    have hCard : (Finset.range (slots tr).length).card ≤ (slots tr).toFinset.card := by
      refine Finset.card_le_card_of_forall_subsingleton
        (fun i d => d ≤ fresh q₀ i ∧ fresh q₀ i < d + q₀.itemSize.toNat) ?_ ?_
      · intro i hi
        have hFilled := hSpread.filled i (hAccepted ▸ Finset.mem_range.mp hi)
        obtain ⟨d, hd, hIn⟩ := hTraced.within _ hFilled
        exact ⟨d, List.mem_toFinset.mpr hd, hIn⟩
      · rintro d - i ⟨hi, hdi, hid⟩ j ⟨hj, hdj, hjd⟩
        have hi' := Finset.mem_range.mp hi
        have hj' := Finset.mem_range.mp hj
        exact fresh_inj (by omega) (by omega) hdi hid hdj hjd
    rw [Finset.card_range, List.card_toFinset] at hCard
    have hDedup := (List.dedup_sublist (slots tr)).eq_of_length_le hCard
    refine hTwice ?_
    rw [← hDedup]
    exact List.nodup_dedup _
  · -- a slot behind the storage
    have hPos := hGeo.itemSize_pos
    rcases hTraced.cells _ hBehind with ⟨f, hf, -⟩ | hZero
    · rw [hDone] at hf
      cases hf
    · have hEnd : (q₀.capacity * q₀.itemSize).toNat =
          q₀.capacity.toNat * q₀.itemSize.toNat := by
        rw [UInt32.toNat_mul]
        exact Nat.mod_eq_of_lt hGeo.storage_lt
      have hByte := hZero 0 hPos
      rw [hEnd, Nat.add_zero, hSpread.behind _ (Nat.le_refl _)] at hByte
      exact absurd hByte (by decide)
  · -- more calls than room
    unfold found at hMany
    rw [hDone] at hMany
    have hMany' : q₀.capacity.toNat < q₀.count.toNat + ((slots tr).length + 0) := hMany
    omega

-- ---------------------------------------------------------------------------
-- Runs
-- ---------------------------------------------------------------------------

variable {ls : List Label} {tr' : List Event}

/-- **A doomed or broken run ends as one.** -/
theorem stays_broken (h : Doomed q₀ tr s ∨ Broken q₀ tr s)
    (hExec : Runs.exec (step items) (fun _ _ => True) s ls = some (tr', s')) :
    Doomed q₀ (tr ++ tr') s' ∨ Broken q₀ (tr ++ tr') s' := by
  induction ls generalizing tr s tr' with
  | nil =>
    obtain ⟨rfl, rfl⟩ := Prod.mk.inj (Option.some.inj hExec)
    rw [List.append_nil]
    exact h
  | cons l rest ih =>
    obtain ⟨-, s₁, es, tail, hStep, hRest, rfl⟩ := Runs.exec_cons hExec
    rw [← List.append_assoc]
    refine ih ?_ hRest
    rcases h with hDoomed | hBroken
    · exact hDoomed.step hStep
    · exact Or.inr (hBroken.step hStep)

/-- **A run that does not keep apart** ends doomed or broken. -/
theorem strays (hWatched : Watched q₀ tr s) (hLined : Lined items s₀ tr s)
    (hExec : Runs.exec (step items) (fun _ _ => True) s ls = some (tr', s'))
    (hApart : Runs.exec (step items) Apart s ls = none) :
    Doomed q₀ (tr ++ tr') s' ∨ Broken q₀ (tr ++ tr') s' := by
  induction ls generalizing tr s tr' with
  | nil => cases hApart
  | cons l rest ih =>
    obtain ⟨-, s₁, es, tail, hStep, hRest, rfl⟩ := Runs.exec_cons hExec
    rw [← List.append_assoc]
    by_cases hKeeps : Apart s l
    · refine ih (hWatched.step hLined hKeeps hStep) (hLined.step hKeeps hStep) hRest ?_
      rw [Runs.exec, if_pos hKeeps] at hApart
      simpa [hStep] using hApart
    · exact stays_broken (deviates hWatched hLined hKeeps hStep) hRest

/-- The same state with other bytes in the storage. -/
def withBuffer (buffer : Nat → UInt8) (s : Sends) : Sends :=
  { s with queue := { s.queue with buffer := buffer } }

/-- **What happens does not depend on the bytes.** -/
theorem step_withBuffer (items' : Nat → Nat → UInt8) (buffer : Nat → UInt8)
    (hStep : step items s l = some (s', es)) :
    ∃ buffer', step items' (s.withBuffer buffer) l = some (s'.withBuffer buffer', es) := by
  cases l with
  | interrupt =>
    cases hStep
    exact ⟨buffer, rfl⟩
  | go =>
    cases go_cases hStep with
    | @copyByte n dst i rest hFrames hMore =>
      refine ⟨Function.update buffer (dst + i) (items' n i), ?_⟩
      simp [step, go, goOn, withBuffer, hFrames, hMore]
    | full hFrames hTest | copyEnd hFrames hTest | headPast hFrames hTest
    | headWithin hFrames hTest | waiter hFrames hTest | noWaiter hFrames hTest =>
      exact ⟨buffer, by simp [step, go, goOn, withBuffer, hFrames, hTest]⟩
    | room hFrames hRoom =>
      have hTest : ¬ s.queue.capacity ≤ s.queue.count := UInt32.not_le.mpr hRoom
      exact ⟨buffer, by simp [step, go, goOn, withBuffer, hFrames, hTest]⟩
    | setDst hFrames | advanceHead hFrames | wrapHead hFrames | incCount hFrames
    | setReady hFrames | clearWaiter hFrames | yield hFrames | ret hFrames =>
      exact ⟨buffer, by simp [step, go, goOn, withBuffer, hFrames]⟩

theorem exec_withBuffer {G : Sends → Label → Prop} [∀ s l, Decidable (G s l)]
    (hG : ∀ s l buffer, G s l → G (s.withBuffer buffer) l) (items' : Nat → Nat → UInt8)
    (buffer : Nat → UInt8) (hExec : Runs.exec (step items) G s ls = some (tr', s')) :
    ∃ buffer', Runs.exec (step items') G (s.withBuffer buffer) ls =
      some (tr', s'.withBuffer buffer') := by
  induction ls generalizing s tr' buffer with
  | nil =>
    obtain ⟨rfl, rfl⟩ := Prod.mk.inj (Option.some.inj hExec)
    exact ⟨buffer, rfl⟩
  | cons l rest ih =>
    obtain ⟨hGuard, s₁, es, tail, hStep, hRest, rfl⟩ := Runs.exec_cons hExec
    obtain ⟨buffer₁, hStep'⟩ := step_withBuffer items' buffer hStep
    obtain ⟨buffer', hRest'⟩ := ih buffer₁ hRest
    exact ⟨buffer', Runs.exec_of_step (hG s l buffer hGuard) hStep' hRest'⟩

/-- The nesting `ls` of calls on `s₀` has the outcome of calls made one after
another, and counts no more items than the queue holds, at any time. -/
def InOrder (items : Nat → Nat → UInt8) (s₀ : Sends) (ls : List Label) : Prop :=
  (∀ ls', ls' <+: ls → ∀ tr s,
    Runs.exec (step items) (fun _ _ => True) s₀ ls' = some (tr, s) →
      s.queue.count.toNat ≤ s.queue.capacity.toNat) ∧
  ∀ tr s, Runs.exec (step items) (fun _ _ => True) s₀ ls = some (tr, s) → Serial items s₀ s tr

/-- A nesting that keeps its calls apart. -/
theorem in_order_of_apart {q : Queue} {k : Kernel} {r : List Event × Sends} (hRing : q.RingInv)
    (hTasks : k.taskCount ≤ rtoskQueueNoWaiter)
    (hApart : Runs.exec (step items) Apart (start q k) ls = some r) (hDone : r.2.frames = []) :
    InOrder items (start q k) ls := by
  have hLined : ∀ {ls' tr s}, Runs.exec (step items) Apart (start q k) ls' = some (tr, s) →
      Lined items (start q k) tr s := by
    intro ls' tr s hExec
    have hRun := Runs.Run.exec .start hExec
    exact hRun.induct (Lined items (start q k)) (lined_start hRing hTasks)
      fun tr s l s' es h hKeeps hStep => h.step hKeeps hStep
  refine ⟨fun ls' hPrefix tr s hExec => ?_, fun tr s hExec => ?_⟩
  · obtain ⟨after, rfl⟩ := hPrefix
    obtain ⟨⟨tr', s'⟩, hBefore⟩ := Runs.exec_append hApart
    rw [Runs.exec_unguarded hBefore] at hExec
    cases hExec
    exact (hLined hBefore).count_le
  · rw [Runs.exec_unguarded hApart] at hExec
    cases hExec
    exact (hLined hApart).serial hDone

/-- **Exactly the nestings that keep calls apart are safe.** For a queue with
its indices in bounds, every nesting `ls` of calls of
`rtosk_queue_send_from_isr` on it, to any depth, that runs until all calls have
returned: the outcome is that of the same calls one after another in some order,
for all items and all bytes in the storage, if and only if every step of the
nesting keeps calls apart. -/
theorem in_order_iff {q : Queue} {k : Kernel} (hGeo : q.Geometry) (hRing : q.RingInv)
    (hTasks : k.taskCount ≤ rtoskQueueNoWaiter)
    (hExec : Runs.exec (step items) (fun _ _ => True) (start q k) ls = some (tr, s))
    (hDone : s.frames = []) :
    (∀ buffer items', InOrder items' (start { q with buffer := buffer } k) ls) ↔
      (Runs.exec (step items) Apart (start q k) ls).isSome := by
  constructor
  · intro hAll
    by_contra hNot
    let ones : Nat → UInt8 := fun _ => 1
    let q₁ : Queue := { q with buffer := ones }
    have hNone : Runs.exec (step zeros) Apart (start q₁ k) ls = none := by
      by_contra hSome
      obtain ⟨r, hr⟩ := Option.ne_none_iff_exists'.mp hSome
      obtain ⟨buffer', hBack⟩ := exec_withBuffer (fun _ _ _ h => h) items q.buffer hr
      refine hNot ?_
      show (Runs.exec (step items) Apart ((start q₁ k).withBuffer q.buffer) ls).isSome
      rw [hBack]
      rfl
    obtain ⟨buffer', hRun⟩ := exec_withBuffer (fun _ _ _ h => h) zeros ones hExec
    have hRun' : Runs.exec (step zeros) (fun _ _ => True) (start q₁ k) ls =
        some (tr, s.withBuffer buffer') := hRun
    have hGeo' : q₁.Geometry := ⟨hGeo.itemSize_pos, hGeo.capacity_pos, hGeo.storage_lt⟩
    have hRing' : q₁.RingInv := ⟨hRing.head_lt, hRing.tail_lt, hRing.count_le, hRing.head_eq⟩
    have hWatched : Watched q₁ [] (start q₁ k) := ⟨rfl, rfl, rfl, nofun, nofun⟩
    have hTraced : Traced q₁.itemSize.toNat tr (s.withBuffer buffer') := by
      have hReach := Runs.Run.exec .start hRun'
      refine hReach.induct (Traced q₁.itemSize.toNat)
        ⟨rfl, rfl, fun p hp => ?_, nofun, fun f hf => absurd hf List.not_mem_nil⟩
        fun tr s l s' es h _ hStep => h.step hStep
      exact absurd (show ones p = 0 from hp) (show (1 : UInt8) ≠ 0 by decide)
    rcases strays hWatched (lined_start hRing' hTasks) hRun' hNone with hDoomed | hBroken
    · obtain ⟨fs, rest, hFrames, hNe, -⟩ := hDoomed.early
      have hNil : fs ++ rest = [] := hFrames.symm.trans hDone
      exact hNe (List.append_eq_nil_iff.mp hNil).1
    · exact hBroken.not_serial hGeo' hRing' (fun _ => rfl) hTraced hDone
        ((hAll ones zeros).2 tr _ hRun')
  · intro hSome buffer items'
    obtain ⟨r, hr⟩ := Option.isSome_iff_exists.mp hSome
    have hSame := Runs.exec_unguarded hr
    rw [hExec] at hSame
    obtain rfl := Option.some.inj hSame
    obtain ⟨buffer', hOther⟩ := exec_withBuffer (fun _ _ _ h => h) items' buffer hr
    have hRing' : ({ q with buffer := buffer } : Queue).RingInv :=
      ⟨hRing.head_lt, hRing.tail_lt, hRing.count_le, hRing.head_eq⟩
    exact in_order_of_apart hRing' hTasks hOther hDone

-- ---------------------------------------------------------------------------
-- Two nestings
-- ---------------------------------------------------------------------------

/-- An empty queue for two items of one byte; the storage holds nines. -/
def pair : Queue := ⟨fun _ => 9, 1, 2, 0, 0, 0, rtoskQueueNoWaiter⟩

def idle : Kernel where
  toTaskTable := TaskTable.static
  systicks := 0
  kernelInit := true
  criticalNesting := 0
  criticalPrimask := 0
  primask := 0
  pendSv := false

theorem pair_geometry : pair.Geometry := ⟨by decide, by decide, by decide⟩

theorem pair_ring : pair.RingInv := ⟨by decide, by decide, by decide, by decide⟩

/-- Call `n` sends the byte `n + 1`. -/
def numbers : Nat → Nat → UInt8 := fun n _ => n.toUInt8 + 1

/-- Call `1` begins when call `0` has advanced the head and not counted. -/
def apartLabels : List Label :=
  [.interrupt] ++ List.replicate 5 .go ++ [.interrupt] ++ List.replicate 14 .go

theorem in_order_iff_apart : InOrder numbers (start pair idle) apartLabels := by
  obtain ⟨⟨tr, s⟩, hExec, hDone⟩ := (Option.any_eq_true _ _).mp
    (show (Runs.exec (step zeros) (fun _ _ => True) (start pair idle) apartLabels).any
      (fun r => r.2.frames = []) by decide +kernel)
  exact (in_order_iff pair_geometry pair_ring (by decide) hExec (of_decide_eq_true hDone)).mpr
    (by decide +kernel) pair.buffer numbers

/-- Call `1` begins when call `0` has computed its slot and not copied. -/
def collidingLabels : List Label :=
  [.interrupt] ++ List.replicate 2 .go ++ [.interrupt] ++ List.replicate 17 .go

/-- Both calls copy to the first cell, and the second cell is counted unwritten. -/
theorem in_order_collision :
    pair.Geometry ∧ pair.RingInv ∧ ∃ tr s,
      Runs.exec (step numbers) (fun _ _ => True) (start pair idle) collidingLabels = some (tr, s) ∧
        s.frames = [] ∧ ¬ Serial numbers (start pair idle) s tr := by
  refine ⟨pair_geometry, pair_ring, ?_⟩
  obtain ⟨⟨tr, s⟩, hExec, hOutcome⟩ := (Option.any_eq_true _ _).mp
    (show (Runs.exec (step numbers) (fun _ _ => True) (start pair idle) collidingLabels).any
      (fun r => r.2.frames = [] ∧ Sends.began r.1 = [0, 1] ∧ r.2.queue.buffer 1 = 9) by
        decide +kernel)
  obtain ⟨hDone, hBegan, hCell⟩ := of_decide_eq_true hOutcome
  refine ⟨tr, s, hExec, hDone, ?_⟩
  rintro ⟨order, values, hOrder, -, hFeed⟩
  rw [hBegan] at hOrder
  have hByte : (Runs.feed (send numbers) (pair, idle) order).1.1.buffer 1 = 9 := by
    rw [show Runs.feed (send numbers) (pair, idle) order = ((s.queue, s.kernel), values) from hFeed]
    exact hCell
  rcases List.perm_pair.mp hOrder with rfl | rfl
  · exact absurd hByte (by decide +kernel)
  · exact absurd hByte (by decide +kernel)

end Sends

end TinyRtos
