import TinyRtos.Kernel.Sends

/-!
# TinyRTOS — nested sends that keep apart

A call of `rtosk_queue_send_from_isr` reads the head twice, when it computes
`dst` and when it advances it, and the count twice, when it tests and when it
increments it. `Apart` is what a nesting has to respect: no call begins while
the running call is between the two (`exposed`), or between advancing the head
past the end and wrapping it; and a call that finds room finds it beyond the
calls in flight, which have found room and are not counted yet.

In such runs each call takes effect where it advances the head (or is refused),
and `Lined` relates the queue to the queue `a` of the same calls made one after
another in that order:

* `Ring` — the storage, the head and the count, statement by statement;
* `settle` — what the calls under way still do to the waiting task. All of them
  may see the same waiter; waking it once more changes nothing.

`Lined.step` is the simulation, `Lined.serial` what it gives when the last call
has returned.
-/

namespace TinyRtos

namespace Sends

-- ---------------------------------------------------------------------------
-- Calls under way
-- ---------------------------------------------------------------------------

/-- Found room, not counted yet. -/
def Stmt.inFlight : Stmt → Nat
  | .setDst | .copy .. | .advanceHead | .testHead | .wrapHead | .incCount => 1
  | _ => 0

/-- Advanced the head, not counted yet. -/
def Stmt.uncounted : Stmt → Nat
  | .testHead | .wrapHead | .incCount => 1
  | _ => 0

/-- What a call will return, once it has taken effect. -/
def Stmt.owed : Stmt → Option UInt32
  | .testCount | .setDst | .copy .. | .advanceHead => none
  | .ret value => some value
  | _ => some 1

/-- Between `dst` and `queue->head++`, or at a head that has to be wrapped. -/
def Stmt.exposed (q : Queue) : Stmt → Bool
  | .copy .. | .advanceHead => true
  | .testHead | .wrapHead => decide (q.capacity ≤ q.head)
  | _ => false

/-- Calls under way, each with the weight of its statement. -/
def weigh (weight : Stmt → Nat) (frames : List Frame) : Nat :=
  (frames.map fun f => weight f.stmt).sum

@[simp] theorem weigh_cons (weight : Stmt → Nat) (f : Frame) (rest : List Frame) :
    weigh weight (f :: rest) = weight f.stmt + weigh weight rest := by
  simp [weigh]

/-- The number of calls in flight. -/
def inFlight (frames : List Frame) : Nat := weigh Stmt.inFlight frames

/-- The number of calls whose item is in the ring but not counted. -/
def uncounted (frames : List Frame) : Nat := weigh Stmt.uncounted frames

/-- The calls that have not taken effect. -/
def pending (frames : List Frame) : List Nat :=
  frames.filterMap fun f => if f.stmt.owed = none then some f.n else none

/-- What the calls that have taken effect will return. -/
def owed (frames : List Frame) : List (Nat × UInt32) :=
  frames.filterMap fun f => f.stmt.owed.map (f.n, ·)

/-- The nesting keeps calls apart. -/
def Apart (s : Sends) : Label → Prop
  | .interrupt => ∀ f ∈ s.frames.head?, f.stmt.exposed s.queue = false
  | .go => ∀ f ∈ s.frames.head?, f.stmt = .testCount → s.queue.count < s.queue.capacity →
      s.queue.count.toNat + inFlight s.frames < s.queue.capacity.toNat

instance (s : Sends) (l : Label) : Decidable (Apart s l) := by
  cases l
  · exact inferInstanceAs (Decidable (∀ _ ∈ _, _))
  · exact inferInstanceAs (Decidable (∀ _ ∈ _, _ → _ → _))

-- ---------------------------------------------------------------------------
-- The waiting task
-- ---------------------------------------------------------------------------

/-- Ready the waiting task, clear the slot, request the switch. -/
def wake (w : Nat × Kernel) : Nat × Kernel :=
  (rtoskQueueNoWaiter, rtoskPortYield (w.2.onTable (rtoskTaskSetReady w.1)))

/-- The waiter test and what it guards. -/
def testAndWake (w : Nat × Kernel) : Nat × Kernel :=
  if w.1 ≠ rtoskQueueNoWaiter then wake w else w

/-- What the statements from `stmt` on do to the slot and the kernel. -/
def Stmt.settle (w : Nat × Kernel) : Stmt → Nat × Kernel
  | .testHead | .wrapHead | .incCount | .testWaiter => testAndWake w
  | .setReady => wake w
  | .clearWaiter => (rtoskQueueNoWaiter, rtoskPortYield w.2)
  | .yield => (w.1, rtoskPortYield w.2)
  | _ => w

/-- The slot and the kernel when all calls under way have returned. -/
def settle (frames : List Frame) (w : Nat × Kernel) : Nat × Kernel :=
  frames.foldl (fun w f => f.stmt.settle w) w

/-- The waiting task, if any, is READY already. -/
def Readied (w : Nat × Kernel) : Prop := w.2.onTable (rtoskTaskSetReady w.1) = w.2

/-- A table as `rtosk_task_create` makes it: no task has the index that stands
for no waiter. -/
def Bounded (w : Nat × Kernel) : Prop := w.2.taskCount ≤ rtoskQueueNoWaiter

theorem readied_noWaiter {k : Kernel} (h : k.taskCount ≤ rtoskQueueNoWaiter) :
    Readied (rtoskQueueNoWaiter, k) := by
  unfold Readied Kernel.onTable
  simp only [rtoskTaskSetReady, if_pos h]

theorem setReady_setReady (i : Nat) (t : TaskTable) :
    rtoskTaskSetReady i (rtoskTaskSetReady i t) = rtoskTaskSetReady i t := by
  by_cases hi : t.taskCount ≤ i
  · simp only [rtoskTaskSetReady, if_pos hi]
  · simp only [rtoskTaskSetReady, if_neg hi, TaskTable.setState]
    simp

theorem readied_setReady (i : Nat) (k : Kernel) :
    Readied (i, k.onTable (rtoskTaskSetReady i)) := by
  unfold Readied Kernel.onTable
  simp only [setReady_setReady]

theorem Bounded.wake {w : Nat × Kernel} (h : Bounded w) : Bounded (wake w) := by
  unfold Bounded Sends.wake at *
  simpa using h

theorem wake_wake {w : Nat × Kernel} (h : Bounded w) : wake (wake w) = wake w := by
  have hReadied : Readied (wake w) := readied_noWaiter h.wake
  unfold Readied at hReadied
  show (rtoskQueueNoWaiter, rtoskPortYield ((wake w).2.onTable (rtoskTaskSetReady (wake w).1))) =
    wake w
  rw [hReadied]
  rfl

theorem testAndWake_wake (w : Nat × Kernel) : testAndWake (wake w) = wake w :=
  if_neg fun h => h rfl

theorem testAndWake_none {w : Nat × Kernel} (h : w.1 = rtoskQueueNoWaiter) : testAndWake w = w :=
  if_neg fun hNot => hNot h

theorem testAndWake_some {w : Nat × Kernel} (h : w.1 ≠ rtoskQueueNoWaiter) :
    testAndWake w = wake w :=
  if_pos h

theorem Bounded.settle {w : Nat × Kernel} (h : Bounded w) (stmt : Stmt) :
    Bounded (stmt.settle w) := by
  have hTest : Bounded (testAndWake w) := by
    unfold testAndWake
    split
    · exact h.wake
    · exact h
  cases stmt with
  | testHead | wrapHead | incCount | testWaiter => exact hTest
  | setReady => exact h.wake
  | testCount | setDst | copy | advanceHead | clearWaiter | yield | ret => exact h

/-- A waiter is READY at a call's `clearWaiter`, and stays so. -/
theorem Readied.settle {w : Nat × Kernel} (hBounded : Bounded w) (h : Readied w) (stmt : Stmt) :
    Readied (stmt.settle w) := by
  have hWake : Readied (wake w) := readied_noWaiter hBounded.wake
  cases stmt with
  | testHead | wrapHead | incCount | testWaiter =>
    show Readied (testAndWake w)
    unfold testAndWake
    split
    · exact hWake
    · exact h
  | setReady => exact hWake
  | clearWaiter => exact readied_noWaiter hBounded
  | yield => exact congrArg rtoskPortYield h
  | testCount | setDst | copy | advanceHead | ret => exact h

/-- **Waking first changes nothing** for a call that will wake too. -/
theorem settle_stmt_testAndWake {w : Nat × Kernel} (hBounded : Bounded w) {stmt : Stmt}
    (hClear : stmt = .clearWaiter → Readied w) :
    stmt.settle (testAndWake w) = testAndWake (stmt.settle w) := by
  by_cases hNone : w.1 = rtoskQueueNoWaiter
  · rw [testAndWake_none hNone]
    have hSlot : (stmt.settle w).1 = rtoskQueueNoWaiter := by
      cases stmt with
      | testHead | wrapHead | incCount | testWaiter =>
        show (testAndWake w).1 = _
        rw [testAndWake_none hNone, hNone]
      | setReady | clearWaiter => rfl
      | testCount | setDst | copy | advanceHead | yield | ret => exact hNone
    rw [testAndWake_none hSlot]
  · have hTest := testAndWake_some hNone
    rw [hTest]
    cases stmt with
    | testHead | wrapHead | incCount | testWaiter =>
      show testAndWake (wake w) = testAndWake (testAndWake w)
      rw [hTest]
    | setReady =>
      show wake (wake w) = testAndWake (wake w)
      rw [wake_wake hBounded, testAndWake_wake]
    | clearWaiter =>
      show (rtoskQueueNoWaiter, rtoskPortYield (wake w).2) =
        testAndWake (rtoskQueueNoWaiter, rtoskPortYield w.2)
      rw [testAndWake_none rfl]
      have hReadied := hClear rfl
      unfold Readied at hReadied
      unfold wake
      rw [hReadied]
      rfl
    | yield =>
      show ((wake w).1, rtoskPortYield (wake w).2) = testAndWake (w.1, rtoskPortYield w.2)
      rw [testAndWake_some (w := (w.1, rtoskPortYield w.2)) hNone]
      rfl
    | testCount | setDst | copy | advanceHead | ret => exact hTest.symm

theorem settle_testAndWake {frames : List Frame} {w : Nat × Kernel} (hBounded : Bounded w)
    (hClear : ∀ f ∈ frames, f.stmt = .clearWaiter → Readied w) :
    settle frames (testAndWake w) = testAndWake (settle frames w) := by
  induction frames generalizing w with
  | nil => rfl
  | cons f rest ih =>
    have hHead := settle_stmt_testAndWake hBounded (hClear f (List.mem_cons_self ..))
    show settle rest (f.stmt.settle (testAndWake w)) = testAndWake (settle rest (f.stmt.settle w))
    rw [hHead]
    refine ih (hBounded.settle _) fun g hg hStmt => ?_
    exact (hClear g (List.mem_cons_of_mem f hg) hStmt).settle hBounded _

-- ---------------------------------------------------------------------------
-- The ring
-- ---------------------------------------------------------------------------

variable {items : Nat → Nat → UInt8} {a q q' : Queue} {n : Nat} {stmt stmt' : Stmt}
  {rest frames : List Frame}

/-- The storage and the head at `stmt` of the running call `n`, compared with
`a`, where the calls that have advanced the head are through. -/
def Stmt.Placed (items : Nat → Nat → UInt8) (n : Nat) (a q : Queue) : Stmt → Prop
  | .copy dst i => dst = (a.head * a.itemSize).toNat ∧ i ≤ a.itemSize.toNat ∧
      q.buffer = RingBuffer.blit a.buffer dst (items n) i ∧ q.head = a.head
  | .advanceHead =>
      q.buffer = RingBuffer.blit a.buffer (a.head * a.itemSize).toNat (items n)
        a.itemSize.toNat ∧ q.head = a.head
  | .testHead => q.buffer = a.buffer ∧ q.head.toNat ≤ a.capacity.toNat ∧
      (if a.capacity ≤ q.head then 0 else q.head) = a.head
  | .wrapHead => q.buffer = a.buffer ∧ q.head = a.capacity ∧ a.head = 0
  | _ => q.buffer = a.buffer ∧ q.head = a.head

/-- A call that has been interrupted finds the queue as it needs it, whatever
went on meanwhile. -/
def Suspended (items : Nat → Nat → UInt8) (f : Frame) : Prop :=
  ∀ a q : Queue, a.RingInv → q.buffer = a.buffer → q.head = a.head → f.stmt.Placed items f.n a q

/-- The running call's place. -/
def Top (items : Nat → Nat → UInt8) (a q : Queue) : List Frame → Prop
  | [] => q.buffer = a.buffer ∧ q.head = a.head
  | f :: _ => f.stmt.Placed items f.n a q

/-- The ring of `q` under the calls `frames`, compared with `a`. -/
structure Ring (items : Nat → Nat → UInt8) (a q : Queue) (frames : List Frame) : Prop where
  inv      : a.RingInv
  capacity : q.capacity = a.capacity
  itemSize : q.itemSize = a.itemSize
  tail     : q.tail = a.tail
  count    : a.count.toNat = q.count.toNat + uncounted frames
  room     : q.count.toNat + inFlight frames ≤ a.capacity.toNat
  top      : Top items a q frames
  under    : ∀ f ∈ frames.tail, Suspended items f

@[simp] theorem inFlight_cons (f : Frame) (rest : List Frame) :
    inFlight (f :: rest) = f.stmt.inFlight + inFlight rest :=
  weigh_cons ..

@[simp] theorem uncounted_cons (f : Frame) (rest : List Frame) :
    uncounted (f :: rest) = f.stmt.uncounted + uncounted rest :=
  weigh_cons ..

theorem uncounted_le_inFlight (frames : List Frame) : uncounted frames ≤ inFlight frames := by
  induction frames with
  | nil => exact Nat.le_refl _
  | cons f rest ih =>
    have hStmt : f.stmt.uncounted ≤ f.stmt.inFlight := by
      cases f.stmt <;> simp [Stmt.uncounted, Stmt.inFlight]
    rw [inFlight_cons, uncounted_cons]
    omega

/-- **A call that is not exposed can be interrupted.** -/
theorem Ring.interruptible (h : Ring items a q frames)
    (hApart : ∀ f ∈ frames.head?, f.stmt.exposed q = false) :
    (q.buffer = a.buffer ∧ q.head = a.head) ∧ ∀ f ∈ frames, Suspended items f := by
  cases frames with
  | nil => exact ⟨h.top, nofun⟩
  | cons f rest =>
    have hTop : f.stmt.Placed items f.n a q := h.top
    have hExposed := hApart f rfl
    obtain ⟨hSame, hSuspended⟩ :
        (q.buffer = a.buffer ∧ q.head = a.head) ∧ Suspended items f := by
      obtain ⟨n, stmt⟩ := f
      cases stmt with
      | copy | advanceHead => cases hExposed
      | testHead =>
        obtain ⟨hBuffer, -, hHead⟩ := hTop
        have hBelow : ¬ q.capacity ≤ q.head := of_decide_eq_false hExposed
        rw [h.capacity] at hBelow
        rw [if_neg hBelow] at hHead
        refine ⟨⟨hBuffer, hHead⟩, fun b p hInv hBuffer' hHead' => ⟨hBuffer', ?_, ?_⟩⟩
        · rw [hHead']
          exact Nat.le_of_lt hInv.head_lt
        · rw [hHead', if_neg]
          exact UInt32.not_le.mpr hInv.head_lt
      | wrapHead =>
        obtain ⟨-, hHead, -⟩ := hTop
        have hBelow : ¬ q.capacity ≤ q.head := of_decide_eq_false hExposed
        rw [hHead, h.capacity] at hBelow
        exact absurd (UInt32.le_refl _) hBelow
      | _ => exact ⟨hTop, fun _ _ _ hBuffer' hHead' => ⟨hBuffer', hHead'⟩⟩
    refine ⟨hSame, fun g hg => ?_⟩
    rcases List.mem_cons.mp hg with rfl | hg
    · exact hSuspended
    · exact h.under g hg

/-- A call begins. -/
theorem Ring.interrupt (h : Ring items a q frames)
    (hApart : ∀ f ∈ frames.head?, f.stmt.exposed q = false) :
    Ring items a q (⟨n, .testCount⟩ :: frames) := by
  obtain ⟨hSame, hSuspended⟩ := h.interruptible hApart
  refine ⟨h.inv, h.capacity, h.itemSize, h.tail, ?_, ?_, hSame, hSuspended⟩
  · rw [h.count, uncounted_cons]
    exact congrArg _ (Nat.zero_add _).symm
  · rw [inFlight_cons]
    have hRoom := h.room
    show q.count.toNat + (0 + inFlight frames) ≤ a.capacity.toNat
    omega

/-- A call returns to the one it has interrupted. -/
theorem Ring.pop {value : UInt32} (h : Ring items a q (⟨n, .ret value⟩ :: rest)) :
    Ring items a q rest := by
  have hTop : q.buffer = a.buffer ∧ q.head = a.head := h.top
  refine ⟨h.inv, h.capacity, h.itemSize, h.tail, ?_, ?_, ?_, ?_⟩
  · rw [h.count, uncounted_cons]
    exact congrArg _ (Nat.zero_add _)
  · have hRoom := h.room
    rw [inFlight_cons] at hRoom
    have hSame : q.count.toNat + (0 + inFlight rest) ≤ a.capacity.toNat := hRoom
    omega
  · cases rest with
    | nil => exact hTop
    | cons f rest => exact h.under f (List.mem_cons_self ..) a q h.inv hTop.1 hTop.2
  · exact fun f hf => h.under f (List.mem_of_mem_tail hf)

/-- The running call goes from one statement to the next. -/
theorem Ring.goOn (h : Ring items a q (⟨n, stmt⟩ :: rest)) (hCapacity : q'.capacity = q.capacity)
    (hItemSize : q'.itemSize = q.itemSize) (hTail : q'.tail = q.tail)
    (hCount : q'.count.toNat + stmt'.uncounted = q.count.toNat + stmt.uncounted)
    (hRoom : q'.count.toNat + (stmt'.inFlight + inFlight rest) ≤ a.capacity.toNat)
    (hPlaced : stmt'.Placed items n a q') : Ring items a q' (⟨n, stmt'⟩ :: rest) where
  inv := h.inv
  capacity := hCapacity.trans h.capacity
  itemSize := hItemSize.trans h.itemSize
  tail := hTail.trans h.tail
  count := by
    have hBefore := h.count
    rw [uncounted_cons] at hBefore ⊢
    show a.count.toNat = q'.count.toNat + (stmt'.uncounted + uncounted rest)
    have hSame : a.count.toNat = q.count.toNat + (stmt.uncounted + uncounted rest) := hBefore
    omega
  room := by
    rw [inFlight_cons]
    exact hRoom
  top := hPlaced
  under := h.under

/-- **A call takes effect**: the item is in its cell, and the head moves on. -/
theorem Ring.takeEffect (h : Ring items a q (⟨n, .advanceHead⟩ :: rest)) (w : Nat) :
    ¬ a.capacity ≤ a.count ∧
      Ring items { a.pushItem (items n) with waitingTask := w } { q with head := q.head + 1 }
        (⟨n, .testHead⟩ :: rest) := by
  have hCount := h.count
  have hRoom := h.room
  have hUncounted := uncounted_le_inFlight rest
  rw [uncounted_cons] at hCount
  rw [inFlight_cons] at hRoom
  have hCount' : a.count.toNat = q.count.toNat + (0 + uncounted rest) := hCount
  have hRoom' : q.count.toNat + (1 + inFlight rest) ≤ a.capacity.toNat := hRoom
  have hFree : ¬ a.capacity ≤ a.count := by
    rw [UInt32.le_iff_toNat_le]
    omega
  obtain ⟨hBuffer, hHead⟩ : q.buffer = RingBuffer.blit a.buffer (a.head * a.itemSize).toNat
      (items n) a.itemSize.toNat ∧ q.head = a.head := h.top
  have hInv := Queue.pushItem_ring h.inv hFree (items n)
  rw [Queue.pushItem_eq] at hInv ⊢
  refine ⟨hFree, ⟨hInv.head_lt, hInv.tail_lt, hInv.count_le, hInv.head_eq⟩, h.capacity,
    h.itemSize, h.tail, ?_, hRoom, ⟨hBuffer, ?_, ?_⟩, h.under⟩
  · show (a.count + 1).toNat = _
    rw [Queue.count_succ hFree, uncounted_cons]
    show a.count.toNat + 1 = q.count.toNat + (1 + uncounted rest)
    omega
  · show (q.head + 1).toNat ≤ a.capacity.toNat
    have hLt := h.inv.head_lt
    have hBound := a.capacity.toNat_lt
    rw [hHead, UInt32.toNat_add, UInt32.toNat_one]
    omega
  · show (if a.capacity ≤ q.head + 1 then 0 else q.head + 1) = advance a.capacity a.head
    rw [hHead]
    rfl

theorem send_full {k : Kernel} (h : a.capacity ≤ a.count) :
    send items (a, k) n = ((a, k), [(n, 0)]) := by
  simp only [send, rtoskQueueSendFromIsr, if_pos h]

theorem send_room {k : Kernel} (h : ¬ a.capacity ≤ a.count) :
    send items (a, k) n =
      (({ a.pushItem (items n) with waitingTask := (testAndWake (a.waitingTask, k)).1 },
        (testAndWake (a.waitingTask, k)).2), [(n, 1)]) := by
  by_cases hWaiter : a.waitingTask ≠ rtoskQueueNoWaiter
  · rw [testAndWake_some hWaiter]
    simp only [send, queueSendFromIsr_waiter h hWaiter]
    rfl
  · have hNone := not_not.mp hWaiter
    rw [testAndWake_none hNone]
    simp only [send, queueSendFromIsr_none h hWaiter]
    rw [← Queue.pushItem_waitingTask a (items n)]

-- ---------------------------------------------------------------------------
-- The simulation
-- ---------------------------------------------------------------------------

/-- After the history `tr` the calls `order` have taken effect, in this order;
one after another they leave `a` and return `values`. -/
structure LinedAt (items : Nat → Nat → UInt8) (s₀ : Sends) (tr : List Event) (s : Sends)
    (a : Queue × Kernel) (order : List Nat) (values : List (Nat × UInt32)) : Prop where
  feed    : Runs.feed (send items) (s₀.queue, s₀.kernel) order = (a, values)
  began   : (order ++ pending s.frames).Perm (began tr)
  values  : values.Perm (returned tr ++ owed s.frames)
  ring    : Ring items a.1 s.queue s.frames
  wake    : settle s.frames (s.queue.waitingTask, s.kernel) = (a.1.waitingTask, a.2)
  readied : ∀ f ∈ s.frames, f.stmt = .clearWaiter → Readied (s.queue.waitingTask, s.kernel)
  bounded : Bounded (s.queue.waitingTask, s.kernel)

def Lined (items : Nat → Nat → UInt8) (s₀ : Sends) (tr : List Event) (s : Sends) : Prop :=
  ∃ a order values, LinedAt items s₀ tr s a order values

section Simulation

variable {s₀ s s' : Sends} {tr es : List Event} {b : Queue × Kernel} {order : List Nat}
  {values : List (Nat × UInt32)} {k' : Kernel}

@[simp] theorem goOn_queue (q : Queue) (k : Kernel) (n : Nat) (stmt : Stmt) (rest : List Frame)
    (s : Sends) : (s.goOn q k n stmt rest).queue = q := rfl
@[simp] theorem goOn_kernel (q : Queue) (k : Kernel) (n : Nat) (stmt : Stmt) (rest : List Frame)
    (s : Sends) : (s.goOn q k n stmt rest).kernel = k := rfl
@[simp] theorem goOn_frames (q : Queue) (k : Kernel) (n : Nat) (stmt : Stmt) (rest : List Frame)
    (s : Sends) : (s.goOn q k n stmt rest).frames = ⟨n, stmt⟩ :: rest := rfl

theorem began_append (tr es : List Event) :
    Sends.began (tr ++ es) = Sends.began tr ++ Sends.began es :=
  List.filterMap_append

theorem returned_append (tr es : List Event) :
    returned (tr ++ es) = returned tr ++ returned es :=
  List.filterMap_append

/-- A statement that neither takes effect nor returns. -/
theorem LinedAt.quiet (h : LinedAt items s₀ tr s b order values)
    (hFrames : s.frames = ⟨n, stmt⟩ :: rest) (hBegan : Sends.began es = [])
    (hReturned : returned es = []) (hOwed : stmt'.owed = stmt.owed)
    (hRing : Ring items b.1 q' (⟨n, stmt'⟩ :: rest))
    (hWake : stmt'.settle (q'.waitingTask, k') =
      stmt.settle (s.queue.waitingTask, s.kernel))
    (hReadied : ∀ f ∈ (⟨n, stmt'⟩ :: rest : List Frame), f.stmt = .clearWaiter →
      Readied (q'.waitingTask, k'))
    (hBounded : Bounded (q'.waitingTask, k')) :
    LinedAt items s₀ (tr ++ es) (s.goOn q' k' n stmt' rest) b order values := by
  have hPending : pending (⟨n, stmt'⟩ :: rest) = pending (⟨n, stmt⟩ :: rest) := by
    simp only [pending, List.filterMap_cons, hOwed]
  have hOwe : owed (⟨n, stmt'⟩ :: rest) = owed (⟨n, stmt⟩ :: rest) := by
    simp only [owed, List.filterMap_cons, hOwed]
  refine ⟨h.feed, ?_, ?_, hRing, ?_, hReadied, hBounded⟩
  · rw [began_append, hBegan, List.append_nil, goOn_frames, hPending, ← hFrames]
    exact h.began
  · rw [returned_append, hReturned, List.append_nil, goOn_frames, hOwe, ← hFrames]
    exact h.values
  · have hBefore := h.wake
    rw [hFrames] at hBefore
    rw [← hBefore]
    exact congrArg (settle rest) hWake

/-- A statement at which call `n` takes effect, and is to return `value`. -/
theorem LinedAt.effect {c : Queue × Kernel} {value : UInt32}
    (h : LinedAt items s₀ tr s b order values) (hFrames : s.frames = ⟨n, stmt⟩ :: rest)
    (hPending : stmt.owed = none) (hOwed : stmt'.owed = some value)
    (hSend : send items b n = (c, [(n, value)]))
    (hRing : Ring items c.1 q' (⟨n, stmt'⟩ :: rest))
    (hWake : settle (⟨n, stmt'⟩ :: rest) (q'.waitingTask, s.kernel) = (c.1.waitingTask, c.2))
    (hWaiter : q'.waitingTask = s.queue.waitingTask) (hClear : stmt' ≠ .clearWaiter) :
    LinedAt items s₀ tr (s.goOn q' s.kernel n stmt' rest) c (order ++ [n])
      (values ++ [(n, value)]) := by
  have hBegan := h.began
  have hValues := h.values
  have hReadied := h.readied
  rw [hFrames] at hBegan hValues hReadied
  have hPendingEq : pending (⟨n, stmt⟩ :: rest) = n :: pending rest := by
    simp [pending, hPending]
  have hPendingEq' : pending (⟨n, stmt'⟩ :: rest) = pending rest := by
    simp [pending, hOwed]
  have hOwedEq : owed (⟨n, stmt⟩ :: rest) = owed rest := by
    simp [owed, hPending]
  have hOwedEq' : owed (⟨n, stmt'⟩ :: rest) = (n, value) :: owed rest := by
    simp [owed, hOwed]
  refine ⟨?_, ?_, ?_, hRing, hWake, ?_, ?_⟩
  · rw [Runs.feed_concat, h.feed, hSend]
  · rw [goOn_frames, hPendingEq', List.append_assoc]
    rw [hPendingEq] at hBegan
    exact hBegan
  · rw [goOn_frames, hOwedEq']
    rw [hOwedEq] at hValues
    refine (hValues.append_right [(n, value)]).trans ?_
    rw [List.append_assoc]
    exact (List.perm_append_singleton _ _).append_left _
  · rw [goOn_frames]
    intro f hf hStmt
    show Readied (q'.waitingTask, s.kernel)
    rw [hWaiter]
    rcases List.mem_cons.mp hf with rfl | hf
    · exact absurd hStmt hClear
    · exact hReadied f (List.mem_cons_of_mem _ hf) hStmt
  · show Bounded (q'.waitingTask, s.kernel)
    rw [hWaiter]
    exact h.bounded

/-- A call begins. -/
theorem LinedAt.interrupt (h : LinedAt items s₀ tr s b order values)
    (hApart : Apart s .interrupt) :
    LinedAt items s₀ (tr ++ [.began s.calls])
      { s with calls := s.calls + 1, frames := ⟨s.calls, .testCount⟩ :: s.frames } b order
      values := by
  refine ⟨h.feed, ?_, ?_, h.ring.interrupt hApart, h.wake, ?_, h.bounded⟩
  · rw [began_append]
    show (order ++ s.calls :: pending s.frames).Perm (Sends.began tr ++ [s.calls])
    exact List.perm_middle.trans
      ((h.began.cons _).trans (List.perm_append_singleton _ _).symm)
  · rw [returned_append]
    show values.Perm (returned tr ++ [] ++ owed s.frames)
    rw [List.append_nil]
    exact h.values
  · intro f hf hStmt
    rcases List.mem_cons.mp hf with rfl | hf
    · cases hStmt
    · exact h.readied f hf hStmt

/-- A call returns. -/
theorem LinedAt.pop {value : UInt32} (h : LinedAt items s₀ tr s b order values)
    (hFrames : s.frames = ⟨n, .ret value⟩ :: rest) :
    LinedAt items s₀ (tr ++ [.returned n value]) { s with frames := rest } b order values := by
  have hBegan := h.began
  have hValues := h.values
  have hRing := h.ring
  have hWake := h.wake
  rw [hFrames] at hBegan hValues hRing hWake
  refine ⟨h.feed, ?_, ?_, hRing.pop, hWake, ?_, h.bounded⟩
  · rw [began_append]
    show (order ++ pending rest).Perm (Sends.began tr ++ [])
    rw [List.append_nil]
    exact hBegan
  · rw [returned_append, List.append_assoc]
    exact hValues
  · intro f hf hStmt
    refine h.readied f ?_ hStmt
    rw [hFrames]
    exact List.mem_cons_of_mem _ hf

/-- Up to the waiter test the slot and the kernel are left alone. -/
theorem LinedAt.keep (h : LinedAt items s₀ tr s b order values)
    (hFrames : s.frames = ⟨n, stmt⟩ :: rest) (hNot : stmt' ≠ .clearWaiter) :
    ∀ f ∈ (⟨n, stmt'⟩ :: rest : List Frame), f.stmt = .clearWaiter →
      Readied (s.queue.waitingTask, s.kernel) := by
  intro f hf hStmt
  rcases List.mem_cons.mp hf with rfl | hf
  · exact absurd hStmt hNot
  · refine h.readied f ?_ hStmt
    rw [hFrames]
    exact List.mem_cons_of_mem _ hf

/-- The ring as the running call finds it. -/
theorem LinedAt.running (h : LinedAt items s₀ tr s b order values)
    (hFrames : s.frames = ⟨n, stmt⟩ :: rest) :
    Ring items b.1 s.queue (⟨n, stmt⟩ :: rest) ∧ stmt.Placed items n b.1 s.queue ∧
      s.queue.count.toNat + (stmt.inFlight + inFlight rest) ≤ b.1.capacity.toNat := by
  have hRing := h.ring
  rw [hFrames] at hRing
  have hRoom := hRing.room
  rw [inFlight_cons] at hRoom
  exact ⟨hRing, hRing.top, hRoom⟩

/-- **The simulation.** Every statement of an apart run keeps the calls lined up. -/
theorem Lined.go (h : Lined items s₀ tr s) (hApart : Apart s .go)
    (hGo : s.go items = some (s', es)) : Lined items s₀ (tr ++ es) s' := by
  obtain ⟨b, order, values, h⟩ := h
  have hCapacity := h.ring.capacity
  have hItemSize := h.ring.itemSize
  cases go_cases hGo with
  | @full n rest hFrames hFull =>
    obtain ⟨hRing, hSame, hRoom⟩ := h.running hFrames
    have hFull' : b.1.capacity ≤ b.1.count := by
      have hCount := hRing.count
      rw [hCapacity] at hFull
      rw [UInt32.le_iff_toNat_le] at hFull ⊢
      omega
    rw [List.append_nil]
    exact ⟨b, _, _, h.effect hFrames rfl rfl (send_full hFull')
      (hRing.goOn rfl rfl rfl rfl hRoom hSame) (by rw [← h.wake, hFrames]; rfl) rfl nofun⟩
  | @room n rest hFrames hLt =>
    obtain ⟨hRing, hSame, -⟩ := h.running hFrames
    have hBeyond := hApart ⟨n, .testCount⟩ (by rw [hFrames]; rfl) rfl hLt
    rw [hFrames, inFlight_cons, hCapacity] at hBeyond
    have hBeyond' : s.queue.count.toNat + (0 + inFlight rest) < b.1.capacity.toNat := hBeyond
    refine ⟨b, order, values, h.quiet hFrames rfl rfl rfl
      (hRing.goOn rfl rfl rfl rfl ?_ hSame) rfl (h.keep hFrames nofun) h.bounded⟩
    show s.queue.count.toNat + (1 + inFlight rest) ≤ _
    omega
  | setDst hFrames =>
    obtain ⟨hRing, ⟨hBuffer, hHead⟩, hRoom⟩ := h.running hFrames
    refine ⟨b, order, values, h.quiet hFrames rfl rfl rfl
      (hRing.goOn rfl rfl rfl rfl hRoom ⟨?_, Nat.zero_le _, ?_, hHead⟩) rfl
      (h.keep hFrames nofun) h.bounded⟩
    · rw [hHead, hItemSize]
    · rw [RingBuffer.blit_zero]
      exact hBuffer
  | copyByte hFrames hMore =>
    obtain ⟨hRing, ⟨hDst, -, hBuffer, hHead⟩, hRoom⟩ := h.running hFrames
    rw [hItemSize] at hMore
    refine ⟨b, order, values, h.quiet hFrames rfl rfl rfl
      (hRing.goOn rfl rfl rfl rfl hRoom ⟨hDst, hMore, ?_, hHead⟩) rfl (h.keep hFrames nofun)
      h.bounded⟩
    rw [RingBuffer.blit_succ, ← hBuffer]
  | @copyEnd n dst i rest hFrames hDone =>
    obtain ⟨hRing, ⟨hDst, hLe, hBuffer, hHead⟩, hRoom⟩ := h.running hFrames
    rw [hItemSize] at hDone
    obtain rfl : i = b.1.itemSize.toNat := by omega
    refine ⟨b, order, values, h.quiet hFrames rfl rfl rfl
      (hRing.goOn rfl rfl rfl rfl hRoom ⟨?_, hHead⟩) rfl (h.keep hFrames nofun) h.bounded⟩
    rw [← hDst]
    exact hBuffer
  | @advanceHead n rest hFrames =>
    obtain ⟨hRing, -, -⟩ := h.running hFrames
    obtain ⟨hFree, hNew⟩ := hRing.takeEffect (testAndWake (b.1.waitingTask, b.2)).1
    rw [List.append_nil]
    refine ⟨_, _, _, h.effect hFrames rfl rfl (send_room hFree) hNew ?_ rfl nofun⟩
    have hWake := h.wake
    rw [hFrames] at hWake
    show settle rest (testAndWake (s.queue.waitingTask, s.kernel)) =
      testAndWake (b.1.waitingTask, b.2)
    rw [← hWake]
    refine settle_testAndWake h.bounded fun f hf => h.readied f ?_
    rw [hFrames]
    exact List.mem_cons_of_mem _ hf
  | headPast hFrames hPast =>
    obtain ⟨hRing, ⟨hBuffer, hLe, hHead⟩, hRoom⟩ := h.running hFrames
    rw [hCapacity] at hPast
    rw [if_pos hPast] at hHead
    have hEq : s.queue.head = b.1.capacity :=
      UInt32.le_antisymm (UInt32.le_iff_toNat_le.mpr hLe) hPast
    exact ⟨b, order, values, h.quiet hFrames rfl rfl rfl
      (hRing.goOn rfl rfl rfl rfl hRoom ⟨hBuffer, hEq, hHead.symm⟩) rfl (h.keep hFrames nofun)
      h.bounded⟩
  | headWithin hFrames hWithin =>
    obtain ⟨hRing, ⟨hBuffer, -, hHead⟩, hRoom⟩ := h.running hFrames
    rw [hCapacity] at hWithin
    rw [if_neg hWithin] at hHead
    exact ⟨b, order, values, h.quiet hFrames rfl rfl rfl
      (hRing.goOn rfl rfl rfl rfl hRoom ⟨hBuffer, hHead⟩) rfl (h.keep hFrames nofun) h.bounded⟩
  | wrapHead hFrames =>
    obtain ⟨hRing, ⟨hBuffer, -, hZero⟩, hRoom⟩ := h.running hFrames
    exact ⟨b, order, values, h.quiet hFrames rfl rfl rfl
      (hRing.goOn rfl rfl rfl rfl hRoom ⟨hBuffer, hZero.symm⟩) rfl (h.keep hFrames nofun)
      h.bounded⟩
  | @incCount n rest hFrames =>
    obtain ⟨hRing, hSame, hRoom⟩ := h.running hFrames
    have hRoom' : s.queue.count.toNat + (1 + inFlight rest) ≤ b.1.capacity.toNat := hRoom
    have hFree : ¬ s.queue.capacity ≤ s.queue.count := by
      rw [hCapacity, UInt32.le_iff_toNat_le]
      omega
    have hSucc := Queue.count_succ hFree
    refine ⟨b, order, values, h.quiet hFrames rfl rfl rfl
      (hRing.goOn rfl rfl rfl hSucc ?_ hSame) rfl (h.keep hFrames nofun) h.bounded⟩
    show (s.queue.count + 1).toNat + (0 + inFlight rest) ≤ _
    omega
  | waiter hFrames hWaiter =>
    obtain ⟨hRing, hSame, hRoom⟩ := h.running hFrames
    exact ⟨b, order, values, h.quiet hFrames rfl rfl rfl
      (hRing.goOn rfl rfl rfl rfl hRoom hSame) (testAndWake_some hWaiter).symm
      (h.keep hFrames nofun) h.bounded⟩
  | noWaiter hFrames hNone =>
    obtain ⟨hRing, hSame, hRoom⟩ := h.running hFrames
    exact ⟨b, order, values, h.quiet hFrames rfl rfl rfl
      (hRing.goOn rfl rfl rfl rfl hRoom hSame) (testAndWake_none hNone).symm
      (h.keep hFrames nofun) h.bounded⟩
  | setReady hFrames =>
    obtain ⟨hRing, hSame, hRoom⟩ := h.running hFrames
    refine ⟨b, order, values, h.quiet hFrames rfl rfl rfl
      (hRing.goOn rfl rfl rfl rfl hRoom hSame) rfl (fun _ _ _ => readied_setReady _ _) ?_⟩
    have hBounded := h.bounded
    unfold Bounded at hBounded ⊢
    simpa using hBounded
  | clearWaiter hFrames =>
    obtain ⟨hRing, hSame, hRoom⟩ := h.running hFrames
    exact ⟨b, order, values, h.quiet hFrames rfl rfl rfl
      (hRing.goOn rfl rfl rfl rfl hRoom hSame) rfl
      (fun _ _ _ => readied_noWaiter h.bounded) h.bounded⟩
  | yield hFrames =>
    obtain ⟨hRing, hSame, hRoom⟩ := h.running hFrames
    exact ⟨b, order, values, h.quiet hFrames rfl rfl rfl
      (hRing.goOn rfl rfl rfl rfl hRoom hSame) rfl
      (fun f hf hStmt => congrArg rtoskPortYield (h.keep hFrames (by nofun) f hf hStmt))
      h.bounded⟩
  | ret hFrames => exact ⟨b, order, values, h.pop hFrames⟩

/-- **Every step of an apart run keeps the calls lined up.** -/
theorem Lined.step {l : Label} (h : Lined items s₀ tr s) (hApart : Apart s l)
    (hStep : Sends.step items s l = some (s', es)) : Lined items s₀ (tr ++ es) s' := by
  cases l with
  | interrupt =>
    cases hStep
    obtain ⟨b, order, values, h⟩ := h
    exact ⟨b, order, values, h.interrupt hApart⟩
  | go => exact h.go hApart hStep

theorem lined_start {k : Kernel} (hRing : q.RingInv) (hTasks : k.taskCount ≤ rtoskQueueNoWaiter) :
    Lined items (start q k) [] (start q k) :=
  ⟨(q, k), [], [], rfl, .nil, .nil,
    ⟨hRing, rfl, rfl, rfl, rfl, hRing.count_le, ⟨rfl, rfl⟩, nofun⟩, rfl, nofun, hTasks⟩

theorem Lined.count_le (h : Lined items s₀ tr s) :
    s.queue.count.toNat ≤ s.queue.capacity.toNat := by
  obtain ⟨b, order, values, h⟩ := h
  have hRoom := h.ring.room
  rw [h.ring.capacity]
  omega

/-- **When the last call has returned**, the calls might as well have been made
one after another. -/
theorem Lined.serial (h : Lined items s₀ tr s) (hDone : s.frames = []) :
    Serial items s₀ s tr := by
  obtain ⟨⟨a, k⟩, order, values, h⟩ := h
  have hBegan := h.began
  have hValues := h.values
  have hRing := h.ring
  have hWake := h.wake
  rw [hDone] at hBegan hValues hRing hWake
  obtain ⟨hWaiter, hKernel⟩ := Prod.mk.inj hWake
  obtain ⟨hBuffer, hHead⟩ : s.queue.buffer = a.buffer ∧ s.queue.head = a.head := hRing.top
  have hCount : s.queue.count = a.count := UInt32.toNat_inj.mp hRing.count.symm
  have hQueue : s.queue = a := by
    have hCapacity := hRing.capacity
    have hItemSize := hRing.itemSize
    have hTail := hRing.tail
    cases hs : s.queue
    cases a
    rw [hs] at hWaiter hBuffer hHead hCount hCapacity hItemSize hTail
    congr
  refine ⟨order, values, ?_, ?_, ?_⟩
  · rw [pending, List.filterMap_nil, List.append_nil] at hBegan
    exact hBegan
  · rw [owed, List.filterMap_nil, List.append_nil] at hValues
    exact hValues
  · rw [h.feed, hQueue, show s.kernel = k from hKernel]

end Simulation

end Sends

end TinyRtos
