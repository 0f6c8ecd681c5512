import TinyRtos.Kernel.Queue
import TinyRtos.Lib.Runs

/-!
# TinyRTOS — nested `rtosk_queue_send_from_isr` calls, statement by statement

The call masks nothing: between any two of its statements a handler of higher
priority may run, and send to the same queue itself. `Sends` is a queue and the
calls under way on it, the running one first and under it those it has
interrupted; `interrupt` begins a call, `go` makes the running call's next
statement. A call that returns leaves the one below it to go on, so whole calls
nest between the statements of others to any depth.

Calls are numbered in the order they begin; `items` says what each sends. The
pointers are not null: the null test, which would return before anything is
read, is not among the statements.

* `goes_send` — an uninterrupted call is `rtoskQueueSendFromIsr`.
* `Serial` — the outcome is that of the same calls made one after another.
-/

namespace TinyRtos

namespace Sends

/-- The next statement of a call, with its local variables: `dst` is the offset
of `dst` in the buffer, `i` the loop variable of `rtosk_queue_copy`. -/
inductive Stmt
  | testCount
  | setDst
  | copy (dst i : Nat)
  | advanceHead
  | testHead
  | wrapHead
  | incCount
  | testWaiter
  | setReady
  | clearWaiter
  | yield
  | ret (value : UInt32)
  deriving DecidableEq, Repr

/-- A call under way. -/
structure Frame where
  n : Nat
  stmt : Stmt
  deriving DecidableEq, Repr

inductive Event
  | began (n : Nat)
  | slot (n dst : Nat)
  | returned (n : Nat) (value : UInt32)
  deriving DecidableEq, Repr

inductive Label
  | interrupt
  | go
  deriving DecidableEq, Repr

end Sends

/-- A queue, the kernel, the number of calls begun, and the calls under way. -/
structure Sends where
  queue : Queue
  kernel : Kernel
  calls : Nat
  frames : List Sends.Frame

namespace Sends

/-- No call has begun. -/
def start (queue : Queue) (kernel : Kernel) : Sends := ⟨queue, kernel, 0, []⟩

/-- The running call, number `n`, goes on at `stmt`; `rest` are the calls it has
interrupted. -/
def goOn (queue : Queue) (kernel : Kernel) (n : Nat) (stmt : Stmt) (rest : List Frame)
    (s : Sends) : Sends :=
  { s with queue := queue, kernel := kernel, frames := ⟨n, stmt⟩ :: rest }

/-- The running call's next statement. -/
def go (items : Nat → Nat → UInt8) (s : Sends) : Option (Sends × List Event) :=
  let q := s.queue
  let k := s.kernel
  match s.frames with
  | [] => none
  | ⟨n, stmt⟩ :: rest =>
    match stmt with
    | .testCount =>
      if q.capacity ≤ q.count then some (s.goOn q k n (.ret 0) rest, [])
      else some (s.goOn q k n .setDst rest, [])
    | .setDst =>
      let dst := (q.head * q.itemSize).toNat
      some (s.goOn q k n (.copy dst 0) rest, [.slot n dst])
    | .copy dst i =>
      if i < q.itemSize.toNat then
        let q := { q with buffer := Function.update q.buffer (dst + i) (items n i) }
        some (s.goOn q k n (.copy dst (i + 1)) rest, [])
      else some (s.goOn q k n .advanceHead rest, [])
    | .advanceHead => some (s.goOn { q with head := q.head + 1 } k n .testHead rest, [])
    | .testHead =>
      if q.capacity ≤ q.head then some (s.goOn q k n .wrapHead rest, [])
      else some (s.goOn q k n .incCount rest, [])
    | .wrapHead => some (s.goOn { q with head := 0 } k n .incCount rest, [])
    | .incCount => some (s.goOn { q with count := q.count + 1 } k n .testWaiter rest, [])
    | .testWaiter =>
      if q.waitingTask ≠ rtoskQueueNoWaiter then some (s.goOn q k n .setReady rest, [])
      else some (s.goOn q k n (.ret 1) rest, [])
    | .setReady =>
      some (s.goOn q (k.onTable (rtoskTaskSetReady q.waitingTask)) n .clearWaiter rest, [])
    | .clearWaiter =>
      some (s.goOn { q with waitingTask := rtoskQueueNoWaiter } k n .yield rest, [])
    | .yield => some (s.goOn q (rtoskPortYield k) n (.ret 1) rest, [])
    | .ret value => some ({ s with frames := rest }, [.returned n value])

def step (items : Nat → Nat → UInt8) (s : Sends) : Label → Option (Sends × List Event)
  | .interrupt =>
    some ({ s with calls := s.calls + 1, frames := ⟨s.calls, .testCount⟩ :: s.frames },
      [.began s.calls])
  | .go => s.go items

/-- What the running call's next statement can do. -/
inductive GoCase (items : Nat → Nat → UInt8) (s : Sends) : Sends → List Event → Prop
  | full {n : Nat} {rest : List Frame} (hFrames : s.frames = ⟨n, .testCount⟩ :: rest)
      (hFull : s.queue.capacity ≤ s.queue.count) :
      GoCase items s (s.goOn s.queue s.kernel n (.ret 0) rest) []
  | room {n : Nat} {rest : List Frame} (hFrames : s.frames = ⟨n, .testCount⟩ :: rest)
      (hRoom : s.queue.count < s.queue.capacity) :
      GoCase items s (s.goOn s.queue s.kernel n .setDst rest) []
  | setDst {n : Nat} {rest : List Frame} (hFrames : s.frames = ⟨n, .setDst⟩ :: rest) :
      GoCase items s
        (s.goOn s.queue s.kernel n (.copy (s.queue.head * s.queue.itemSize).toNat 0) rest)
        [.slot n (s.queue.head * s.queue.itemSize).toNat]
  | copyByte {n dst i : Nat} {rest : List Frame} (hFrames : s.frames = ⟨n, .copy dst i⟩ :: rest)
      (hMore : i < s.queue.itemSize.toNat) :
      GoCase items s
        (s.goOn { s.queue with
          buffer := Function.update s.queue.buffer (dst + i) (items n i) } s.kernel n
          (.copy dst (i + 1)) rest) []
  | copyEnd {n dst i : Nat} {rest : List Frame} (hFrames : s.frames = ⟨n, .copy dst i⟩ :: rest)
      (hDone : ¬ i < s.queue.itemSize.toNat) :
      GoCase items s (s.goOn s.queue s.kernel n .advanceHead rest) []
  | advanceHead {n : Nat} {rest : List Frame} (hFrames : s.frames = ⟨n, .advanceHead⟩ :: rest) :
      GoCase items s
        (s.goOn { s.queue with head := s.queue.head + 1 } s.kernel n .testHead rest) []
  | headPast {n : Nat} {rest : List Frame} (hFrames : s.frames = ⟨n, .testHead⟩ :: rest)
      (hPast : s.queue.capacity ≤ s.queue.head) :
      GoCase items s (s.goOn s.queue s.kernel n .wrapHead rest) []
  | headWithin {n : Nat} {rest : List Frame} (hFrames : s.frames = ⟨n, .testHead⟩ :: rest)
      (hWithin : ¬ s.queue.capacity ≤ s.queue.head) :
      GoCase items s (s.goOn s.queue s.kernel n .incCount rest) []
  | wrapHead {n : Nat} {rest : List Frame} (hFrames : s.frames = ⟨n, .wrapHead⟩ :: rest) :
      GoCase items s (s.goOn { s.queue with head := 0 } s.kernel n .incCount rest) []
  | incCount {n : Nat} {rest : List Frame} (hFrames : s.frames = ⟨n, .incCount⟩ :: rest) :
      GoCase items s
        (s.goOn { s.queue with count := s.queue.count + 1 } s.kernel n .testWaiter rest) []
  | waiter {n : Nat} {rest : List Frame} (hFrames : s.frames = ⟨n, .testWaiter⟩ :: rest)
      (hWaiter : s.queue.waitingTask ≠ rtoskQueueNoWaiter) :
      GoCase items s (s.goOn s.queue s.kernel n .setReady rest) []
  | noWaiter {n : Nat} {rest : List Frame} (hFrames : s.frames = ⟨n, .testWaiter⟩ :: rest)
      (hNone : s.queue.waitingTask = rtoskQueueNoWaiter) :
      GoCase items s (s.goOn s.queue s.kernel n (.ret 1) rest) []
  | setReady {n : Nat} {rest : List Frame} (hFrames : s.frames = ⟨n, .setReady⟩ :: rest) :
      GoCase items s
        (s.goOn s.queue (s.kernel.onTable (rtoskTaskSetReady s.queue.waitingTask)) n
          .clearWaiter rest) []
  | clearWaiter {n : Nat} {rest : List Frame} (hFrames : s.frames = ⟨n, .clearWaiter⟩ :: rest) :
      GoCase items s
        (s.goOn { s.queue with waitingTask := rtoskQueueNoWaiter } s.kernel n .yield rest) []
  | yield {n : Nat} {rest : List Frame} (hFrames : s.frames = ⟨n, .yield⟩ :: rest) :
      GoCase items s (s.goOn s.queue (rtoskPortYield s.kernel) n (.ret 1) rest) []
  | ret {n : Nat} {value : UInt32} {rest : List Frame}
      (hFrames : s.frames = ⟨n, .ret value⟩ :: rest) :
      GoCase items s { s with frames := rest } [.returned n value]

/-- **`GoCase` is complete.** -/
theorem go_cases {items : Nat → Nat → UInt8} {s s' : Sends} {es : List Event}
    (h : s.go items = some (s', es)) : GoCase items s s' es := by
  unfold go at h
  match hFrames : s.frames with
  | [] =>
    rw [hFrames] at h
    cases h
  | ⟨n, stmt⟩ :: rest =>
    rw [hFrames] at h
    cases stmt with
    | testCount =>
      simp only at h
      split at h
      · rename_i hFull
        cases h
        exact .full hFrames hFull
      · rename_i hRoom
        cases h
        exact .room hFrames (UInt32.not_le.mp hRoom)
    | copy dst i =>
      simp only at h
      split at h
      · rename_i hMore
        cases h
        exact .copyByte hFrames hMore
      · rename_i hDone
        cases h
        exact .copyEnd hFrames hDone
    | testHead =>
      simp only at h
      split at h
      · rename_i hPast
        cases h
        exact .headPast hFrames hPast
      · rename_i hWithin
        cases h
        exact .headWithin hFrames hWithin
    | testWaiter =>
      simp only at h
      split at h
      · rename_i hWaiter
        cases h
        exact .waiter hFrames hWaiter
      · rename_i hNone
        cases h
        exact .noWaiter hFrames (not_not.mp hNone)
    | setDst =>
      cases h
      exact .setDst hFrames
    | advanceHead =>
      cases h
      exact .advanceHead hFrames
    | wrapHead =>
      cases h
      exact .wrapHead hFrames
    | incCount =>
      cases h
      exact .incCount hFrames
    | setReady =>
      cases h
      exact .setReady hFrames
    | clearWaiter =>
      cases h
      exact .clearWaiter hFrames
    | yield =>
      cases h
      exact .yield hFrames
    | ret value =>
      cases h
      exact .ret hFrames

-- ---------------------------------------------------------------------------
-- One call after another
-- ---------------------------------------------------------------------------

/-- Call `n`, uninterrupted. -/
def send (items : Nat → Nat → UInt8) (s : Queue × Kernel) (n : Nat) :
    (Queue × Kernel) × List (Nat × UInt32) :=
  let (queue, kernel, value) := rtoskQueueSendFromIsr s.1 (items n) s.2
  ((queue, kernel), [(n, value)])

/-- The calls of a history, in the order they began. -/
def began (tr : List Event) : List Nat :=
  tr.filterMap fun
    | .began n => some n
    | _ => none

/-- What the calls of a history returned. -/
def returned (tr : List Event) : List (Nat × UInt32) :=
  tr.filterMap fun
    | .returned n value => some (n, value)
    | _ => none

/-- The offsets the calls of a history copied their items to. -/
def slots (tr : List Event) : List Nat :=
  tr.filterMap fun
    | .slot _ dst => some dst
    | _ => none

/-- From `s₀` to `s` the calls had the outcome they have one after another, in
some order: the queue and its buffer, the tasks, the pending switch, and what
each call returned. -/
def Serial (items : Nat → Nat → UInt8) (s₀ s : Sends) (tr : List Event) : Prop :=
  ∃ order values, order.Perm (began tr) ∧ values.Perm (returned tr) ∧
    Runs.feed (send items) (s₀.queue, s₀.kernel) order = ((s.queue, s.kernel), values)

-- ---------------------------------------------------------------------------
-- An uninterrupted call
-- ---------------------------------------------------------------------------

section Uninterrupted

variable {items : Nat → Nat → UInt8} {n : Nat} {rest : List Frame} {tr : List Event} {s s' : Sends}

/-- The loop of `rtosk_queue_copy`, uninterrupted. -/
theorem goes_copy (q : Queue) (k : Kernel) (dst : Nat)
    (h : Runs.Goes (step items) .go
      (s.goOn { q with buffer := RingBuffer.blit q.buffer dst (items n) q.itemSize.toNat } k n
        .advanceHead rest) tr s') :
    ∀ m i, i + m = q.itemSize.toNat →
      Runs.Goes (step items) .go
        (s.goOn { q with buffer := RingBuffer.blit q.buffer dst (items n) i } k n (.copy dst i)
          rest) tr s' := by
  intro m
  induction m with
  | zero =>
    intro i hi
    have hDone : i = q.itemSize.toNat := hi
    have hStep : step items (s.goOn { q with buffer := RingBuffer.blit q.buffer dst (items n) i }
          k n (.copy dst i) rest) .go =
        some (s.goOn { q with buffer := RingBuffer.blit q.buffer dst (items n) i } k n
          .advanceHead rest, []) := by
      simp [step, go, goOn, hDone]
    subst hDone
    exact .cons hStep h
  | succ m ih =>
    intro i hi
    have hLt : i < q.itemSize.toNat := by omega
    have hStep : step items (s.goOn { q with buffer := RingBuffer.blit q.buffer dst (items n) i }
          k n (.copy dst i) rest) .go =
        some (s.goOn { q with buffer := RingBuffer.blit q.buffer dst (items n) (i + 1) } k n
          (.copy dst (i + 1)) rest, []) := by
      simp [step, go, goOn, hLt, RingBuffer.blit_succ]
    exact .cons hStep (ih (i + 1) (by omega))

/-- The statements that move the head and count the item. -/
theorem goes_place (q : Queue) (k : Kernel)
    (h : Runs.Goes (step items) .go
      (s.goOn { q with head := advance q.capacity q.head, count := q.count + 1 } k n .testWaiter
        rest) tr s') :
    Runs.Goes (step items) .go (s.goOn q k n .advanceHead rest) tr s' := by
  have hAdvance : step items (s.goOn q k n .advanceHead rest) .go =
      some (s.goOn { q with head := q.head + 1 } k n .testHead rest, []) := rfl
  have hCount : ∀ head : UInt32,
      step items (s.goOn { q with head := head } k n .incCount rest) .go =
        some (s.goOn { q with head := head, count := q.count + 1 } k n .testWaiter rest, []) :=
    fun _ => rfl
  unfold advance at h
  refine .cons hAdvance ?_
  by_cases hWrap : q.capacity ≤ q.head + 1
  · rw [if_pos hWrap] at h
    have hTest : step items (s.goOn { q with head := q.head + 1 } k n .testHead rest) .go =
        some (s.goOn { q with head := q.head + 1 } k n .wrapHead rest, []) := by
      simp [step, go, goOn, hWrap]
    have hZero : step items (s.goOn { q with head := q.head + 1 } k n .wrapHead rest) .go =
        some (s.goOn { q with head := 0 } k n .incCount rest, []) := rfl
    exact .cons hTest (.cons hZero (.cons (hCount 0) h))
  · rw [if_neg hWrap] at h
    have hTest : step items (s.goOn { q with head := q.head + 1 } k n .testHead rest) .go =
        some (s.goOn { q with head := q.head + 1 } k n .incCount rest, []) := by
      simp [step, go, goOn, hWrap]
    exact .cons hTest (.cons (hCount _) h)

/-- The statements from the count on. -/
theorem goes_wake (q : Queue) (k : Kernel) :
    Runs.Goes (step items) .go (s.goOn q k n .testWaiter rest) [.returned n 1]
      (if q.waitingTask ≠ rtoskQueueNoWaiter then
        { s with
          queue := { q with waitingTask := rtoskQueueNoWaiter }
          kernel := rtoskPortYield (k.onTable (rtoskTaskSetReady q.waitingTask))
          frames := rest }
      else { s with queue := q, kernel := k, frames := rest }) := by
  by_cases hWaiter : q.waitingTask ≠ rtoskQueueNoWaiter
  · rw [if_pos hWaiter]
    exact ⟨5, by simp [Runs.exec, List.replicate_succ, step, go, goOn, hWaiter]⟩
  · rw [if_neg hWaiter]
    exact ⟨2, by simp [Runs.exec, List.replicate_succ, step, go, goOn, hWaiter]⟩

/-- **An uninterrupted call is `rtoskQueueSendFromIsr`.** -/
theorem goes_send (q : Queue) (k : Kernel) :
    ∃ tr, returned tr = [(n, (rtoskQueueSendFromIsr q (items n) k).2.2)] ∧
      Runs.Goes (step items) .go (s.goOn q k n .testCount rest) tr
        { s with
          queue := (rtoskQueueSendFromIsr q (items n) k).1
          kernel := (rtoskQueueSendFromIsr q (items n) k).2.1
          frames := rest } := by
  by_cases hFull : q.capacity ≤ q.count
  · refine ⟨[.returned n 0], ?_, 2, ?_⟩
    · simp [returned, rtoskQueueSendFromIsr, hFull]
    · simp [Runs.exec, List.replicate_succ, step, go, goOn, rtoskQueueSendFromIsr, hFull]
  · have hSend : rtoskQueueSendFromIsr q (items n) k =
        if (q.pushItem (items n)).waitingTask ≠ rtoskQueueNoWaiter then
          ({ q.pushItem (items n) with waitingTask := rtoskQueueNoWaiter },
            rtoskPortYield (k.onTable (rtoskTaskSetReady (q.pushItem (items n)).waitingTask)), 1)
        else (q.pushItem (items n), k, 1) := by
      simp only [rtoskQueueSendFromIsr, if_neg hFull]
      rfl
    have hValue : (rtoskQueueSendFromIsr q (items n) k).2.2 = 1 := by
      rw [hSend]
      split <;> rfl
    have hTest : step items (s.goOn q k n .testCount rest) .go =
        some (s.goOn q k n .setDst rest, []) := by
      simp [step, go, goOn, hFull]
    have hDst : step items (s.goOn q k n .setDst rest) .go =
        some (s.goOn q k n (.copy (q.head * q.itemSize).toNat 0) rest,
          [.slot n (q.head * q.itemSize).toNat]) := rfl
    have hWake : Runs.Goes (step items) .go
        (s.goOn (q.pushItem (items n)) k n .testWaiter rest) [.returned n 1]
        { s with
          queue := (rtoskQueueSendFromIsr q (items n) k).1
          kernel := (rtoskQueueSendFromIsr q (items n) k).2.1
          frames := rest } := by
      have hGoes : Runs.Goes (step items) .go
          (s.goOn (q.pushItem (items n)) k n .testWaiter rest) [.returned n 1] _ :=
        goes_wake _ k
      rw [hSend]
      split at hGoes
      · rename_i hWaiter
        rw [if_pos hWaiter]
        exact hGoes
      · rename_i hWaiter
        rw [if_neg hWaiter]
        exact hGoes
    rw [Queue.pushItem_eq] at hWake
    have hCopy := goes_copy q k _ (goes_place _ k hWake) q.itemSize.toNat 0 (Nat.zero_add _)
    rw [RingBuffer.blit_zero] at hCopy
    refine ⟨_, ?_, .cons hTest (.cons hDst hCopy)⟩
    rw [hValue]
    rfl

end Uninterrupted

end Sends

end TinyRtos
