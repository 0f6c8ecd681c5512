import TinyRtos.Kernel.Kernel
import TinyRtos.Lib.RingBuffer

/-!
# TinyRTOS — queues (`queue.c`)

A queue owns `capacity * item_size` bytes of caller storage (`buffer`), used as
a ring of cells. `pushItem` and `popItem` are the statements that the two send
functions, and the receive loop, make on the ring; `wakeReceiver` is the
wake-up the sends share.

`Geometry` is what `rtosk_queue_init` is promised about the sizes, `RingInv`
the bounds the indices keep, and `items` the abstract queue: the occupied cells
read from `tail`. The ring refines it:

* `pushItem_items` — a push appends the item, byte for byte;
* `popItem_items` — a pop removes the oldest item and copies exactly it out.
-/

namespace TinyRtos

/-- `rtosk_queue_t`. -/
structure Queue where
  buffer : Nat → UInt8
  itemSize : UInt32
  capacity : UInt32
  head : UInt32
  tail : UInt32
  count : UInt32
  waitingTask : Nat

/-- `RTOSK_QUEUE_NO_WAITER`. -/
def rtoskQueueNoWaiter : Nat := 0xFFFFFFFF

/-- `dst[i] = src[i]` for `i` below `size`, with `dst` at offset `dst` of
`mem`. -/
def rtoskQueueCopy (mem : Nat → UInt8) (dst : Nat) (src : Nat → UInt8) (size : UInt32) :
    Nat → UInt8 :=
  (List.range size.toNat).foldl (fun mem i => Function.update mem (dst + i) (src i)) mem

/-- `rtosk_queue_init`; `none` is a null pointer. -/
def rtoskQueueInit (queue : Queue) (buffer : Option (Nat → UInt8)) (itemSize capacity : UInt32) :
    Queue :=
  match buffer with
  | none => queue
  | some buffer =>
    if itemSize = 0 ∨ capacity = 0 then queue
    else {
      buffer := buffer
      itemSize := itemSize
      capacity := capacity
      head := 0
      tail := 0
      count := 0
      waitingTask := rtoskQueueNoWaiter }

namespace Queue

/-- Copy the item to the head cell, advance the head and count it. -/
def pushItem (queue : Queue) (item : Nat → UInt8) : Queue :=
  let dst := (queue.head * queue.itemSize).toNat
  let queue := { queue with buffer := rtoskQueueCopy queue.buffer dst item queue.itemSize }
  let queue := { queue with head := queue.head + 1 }
  let queue := if queue.capacity ≤ queue.head then { queue with head := 0 } else queue
  { queue with count := queue.count + 1 }

/-- Copy the tail cell out, advance the tail and discount it. -/
def popItem (queue : Queue) (item : Nat → UInt8) : Queue × (Nat → UInt8) :=
  let src := (queue.tail * queue.itemSize).toNat
  let item := rtoskQueueCopy item 0 (fun i => queue.buffer (src + i)) queue.itemSize
  let queue := { queue with tail := queue.tail + 1 }
  let queue := if queue.capacity ≤ queue.tail then { queue with tail := 0 } else queue
  ({ queue with count := queue.count - 1 }, item)

/-- Ready the registered receiver and clear the slot. -/
def wakeReceiver (queue : Queue) (k : Kernel) : Queue × Kernel :=
  ({ queue with waitingTask := rtoskQueueNoWaiter },
    k.onTable (rtoskTaskSetReady queue.waitingTask))

end Queue

def rtoskQueueSend (queue : Queue) (item : Nat → UInt8) (k : Kernel) :
    Queue × Kernel × Exit × UInt32 :=
  let k := rtoskKernelEnterCritical k
  if queue.capacity ≤ queue.count then
    (queue, rtoskKernelExitCritical k, .returns, 0)
  else
    let queue := queue.pushItem item
    if queue.waitingTask ≠ rtoskQueueNoWaiter then
      let (queue, k) := queue.wakeReceiver k
      (queue, rtoskKernelExitCritical k, .yields, 1)
    else (queue, rtoskKernelExitCritical k, .yields, 1)

def rtoskQueueSendFromIsr (queue : Queue) (item : Nat → UInt8) (k : Kernel) :
    Queue × Kernel × UInt32 :=
  if queue.capacity ≤ queue.count then (queue, k, 0)
  else
    let queue := queue.pushItem item
    if queue.waitingTask ≠ rtoskQueueNoWaiter then
      let (queue, k) := queue.wakeReceiver k
      (queue, rtoskPortYield k, 1)
    else (queue, k, 1)

/-- One round of the loop of `rtosk_queue_receive`; `item` is the memory the
item goes to. -/
def rtoskQueueReceive (queue : Queue) (item : Nat → UInt8) (k : Kernel) :
    Queue × Kernel × Exit × (Nat → UInt8) :=
  let k := rtoskKernelEnterCritical k
  if 0 < queue.count then
    let (queue, item) := queue.popItem item
    (queue, rtoskKernelExitCritical k, .returns, item)
  else
    let queue := { queue with waitingTask := k.currentTask }
    let k := k.onTable rtoskTaskBlockCurrentOnQueue
    (queue, rtoskKernelExitCritical k, .yields, item)

-- ---------------------------------------------------------------------------
-- Their branches
-- ---------------------------------------------------------------------------

namespace Queue

@[simp] theorem pushItem_waitingTask (q : Queue) (item : Nat → UInt8) :
    (q.pushItem item).waitingTask = q.waitingTask := by
  simp only [pushItem]
  split <;> rfl

@[simp] theorem popItem_waitingTask (q : Queue) (item : Nat → UInt8) :
    (q.popItem item).1.waitingTask = q.waitingTask := by
  simp only [popItem]
  split <;> rfl

@[simp] theorem pushItem_itemSize (q : Queue) (item : Nat → UInt8) :
    (q.pushItem item).itemSize = q.itemSize := by
  simp only [pushItem]
  split <;> rfl

@[simp] theorem popItem_itemSize (q : Queue) (item : Nat → UInt8) :
    (q.popItem item).1.itemSize = q.itemSize := by
  simp only [popItem]
  split <;> rfl

end Queue

theorem queueSend_full {q : Queue} (h : q.capacity ≤ q.count) (item : Nat → UInt8) (k : Kernel) :
    rtoskQueueSend q item k = (q, k.bracket id, .returns, 0) := by
  simp only [rtoskQueueSend, if_pos h]
  rfl

theorem queueSend_waiter {q : Queue} (h : ¬ q.capacity ≤ q.count)
    (hWaiter : q.waitingTask ≠ rtoskQueueNoWaiter) (item : Nat → UInt8) (k : Kernel) :
    rtoskQueueSend q item k =
      ({ q.pushItem item with waitingTask := rtoskQueueNoWaiter },
        k.bracket (rtoskTaskSetReady q.waitingTask), .yields, 1) := by
  simp only [rtoskQueueSend, if_neg h, Queue.pushItem_waitingTask, if_pos hWaiter,
    Queue.wakeReceiver]
  rfl

theorem queueSend_none {q : Queue} (h : ¬ q.capacity ≤ q.count)
    (hWaiter : ¬ q.waitingTask ≠ rtoskQueueNoWaiter) (item : Nat → UInt8) (k : Kernel) :
    rtoskQueueSend q item k = (q.pushItem item, k.bracket id, .yields, 1) := by
  simp only [rtoskQueueSend, if_neg h, Queue.pushItem_waitingTask, if_neg hWaiter]
  rfl

theorem queueSendFromIsr_waiter {q : Queue} (h : ¬ q.capacity ≤ q.count)
    (hWaiter : q.waitingTask ≠ rtoskQueueNoWaiter) (item : Nat → UInt8) (k : Kernel) :
    rtoskQueueSendFromIsr q item k =
      ({ q.pushItem item with waitingTask := rtoskQueueNoWaiter },
        rtoskPortYield (k.onTable (rtoskTaskSetReady q.waitingTask)), 1) := by
  simp only [rtoskQueueSendFromIsr, if_neg h, Queue.pushItem_waitingTask, if_pos hWaiter,
    Queue.wakeReceiver]

theorem queueSendFromIsr_none {q : Queue} (h : ¬ q.capacity ≤ q.count)
    (hWaiter : ¬ q.waitingTask ≠ rtoskQueueNoWaiter) (item : Nat → UInt8) (k : Kernel) :
    rtoskQueueSendFromIsr q item k = (q.pushItem item, k, 1) := by
  simp only [rtoskQueueSendFromIsr, if_neg h, Queue.pushItem_waitingTask, if_neg hWaiter]

theorem queueReceive_pos {q : Queue} (h : 0 < q.count) (item : Nat → UInt8) (k : Kernel) :
    rtoskQueueReceive q item k =
      ((q.popItem item).1, k.bracket id, .returns, (q.popItem item).2) := by
  simp only [rtoskQueueReceive, if_pos h]
  rfl

theorem queueReceive_zero {q : Queue} (h : ¬ 0 < q.count) (item : Nat → UInt8) (k : Kernel) :
    rtoskQueueReceive q item k =
      ({ q with waitingTask := k.currentTask },
        k.bracket rtoskTaskBlockCurrentOnQueue, .yields, item) := by
  simp only [rtoskQueueReceive, if_neg h, enterCritical_toTaskTable]
  rfl

-- ---------------------------------------------------------------------------
-- The ring
-- ---------------------------------------------------------------------------

theorem rtoskQueueCopy_eq_blit (mem : Nat → UInt8) (dst : Nat) (src : Nat → UInt8)
    (size : UInt32) :
    rtoskQueueCopy mem dst src size = RingBuffer.blit mem dst src size.toNat := by
  unfold rtoskQueueCopy
  generalize size.toNat = n
  induction n with
  | zero => exact (RingBuffer.blit_zero mem dst src).symm
  | succ n ih =>
    rw [List.range_succ, List.foldl_append, ih, RingBuffer.blit_succ]
    rfl

/-- `index++; if(index >= capacity) index = 0;` -/
def advance (capacity index : UInt32) : UInt32 :=
  if capacity ≤ index + 1 then 0 else index + 1

theorem advance_toNat {capacity index : UInt32} (h : index.toNat < capacity.toNat) :
    (advance capacity index).toNat = RingBuffer.next capacity.toNat index.toNat := by
  have hBound := capacity.toNat_lt
  have hSucc : (index + 1).toNat = index.toNat + 1 := by
    rw [UInt32.toNat_add]
    exact Nat.mod_eq_of_lt (by simp only [UInt32.toNat_one]; omega)
  unfold advance RingBuffer.next
  simp only [UInt32.le_iff_toNat_le, hSucc]
  split
  · rfl
  · exact hSucc

namespace Queue

/-- The sizes `rtosk_queue_init` is called with. -/
structure Geometry (q : Queue) : Prop where
  itemSize_pos : 0 < q.itemSize.toNat
  capacity_pos : 0 < q.capacity.toNat
  storage_lt   : q.capacity.toNat * q.itemSize.toNat < 2 ^ 32

/-- The bounds the indices keep. -/
structure RingInv (q : Queue) : Prop where
  head_lt  : q.head.toNat < q.capacity.toNat
  tail_lt  : q.tail.toNat < q.capacity.toNat
  count_le : q.count.toNat ≤ q.capacity.toNat
  head_eq  : q.head.toNat = (q.tail.toNat + q.count.toNat) % q.capacity.toNat

/-- The cells of the storage. -/
def cells (q : Queue) : Nat → List UInt8 := RingBuffer.slabCell q.buffer q.itemSize.toNat

/-- The queued items, oldest first. -/
def items (q : Queue) : List (List UInt8) :=
  RingBuffer.contents q.capacity.toNat q.cells q.tail.toNat q.count.toNat

theorem pushItem_eq (q : Queue) (item : Nat → UInt8) :
    q.pushItem item = { q with
      buffer := RingBuffer.blit q.buffer (q.head * q.itemSize).toNat item q.itemSize.toNat
      head := advance q.capacity q.head
      count := q.count + 1 } := by
  simp only [pushItem, rtoskQueueCopy_eq_blit, advance]
  split <;> rfl

theorem popItem_eq (q : Queue) (item : Nat → UInt8) :
    q.popItem item =
      ({ q with tail := advance q.capacity q.tail, count := q.count - 1 },
        RingBuffer.blit item 0 (fun i => q.buffer ((q.tail * q.itemSize).toNat + i))
          q.itemSize.toNat) := by
  simp only [popItem, rtoskQueueCopy_eq_blit, advance]
  split <;> rfl

@[simp] theorem pushItem_capacity (q : Queue) (item : Nat → UInt8) :
    (q.pushItem item).capacity = q.capacity := by
  rw [pushItem_eq]

@[simp] theorem popItem_capacity (q : Queue) (item : Nat → UInt8) :
    (q.popItem item).1.capacity = q.capacity := by
  rw [popItem_eq]

/-- Cell offsets do not wrap. -/
theorem Geometry.offset {q : Queue} (hGeo : q.Geometry) {i : UInt32}
    (hi : i.toNat < q.capacity.toNat) : (i * q.itemSize).toNat = i.toNat * q.itemSize.toNat := by
  rw [UInt32.toNat_mul]
  exact Nat.mod_eq_of_lt
    (lt_of_le_of_lt (Nat.mul_le_mul_right _ (Nat.le_of_lt hi)) hGeo.storage_lt)

theorem count_succ {q : Queue} (hRoom : ¬ q.capacity ≤ q.count) :
    (q.count + 1).toNat = q.count.toNat + 1 := by
  have hBound := q.capacity.toNat_lt
  rw [UInt32.le_iff_toNat_le] at hRoom
  rw [UInt32.toNat_add]
  exact Nat.mod_eq_of_lt (by simp only [UInt32.toNat_one]; omega)

theorem count_pred {q : Queue} (hSome : 0 < q.count) :
    (q.count - 1).toNat + 1 = q.count.toNat := by
  have hPos : 0 < q.count.toNat := hSome
  have hOne : (1 : UInt32) ≤ q.count := UInt32.le_iff_toNat_le.mpr hPos
  rw [UInt32.toNat_sub_of_le _ _ hOne]
  simp only [UInt32.toNat_one]
  omega

theorem pushItem_ring {q : Queue} (hRing : q.RingInv) (hRoom : ¬ q.capacity ≤ q.count)
    (item : Nat → UInt8) : (q.pushItem item).RingInv := by
  have hCount := count_succ hRoom
  rw [UInt32.le_iff_toNat_le] at hRoom
  rw [pushItem_eq]
  refine ⟨?_, hRing.tail_lt, ?_, ?_⟩
  · simp only [advance_toNat hRing.head_lt]
    exact RingBuffer.next_lt hRing.head_lt
  · simp only [hCount]
    omega
  · simp only [advance_toNat hRing.head_lt, hCount]
    rw [hRing.head_eq]
    exact RingBuffer.next_mod (lt_of_le_of_lt (Nat.zero_le _) hRing.head_lt)

/-- **A push appends the item.** -/
theorem pushItem_items {q : Queue} (hGeo : q.Geometry) (hRing : q.RingInv)
    (hRoom : ¬ q.capacity ≤ q.count) (item : Nat → UInt8) :
    (q.pushItem item).items = q.items ++ [RingBuffer.item item q.itemSize.toNat] := by
  have hCount := count_succ hRoom
  rw [UInt32.le_iff_toNat_le] at hRoom
  rw [pushItem_eq]
  unfold items cells
  simp only [hGeo.offset hRing.head_lt, RingBuffer.slabCell_blit, hCount]
  rw [hRing.head_eq]
  exact RingBuffer.contents_push _ _ (by omega)

theorem popItem_ring {q : Queue} (hRing : q.RingInv) (hSome : 0 < q.count)
    (item : Nat → UInt8) : (q.popItem item).1.RingInv := by
  have hCount := count_pred hSome
  rw [popItem_eq]
  refine ⟨hRing.head_lt, ?_, ?_, ?_⟩
  · simp only [advance_toNat hRing.tail_lt]
    exact RingBuffer.next_lt hRing.tail_lt
  · have := hRing.count_le
    simp only
    omega
  · simp only [advance_toNat hRing.tail_lt]
    rw [hRing.head_eq, ← hCount]
    exact RingBuffer.mod_pop hRing.tail_lt

/-- **A pop removes the oldest item** and copies exactly that item out. -/
theorem popItem_items {q : Queue} (hGeo : q.Geometry) (hRing : q.RingInv)
    (hSome : 0 < q.count) (item : Nat → UInt8) :
    q.items = RingBuffer.item (q.popItem item).2 q.itemSize.toNat ::
      (q.popItem item).1.items := by
  have hCount := count_pred hSome
  rw [popItem_eq]
  unfold items
  rw [← hCount, RingBuffer.contents_pop _ _ hRing.tail_lt]
  simp only [advance_toNat hRing.tail_lt, hGeo.offset hRing.tail_lt]
  congr 1
  unfold cells RingBuffer.slabCell
  exact (RingBuffer.item_blit_zero ..).symm

/-- An initialised queue is empty and within its bounds. -/
theorem rtoskQueueInit_ring (q : Queue) (buffer : Nat → UInt8) {itemSize capacity : UInt32}
    (hSize : itemSize ≠ 0) (hCap : capacity ≠ 0) :
    (rtoskQueueInit q (some buffer) itemSize capacity).RingInv ∧
      (rtoskQueueInit q (some buffer) itemSize capacity).items = [] := by
  have hPos : 0 < capacity.toNat :=
    Nat.pos_of_ne_zero fun h => hCap (UInt32.toNat_inj.mp h)
  have hInit : rtoskQueueInit q (some buffer) itemSize capacity =
      ⟨buffer, itemSize, capacity, 0, 0, 0, rtoskQueueNoWaiter⟩ := by
    simp [rtoskQueueInit, hSize, hCap]
  rw [hInit]
  exact ⟨⟨hPos, hPos, Nat.zero_le _, by simp⟩, rfl⟩

end Queue

end TinyRtos
