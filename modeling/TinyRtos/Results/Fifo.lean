import TinyRtos.Kernel.Registry

/-!
# TinyRTOS — the queue is a lossless bounded FIFO

The abstract queue is the list of items sent and not yet received. A step does
to the ring of queue `q` what it does to that list (`QueueStep`): nothing, a
push, or a pop, and so

* `fifo` — along every run the ring keeps its bounds, and the items received so
  far followed by the items in the ring are the items sent, byte for byte; a
  send is refused exactly when the ring is full, and then changes nothing; a
  sole receiver never waits on a queue that holds an item.

The last part needs the registry of waiters: the sole receiver is never pushed
out of the queue's slot, so it is registered as long as it waits, and the queue
of a registered waiter is empty (`Objects`).
-/

namespace TinyRtos

/-- The bytes of an accepted send to queue `q`. -/
def sentTo (q : Nat) : Event → Option (List UInt8)
  | .sent p bytes => if p = q then some bytes else none
  | _ => none

/-- The bytes a receive from queue `q` returned. -/
def receivedFrom (q : Nat) : Event → Option (List UInt8)
  | .received _ p bytes => if p = q then some bytes else none
  | _ => none

namespace System

section

variable {s s₀ s' : System} {l : Label} {c : Call} {exit : Exit} {tr es : List Event} {q : Nat}

theorem filterMap_sent (bytes : List UInt8) :
    [Event.sent q bytes].filterMap (sentTo q) = [bytes] := by
  simp [sentTo]

theorem filterMap_received (t : Nat) (bytes : List UInt8) :
    [Event.receiving t q, .received t q bytes].filterMap (receivedFrom q) = [bytes] := by
  simp [List.filterMap_cons, receivedFrom]

/-- A step as queue `q` sees it. -/
inductive QueueStep (q : Nat) (queue : Queue) : Queue → List Event → Prop
  | other {es : List Event} (w : Nat) (hSent : es.filterMap (sentTo q) = [])
      (hReceived : es.filterMap (receivedFrom q) = []) :
      QueueStep q queue { queue with waitingTask := w } es
  | push {es : List Event} (w : Nat) (item : Nat → UInt8)
      (hRoom : ¬ queue.capacity ≤ queue.count)
      (hSent : es.filterMap (sentTo q) = [RingBuffer.item item queue.itemSize.toNat])
      (hReceived : es.filterMap (receivedFrom q) = []) :
      QueueStep q queue { queue.pushItem item with waitingTask := w } es
  | pop {es : List Event} (item : Nat → UInt8) (hSome : 0 < queue.count)
      (hSent : es.filterMap (sentTo q) = [])
      (hReceived : es.filterMap (receivedFrom q) =
        [RingBuffer.item (queue.popItem item).2 queue.itemSize.toNat]) :
      QueueStep q queue (queue.popItem item).1 es

theorem QueueStep.of_queues (hSame : s'.queues q = s.queues q)
    (hSent : es.filterMap (sentTo q) = []) (hReceived : es.filterMap (receivedFrom q) = []) :
    QueueStep q (s.queues q) (s'.queues q) es := by
  rw [hSame]
  exact .other (s.queues q).waitingTask hSent hReceived

/-- What is done to another queue. -/
theorem setQueue_other {p : Nat} {queue : Queue} {k : Kernel} (hqp : q ≠ p) :
    (s.setQueue p queue k).queues q = s.queues q := Function.update_of_ne hqp _ _

theorem setQueue_self {queue : Queue} {k : Kernel} : (s.setQueue q queue k).queues q = queue :=
  Function.update_self ..

/-- What is done to queue `p`, only queue `p` sees. -/
theorem queueStep_setQueue {p : Nat} {queue : Queue} {k : Kernel}
    (hSelf     : QueueStep p (s.queues p) queue es)
    (hSent     : q ≠ p → es.filterMap (sentTo q) = [])
    (hReceived : q ≠ p → es.filterMap (receivedFrom q) = []) :
    QueueStep q (s.queues q) ((s.setQueue p queue k).queues q) es := by
  by_cases hqp : q = p
  · subst hqp
    rw [setQueue_self]
    exact hSelf
  · exact .of_queues (setQueue_other hqp) (hSent hqp) (hReceived hqp)

/-- An accepted send to queue `p`. -/
theorem queueStep_send {p : Nat} (item : Nat → UInt8)
    (hRoom : ¬ (s.queues p).capacity ≤ (s.queues p).count) (w : Nat) (k : Kernel) :
    QueueStep q (s.queues q)
      ((s.setQueue p { (s.queues p).pushItem item with waitingTask := w } k).queues q)
      [.sent p (RingBuffer.item item (s.queues p).itemSize.toNat)] :=
  queueStep_setQueue (.push w item hRoom (filterMap_sent _) rfl)
    (fun hqp => by simp [sentTo, Ne.symm hqp]) fun _ => rfl

theorem IsrStep.queue (h : IsrStep s l s' es) : QueueStep q (s.queues q) (s'.queues q) es := by
  cases h with
  | giveNull | giveWake | giveStore | sendNull | tick => exact .of_queues rfl rfl rfl
  | sendFull p item _ => exact queueStep_setQueue (.other _ rfl rfl) (fun _ => rfl) fun _ => rfl
  | sendWake p item hRoom _ => exact queueStep_send item hRoom _ _
  | sendNone p item hRoom _ =>
    exact queueStep_send item hRoom ((s.queues p).pushItem item).waitingTask _

variable [TaskConfig]

theorem CallStep.queue (h : CallStep s c s' exit es)
    (hInit : (Label.call c).initialises ≠ some (.queue q)) :
    QueueStep q (s.queues q) (s'.queues q) es := by
  cases h with
  | queueInit p =>
    have hqp : q ≠ p := by
      rintro rfl
      exact hInit rfl
    exact .of_queues (setQueue_other hqp) rfl rfl
  | sendFull p item _ => exact queueStep_setQueue (.other _ rfl rfl) (fun _ => rfl) fun _ => rfl
  | sendWake p item hRoom _ => exact queueStep_send item hRoom _ _
  | sendNone p item hRoom _ =>
    exact queueStep_send item hRoom ((s.queues p).pushItem item).waitingTask _
  | receiveNow p item hSome =>
    exact queueStep_setQueue (.pop item hSome rfl (filterMap_received _ _)) (fun _ => rfl)
      fun hqp => by simp [receivedFrom, Ne.symm hqp]
  | receiveBlock p item _ =>
    exact queueStep_setQueue (.other _ rfl rfl) (fun _ => rfl) fun _ => rfl
  | _ => exact .of_queues rfl rfl rfl

theorem StepCase.queue (h : StepCase s l s' es) (hInit : l.initialises ≠ some (.queue q)) :
    QueueStep q (s.queues q) (s'.queues q) es := by
  cases h with
  | perform _ hAt hCall => exact hCall.queue (hAt.initialises hInit)
  | isr _ hIsr => exact hIsr.queue
  | _ => exact .of_queues rfl rfl rfl

-- ---------------------------------------------------------------------------
-- The ring refines the list
-- ---------------------------------------------------------------------------

/-- The ring of queue `q` holds what was sent and not received. -/
structure Lossless (q : Nat) (tr : List Event) (queue : Queue) : Prop where
  geometry : queue.Geometry
  ring     : queue.RingInv
  items    : tr.filterMap (receivedFrom q) ++ queue.items = tr.filterMap (sentTo q)

omit [TaskConfig] in
/-- The waiter's slot is no part of the ring. -/
theorem Lossless.setWaiter {queue : Queue} (h : Lossless q tr queue) (w : Nat) :
    Lossless q tr { queue with waitingTask := w } where
  geometry := ⟨h.geometry.itemSize_pos, h.geometry.capacity_pos, h.geometry.storage_lt⟩
  ring := ⟨h.ring.head_lt, h.ring.tail_lt, h.ring.count_le, h.ring.head_eq⟩
  items := h.items

omit [TaskConfig] in
theorem Lossless.step {queue queue' : Queue} (h : Lossless q tr queue)
    (hStep : QueueStep q queue queue' es) : Lossless q (tr ++ es) queue' := by
  obtain ⟨hGeo, hRing, hItems⟩ := h
  cases hStep with
  | other w hSent hReceived =>
    have hSame : Lossless q (tr ++ es) queue :=
      ⟨hGeo, hRing, by simp only [List.filterMap_append, hSent, hReceived, List.append_nil, hItems]⟩
    exact hSame.setWaiter w
  | push w item hRoom hSent hReceived =>
    have hPushed : Lossless q (tr ++ es) (queue.pushItem item) := by
      refine ⟨?_, Queue.pushItem_ring hRing hRoom item, ?_⟩
      · exact ⟨by simpa using hGeo.itemSize_pos, by simpa using hGeo.capacity_pos,
          by simpa using hGeo.storage_lt⟩
      · rw [Queue.pushItem_items hGeo hRing hRoom, List.filterMap_append, List.filterMap_append,
          hSent, hReceived, List.append_nil, ← List.append_assoc, hItems]
    exact hPushed.setWaiter w
  | pop item hSome hSent hReceived =>
    refine ⟨?_, Queue.popItem_ring hRing hSome item, ?_⟩
    · exact ⟨by simpa using hGeo.itemSize_pos, by simpa using hGeo.capacity_pos,
        by simpa using hGeo.storage_lt⟩
    · rw [Queue.popItem_items hGeo hRing hSome item] at hItems
      rw [List.filterMap_append, List.filterMap_append, hSent, hReceived, List.append_nil,
        List.append_assoc, List.singleton_append, hItems]

-- ---------------------------------------------------------------------------
-- A sole receiver
-- ---------------------------------------------------------------------------

omit [TaskConfig] in
theorem blocks_queue {p : Nat} (h : s.blocks c = some (.queue p)) :
    ∃ item, c = .queueReceive (some p) (some item) := by
  unfold blocks at h
  split at h
  · split at h
    · cases h
    · cases Option.some.inj h
  · rename_i p' item
    split at h
    · cases h
    · injection Option.some.inj h with hp
      exact ⟨item, by rw [hp]⟩
  · split at h
    · cases h
    · cases Option.some.inj h
  · cases h

/-- Whoever blocks on a queue has called receive. -/
theorem StepCase.receiving {p : Nat} (h : StepCase s l s' es)
    (hParks : s.parks l = some (.queue p)) : .receiving s.kernel.currentTask p ∈ es := by
  cases h with
  | perform _ hAt hCall =>
    rw [hAt.parks] at hParks
    obtain ⟨item, rfl⟩ := blocks_queue hParks
    cases hCall with
    | null _ hNull => cases hNull
    | receiveNow | receiveBlock => exact List.mem_cons_self ..
  | isr _ hIsr => cases hIsr <;> cases hParks
  | resume _ hPc hOnce =>
    simp only [parks, hPc, hOnce, Bool.false_eq_true, if_false] at hParks
    cases hParks
  | _ => cases hParks

/-- Who waits on a queue has called receive, and a sole receiver that waits is
registered. -/
structure Receiving (q : Nat) (tr : List Event) (s : System) : Prop where
  called   : ∀ t p, s.abs.mode t = .waiting (.queue p) → .receiving t p ∈ tr
  complete : ∀ t, (∀ u, .receiving u q ∈ tr → u = t) → WaitSlots.CompleteAt (.queue q) s.abs

theorem Receiving.step (h : Receiving q tr s) (hReg : Registry s) (hGuard : CallsUnmasked s l)
    (hStep : StepCase s l s' es) : Receiving q (tr ++ es) s' := by
  obtain ⟨a, hSim⟩ := hReg.control.step_move hReg.objects hGuard hStep
  have hCalled : ∀ t p, a = .park t (.queue p) →
      t = s.kernel.currentTask ∧ .receiving t p ∈ es := by
    intro t p hPark
    obtain rfl := hSim.parker t _ hPark
    exact ⟨rfl, hStep.receiving ((hSim.parks _).mpr hPark)⟩
  refine ⟨?_, ?_⟩
  · intro t p hMode
    rcases hSim.move.waiting_begins hMode with hOld | hPark
    · exact List.mem_append_left _ (h.called t p hOld)
    · exact List.mem_append_right _ (hCalled t p hPark).2
  · intro t hSole
    have hBefore := h.complete t fun u hu => hSole u (List.mem_append_left _ hu)
    refine hBefore.move hSim.move fun u hPark => ?_
    obtain ⟨rfl, hMem⟩ := hCalled u q hPark
    have hCur := hSole _ (List.mem_append_right _ hMem)
    -- a registered task would be the sole receiver itself, which is not waiting
    cases hSlot : s.abs.slot (.queue q) with
    | none => rfl
    | some w =>
      have hWaiting := hReg.sound _ w hSlot
      have hw : w = s.kernel.currentTask :=
        (hSole w (List.mem_append_left _ (h.called w q hWaiting))).trans hCur.symm
      have hMove := hSim.move
      rw [hPark] at hMove
      generalize hr : s'.abs = r at hMove
      cases hMove with
      | park hActive =>
        rw [hw, hActive] at hWaiting
        cases hWaiting

/-- The run invariant. -/
structure FifoInv (q : Nat) (tr : List Event) (s : System) : Prop where
  registry  : Registry s
  lossless  : Lossless q tr (s.queues q)
  receiving : Receiving q tr s

theorem Started.fifoInv (h : Started s₀) (hGeo : (s₀.queues q).Geometry) : FifoInv q [] s₀ := by
  obtain ⟨-, hHead, hTail, hCount⟩ := h.queues q
  have hNobody : ∀ t o, s₀.abs.mode t ≠ .waiting o := by
    intro t o hMode
    obtain ⟨-, c, hc, -⟩ := mode_waiting.mp hMode
    rw [h.user] at hc
    cases hc
  refine ⟨h.registry, ⟨hGeo, ⟨?_, ?_, ?_, ?_⟩, ?_⟩,
    ⟨fun t p hMode => absurd hMode (hNobody t _), fun _ _ t hMode => absurd hMode (hNobody t _)⟩⟩
  · rw [hHead]
    exact hGeo.capacity_pos
  · rw [hTail]
    exact hGeo.capacity_pos
  · rw [hCount]
    exact Nat.zero_le _
  · rw [hHead, hTail, hCount]
    exact (Nat.zero_mod _).symm
  · unfold Queue.items
    rw [hCount]
    rfl

theorem FifoInv.step (h : FifoInv q tr s) (hGuard : CallsUnmasked s l)
    (hStep : StepCase s l s' es) : FifoInv q (tr ++ es) s' :=
  ⟨h.registry.step hGuard hStep, h.lossless.step (hStep.queue (hGuard.initialises _)),
    h.receiving.step h.registry hGuard hStep⟩

/-- A waiting sole receiver finds the queue empty. -/
theorem FifoInv.count_eq_zero (h : FifoInv q tr s) {t : Nat} (ht : t < s.kernel.taskCount)
    (hSole : ∀ u, .receiving u q ∈ tr → u = t)
    (hBlocked : (s.kernel.tasks t).state = .blockedOnQueue)
    (hHere : (∃ c, (s.pc t).call = some c ∧ c.waitsOn = some (.queue q)) ∨
      ∀ p, .receiving t p ∈ tr → p = q) : (s.queues q).count = 0 := by
  have hNot : (s.kernel.tasks t).state ≠ .ready := by
    rw [hBlocked]
    nofun
  have hMode : s.abs.mode t = .waiting (.queue q) := by
    rcases hHere with ⟨c, hc, hWaits⟩ | hOnly
    · exact mode_waiting.mpr ⟨hNot, c, hc, hWaits⟩
    · obtain ⟨c, hc, hState⟩ := h.registry.control.place t ht hNot
      rw [hBlocked] at hState
      obtain ⟨p, hWaits⟩ := Call.waitsOn_of_blockedOnQueue hState
      have hMode : s.abs.mode t = .waiting (.queue p) := mode_waiting.mpr ⟨hNot, c, hc, hWaits⟩
      rw [← hOnly p (h.receiving.called t p hMode)]
      exact hMode
  have hSlot := h.receiving.complete t hSole t hMode
  obtain ⟨hWaiter, hTask⟩ := slot_eq_some.mp hSlot
  refine (h.registry.objects.queues q ?_).2
  exact fun hNone => hTask (hWaiter.symm.trans hNone)

-- ---------------------------------------------------------------------------
-- The queue
-- ---------------------------------------------------------------------------

omit [TaskConfig] in
/-- What a refused send means. -/
theorem refused_iff {queue : Queue} (hRing : queue.RingInv) (item : Nat → UInt8) (k : Kernel) :
    ((rtoskQueueSend queue item k).2.2.2 = 0 ↔ queue.count = queue.capacity) ∧
    ((rtoskQueueSendFromIsr queue item k).2.2 = 0 ↔ queue.count = queue.capacity) := by
  have hFull : queue.capacity ≤ queue.count ↔ queue.count = queue.capacity := by
    rw [UInt32.le_iff_toNat_le, ← UInt32.toNat_inj]
    have := hRing.count_le
    omega
  rw [← hFull]
  by_cases h : queue.capacity ≤ queue.count
  · simp [queueSend_full h, rtoskQueueSendFromIsr, h]
  · by_cases hWaiter : queue.waitingTask ≠ rtoskQueueNoWaiter
    · simp only [queueSend_waiter h hWaiter, queueSendFromIsr_waiter h hWaiter, h, iff_false]
      exact ⟨by decide, by decide⟩
    · simp only [queueSend_none h hWaiter, queueSendFromIsr_none h hWaiter, h, iff_false]
      exact ⟨by decide, by decide⟩

omit [TaskConfig] in
/-- A refused send changes neither the queue nor any task. -/
theorem refused_unchanged {queue : Queue} (hFull : queue.count = queue.capacity)
    (item : Nat → UInt8) (k : Kernel) :
    (rtoskQueueSend queue item k).1 = queue ∧
      (rtoskQueueSend queue item k).2.1.toTaskTable = k.toTaskTable ∧
      (rtoskQueueSendFromIsr queue item k).1 = queue ∧
      (rtoskQueueSendFromIsr queue item k).2.1 = k := by
  have h : queue.capacity ≤ queue.count := UInt32.le_iff_toNat_le.mpr (by rw [hFull])
  simp only [queueSend_full h, rtoskQueueSendFromIsr, if_pos h, bracket_toTaskTable, id]
  exact ⟨trivial, trivial, trivial, trivial⟩

/-- **Lossless bounded FIFO.** Along every run the ring keeps its bounds; what
the receives have returned so far, followed by what the ring holds, is what the
accepted sends have sent, byte for byte and in order; a send, by a task or an
interrupt, is refused exactly when the queue is full, and then changes neither
queue, buffer nor any task; and a task that is the only one ever to receive
from the queue does not wait there while it holds an item. -/
theorem fifo (hStarted : Started s₀) (hGeo : (s₀.queues q).Geometry)
    (hRun : Runs.Run System.step CallsUnmasked s₀ tr s) :
    (s.queues q).RingInv ∧
    tr.filterMap (receivedFrom q) ++ (s.queues q).items = tr.filterMap (sentTo q) ∧
    (∀ item, ((rtoskQueueSend (s.queues q) item s.kernel).2.2.2 = 0 ↔
          (s.queues q).count = (s.queues q).capacity) ∧
        ((rtoskQueueSendFromIsr (s.queues q) item s.kernel).2.2 = 0 ↔
          (s.queues q).count = (s.queues q).capacity)) ∧
    ((s.queues q).count = (s.queues q).capacity → ∀ item,
      (rtoskQueueSend (s.queues q) item s.kernel).1 = s.queues q ∧
      (rtoskQueueSend (s.queues q) item s.kernel).2.1.toTaskTable = s.kernel.toTaskTable ∧
      (rtoskQueueSendFromIsr (s.queues q) item s.kernel).1 = s.queues q ∧
      (rtoskQueueSendFromIsr (s.queues q) item s.kernel).2.1 = s.kernel) ∧
    ∀ t < s.kernel.taskCount, (∀ u, .receiving u q ∈ tr → u = t) →
      (s.kernel.tasks t).state = .blockedOnQueue →
      ((∃ c, (s.pc t).call = some c ∧ c.waitsOn = some (.queue q)) ∨
        ∀ p, .receiving t p ∈ tr → p = q) →
      (s.queues q).count = 0 := by
  have hInv : FifoInv q tr s := hRun.induct (FifoInv q) (hStarted.fifoInv hGeo)
    fun _ _ _ _ _ h hGuard hs => h.step hGuard (step_cases hs)
  exact ⟨hInv.lossless.ring, hInv.lossless.items,
    fun item => refused_iff hInv.lossless.ring item s.kernel,
    fun hFull item => refused_unchanged hFull item s.kernel,
    fun t ht hSole hBlocked hHere => hInv.count_eq_zero ht hSole hBlocked hHere⟩

end

-- ---------------------------------------------------------------------------
-- A receiver and an interrupt
-- ---------------------------------------------------------------------------

/-- Two tasks, and queues of two one-byte items. -/
def receiver : System :=
  boot [2, 1] (fun _ => rtoskSemaphoreInit 0)
    (fun _ => ⟨fun _ => 0, 1, 2, 0, 0, 0, rtoskQueueNoWaiter⟩)

theorem receiver_started : Started receiver :=
  boot_started (by decide) (fun _ => rfl) fun _ => ⟨rfl, rfl, rfl, rfl⟩

/-- Task `0` waits on the empty queue; an interrupt sends two bytes, and task
`0` comes back for the first. -/
def receiverLabels : List Label :=
  [.call (.queueReceive (some 0) (some fun _ => 0)), .yield, .pendSv, .scan, .scan, .pendSvExit,
    .queueSendFromIsr (some 0) (some fun _ => 7), .queueSendFromIsr (some 0) (some fun _ => 9),
    .pendSv, .scan, .scan, .pendSvExit, .resume]

theorem fifo_receiver :
    ∃ tr s, Runs.Run System.step CallsUnmasked receiver tr s ∧
      tr = [.receiving 0 0, .switched 1, .sent 0 [7], .sent 0 [9], .switched 0, .receiving 0 0,
        .received 0 0 [7]] ∧ (s.queues 0).items = [[9]] := by
  obtain ⟨tr, s, hRun, hTr⟩ :=
    Runs.exists_run_of_exec System.step CallsUnmasked receiver
      receiverLabels (fun tr _ => tr = [.receiving 0 0, .switched 1, .sent 0 [7], .sent 0 [9],
        .switched 0, .receiving 0 0, .received 0 0 [7]])
      (by decide +kernel)
  have hItems := (fifo (q := 0) receiver_started ⟨by decide, by decide, by decide⟩ hRun).2.1
  rw [hTr] at hItems
  exact ⟨tr, s, hRun, hTr, (List.cons.inj hItems).2⟩

end System

end TinyRtos
