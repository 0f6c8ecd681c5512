import TinyRtos.Osi.Console
import TinyRtos.Results.Fifo
import TinyRtos.Results.Shell

/-!
# TinyRTOS — from the interrupt to the command

The queue between the interrupt and the OSI task, and the shell behind it, in
the running system. Bytes may come in as soon as `rtosk_osi_init` has made the
queue (`arrive`), before the first task runs.

* `console_runs` — along every run, whatever the other tasks and the interrupts
  do: the task has received a prefix of the bytes that were accepted, and does
  with it what the loop does with such a stream when nothing comes in between;
  a byte is refused only when 128 accepted ones wait; and the commands invoked
  are the first of those that the accepted bytes spell, all of them once the
  queue is empty and the task is done.
-/

namespace TinyRtos

namespace Console

open LineEditor Osi

-- ---------------------------------------------------------------------------
-- Histories
-- ---------------------------------------------------------------------------

def Event.kernel? : Event → Option TinyRtos.Event
  | .kernel e => some e
  | _ => none

def Event.did? : Event → Option Osi.Event
  | .did e => some e
  | _ => none

/-- The history of the kernel. -/
def kernelEvents (tr : List Event) : List TinyRtos.Event := tr.filterMap Event.kernel?

/-- What the OSI task has done. -/
def did (tr : List Event) : List Osi.Event := tr.filterMap Event.did?

/-- The bytes that came into the queue. -/
def accepted (q : Nat) (tr : List Event) : List UInt8 :=
  ((kernelEvents tr).filterMap (sentTo q)).flatten

/-- The bytes that came out of it. -/
def received (q : Nat) (tr : List Event) : List UInt8 :=
  ((kernelEvents tr).filterMap (receivedFrom q)).flatten

/-- The commands that a stream of bytes spells, as `strcmp` reads them. -/
def commands (input : List UInt8) : List OsiCmd :=
  (contents keys input).map fun line => rtoskOsiDispatchCommand (line.takeWhile fun c => c ≠ 0)

section

variable {t q : Nat} {tr tr' : List Event} {es : List TinyRtos.Event}

@[simp] theorem kernelEvents_append : kernelEvents (tr ++ tr') = kernelEvents tr ++ kernelEvents tr' :=
  List.filterMap_append ..

@[simp] theorem kernelEvents_kernel (es : List TinyRtos.Event) :
    kernelEvents (es.map .kernel) = es := by
  induction es with
  | nil => rfl
  | cons e rest ih => exact congrArg (e :: ·) ih

@[simp] theorem did_append : did (tr ++ tr') = did tr ++ did tr' := List.filterMap_append ..

@[simp] theorem did_kernel (es : List TinyRtos.Event) : did (es.map .kernel) = [] := by
  induction es with
  | nil => rfl
  | cons e rest ih => exact ih

@[simp] theorem accepted_append : accepted q (tr ++ tr') = accepted q tr ++ accepted q tr' := by
  simp [accepted]

@[simp] theorem received_append : received q (tr ++ tr') = received q tr ++ received q tr' := by
  simp [received]

@[simp] theorem accepted_kernel (es : List TinyRtos.Event) :
    accepted q (es.map .kernel) = (es.filterMap (sentTo q)).flatten := by
  rw [accepted, kernelEvents_kernel]

@[simp] theorem received_kernel (es : List TinyRtos.Event) :
    received q (es.map .kernel) = (es.filterMap (receivedFrom q)).flatten := by
  rw [received, kernelEvents_kernel]

end

-- ---------------------------------------------------------------------------
-- Steps
-- ---------------------------------------------------------------------------

section

variable [TaskConfig] {t q : Nat} {s s' : System} {l : TinyRtos.Label}
  {es : List TinyRtos.Event}

/-- A step that does not use the queue. -/
theorem unused (h : s.step l = some (s', es)) (hUses : l.usesQueue q s = false) :
    es.filterMap (sentTo q) = [] ∧ es.filterMap (receivedFrom q) = [] := by
  have hCall : ∀ {c : Call} {s'' : System} {exit : Exit}, System.CallStep s c s'' exit es →
      c.usesQueue q = false →
      es.filterMap (sentTo q) = [] ∧ es.filterMap (receivedFrom q) = [] := by
    intro c s'' exit hStep hNot
    cases hStep <;>
      simp_all [Call.usesQueue, sentTo, receivedFrom, List.filterMap_cons]
  cases System.step_cases h with
  | perform hThread hAt hStep =>
    refine hCall hStep ?_
    rcases hAt with ⟨rfl, -⟩ | ⟨rfl, hPc, -⟩
    · exact hUses
    · simpa [Label.usesQueue, hPc] using hUses
  | isr _ hIsr =>
    cases hIsr <;> simp_all [Label.usesQueue, sentTo, receivedFrom, List.filterMap_cons]
  | _ => simp [sentTo, receivedFrom, List.filterMap_cons]

omit [TaskConfig] in
/-- Making a queue is a use of it. -/
theorem initialises_of_unused (h : l.usesQueue q s = false) :
    l.initialises ≠ some (.queue q) := by
  intro hInit
  cases l with
  | call c =>
    cases c with
    | queueInit queue =>
      cases queue with
      | none => cases hInit
      | some p => simp_all [Label.usesQueue, Call.usesQueue, Label.initialises]
    | semaphoreInit sem | mutexInit sem => cases sem <;> cases hInit
    | _ => cases hInit
  | _ => cases hInit

/-- The round of a receive by the OSI task. -/
theorem receive_cases {item : Nat → UInt8} (h : s.step l = some (s', es))
    (hAt : System.Performs s l (.queueReceive (some q) (some item))) :
    es = [.receiving s.kernel.currentTask q] ∨
      es = [.receiving s.kernel.currentTask q, .received s.kernel.currentTask q
        (RingBuffer.item ((s.queues q).popItem item).2 (s.queues q).itemSize.toNat)] := by
  cases System.step_cases h with
  | perform hThread hAt' hStep =>
    obtain rfl : (Call.queueReceive (some q) (some item)) = _ := by
      rcases hAt with ⟨rfl, hPc⟩ | ⟨rfl, hPc, -⟩
      · rcases hAt' with ⟨hEq, -⟩ | ⟨hEq, -⟩
        · exact Label.call.inj hEq
        · cases hEq
      · rcases hAt' with ⟨hEq, -⟩ | ⟨-, hPc', -⟩
        · cases hEq
        · exact Pc.yielded.inj (hPc.symm.trans hPc')
    cases hStep with
    | null _ hNull => cases hNull
    | receiveNow => exact Or.inr rfl
    | receiveBlock => exact Or.inl rfl
  | resume _ hPc hOnce =>
    exfalso
    rcases hAt with ⟨hEq, -⟩ | ⟨-, hPc', -⟩
    · cases hEq
    · obtain rfl := Pc.yielded.inj (hPc.symm.trans hPc')
      cases hOnce
  | isr _ hIsr =>
    exfalso
    rcases hAt with ⟨rfl, -⟩ | ⟨rfl, -⟩
    · cases hIsr
    · cases hIsr
  | yield | pendSvEmpty | pendSv | scan | pendSvExit =>
    exfalso
    rcases hAt with ⟨hEq, -⟩ | ⟨hEq, -⟩ <;> cases hEq

/-- A byte from the interrupt. -/
theorem interrupt_cases {item : Nat → UInt8}
    (h : s.step (.queueSendFromIsr (some q) (some item)) = some (s', es)) :
    ((s.queues q).capacity ≤ (s.queues q).count ∧ es = []) ∨
      es = [.sent q (RingBuffer.item item (s.queues q).itemSize.toNat)] := by
  simp only [System.step] at h
  split at h
  · obtain rfl := congrArg Prod.snd (Option.some.inj h)
    by_cases hFull : (s.queues q).capacity ≤ (s.queues q).count
    · refine Or.inl ⟨hFull, ?_⟩
      simp [System.sendFromIsr, rtoskQueueSendFromIsr, hFull]
    · refine Or.inr ?_
      by_cases hWaiter : (s.queues q).waitingTask ≠ rtoskQueueNoWaiter
      · simp [System.sendFromIsr, queueSendFromIsr_waiter hFull hWaiter]
      · simp [System.sendFromIsr, queueSendFromIsr_none hFull hWaiter]
  · cases h

-- ---------------------------------------------------------------------------
-- What is kept
-- ---------------------------------------------------------------------------

omit [TaskConfig] in
/-- The sizes of a queue stay. -/
theorem queueStep_sizes {queue queue' : Queue} (h : System.QueueStep q queue queue' es) :
    queue'.itemSize = queue.itemSize ∧ queue'.capacity = queue.capacity := by
  cases h <;> simp

omit [TaskConfig] in
/-- Items of one byte. -/
theorem items_flatten_length {queue : Queue} (h : queue.itemSize = 1) :
    queue.items.flatten.length = queue.count.toNat := by
  unfold Queue.items Queue.cells RingBuffer.contents RingBuffer.slabCell
  rw [h, List.length_flatten, List.map_map]
  simp [Function.comp_def, RingBuffer.item]

/-- What holds along every run, for a buffer that was `cmd` at the start. -/
structure Serves (cmd : Nat → UInt8) (q : Nat) (tr : List Event) (c : Console) : Prop where
  fifo    : System.Lossless q (kernelEvents tr) (c.sys.queues q)
  sizes   : (c.sys.queues q).itemSize = 1 ∧ (c.sys.queues q).capacity = 128
  shell   : ∃ rxs, rxs.map Received.byte = received q tr ∧
    Runs.feed rtoskOsiTask (start cmd) rxs = (c.osi, did tr ++ c.todo)
  refused : ∀ pre b post, tr = pre ++ .refused b :: post →
    (accepted q pre).length = (received q pre).length + 128

variable {cmd : Nat → UInt8} {c c' : Console} {tr : List Event}

omit [TaskConfig] in
/-- What came in is what came out and what waits. -/
theorem accepted_of_lossless {queue : Queue} (h : System.Lossless q (kernelEvents tr) queue) :
    accepted q tr = received q tr ++ queue.items.flatten := by
  unfold accepted received
  rw [← List.flatten_append, h.items]

/-- A step of the kernel, as the queue and the history see it. -/
theorem Serves.kernel (h : Serves cmd q tr c) (hStep : c.sys.step l = some (s', es))
    (hInit : l.initialises ≠ some (.queue q)) :
    System.Lossless q (kernelEvents (tr ++ es.map .kernel)) (s'.queues q) ∧
      ((s'.queues q).itemSize = 1 ∧ (s'.queues q).capacity = 128) ∧
      ∀ pre b post, tr ++ es.map .kernel = pre ++ .refused b :: post →
        (accepted q pre).length = (received q pre).length + 128 := by
  have hQueue := (System.step_cases hStep).queue hInit
  obtain ⟨hItem, hCapacity⟩ := queueStep_sizes hQueue
  refine ⟨?_, ⟨hItem.trans h.sizes.1, hCapacity.trans h.sizes.2⟩, fun pre b post hTr => ?_⟩
  · rw [kernelEvents_append, kernelEvents_kernel]
    exact h.fifo.step hQueue
  · rcases Runs.split_append hTr with ⟨mid, hOld, -⟩ | ⟨mid, hNew⟩
    · exact h.refused pre b mid hOld
    · have hMem : Event.refused b ∈ es.map .kernel := by
        rw [hNew]
        exact List.mem_append_right _ (List.mem_cons_self ..)
      obtain ⟨_, -, hEq⟩ := List.mem_map.mp hMem
      cases hEq

/-- Where nothing is received and nothing done, the shell is where it was. -/
theorem Serves.shell_append (h : Serves cmd q tr c) {es : List Event}
    (hReceived : received q es = []) (hDid : did es = []) :
    ∃ rxs, rxs.map Received.byte = received q (tr ++ es) ∧
      Runs.feed rtoskOsiTask (start cmd) rxs = (c.osi, did (tr ++ es) ++ c.todo) := by
  rw [received_append, did_append, hReceived, hDid, List.append_nil, List.append_nil]
  exact h.shell

/-- A round of the receive by the OSI task: with a byte the loop goes on. -/
theorem Serves.handle (h : Serves cmd q tr c) {item : Nat → UInt8} (env : Env)
    (hTodo : c.todo = []) (hStep : c.sys.step l = some (s', es))
    (hAt : System.Performs c.sys l (.queueReceive (some q) (some item))) :
    Serves cmd q (tr ++ (c.handle env (s', es)).2) (c.handle env (s', es)).1 := by
  have hInit : l.initialises ≠ some (.queue q) := by
    intro hEq
    rcases hAt with ⟨rfl, -⟩ | ⟨rfl, -⟩ <;> cases hEq
  obtain ⟨hFifo, hSizes, hRefused⟩ := h.kernel hStep hInit
  obtain ⟨rxs, hBytes, hFeed⟩ := h.shell
  have hEvents : (c.handle env (s', es)).2 = es.map .kernel := rfl
  rw [hEvents]
  rcases receive_cases hStep hAt with rfl | hEs
  · refine ⟨hFifo, hSizes, h.shell_append ?_ (did_kernel _), hRefused⟩
    rw [received_kernel]
    rfl
  · obtain ⟨b, hByte⟩ : ∃ b, RingBuffer.item ((c.sys.queues q).popItem item).2
        (c.sys.queues q).itemSize.toNat = [b] := by
      rw [h.sizes.1]
      exact ⟨_, rfl⟩
    rw [hByte] at hEs
    subst hEs
    refine ⟨hFifo, hSizes, ⟨rxs ++ [⟨b, env⟩], ?_, ?_⟩, hRefused⟩
    · rw [received_append, received_kernel, List.map_append, hBytes]
      simp [receivedFrom, List.filterMap_cons]
    · rw [did_append, did_kernel, List.append_nil, Runs.feed_concat, hFeed, hTodo, List.append_nil]
      rfl

theorem Serves.sys (h : Serves cmd q tr c) (hUses : l.usesQueue q c.sys = false)
    (hStep : c.sys.step l = some (s', es)) :
    Serves cmd q (tr ++ es.map .kernel) { c with sys := s' } := by
  obtain ⟨hFifo, hSizes, hRefused⟩ := h.kernel hStep (initialises_of_unused hUses)
  obtain ⟨-, hNone⟩ := unused hStep hUses
  refine ⟨hFifo, hSizes, h.shell_append ?_ (did_kernel es), hRefused⟩
  rw [received_kernel, hNone, List.flatten_nil]

theorem Serves.interrupt (h : Serves cmd q tr c) {b : UInt8}
    (hStep : c.sys.step (.queueSendFromIsr (some q) (some fun _ => b)) = some (s', es)) :
    Serves cmd q (tr ++ if es = [] then [.refused b] else es.map .kernel)
      { c with sys := s' } := by
  obtain ⟨hFifo, hSizes, hRefused⟩ := h.kernel hStep nofun
  rcases interrupt_cases hStep with ⟨hFull, rfl⟩ | hEs
  · rw [if_pos rfl]
    have hSilent : kernelEvents [Event.refused b] = [] := rfl
    refine ⟨?_, hSizes, h.shell_append rfl rfl, fun pre b' post hTr => ?_⟩
    · rw [kernelEvents_append, hSilent]
      simpa using hFifo
    · rcases Runs.split_concat hTr with ⟨mid, hOld⟩ | ⟨rfl, -⟩
      · exact h.refused pre b' mid hOld
      · -- the queue is full: what waits is as long as it has room
        have hCount : (c.sys.queues q).count.toNat = 128 := by
          have hLe := h.fifo.ring.count_le
          rw [UInt32.le_iff_toNat_le] at hFull
          rw [h.sizes.2] at hFull hLe
          exact Nat.le_antisymm hLe hFull
        rw [accepted_of_lossless h.fifo, List.length_append, items_flatten_length h.sizes.1, hCount]
  · have hSome : es ≠ [] := by
      rw [hEs]
      exact List.cons_ne_nil _ _
    rw [if_neg hSome]
    refine ⟨hFifo, hSizes, h.shell_append ?_ (did_kernel es), hRefused⟩
    rw [received_kernel, hEs]
    rfl

/-- A piece of the body. -/
theorem Serves.act (h : Serves cmd q tr c) {e : Osi.Event} {todo : List Osi.Event}
    (hTodo : c.todo = e :: todo) : Serves cmd q (tr ++ [.did e]) { c with todo := todo } := by
  obtain ⟨rxs, hBytes, hFeed⟩ := h.shell
  have hSilent : kernelEvents [Event.did e] = [] := rfl
  refine ⟨?_, h.sizes, ⟨rxs, ?_, ?_⟩, fun pre b post hTr => ?_⟩
  · rw [kernelEvents_append, hSilent, List.append_nil]
    exact h.fifo
  · rw [received_append, hBytes]
    exact (List.append_nil _).symm
  · rw [hFeed, hTodo, did_append, List.append_assoc]
    rfl
  · rcases Runs.split_concat hTr with ⟨mid, hOld⟩ | ⟨-, hEq⟩
    · exact h.refused pre b mid hOld
    · cases hEq

theorem Serves.step (h : Serves cmd q tr c) {l : Label} {es : List Event}
    (hs : c.step t q l = some (c', es)) : Serves cmd q (tr ++ es) c' := by
  cases l with
  | sys l =>
    simp only [Console.step] at hs
    split at hs
    · cases hs
    · rename_i hUses
      obtain ⟨⟨s', es'⟩, hStep, hEq⟩ := Option.map_eq_some_iff.mp hs
      cases hEq
      exact h.sys (Bool.eq_false_iff.mpr hUses) hStep
  | interrupt b =>
    simp only [Console.step] at hs
    obtain ⟨⟨s', es'⟩, hStep, hEq⟩ := Option.map_eq_some_iff.mp hs
    cases hEq
    exact h.interrupt hStep
  | receive item env =>
    simp only [Console.step] at hs
    split at hs
    · rename_i hAt
      obtain ⟨⟨s', es'⟩, hStep, hEq⟩ := Option.map_eq_some_iff.mp hs
      cases hEq
      refine h.handle env hAt.2 hStep (Or.inl ⟨rfl, ?_⟩)
      simp only [System.step] at hStep
      split at hStep
      · assumption
      · cases hStep
    · cases hs
  | retry env =>
    simp only [Console.step] at hs
    split at hs
    · rename_i hAt
      split at hs
      · rename_i hPc
        split at hs
        · rename_i hQueue
          subst hQueue
          obtain ⟨⟨s', es'⟩, hStep, hEq⟩ := Option.map_eq_some_iff.mp hs
          cases hEq
          exact h.handle env hAt.2 hStep (Or.inr ⟨rfl, hPc, rfl⟩)
        · cases hs
      · cases hs
    · cases hs
  | act =>
    simp only [Console.step] at hs
    split at hs
    · split at hs
      · rename_i hTodo
        cases hs
        exact h.act hTodo
      · cases hs
    · cases hs

end

-- ---------------------------------------------------------------------------
-- Before the first task runs
-- ---------------------------------------------------------------------------

section

variable {q : Nat}

/-- `rtosk_bsp_f756zg_usart3_rx_callback_from_isr`, with the kernel it finds. -/
def arrive (queue : Queue) (rx : UInt8 × Kernel) : Queue :=
  (rtoskQueueSendFromIsr queue (fun _ => rx.1) rx.2).1

/-- What is accepted of the bytes that arrive: nothing is received yet, and there
is room for 128. -/
def early (rxs : List (UInt8 × Kernel)) : List UInt8 := (rxs.map Prod.fst).take 128

/-- The history that these make. -/
def earlyEvents (q : Nat) (rxs : List (UInt8 × Kernel)) : List Event :=
  (early rxs).map fun b => .kernel (.sent q [b])

theorem arrive_full {queue : Queue} (h : queue.capacity ≤ queue.count) (rx : UInt8 × Kernel) :
    arrive queue rx = queue := by
  simp [arrive, rtoskQueueSendFromIsr, h]

theorem arrive_room {queue : Queue} (h : ¬ queue.capacity ≤ queue.count) (rx : UInt8 × Kernel) :
    ∃ w, arrive queue rx = { queue.pushItem (fun _ => rx.1) with waitingTask := w } := by
  by_cases hWaiter : queue.waitingTask ≠ rtoskQueueNoWaiter
  · exact ⟨rtoskQueueNoWaiter, by simp [arrive, queueSendFromIsr_waiter h hWaiter]⟩
  · exact ⟨(queue.pushItem fun _ => rx.1).waitingTask,
      congrArg Prod.fst (queueSendFromIsr_none h hWaiter (fun _ => rx.1) rx.2)⟩

@[simp] theorem kernelEvents_early (rxs : List (UInt8 × Kernel)) :
    kernelEvents (earlyEvents q rxs) = (early rxs).map fun b => .sent q [b] := by
  unfold kernelEvents earlyEvents
  rw [List.filterMap_map]
  exact congrFun List.filterMap_eq_map _

theorem accepted_early (rxs : List (UInt8 × Kernel)) :
    accepted q (earlyEvents q rxs) = early rxs := by
  rw [accepted, kernelEvents_early, List.filterMap_map]
  induction early rxs with
  | nil => rfl
  | cons b rest ih => simpa [sentTo, List.filterMap_cons] using ih

theorem received_early (rxs : List (UInt8 × Kernel)) : received q (earlyEvents q rxs) = [] := by
  rw [received, kernelEvents_early, List.filterMap_map]
  simp [Function.comp_def, receivedFrom]

theorem did_early (rxs : List (UInt8 × Kernel)) : did (earlyEvents q rxs) = [] := by
  simp [did, earlyEvents, List.filterMap_map, Function.comp_def, Event.did?]

/-- One more byte is accepted unless 128 wait. -/
theorem early_concat (rxs : List (UInt8 × Kernel)) (rx : UInt8 × Kernel) :
    early (rxs ++ [rx]) = if 128 ≤ (early rxs).length then early rxs else early rxs ++ [rx.1] := by
  have hLength : (early rxs).length = min 128 rxs.length := by simp [early]
  rw [hLength, early, List.map_append]
  split
  · exact List.take_append_of_le_length (by rw [List.length_map]; omega)
  · have hRoom : 1 ≤ 128 - rxs.length := by omega
    rw [early, List.take_append, List.length_map, List.map_singleton,
      List.take_of_length_le (l := [rx.1]) hRoom]

/-- What the interrupts leave of the queue that `rtosk_osi_init` made. -/
theorem arrive_lossless (queue : Queue) (storage : Nat → UInt8) (rxs : List (UInt8 × Kernel)) :
    System.Lossless q (kernelEvents (earlyEvents q rxs))
        (rxs.foldl arrive (rtoskQueueInit queue (some storage) 1 128)) ∧
      (rxs.foldl arrive (rtoskQueueInit queue (some storage) 1 128)).itemSize = 1 ∧
      (rxs.foldl arrive (rtoskQueueInit queue (some storage) 1 128)).capacity = 128 := by
  induction rxs using List.reverseRecOn with
  | nil =>
    obtain ⟨hRing, hItems⟩ := Queue.rtoskQueueInit_ring queue storage
      (by decide : (1 : UInt32) ≠ 0) (by decide : (128 : UInt32) ≠ 0)
    refine ⟨⟨⟨?_, ?_, ?_⟩, hRing, hItems⟩, rfl, rfl⟩
    · exact (by decide : 0 < (1 : UInt32).toNat)
    · exact (by decide : 0 < (128 : UInt32).toNat)
    · exact (by decide : (128 : UInt32).toNat * (1 : UInt32).toNat < 2 ^ 32)
  | append_singleton rxs rx ih =>
    rw [List.foldl_append, List.foldl_cons, List.foldl_nil, kernelEvents_early, early_concat]
    generalize rxs.foldl arrive (rtoskQueueInit queue (some storage) 1 128) = made at ih ⊢
    obtain ⟨hLossless, hItem, hCapacity⟩ := ih
    -- nothing has been received yet
    have hCount : (early rxs).length = made.count.toNat := by
      have hItems := accepted_of_lossless hLossless
      rw [accepted_early, received_early, List.nil_append] at hItems
      rw [hItems, items_flatten_length hItem]
    have hFull : made.capacity ≤ made.count ↔ 128 ≤ (early rxs).length := by
      rw [hCount, hCapacity, UInt32.le_iff_toNat_le]
      rfl
    rw [kernelEvents_early] at hLossless
    by_cases h : made.capacity ≤ made.count
    · rw [arrive_full h, if_pos (hFull.mp h)]
      exact ⟨hLossless, hItem, hCapacity⟩
    · obtain ⟨w, hMade⟩ := arrive_room h rx
      rw [hMade, if_neg (fun hLe => h (hFull.mpr hLe)), List.map_append]
      have hSent : [Event.sent q [rx.1]].filterMap (sentTo q) =
          [RingBuffer.item (fun _ => rx.1) made.itemSize.toNat] := by
        rw [hItem]
        exact System.filterMap_sent _
      exact ⟨hLossless.step (.push w _ h hSent rfl), by simpa using hItem, by simpa using hCapacity⟩

end

-- ---------------------------------------------------------------------------
-- Runs
-- ---------------------------------------------------------------------------

section

variable [TaskConfig] {t q : Nat} {cmd : Nat → UInt8} {c : Console} {tr : List Event}

/-- **From the interrupt to the command.** Once `rtosk_osi_init` has made the
queue, whatever bytes come in before the first task runs (`rxs`), and along every
run from then on: what came into the queue is what the task has received and at
most 128 bytes that wait; the task has done, or is about to do, what its loop
does with the bytes received; a byte was refused only when 128 were waiting; and
the commands invoked are the first of those that the accepted bytes spell, and
all of them if nothing waits and nothing is left to do. -/
theorem console_runs {c₀ : Console} {queue : Queue} {storage : Nat → UInt8}
    {rxs : List (UInt8 × Kernel)}
    (hQueue : c₀.sys.queues q = rxs.foldl arrive (rtoskQueueInit queue (some storage) 1 128))
    (hOsi   : c₀.osi = start cmd) (hTodo : c₀.todo = [])
    (hRun   : Runs.Run (Console.step t q) (fun _ _ => True) c₀ tr c) :
    (∃ waiting, early rxs ++ accepted q tr = received q tr ++ waiting ∧
      waiting.length = (c.sys.queues q).count.toNat ∧ waiting.length ≤ 128) ∧
    (∃ inputs, inputs.map Received.byte = received q tr ∧
      Runs.feed rtoskOsiTask (start cmd) inputs = (c.osi, did tr ++ c.todo)) ∧
    (∀ pre b post, tr = pre ++ .refused b :: post →
      (early rxs ++ accepted q pre).length = (received q pre).length + 128) ∧
    invoked (did tr) <+: commands (early rxs ++ accepted q tr) ∧
    ((c.sys.queues q).count = 0 → c.todo = [] →
      invoked (did tr) = commands (early rxs ++ accepted q tr)) := by
  obtain ⟨hLossless, hSizes⟩ := arrive_lossless (q := q) queue storage rxs
  rw [← hQueue] at hLossless hSizes
  have hStart : Serves cmd q (earlyEvents q rxs ++ []) c₀ := by
    rw [List.append_nil]
    refine ⟨hLossless, hSizes, ⟨[], ?_, ?_⟩, fun pre b post hTr => ?_⟩
    · rw [received_early, List.map_nil]
    · rw [hOsi, hTodo, did_early]
      rfl
    · have hMem : Event.refused b ∈ earlyEvents q rxs := by
        rw [hTr]
        exact List.mem_append_right _ (List.mem_cons_self ..)
      obtain ⟨_, -, hEq⟩ := List.mem_map.mp hMem
      cases hEq
  have hInv := hRun.induct (fun tr c => Serves cmd q (earlyEvents q rxs ++ tr) c) hStart
    fun tr _ _ _ es h _ hs => by
      rw [← List.append_assoc]
      exact h.step hs
  have hLength := items_flatten_length hInv.sizes.1
  have hRoom : (c.sys.queues q).count.toNat ≤ 128 := by
    have hLe := hInv.fifo.ring.count_le
    rwa [hInv.sizes.2] at hLe
  have hAccepted := accepted_of_lossless hInv.fifo
  have hShell := hInv.shell
  simp only [accepted_append, accepted_early, received_append, received_early, did_append,
    did_early, List.nil_append] at hAccepted hShell
  obtain ⟨inputs, hBytes, hFeed⟩ := hShell
  have hAll : invoked (did tr) ++ invoked c.todo = commands (received q tr) := by
    have hCommands := (invoked_feed cmd inputs).1
    rw [hFeed, hBytes] at hCommands
    rw [← invoked_append]
    exact hCommands
  refine ⟨⟨_, hAccepted, hLength, hLength.trans_le hRoom⟩, ⟨inputs, hBytes, hFeed⟩,
    fun pre b post hTr => ?_, ?_, fun hEmpty hDone => ?_⟩
  · have hRefused := hInv.refused (earlyEvents q rxs ++ pre) b post
      (by rw [hTr, List.append_assoc])
    rwa [accepted_append, accepted_early, received_append, received_early, List.nil_append]
      at hRefused
  · rw [hAccepted]
    refine (List.prefix_append _ (invoked c.todo)).trans ?_
    rw [hAll]
    exact (contents_mono keys _ _).map _
  · have hNone : (c.sys.queues q).items.flatten = [] := by
      rw [← List.length_eq_zero_iff, hLength, hEmpty]
      rfl
    rw [hAccepted, hNone, List.append_nil, ← hAll, hDone]
    exact (List.append_nil _).symm

end

-- ---------------------------------------------------------------------------
-- A command
-- ---------------------------------------------------------------------------

/-- The queue before it is made. -/
def unmade : Queue := ⟨fun _ => 0, 0, 0, 0, 0, 0, 0⟩

/-- The OSI task alone, with its queue, in which the first byte waits. -/
def alone : Console where
  sys := System.boot [3] (fun _ => rtoskSemaphoreInit 0) fun _ =>
    [(0x61, (System.boot [3] (fun _ => rtoskSemaphoreInit 0) fun _ => unmade).kernel)].foldl arrive
      (rtoskQueueInit unmade (some fun _ => 0) 1 128)
  osi := start fun _ => 0
  todo := []

/-- A product without a name. -/
def nameless : Env := ⟨fun _ => none, 0, 0, []⟩

/-- A byte that waits is received and echoed. -/
def taken : List Label := [.receive (fun _ => 0) nameless, .act, .act]

/-- A byte arrives and is taken. -/
def typed (b : UInt8) : List Label := .interrupt b :: taken

theorem console_runs_about :
    ∃ tr c, Runs.Run (Console.step 0 0) (fun _ _ => True) alone tr c ∧
      accepted 0 tr = ascii "bout\r" ∧ invoked (did tr) = [.about] := by
  obtain ⟨tr, c, hRun, hEmpty, hDone, hAccepted⟩ :=
    Runs.exists_run_of_exec (Console.step 0 0) (fun _ _ => True) alone
      (taken ++ (ascii "bout").flatMap typed ++ typed 0x0D ++ List.replicate 6 .act)
      (fun tr c => (c.sys.queues 0).count = 0 ∧ c.todo = [] ∧ accepted 0 tr = ascii "bout\r")
      (by decide +kernel)
  have hOsi : alone.osi = start fun _ => 0 := rfl
  have hAll := (console_runs (q := 0) rfl hOsi rfl hRun).2.2.2.2 hEmpty hDone
  rw [hAccepted] at hAll
  exact ⟨tr, c, hRun, hAccepted, hAll.trans (by decide +kernel)⟩

end Console

end TinyRtos
