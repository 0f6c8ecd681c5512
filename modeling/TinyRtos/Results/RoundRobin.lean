import TinyRtos.Kernel.Scheduler
import Mathlib.Data.Finset.Card
import Mathlib.Data.List.Count

/-!
# TinyRTOS — scheduling among equals

`scheduler.h` announces round-robin among equal priorities. The scan of
`rtosk_scheduler_select_next` starts at the current task itself (`offset` is
`0` in the first round) and replaces its candidate only for a strictly higher
priority, so a READY current task that nobody outranks is selected again
(`selectNext_stays`), invocation after invocation.

Consecutive invocations are stated over the tables they work on: `B i` is the
table the `i`-th invocation finds. Between two invocations everything may
change but the current index (`Consecutive`), as ticks, interrupts and the
running task see fit, within what `Peers` says about the ready set.

* `peers_first` — the first invocation selects a member of the set;
* `peers_selected` — all later ones select that same member;
* `roundRobin_iff` — every member is selected exactly once iff the set has at
  most one.
-/

namespace TinyRtos

section

variable [TaskConfig]

/-- `S` is the ready set at priority `p`: its members are READY with priority
`p`, and no other READY task has priority `p` or more. -/
structure Peers (k : TaskTable) (S : Finset Nat) (p : UInt32) : Prop where
  ready  : ∀ t ∈ S, ReadyUser k t
  prio   : ∀ t ∈ S, (k.tasks t).priority = p
  others : ∀ t, t ∉ S → p ≤ (k.tasks t).priority → ¬ ReadyUser k t

/-- The tables of `n` consecutive invocations: each finds the current index
the one before it stored. -/
def Consecutive (n : Nat) (B : Nat → TaskTable) : Prop :=
  ∀ i, i + 1 < n → (B (i + 1)).currentTask = (rtoskSchedulerSelectNext (B i)).currentTask

/-- What `n` consecutive invocations select. -/
def selections (n : Nat) (B : Nat → TaskTable) : List Nat :=
  (List.range n).map fun i => (rtoskSchedulerSelectNext (B i)).currentTask

omit [TaskConfig] in
/-- No READY task outranks the set. -/
theorem Peers.le {k : TaskTable} {S : Finset Nat} {p : UInt32} (h : Peers k S p) {j : Nat}
    (hj : ReadyUser k j) : (k.tasks j).priority ≤ p := by
  by_cases hMem : j ∈ S
  · rw [h.prio j hMem]
    exact UInt32.le_refl p
  · by_contra hGt
    exact h.others j hMem (UInt32.le_of_lt (UInt32.not_le.mp hGt)) hj

/-- The choice falls on a member of the set. -/
theorem peers_first {k : TaskTable} {S : Finset Nat} {p : UInt32}
    (hSlots : k.taskCount ≤ rtoskMaxTasks) (h : Peers k S p) (hS : S.Nonempty) :
    (rtoskSchedulerSelectNext k).currentTask ∈ S := by
  obtain ⟨t, ht⟩ := hS
  obtain ⟨b, hEq, hReady, hMax⟩ := selectNext_ready hSlots (h.ready t ht)
  rw [hEq]
  by_contra hb
  have hle := hMax t (h.ready t ht)
  rw [h.prio t ht] at hle
  exact h.others b hb hle hReady

/-- A member that is current is selected again. -/
theorem peers_again {k : TaskTable} {S : Finset Nat} {p : UInt32}
    (hSlots : k.taskCount ≤ rtoskMaxTasks) (h : Peers k S p) (hCur : k.currentTask ∈ S) :
    (rtoskSchedulerSelectNext k).currentTask = k.currentTask := by
  rw [selectNext_stays hSlots (h.ready _ hCur) fun j hj => ?_]
  rw [h.prio _ hCur]
  exact h.le hj

/-- Consecutive invocations select one and the same member. -/
theorem peers_selected {n : Nat} {B : Nat → TaskTable} {S : Finset Nat} {p : UInt32}
    (hSlots : ∀ i < n, (B i).taskCount ≤ rtoskMaxTasks)
    (hPeers : ∀ i < n, Peers (B i) S p) (hS : S.Nonempty) (hRun : Consecutive n B) :
    ∀ i < n, (rtoskSchedulerSelectNext (B i)).currentTask =
        (rtoskSchedulerSelectNext (B 0)).currentTask := by
  intro i
  induction i with
  | zero => exact fun _ => rfl
  | succ i ih =>
    intro hi
    have hPrev := ih (by omega)
    have hCur : (B (i + 1)).currentTask = (rtoskSchedulerSelectNext (B 0)).currentTask := by
      rw [hRun i hi, hPrev]
    have hMem : (B (i + 1)).currentTask ∈ S := by
      rw [hCur]
      exact peers_first (hSlots 0 (by omega)) (hPeers 0 (by omega)) hS
    rw [peers_again (hSlots _ hi) (hPeers _ hi) hMem, hCur]

theorem selections_eq {n : Nat} {B : Nat → TaskTable} {S : Finset Nat} {p : UInt32}
    (hSlots : ∀ i < n, (B i).taskCount ≤ rtoskMaxTasks)
    (hPeers : ∀ i < n, Peers (B i) S p) (hS : S.Nonempty) (hRun : Consecutive n B) :
    selections n B = List.replicate n (rtoskSchedulerSelectNext (B 0)).currentTask := by
  refine List.eq_replicate_iff.mpr ⟨by simp [selections], fun t ht => ?_⟩
  obtain ⟨i, hi, rfl⟩ := List.mem_map.mp ht
  exact peers_selected hSlots hPeers hS hRun i (List.mem_range.mp hi)

/-- **Round-robin holds of a single task only.** Over as many consecutive
invocations as the ready set at the top priority has members, every member is
selected exactly once if and only if there is at most one. -/
theorem roundRobin_iff {B : Nat → TaskTable} {S : Finset Nat} {p : UInt32}
    (hSlots : ∀ i < S.card, (B i).taskCount ≤ rtoskMaxTasks)
    (hPeers : ∀ i < S.card, Peers (B i) S p)
    (hRun   : Consecutive S.card B) :
    (∀ t ∈ S, (selections S.card B).count t = 1) ↔ S.card ≤ 1 := by
  rcases S.eq_empty_or_nonempty with rfl | hS
  · simp
  have hCard : 0 < S.card := Finset.card_pos.mpr hS
  rw [selections_eq hSlots hPeers hS hRun]
  set b := (rtoskSchedulerSelectNext (B 0)).currentTask
  have hb : b ∈ S := peers_first (hSlots 0 hCard) (hPeers 0 hCard) hS
  constructor
  · intro hOnce
    have := hOnce b hb
    rw [List.count_replicate_self] at this
    omega
  · intro hLe t ht
    have hOne : S.card = 1 := by omega
    obtain rfl : t = b := Finset.card_le_one.mp hLe t ht b hb
    rw [List.count_replicate_self, hOne]

end

-- ---------------------------------------------------------------------------
-- Two peers
-- ---------------------------------------------------------------------------

/-- Two tasks of one priority, both READY, task `0` current. -/
def twoPeers : TaskTable where
  tasks := fun _ => { sp := 0, state := .ready, wakeTick := 0, priority := 1 }
  taskCount := 2
  currentTask := 0
  idleReady := true

theorem twoPeers_peers : Peers twoPeers {0, 1} 1 where
  ready := by decide
  prio := by decide
  others := by
    intro t ht _ hReady
    have hLt : t < 2 := hReady.1
    simp only [Finset.mem_insert, Finset.mem_singleton, not_or] at ht
    omega

theorem twoPeers_consecutive : Consecutive 2 fun _ => twoPeers := fun _ _ =>
  show twoPeers.currentTask = (rtoskSchedulerSelectNext twoPeers).currentTask by decide

/-- The equivalence at two peers. -/
theorem roundRobin_twoPeers :
    (∀ t ∈ ({0, 1} : Finset Nat), (selections 2 fun _ => twoPeers).count t = 1) ↔
      ({0, 1} : Finset Nat).card ≤ 1 :=
  roundRobin_iff (B := fun _ => twoPeers) (S := {0, 1}) (fun _ _ => by decide)
    (fun _ _ => twoPeers_peers) twoPeers_consecutive

/-- Two consecutive invocations with two READY tasks of one priority select
task `0` twice and task `1` never. -/
theorem twoPeers_starved :
    Peers twoPeers {0, 1} 1 ∧ Consecutive 2 (fun _ => twoPeers) ∧
      selections 2 (fun _ => twoPeers) = [0, 0] ∧
      ¬ ∀ t ∈ ({0, 1} : Finset Nat), (selections 2 fun _ => twoPeers).count t = 1 := by
  have hSel : selections 2 (fun _ => twoPeers) = [0, 0] := by decide
  refine ⟨twoPeers_peers, twoPeers_consecutive, hSel, fun hOnce => ?_⟩
  have := hOnce 1 (by decide)
  rw [hSel] at this
  exact absurd this (by decide)

end TinyRtos
