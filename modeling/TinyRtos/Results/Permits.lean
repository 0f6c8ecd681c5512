import TinyRtos.Kernel.System
import Mathlib.Algebra.Order.BigOperators.Group.List
import Mathlib.Algebra.Order.Group.Nat

/-!
# TinyRTOS — permits of a semaphore

A give either hands its permit to the registered waiter or stores it, and it
stores it with `sem->count = 1UL`: whatever was stored before is gone. So the
books of a semaphore need a third column besides the gives and the satisfied
takes, the permits `lostBy` such a store:

* `permits_conserved` — stored + satisfied + lost = initial + given, along
  every run;
* `permits_iff` — nothing is lost, and no give lowers the count, iff every give
  found the count at `0` or a waiter;
* `permits_lost` — a semaphore initialised with `2` that a give leaves with
  `1`.
-/

namespace TinyRtos

open Runs (tally tally_append)

/-- A give. -/
def gaveBy (i : Nat) : Event → Nat
  | .gave j _ _ => if j = i then 1 else 0
  | _ => 0

/-- A take satisfied: by the stored count, or by a give that finds the taker
registered. -/
def satisfiedBy (i : Nat) : Event → Nat
  | .took _ j => if j = i then 1 else 0
  | .gave j before _ => if j = i ∧ before.waitingTask ≠ rtoskSemaphoreNoWaiter then 1 else 0
  | _ => 0

/-- The stored permits a give overwrites. -/
def lostBy (i : Nat) : Event → Nat
  | .gave j before _ =>
    if j = i ∧ ¬ before.waitingTask ≠ rtoskSemaphoreNoWaiter then before.count.toNat else 0
  | _ => 0

namespace System

section

variable {s s₀ s' : System} {l : Label} {c : Call} {exit : Exit} {tr es : List Event} {i : Nat}

/-- The books of semaphore `i` over one step. -/
def Balanced (i : Nat) (s s' : System) (es : List Event) : Prop :=
  (s'.sems i).count.toNat + tally (satisfiedBy i) es + tally (lostBy i) es =
    (s.sems i).count.toNat + tally (gaveBy i) es

theorem Balanced.of_same (hSems : s'.sems = s.sems)
    (hEs : tally (satisfiedBy i) es = 0 ∧ tally (lostBy i) es = 0 ∧ tally (gaveBy i) es = 0) :
    Balanced i s s' es := by
  obtain ⟨hSatisfied, hLost, hGave⟩ := hEs
  unfold Balanced
  rw [hSems, hSatisfied, hLost, hGave]

theorem balanced_take {j t : Nat} {k : Kernel} (hPos : 0 < (s.sems j).count) :
    Balanced i s (s.setSemaphore j { s.sems j with count := (s.sems j).count - 1 } k)
      [.took t j] := by
  unfold Balanced
  by_cases hji : j = i
  · subst hji
    have hOne : (1 : UInt32) ≤ (s.sems j).count := UInt32.le_iff_toNat_le.mpr hPos
    have hLe := UInt32.le_iff_toNat_le.mp hOne
    simp only [setSemaphore, Function.update_self, UInt32.toNat_sub_of_le _ _ hOne]
    simp only [tally, satisfiedBy, lostBy, gaveBy, UInt32.toNat_one, List.map_cons, List.map_nil,
      List.sum_cons, List.sum_nil, if_true] at hLe ⊢
    omega
  · simp [setSemaphore, Function.update_of_ne (Ne.symm hji), tally, satisfiedBy, lostBy, gaveBy,
      hji]

/-- A give that finds a waiter hands the permit on. -/
theorem balanced_handOver {j w : Nat} {k : Kernel}
    (hWaiter : (s.sems j).waitingTask ≠ rtoskSemaphoreNoWaiter) :
    Balanced i s (s.setSemaphore j { s.sems j with waitingTask := w } k)
      [.gave j (s.sems j) { s.sems j with waitingTask := w }] := by
  unfold Balanced
  by_cases hji : j = i
  · subst hji
    simp [setSemaphore, tally, satisfiedBy, lostBy, gaveBy, hWaiter]
  · simp [setSemaphore, Function.update_of_ne (Ne.symm hji), tally, satisfiedBy, lostBy, gaveBy,
      hji]

/-- A give that finds none stores one permit and loses those stored before. -/
theorem balanced_store {j : Nat} {k : Kernel}
    (hNone : ¬ (s.sems j).waitingTask ≠ rtoskSemaphoreNoWaiter) :
    Balanced i s (s.setSemaphore j { s.sems j with count := 1 } k)
      [.gave j (s.sems j) { s.sems j with count := 1 }] := by
  unfold Balanced
  by_cases hji : j = i
  · subst hji
    simp only [setSemaphore, Function.update_self, tally, satisfiedBy, lostBy, gaveBy, hNone,
      List.map_cons, List.map_nil, List.sum_cons, List.sum_nil, and_false, if_false,
      not_false_eq_true, and_self, if_true, UInt32.toNat_one]
    omega
  · simp [setSemaphore, Function.update_of_ne (Ne.symm hji), tally, satisfiedBy, lostBy, gaveBy,
      hji]

variable [TaskConfig]

theorem CallStep.balanced (h : CallStep s c s' exit es)
    (hInit : (Label.call c).initialises ≠ some (.semaphore i)) : Balanced i s s' es := by
  cases h with
  | takeNow j hPos => exact balanced_take hPos
  | giveWake j hWaiter => exact balanced_handOver hWaiter
  | giveStore j hNone => exact balanced_store hNone
  | semaphoreInit j n =>
    have hji : i ≠ j := by
      rintro rfl
      exact hInit rfl
    unfold Balanced
    simp [setSemaphore, Function.update_of_ne hji]
  | takeBlock j _ =>
    unfold Balanced
    by_cases hji : i = j
    · subst hji
      simp [setSemaphore]
    · simp [setSemaphore, Function.update_of_ne hji]
  | _ => exact .of_same rfl ⟨rfl, rfl, rfl⟩

omit [TaskConfig] in
theorem IsrStep.balanced (h : IsrStep s l s' es) : Balanced i s s' es := by
  cases h with
  | giveWake j hWaiter => exact balanced_handOver hWaiter
  | giveStore j hNone => exact balanced_store hNone
  | _ => exact .of_same rfl ⟨rfl, rfl, rfl⟩

theorem StepCase.balanced (h : StepCase s l s' es)
    (hInit : l.initialises ≠ some (.semaphore i)) : Balanced i s s' es := by
  cases h with
  | perform _ hAt hCall => exact hCall.balanced (hAt.initialises hInit)
  | isr _ hIsr => exact hIsr.balanced
  | _ => exact .of_same rfl ⟨rfl, rfl, rfl⟩

/-- **Permits are conserved, counting the lost ones.** -/
theorem permits_conserved
    (hRun : Runs.Run System.step (fun _ l => l.initialises ≠ some (.semaphore i)) s₀ tr s) :
    Balanced i s₀ s tr := by
  refine hRun.induct (fun tr s => Balanced i s₀ s tr) rfl fun tr s l s' es h hInit hs => ?_
  have hStep := (step_cases hs).balanced hInit
  unfold Balanced at h hStep ⊢
  simp only [tally_append]
  omega

-- ---------------------------------------------------------------------------
-- The law
-- ---------------------------------------------------------------------------

/-- What a give makes of the semaphore, as its event records it. -/
def GiveRecord : Event → Prop
  | .gave _ before after => after =
      if before.waitingTask ≠ rtoskSemaphoreNoWaiter then
        { before with waitingTask := rtoskSemaphoreNoWaiter }
      else { before with count := 1 }
  | _ => True

theorem CallStep.giveRecord (h : CallStep s c s' exit es) : ∀ e ∈ es, GiveRecord e := by
  cases h with
  | giveWake j hWaiter => simp [GiveRecord, hWaiter]
  | giveStore j hNone => simp [GiveRecord, not_not.mp hNone]
  | _ => simp [GiveRecord]

omit [TaskConfig] in
theorem IsrStep.giveRecord (h : IsrStep s l s' es) : ∀ e ∈ es, GiveRecord e := by
  cases h with
  | giveWake j hWaiter => simp [GiveRecord, hWaiter]
  | giveStore j hNone => simp [GiveRecord, not_not.mp hNone]
  | _ => simp [GiveRecord]

theorem StepCase.giveRecord (h : StepCase s l s' es) : ∀ e ∈ es, GiveRecord e := by
  cases h with
  | perform _ _ hCall => exact hCall.giveRecord
  | isr _ hIsr => exact hIsr.giveRecord
  | _ => simp [GiveRecord]

theorem giveRecord_run {G : System → Label → Prop}
    (hRun : Runs.Run System.step G s₀ tr s) : ∀ e ∈ tr, GiveRecord e := by
  refine hRun.induct (fun tr _ => ∀ e ∈ tr, GiveRecord e) nofun
    fun tr s l s' es h _ hs e he => ?_
  rcases List.mem_append.mp he with he | he
  · exact h e he
  · exact (step_cases hs).giveRecord e he

omit [TaskConfig] in
/-- Nothing is lost iff every give that stores finds nothing stored. -/
theorem lost_eq_zero : tally (lostBy i) tr = 0 ↔
    ∀ before after, .gave i before after ∈ tr →
      before.count = 0 ∨ before.waitingTask ≠ rtoskSemaphoreNoWaiter := by
  unfold tally
  rw [List.sum_eq_zero_iff]
  constructor
  · intro h before after hMem
    have hZero := h _ (List.mem_map_of_mem hMem)
    by_cases hWaiter : before.waitingTask ≠ rtoskSemaphoreNoWaiter
    · exact Or.inr hWaiter
    · simp only [lostBy, hWaiter, not_false_eq_true, and_self, if_true] at hZero
      exact Or.inl (UInt32.toNat_inj.mp hZero)
  · intro h n hn
    obtain ⟨e, he, rfl⟩ := List.mem_map.mp hn
    cases e with
    | gave j before after =>
      simp only [lostBy]
      split
      · rename_i hStores
        obtain ⟨rfl, hNone⟩ := hStores
        rw [(h before after he).resolve_right hNone]
        rfl
      · rfl
    | _ => rfl

/-- **No permit is lost exactly when no give finds a stored one** and nobody to
hand its own to. Then, and only then, what is stored and satisfied covers what
was there initially and given since, and no give lowers the count. -/
theorem permits_iff {n : UInt32} (hInit : s₀.sems i = rtoskSemaphoreInit n)
    (hRun : Runs.Run System.step (fun _ l => l.initialises ≠ some (.semaphore i)) s₀ tr s) :
    (n.toNat + tally (gaveBy i) tr ≤ (s.sems i).count.toNat + tally (satisfiedBy i) tr ∧
      ∀ before after, .gave i before after ∈ tr → before.count ≤ after.count) ↔
    ∀ before after, .gave i before after ∈ tr →
      before.count = 0 ∨ before.waitingTask ≠ rtoskSemaphoreNoWaiter := by
  have hBooks := permits_conserved hRun
  unfold Balanced at hBooks
  rw [hInit] at hBooks
  simp only [rtoskSemaphoreInit] at hBooks
  rw [← lost_eq_zero]
  constructor
  · rintro ⟨hLaw, -⟩
    omega
  · intro hLost
    refine ⟨by omega, fun before after hMem => ?_⟩
    have hRecord := giveRecord_run hRun _ hMem
    simp only [GiveRecord] at hRecord
    rw [hRecord]
    split
    · exact UInt32.le_iff_toNat_le.mpr le_rfl
    · rename_i hNone
      rw [(lost_eq_zero.mp hLost before after hMem).resolve_right hNone]
      exact UInt32.le_iff_toNat_le.mpr (Nat.zero_le _)

end

-- ---------------------------------------------------------------------------
-- Gives without takers
-- ---------------------------------------------------------------------------

/-- Two tasks, and semaphores initialised with two permits. -/
def twoPermits : System :=
  boot [1, 1] (fun _ => rtoskSemaphoreInit 2)
    (fun _ => ⟨fun _ => 0, 1, 2, 0, 0, 0, rtoskQueueNoWaiter⟩)

/-- A history in which both permits are taken before one is given. -/
theorem permits_iff_twoPermits :
    ∃ tr s, Runs.Run System.step (fun _ l => l.initialises ≠ some (.semaphore 0))
        twoPermits tr s ∧
      tr = [.took 0 0, .took 0 0, .gave 0 ⟨0, rtoskSemaphoreNoWaiter⟩
        ⟨1, rtoskSemaphoreNoWaiter⟩] ∧
      2 + tally (gaveBy 0) tr ≤ (s.sems 0).count.toNat + tally (satisfiedBy 0) tr := by
  obtain ⟨tr, s, hRun, hTr⟩ :=
    Runs.exists_run_of_exec System.step
      (fun _ l => l.initialises ≠ some (.semaphore 0)) twoPermits
      [.call (.semaphoreTake (some 0)), .call (.semaphoreTake (some 0)),
        .semaphoreGiveFromIsr (some 0)]
      (fun tr _ => tr = [.took 0 0, .took 0 0,
        .gave 0 ⟨0, rtoskSemaphoreNoWaiter⟩ ⟨1, rtoskSemaphoreNoWaiter⟩])
      (by decide)
  refine ⟨tr, s, hRun, hTr, ((permits_iff (i := 0) (n := 2) rfl hRun).mpr ?_).1⟩
  intro before after hMem
  rw [hTr] at hMem
  simp only [List.mem_cons, reduceCtorEq, Event.gave.injEq, List.not_mem_nil, or_false,
    false_or] at hMem
  exact Or.inl (by rw [hMem.2.1])

/-- **A give that lowers the count.** A semaphore is initialised with two
permits; one give later it holds one, and nobody has taken any. -/
theorem permits_lost :
    ∃ tr s, Runs.Run System.step (fun _ l => l.initialises ≠ some (.semaphore 0))
        twoPermits tr s ∧
      tr = [.gave 0 ⟨2, rtoskSemaphoreNoWaiter⟩ ⟨1, rtoskSemaphoreNoWaiter⟩] ∧
      (s.sems 0).count = 1 ∧
      ¬ 2 + tally (gaveBy 0) tr ≤ (s.sems 0).count.toNat + tally (satisfiedBy 0) tr := by
  obtain ⟨tr, s, hRun, hTr, hCount⟩ :=
    Runs.exists_run_of_exec System.step
      (fun _ l => l.initialises ≠ some (.semaphore 0)) twoPermits
      [.semaphoreGiveFromIsr (some 0)]
      (fun tr s => tr = [.gave 0 ⟨2, rtoskSemaphoreNoWaiter⟩
        ⟨1, rtoskSemaphoreNoWaiter⟩] ∧ (s.sems 0).count = 1)
      (by decide)
  refine ⟨tr, s, hRun, hTr, hCount, ?_⟩
  rw [hTr, hCount]
  decide

end System

end TinyRtos
