import TinyRtos.Kernel.Delay
import Mathlib.Data.UInt

/-!
# TinyRTOS — how long a delay lasts

A delay of `ms` ends at the first look that finds `ms` ticks passed since it
began, whatever the tick count was then and however often the task was preempted
(`delay_exact`). It never ends before. Ticks are counted modulo `2 ^ 32`: a task
that is kept from looking until the count has come round waits once more.
-/

namespace TinyRtos

namespace Delaying

-- ---------------------------------------------------------------------------
-- Histories
-- ---------------------------------------------------------------------------

/-- What an event is to the delay that task `t` is in: how long it is to last,
and how many ticks have passed. -/
def track (t : Nat) (d : Option (UInt32 × Nat)) : Event → Option (UInt32 × Nat)
  | .ticked => d.map fun p => (p.1, p.2 + 1)
  | .began u ms => if u = t then some (ms, 0) else d
  | .looked _ => d
  | .returned u => if u = t then none else d

/-- The delay that task `t` is in after a history. -/
def since (t : Nat) (tr : List Event) : Option (UInt32 × Nat) := tr.foldl (track t) none

theorem since_append (t : Nat) (tr es : List Event) :
    since t (tr ++ es) = es.foldl (track t) (since t tr) := List.foldl_append

-- ---------------------------------------------------------------------------
-- The count
-- ---------------------------------------------------------------------------

/-- Only the tick counts. -/
theorem systicks_step [TaskConfig] {s s' : System} {l : TinyRtos.Label} {es : List TinyRtos.Event}
    (h : System.StepCase s l s' es) :
    s'.kernel.systicks = s.kernel.systicks + UInt32.ofNat (ticks l).length := by
  have hZero : s.kernel.systicks + UInt32.ofNat 0 = s.kernel.systicks := UInt32.add_zero _
  cases h with
  | perform _ hAt hCall =>
    have hTicks : ticks l = [] := by rcases hAt with ⟨rfl, -⟩ | ⟨rfl, -⟩ <;> rfl
    rw [hTicks]
    refine Eq.trans ?_ hZero.symm
    cases hCall <;> simp
  | isr _ hIsr =>
    cases hIsr with
    | tick =>
      simp only [rtoskKernelTick]
      split <;> rfl
    | _ => exact Eq.trans (by simp) hZero.symm
  | _ => exact hZero.symm

/-- After `n` ticks the loop's difference is `n`, as far as it goes. -/
theorem elapsed (start : UInt32) (n : Nat) :
    (start + UInt32.ofNat n - start).toNat = n % 2 ^ 32 := by
  rw [add_sub_cancel_left, UInt32.toNat_ofNat']

-- ---------------------------------------------------------------------------
-- The invariant
-- ---------------------------------------------------------------------------

/-- The locals of a delay, from what the history says of it. -/
def Describes (systicks : UInt32) (d : Option Delay) : Option (UInt32 × Nat) → Prop
  | none => d = none
  | some (ms, n) => ∃ start, d = some ⟨start, ms⟩ ∧ systicks = start + UInt32.ofNat n

def Tracks (tr : List Event) (c : Delaying) : Prop :=
  ∀ t, Describes c.sys.kernel.systicks (c.delays t) (since t tr)

/-- The looks of a history found what they should. -/
structure Exact (tr : List Event) : Prop where
  looked   : ∀ pre post t, tr = pre ++ .looked t :: post →
    ∃ ms n, since t pre = some (ms, n) ∧ n % 2 ^ 32 < ms.toNat
  returned : ∀ pre post t, tr = pre ++ .returned t :: post →
    ∃ ms n, since t pre = some (ms, n) ∧ ms.toNat ≤ n % 2 ^ 32

variable {c c' : Delaying} {tr es : List Event}

theorem Tracks.delay (h : Tracks tr c) {t : Nat} {d : Delay} (hAt : c.delays t = some d) :
    ∃ n, since t tr = some (d.ms, n) ∧ c.sys.kernel.systicks = d.start + UInt32.ofNat n := by
  have hTrack := h t
  cases hSince : since t tr with
  | none =>
    rw [hSince] at hTrack
    exact absurd (hAt.symm.trans hTrack) (by simp)
  | some p =>
    rw [hSince] at hTrack
    obtain ⟨start, hDelay, hClock⟩ := hTrack
    obtain rfl := Option.some.inj (hAt.symm.trans hDelay)
    exact ⟨p.2, rfl, hClock⟩

/-- A delay begins or ends, and the others go on. -/
theorem Tracks.set (h : Tracks tr c) {d : Option Delay} {e : Event}
    (hSelf : Describes c.sys.kernel.systicks d (track c.current (since c.current tr) e))
    (hOther : ∀ t, t ≠ c.current → track t (since t tr) e = since t tr) :
    Tracks (tr ++ [e]) (c.setDelay d) := by
  intro t
  rw [since_append, List.foldl_cons, List.foldl_nil]
  by_cases ht : t = c.current
  · subst ht
    simp only [setDelay, Function.update_self]
    exact hSelf
  · simp only [hOther t ht, setDelay, Function.update_of_ne ht]
    exact h t

theorem Describes.tick {systicks : UInt32} {d : Option Delay} {p : Option (UInt32 × Nat)}
    (h : Describes systicks d p) :
    Describes (systicks + 1) d (p.map fun p => (p.1, p.2 + 1)) := by
  cases p with
  | none => exact h
  | some p =>
    obtain ⟨start, hDelay, hCount⟩ := h
    refine ⟨start, hDelay, ?_⟩
    rw [hCount, UInt32.ofNat_add, add_assoc]
    rfl

theorem Tracks.sys [TaskConfig] (h : Tracks tr c) {l : TinyRtos.Label} {s' : System}
    {ks : List TinyRtos.Event} (hStep : c.sys.step l = some (s', ks)) :
    Tracks (tr ++ ticks l) { c with sys := s' } := by
  have hClock := systicks_step (System.step_cases hStep)
  intro t
  rw [since_append]
  cases l with
  | tick =>
    have hNext : s'.kernel.systicks = c.sys.kernel.systicks + 1 := hClock
    show Describes s'.kernel.systicks (c.delays t) ((since t tr).map fun p => (p.1, p.2 + 1))
    rw [hNext]
    exact (h t).tick
  | _ =>
    have hNext : s'.kernel.systicks = c.sys.kernel.systicks := hClock.trans (UInt32.add_zero _)
    show Describes s'.kernel.systicks (c.delays t) (since t tr)
    rw [hNext]
    exact h t

theorem Exact.silent (h : Exact tr) (hLooked : ∀ t, .looked t ∉ es)
    (hReturned : ∀ t, .returned t ∉ es) : Exact (tr ++ es) := by
  refine ⟨fun pre post t hTr => ?_, fun pre post t hTr => ?_⟩
  · rcases Runs.split_append hTr with ⟨mid, hOld, -⟩ | ⟨mid, hNew⟩
    · exact h.looked pre mid t hOld
    · exact absurd (hNew ▸ List.mem_append_right _ (List.mem_cons_self ..)) (hLooked t)
  · rcases Runs.split_append hTr with ⟨mid, hOld, -⟩ | ⟨mid, hNew⟩
    · exact h.returned pre mid t hOld
    · exact absurd (hNew ▸ List.mem_append_right _ (List.mem_cons_self ..)) (hReturned t)

theorem Exact.look (h : Exact tr) {t : Nat} {ms : UInt32} {n : Nat}
    (hSince : since t tr = some (ms, n)) (hLt : n % 2 ^ 32 < ms.toNat) :
    Exact (tr ++ [.looked t]) := by
  refine ⟨fun pre post u hTr => ?_, fun pre post u hTr => ?_⟩
  · rcases Runs.split_concat hTr with ⟨mid, hOld⟩ | ⟨rfl, hEq⟩
    · exact h.looked pre mid u hOld
    · cases hEq
      exact ⟨ms, n, hSince, hLt⟩
  · rcases Runs.split_concat hTr with ⟨mid, hOld⟩ | ⟨rfl, hEq⟩
    · exact h.returned pre mid u hOld
    · cases hEq

theorem Exact.stop (h : Exact tr) {t : Nat} {ms : UInt32} {n : Nat}
    (hSince : since t tr = some (ms, n)) (hLe : ms.toNat ≤ n % 2 ^ 32) :
    Exact (tr ++ [.returned t]) := by
  refine ⟨fun pre post u hTr => ?_, fun pre post u hTr => ?_⟩
  · rcases Runs.split_concat hTr with ⟨mid, hOld⟩ | ⟨rfl, hEq⟩
    · exact h.looked pre mid u hOld
    · cases hEq
  · rcases Runs.split_concat hTr with ⟨mid, hOld⟩ | ⟨rfl, hEq⟩
    · exact h.returned pre mid u hOld
    · cases hEq
      exact ⟨ms, n, hSince, hLe⟩

variable [TaskConfig]

omit [TaskConfig] in
theorem ticks_silent (l : TinyRtos.Label) (t : Nat) :
    .looked t ∉ ticks l ∧ .returned t ∉ ticks l := by
  cases l <;> simp [ticks]

theorem tracks_step {l : Label} (h : Tracks tr c) (hExact : Exact tr)
    (hStep : c.step l = some (c', es)) : Tracks (tr ++ es) c' ∧ Exact (tr ++ es) := by
  cases l with
  | sys l =>
    simp only [step] at hStep
    split at hStep
    · cases hStep
    · obtain ⟨⟨s', ks⟩, hSys, hEq⟩ := Option.map_eq_some_iff.mp hStep
      cases hEq
      exact ⟨h.sys hSys, hExact.silent (fun t => (ticks_silent l t).1) fun t =>
        (ticks_silent l t).2⟩
  | delayMs ms =>
    simp only [step] at hStep
    split at hStep
    · split at hStep
      · cases hStep
        refine ⟨h.set ?_ fun t ht => if_neg (Ne.symm ht), hExact.silent (by simp) (by simp)⟩
        rw [track, if_pos rfl]
        exact ⟨_, rfl, (UInt32.add_zero _).symm⟩
      · cases hStep
    · cases hStep
  | look =>
    simp only [step] at hStep
    split at hStep
    · cases hStep
    · rename_i d hAt
      obtain ⟨n, hSince, hClock⟩ := h.delay hAt
      have hElapsed := elapsed d.start n
      rw [← hClock] at hElapsed
      split at hStep
      · split at hStep
        · rename_i hLt
          cases hStep
          rw [UInt32.lt_iff_toNat_lt, hElapsed] at hLt
          refine ⟨fun t => ?_, hExact.look hSince hLt⟩
          rw [since_append]
          exact h t
        · rename_i hNot
          cases hStep
          rw [UInt32.lt_iff_toNat_lt, hElapsed] at hNot
          refine ⟨h.set ?_ fun t ht => if_neg (Ne.symm ht),
            hExact.stop hSince (Nat.le_of_not_lt hNot)⟩
          rw [track, if_pos rfl]
          exact rfl
      · cases hStep

/-- **How long a delay lasts.** A look finds the delay over exactly if the ticks
passed since it began, counted modulo `2 ^ 32`, are `ms` or more. -/
theorem delay_exact {c₀ : Delaying} (hNone : ∀ t, c₀.delays t = none)
    (hRun : Runs.Run step (fun _ _ => True) c₀ tr c) :
    (∀ pre post t, tr = pre ++ .looked t :: post →
      ∃ ms n, since t pre = some (ms, n) ∧ n % 2 ^ 32 < ms.toNat) ∧
    ∀ pre post t, tr = pre ++ .returned t :: post →
      ∃ ms n, since t pre = some (ms, n) ∧ ms.toNat ≤ n % 2 ^ 32 := by
  have hStart : Tracks [] c₀ ∧ Exact [] :=
    ⟨fun t => hNone t, fun pre post t hTr => absurd hTr (by simp),
      fun pre post t hTr => absurd hTr (by simp)⟩
  have hInv := hRun.induct (fun tr c => Tracks tr c ∧ Exact tr) hStart
    fun _ _ _ _ _ h _ hStep => tracks_step h.1 h.2 hStep
  exact ⟨hInv.2.looked, hInv.2.returned⟩

end Delaying

-- ---------------------------------------------------------------------------
-- Across the wrap
-- ---------------------------------------------------------------------------

namespace Delaying

/-- One task, a tick before the count comes round. -/
def beforeWrap : Delaying :=
  let sys := System.boot [3] (fun _ => rtoskSemaphoreInit 0)
    fun _ => ⟨fun _ => 0, 1, 2, 0, 0, 0, rtoskQueueNoWaiter⟩
  ⟨{ sys with kernel := { sys.kernel with systicks := 0xFFFFFFFF } }, fun _ => none⟩

theorem delay_exact_wrap :
    ∃ tr c, Runs.Run step (fun _ _ => True) beforeWrap tr c ∧
      c.sys.kernel.systicks = 0 ∧
      ∃ ms n, since 0 [.began 0 1, .looked 0, .ticked] = some (ms, n) ∧ ms.toNat ≤ n % 2 ^ 32 := by
  obtain ⟨tr, c, hRun, hTr, hCount⟩ :=
    Runs.exists_run_of_exec step (fun _ _ => True) beforeWrap
      [.delayMs 1, .look, .sys .tick, .sys .pendSv, .sys .scan, .sys .pendSvExit, .look]
      (fun tr c => tr = [.began 0 1, .looked 0, .ticked] ++ .returned 0 :: [] ∧
        c.sys.kernel.systicks = 0)
      (by decide +kernel)
  exact ⟨tr, c, hRun, hCount, (delay_exact (fun _ => rfl) hRun).2 _ _ _ hTr⟩

end Delaying

end TinyRtos
