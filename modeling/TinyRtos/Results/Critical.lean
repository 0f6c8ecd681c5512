import TinyRtos.Kernel.Critical

/-!
# TinyRTOS — critical sections nest and restore

One depth counter and one saved PRIMASK serve every task and handler. They
belong to the running agent whenever PRIMASK is set, and to nobody when it is
clear; `Ok` says what they hold for an agent at each of its statements, and
`Parked` that an agent without the processor finds what it expects when it gets
it back, whatever the others did meanwhile.

## Results

* `Ok.parked`       — with PRIMASK clear the agent can be taken off.
* `Ok.go`           — every statement inside a call keeps `Ok`.
* `call_goes_on`    — the statements of a call lead to its return, or round its
  loop.
* `critical_nest`   — in every run, critical sections are exclusive and restore
  PRIMASK and the depth, and so do calls.
-/

namespace TinyRtos

-- ---------------------------------------------------------------------------
-- Frames
-- ---------------------------------------------------------------------------

namespace Api

variable [TaskConfig]

/-- What a call does in its critical section is not about masking. -/
@[simp] theorem body_masking (c : Api) (s : System) :
    (c.body s).1.kernel.masking = s.kernel.masking := by
  match c with
  | .call (.semaphoreTake (some _)) | .call (.semaphoreGive (some _))
  | .call (.queueReceive (some _) (some _)) =>
    simp only [body]
    split <;> rfl
  | .call (.mutexLock (some _)) | .call (.mutexUnlock (some _))
  | .call (.queueSend (some _) (some _)) =>
    simp only [body]
    split
    · rfl
    · split <;> rfl
  | .call (.semaphoreInit ..) | .call (.semaphoreTake none) | .call (.semaphoreGive none)
  | .call (.mutexInit _) | .call (.mutexLock none) | .call (.mutexUnlock none)
  | .call (.queueInit ..) | .call (.queueSend none _) | .call (.queueSend (some _) none)
  | .call (.queueReceive none _) | .call (.queueReceive (some _) none) | .call (.sleepMs _)
  | .call .yield | .call .enterCritical | .call .exitCritical | .semaphoreGiveFromIsr _
  | .queueSendFromIsr .. => rfl

/-- A call without a critical section leaves the three variables alone. -/
theorem straight_masking {c : Api} (hSection : c.hasSection = false)
    (hCritical : c.isCritical = false) (s : System) :
    (c.straight s).1.kernel.masking = s.kernel.masking := by
  match c with
  | .call (.semaphoreInit none _) | .call (.semaphoreInit (some _) _)
  | .call (.semaphoreTake none) | .call (.semaphoreGive none)
  | .call (.mutexInit none) | .call (.mutexInit (some _))
  | .call (.mutexLock none) | .call (.mutexUnlock none)
  | .call (.queueInit none _ _ _) | .call (.queueInit (some _) _ _ _)
  | .call (.queueSend none _) | .call (.queueSend (some _) none)
  | .call (.queueReceive none _) | .call (.queueReceive (some _) none)
  | .call .yield => rfl
  | .semaphoreGiveFromIsr none => rfl
  | .semaphoreGiveFromIsr (some i) =>
    simp only [straight, System.giveFromIsr, rtoskSemaphoreGiveFromIsr]
    split <;> rfl
  | .queueSendFromIsr none _ | .queueSendFromIsr (some _) none => rfl
  | .queueSendFromIsr (some q) (some item) =>
    simp only [straight, System.sendFromIsr, rtoskQueueSendFromIsr]
    split
    · rfl
    · split <;> rfl

end Api

namespace Critical

-- ---------------------------------------------------------------------------
-- What the variables hold
-- ---------------------------------------------------------------------------

/-- The mark of a section entered inside the sections `outer`: the outermost is
entered with the PRIMASK that is saved, the others masked. -/
def sectionMark (saved : UInt32) (outer : List Mark) : Mark :=
  ⟨if outer = [] then saved else 1, UInt32.ofNat outer.length⟩

/-- The marks are those of sections nested one in the next. -/
def Nested (saved : UInt32) : List Mark → Prop
  | [] => True
  | b :: outer => b = sectionMark saved outer ∧ Nested saved outer

/-- PRIMASK is one bit. -/
def IsBit (primask : UInt32) : Prop := primask = 0 ∨ primask = 1

/-- The variables between the statements of enter and exit, in sections `bs`. -/
structure Quiet (v : Masking) (bs : List Mark) : Prop where
  primask : IsBit v.primask
  masked  : bs ≠ [] → v.primask = 1
  saved   : bs ≠ [] → IsBit v.criticalPrimask
  below   : bs.length < 2 ^ 32
  depth   : v.criticalNesting = UInt32.ofNat bs.length
  nested  : Nested v.criticalPrimask bs

/-- The variables while the innermost section of `b :: bs` is not yet, or no
longer, counted. -/
structure Between (v : Masking) (b : Mark) (bs : List Mark) : Prop where
  masked : v.primask = 1
  saved  : IsBit v.criticalPrimask
  below  : bs.length < 2 ^ 32
  depth  : v.criticalNesting = UInt32.ofNat bs.length
  nested : Nested v.criticalPrimask (b :: bs)

/-- The caller of enter noted `m` when it called. -/
def EnterFrom.Began (m : Mark) : EnterFrom → Prop
  | .user => True
  | .call c m' => m' = m ∧ c.isCritical = false

/-- The caller of exit noted `m` when it entered. -/
def ExitFrom.Began (m : Mark) : ExitFrom → Prop
  | .user => True
  | .call c m' _ => m' = m ∧ c.isCritical = false

/-- **What an agent's next statement finds**: the three variables, for an agent
in sections `bs` at `pc`. -/
inductive Ok (v : Masking) : List Mark → Pc → Prop
  | user {bs : List Mark} (h : Quiet v bs) : Ok v bs .user
  | calling {bs : List Mark} {c : Api} (h : Quiet v bs) (hCall : c.isCritical = false) :
      Ok v bs (.calling c v.mark)
  | getPrimask {bs : List Mark} {caller : EnterFrom} (h : Quiet v bs)
      (hCaller : caller.Began v.mark) : Ok v bs (.entering .getPrimask v.mark caller)
  | disableIrq {bs : List Mark} {caller : EnterFrom} (h : Quiet v bs)
      (hCaller : caller.Began v.mark) :
      Ok v bs (.entering (.disableIrq v.primask) v.mark caller)
  | savePrimask {u : Masking} {bs : List Mark} {caller : EnterFrom} (h : Quiet u bs)
      (hMask : v = { u with primask := 1 }) (hCaller : caller.Began u.mark) :
      Ok v bs (.entering (.savePrimask u.primask) u.mark caller)
  | nest {b : Mark} {bs : List Mark} {caller : EnterFrom} (h : Between v b bs)
      (hCaller : caller.Began b) : Ok v bs (.entering .nest b caller)
  | body {m : Mark} {bs : List Mark} {c : Api} (h : Quiet v (m :: bs))
      (hCall : c.isCritical = false) : Ok v (m :: bs) (.body c m)
  | test {b : Mark} {bs : List Mark} {caller : ExitFrom} (h : Quiet v (b :: bs))
      (hCaller : caller.Began b) : Ok v (b :: bs) (.exiting .test caller)
  | unnest {b : Mark} {bs : List Mark} {caller : ExitFrom} (h : Quiet v (b :: bs))
      (hCaller : caller.Began b) : Ok v (b :: bs) (.exiting .unnest caller)
  | retest {b : Mark} {bs : List Mark} {caller : ExitFrom} (h : Between v b bs)
      (hCaller : caller.Began b) : Ok v (b :: bs) (.exiting .retest caller)
  | irqRestore {b : Mark} {caller : ExitFrom} (h : Between v b [])
      (hCaller : caller.Began b) : Ok v [b] (.exiting .irqRestore caller)
  | leaving {bs : List Mark} {c : Api} {exit : Exit} (h : Quiet v bs)
      (hCall : c.isCritical = false) : Ok v bs (.leaving c v.mark exit)
  | yielded {bs : List Mark} {c : Api} (h : Quiet v bs) (hCall : c.isCritical = false) :
      Ok v bs (.yielded c v.mark)

/-- An agent off the processor gets it back with PRIMASK clear and no section
open. -/
def Parked (g : Agent) : Prop :=
  ∀ v : Masking, v.primask = 0 → v.criticalNesting = 0 → Ok v g.brackets g.pc

theorem Quiet.empty {v : Masking} (hMask : v.primask = 0) (hDepth : v.criticalNesting = 0) :
    Quiet v [] where
  primask := Or.inl hMask
  masked := fun hNe => absurd rfl hNe
  saved := fun hNe => absurd rfl hNe
  below := by decide
  depth := hDepth
  nested := trivial

theorem Quiet.of_clear {v : Masking} {bs : List Mark} (h : Quiet v bs) (hClear : v.primask = 0) :
    bs = [] ∧ v.criticalNesting = 0 := by
  have hNil : bs = [] := by
    by_contra hNe
    have hOne := h.masked hNe
    rw [hClear] at hOne
    exact absurd hOne (by decide)
  subst hNil
  exact ⟨rfl, h.depth⟩

/-- In sections `bs` the mark noted now is the mark of the next section, if
PRIMASK is the one to be saved. -/
theorem Quiet.mark_eq {v : Masking} {bs : List Mark} (h : Quiet v bs) :
    v.mark = sectionMark v.primask bs := by
  unfold Masking.mark sectionMark
  rw [h.depth]
  by_cases hNil : bs = []
  · rw [if_pos hNil]
  · rw [if_neg hNil, h.masked hNil]

theorem Ok.of_user {v : Masking} {bs : List Mark} (h : Ok v bs .user) : Quiet v bs := by
  cases h with
  | user h => exact h

theorem Ok.isBit {v : Masking} {bs : List Mark} {pc : Pc} (h : Ok v bs pc) :
    IsBit v.primask := by
  cases h with
  | user h | calling h _ | getPrimask h _ | disableIrq h _ | body h _ | test h _ | unnest h _
  | leaving h _ | yielded h _ => exact h.primask
  | savePrimask _ hMask _ =>
    subst hMask
    exact Or.inr rfl
  | nest h _ | retest h _ | irqRestore h _ => exact Or.inr h.masked

/-- In a critical section PRIMASK is set. -/
theorem Ok.masked_of_inside {v : Masking} {g : Agent} (h : Ok v g.brackets g.pc)
    (hInside : g.Inside) : v.primask = 1 := by
  obtain ⟨bs, pc⟩ := g
  cases h with
  | user h | calling h _ | getPrimask h _ | disableIrq h _ | body h _ | test h _ | unnest h _
  | leaving h _ | yielded h _ => exact h.masked hInside
  | savePrimask _ hMask _ =>
    subst hMask
    rfl
  | nest h _ | retest h _ | irqRestore h _ => exact h.masked

/-- With PRIMASK clear no section is open; an agent that is content with that, and
with what would be noted now, can be taken off. -/
theorem Quiet.parked {v : Masking} {bs : List Mark} {pc : Pc} (h : Quiet v bs)
    (hClear : v.primask = 0)
    (hOk : ∀ w : Masking, Quiet w [] → w.primask = v.primask → w.mark = v.mark → Ok w [] pc) :
    v.criticalNesting = 0 ∧ Parked ⟨bs, pc⟩ := by
  obtain ⟨rfl, hZero⟩ := h.of_clear hClear
  refine ⟨hZero, fun w hPrimask hNesting => ?_⟩
  have hMark : w.mark = v.mark := by
    simp only [Masking.mark, hClear, hZero, hPrimask, hNesting]
  exact hOk w (.empty hPrimask hNesting) (hPrimask.trans hClear.symm) hMark

/-- **An agent can be taken off when PRIMASK is clear**: no section is open, and
its next statement expects nothing but that. -/
theorem Ok.parked {v : Masking} {bs : List Mark} {pc : Pc} (h : Ok v bs pc)
    (hClear : v.primask = 0) : v.criticalNesting = 0 ∧ Parked ⟨bs, pc⟩ := by
  have hNot : ∀ {w : Masking}, w.primask = 1 → w.primask ≠ 0 := by
    intro w hOne hZero
    rw [hOne] at hZero
    exact absurd hZero (by decide)
  cases h with
  | user h => exact h.parked hClear fun w hw _ _ => .user hw
  | calling h hCall =>
    refine h.parked hClear fun w hw _ hMark => ?_
    rw [← hMark]
    exact .calling hw hCall
  | getPrimask h hCaller =>
    refine h.parked hClear fun w hw _ hMark => ?_
    rw [← hMark] at hCaller ⊢
    exact .getPrimask hw hCaller
  | disableIrq h hCaller =>
    refine h.parked hClear fun w hw hPrimask hMark => ?_
    rw [← hMark] at hCaller ⊢
    rw [← hPrimask]
    exact .disableIrq hw hCaller
  | savePrimask h hMask _ =>
    subst hMask
    exact absurd hClear (hNot rfl)
  | nest h _ | retest h _ | irqRestore h _ => exact absurd hClear (hNot h.masked)
  | body h _ | test h _ | unnest h _ =>
    exact absurd hClear (hNot (h.masked (List.cons_ne_nil _ _)))
  | leaving h hCall =>
    refine h.parked hClear fun w hw _ hMark => ?_
    rw [← hMark]
    exact .leaving hw hCall
  | yielded h hCall =>
    refine h.parked hClear fun w hw _ hMark => ?_
    rw [← hMark]
    exact .yielded hw hCall

-- ---------------------------------------------------------------------------
-- The statements of enter and exit
-- ---------------------------------------------------------------------------

theorem ofNat_eq_zero {n : Nat} (hLt : n < 2 ^ 32) (h : UInt32.ofNat n = 0) : n = 0 := by
  have hNat := congrArg UInt32.toNat h
  rwa [UInt32.toNat_ofNat_of_lt' hLt] at hNat

/-- PRIMASK is saved at depth 0 and left saved inside other sections. -/
theorem Quiet.savePrimask {u : Masking} {bs : List Mark} (h : Quiet u bs) {k : Kernel}
    (hMask : k.masking = { u with primask := 1 }) :
    Between (k.savePrimask u.primask).masking u.mark bs := by
  obtain ⟨hPrimask, hNesting, hSaved⟩ := Masking.mk.inj hMask
  have hMark := h.mark_eq
  unfold Kernel.savePrimask
  by_cases hZero : k.criticalNesting = 0
  · rw [if_pos hZero]
    have hNil : bs = [] := by
      rw [hNesting, h.depth] at hZero
      exact List.length_eq_zero_iff.mp (ofNat_eq_zero h.below hZero)
    subst hNil
    exact ⟨hPrimask, h.primask, h.below, hZero, hMark, trivial⟩
  · rw [if_neg hZero]
    have hNe : bs ≠ [] := by
      rintro rfl
      exact hZero (hNesting.trans h.depth)
    refine ⟨hPrimask, ?_, h.below, hNesting.trans h.depth, ?_, ?_⟩
    · show IsBit k.criticalPrimask
      rw [hSaved]
      exact h.saved hNe
    · rw [hMark]
      unfold sectionMark
      rw [if_neg hNe, if_neg hNe]
    · show Nested k.criticalPrimask bs
      rw [hSaved]
      exact h.nested

/-- The section is counted. -/
theorem Between.nest {k : Kernel} {b : Mark} {bs : List Mark} (h : Between k.masking b bs)
    (hBelow : bs.length + 1 < 2 ^ 32) : Quiet k.nest.masking (b :: bs) where
  primask := Or.inr h.masked
  masked := fun _ => h.masked
  saved := fun _ => h.saved
  below := hBelow
  depth := by
    show k.criticalNesting + 1 = UInt32.ofNat (bs.length + 1)
    rw [UInt32.ofNat_add]
    exact congrArg (· + 1) h.depth
  nested := h.nested

/-- A section that was counted is there to be left. -/
theorem Quiet.unnest {k : Kernel} {b : Mark} {bs : List Mark} (h : Quiet k.masking (b :: bs)) :
    k.criticalNesting ≠ 0 ∧ Between k.unnest.masking b bs := by
  have hDepth : k.criticalNesting = UInt32.ofNat (bs.length + 1) := h.depth
  have hLt : bs.length + 1 < 2 ^ 32 := h.below
  refine ⟨fun hZero => ?_, h.masked (List.cons_ne_nil _ _), h.saved (List.cons_ne_nil _ _),
    by omega, ?_, h.nested⟩
  · rw [hDepth] at hZero
    exact absurd (ofNat_eq_zero hLt hZero) (Nat.succ_ne_zero _)
  · show k.criticalNesting - 1 = UInt32.ofNat bs.length
    rw [hDepth, UInt32.ofNat_add]
    exact UInt32.add_sub_cancel _ _

/-- The outermost section is the one at depth 0. -/
theorem Between.nesting_eq_zero {v : Masking} {b : Mark} {bs : List Mark} (h : Between v b bs) :
    v.criticalNesting = 0 ↔ bs = [] := by
  rw [h.depth]
  constructor
  · intro hZero
    exact List.length_eq_zero_iff.mp (ofNat_eq_zero h.below hZero)
  · rintro rfl
    rfl

/-- An inner section is left with PRIMASK set, as it was entered. -/
theorem Between.exit_inner {v : Masking} {b : Mark} {bs : List Mark} (h : Between v b bs)
    (hNe : bs ≠ []) : Quiet v bs ∧ v.mark = b := by
  refine ⟨⟨Or.inr h.masked, fun _ => h.masked, fun _ => h.saved, h.below, h.depth, h.nested.2⟩,
    ?_⟩
  rw [h.nested.1]
  unfold Masking.mark sectionMark
  rw [if_neg hNe, h.masked, h.depth]

/-- **The outermost section is left with the PRIMASK it was entered with.** -/
theorem Between.exit_outer {k : Kernel} {b : Mark} (h : Between k.masking b []) :
    Quiet (rtoskPortIrqRestore k.criticalPrimask k).masking [] ∧
      (rtoskPortIrqRestore k.criticalPrimask k).masking.mark = b := by
  have hSaved : IsBit k.criticalPrimask := h.saved
  have hPrimask : (rtoskPortIrqRestore k.criticalPrimask k).primask = k.criticalPrimask := by
    unfold rtoskPortIrqRestore
    rcases hSaved with hZero | hOne
    · rw [hZero]
      rfl
    · rw [hOne]
      exact h.masked
  have hNesting : (rtoskPortIrqRestore k.criticalPrimask k).criticalNesting = 0 :=
    (rtoskPortIrqRestore_criticalNesting ..).trans h.depth
  refine ⟨⟨?_, fun hNe => absurd rfl hNe, fun hNe => absurd rfl hNe, by decide, hNesting,
    trivial⟩, ?_⟩
  · show IsBit (rtoskPortIrqRestore k.criticalPrimask k).primask
    rw [hPrimask]
    exact hSaved
  · rw [h.nested.1]
    unfold Masking.mark Kernel.masking sectionMark
    rw [hPrimask, hNesting]
    rfl

-- ---------------------------------------------------------------------------
-- One statement
-- ---------------------------------------------------------------------------

/-- What is found at the end is what was noted at the beginning. -/
def Event.Restores : Event → Prop
  | .exited before now => now = before
  | .returned _ before now => now = before

def EnterFrom.inCall : EnterFrom → Option (Api × Mark)
  | .user => none
  | .call c m => some (c, m)

def ExitFrom.inCall : ExitFrom → Option (Api × Mark)
  | .user => none
  | .call c m _ => some (c, m)

/-- The call an agent is in. -/
def Pc.inCall : Pc → Option (Api × Mark)
  | .user => none
  | .entering _ _ caller => caller.inCall
  | .exiting _ caller => caller.inCall
  | .calling c m | .body c m | .leaving c m _ | .yielded c m => some (c, m)

/-- How many statements are left, at most, to the return of a call or to its
next round. -/
def Pc.left : Pc → Nat
  | .user => 0
  | .yielded .. => 1
  | .leaving .. => 2
  | .exiting .irqRestore _ => 3
  | .exiting .retest _ => 4
  | .exiting .unnest _ => 5
  | .exiting .test _ => 6
  | .body .. => 7
  | .entering .nest .. => 8
  | .entering (.savePrimask _) .. => 9
  | .entering (.disableIrq _) .. => 10
  | .entering .getPrimask .. => 11
  | .calling .. => 12

theorem Pc.eq_user_of_left {pc : Pc} (h : pc.left = 0) : pc = .user := by
  cases pc with
  | user => rfl
  | entering stmt _ _ => cases stmt <;> cases h
  | exiting stmt _ => cases stmt <;> cases h
  | calling | body | leaving | yielded => cases h

/-- A statement of a call ends it, or brings its end nearer, unless the call
loops. -/
def Onward (pc pc' : Pc) (es : List Event) : Prop :=
  ∀ c m, pc.inCall = some (c, m) →
    .returned c m m ∈ es ∨ pc'.inCall = some (c, m) ∧
      (pc'.left < pc.left ∨ pc = .yielded c m ∧ c.retries = true)

theorem Onward.of_lt {pc pc' : Pc} {es : List Event} (hIn : pc'.inCall = pc.inCall)
    (hLt : pc'.left < pc.left) : Onward pc pc' es :=
  fun _ _ h => Or.inr ⟨hIn.trans h, Or.inl hLt⟩

theorem EnterFrom.pc_inCall (caller : EnterFrom) : caller.pc.inCall = caller.inCall := by
  cases caller <;> rfl

theorem EnterFrom.pc_left (caller : EnterFrom) : caller.pc.left ≤ 7 := by
  cases caller with
  | user => exact Nat.zero_le _
  | call c m => exact Nat.le_refl _

theorem ExitFrom.pc_inCall (caller : ExitFrom) : caller.pc.inCall = caller.inCall := by
  cases caller <;> rfl

theorem ExitFrom.pc_left (caller : ExitFrom) : caller.pc.left ≤ 2 := by
  cases caller with
  | user => exact Nat.zero_le _
  | call c m exit => exact Nat.le_refl _

namespace Cpu

/-- What the running agent's next statement does to the agent. -/
structure Made [TaskConfig] (s : Cpu) (bs : List Mark) (pc : Pc) (sys : System) (g : Agent)
    (es : List Event) : Prop where
  go       : s.go = some (s.next sys g, es)
  ok       : Ok sys.kernel.masking g.brackets g.pc
  restores : ∀ e ∈ es, e.Restores
  onward   : Onward pc g.pc es
  early    : 8 ≤ g.pc.left → g.brackets = bs

end Cpu

open Cpu

section

variable [TaskConfig] {s s' : Cpu} {bs : List Mark} {pc : Pc} {es : List Event}

/-- Exit returns to its caller, from an inner section or the outermost one. -/
theorem made_exited {b : Mark} {caller : ExitFrom} {stmt : ExitAt} {k : Kernel}
    (hAgent : s.agent = ⟨b :: bs, .exiting stmt caller⟩) (hLeft : 3 ≤ (Pc.exiting stmt caller).left)
    (hCaller : caller.Began b) (hGo : s.go = some (s.exited k caller))
    (hQuiet : Quiet k.masking bs) (hMark : k.masking.mark = b) :
    ∃ sys g es, s.Made (b :: bs) (.exiting stmt caller) sys g es := by
  refine ⟨{ s.sys with kernel := k }, ⟨bs, caller.pc⟩, [.exited b k.masking.mark], ?_, ?_, ?_, ?_,
    ?_⟩
  · rw [hGo]
    unfold exited
    rw [hAgent]
    rfl
  · cases caller with
    | user => exact .user hQuiet
    | call c m exit =>
      obtain ⟨rfl, hCall⟩ := hCaller
      rw [← hMark]
      exact .leaving hQuiet hCall
  · intro e hMem
    obtain rfl := List.mem_singleton.mp hMem
    exact hMark
  · exact .of_lt caller.pc_inCall (lt_of_le_of_lt caller.pc_left hLeft)
  · intro hEarly
    have hLe : 8 ≤ 2 := le_trans hEarly caller.pc_left
    exact absurd hLe (by decide)

/-- A call returns to the agent's own code. -/
theorem made_returned {c : Api} (hIn : pc.inCall = some (c, s.now))
    (hGo : s.go = some (s.next s.sys ⟨bs, .user⟩, [.returned c s.now s.now]))
    (hQuiet : Quiet s.sys.kernel.masking bs) :
    ∃ sys g es, s.Made bs pc sys g es := by
  refine ⟨_, _, _, hGo, .user hQuiet, ?_, fun c' m hIn' => Or.inl ?_, fun _ => rfl⟩
  · intro e hMem
    obtain rfl := List.mem_singleton.mp hMem
    rfl
  · obtain ⟨rfl, rfl⟩ := Prod.mk.inj (Option.some.inj (hIn.symm.trans hIn'))
    exact List.mem_singleton_self _

/-- **Every statement inside a call is made, and keeps what the next one finds.** -/
theorem Ok.go (h : Ok s.sys.kernel.masking bs pc) (hAgent : s.agent = ⟨bs, pc⟩)
    (hPc : pc ≠ .user) (hBelow : Below s .go) :
    ∃ sys g es, s.Made bs pc sys g es := by
  have hGo : s.go = s.go := rfl
  conv_rhs at hGo => unfold Cpu.go
  rw [hAgent] at hGo
  have hQuietly : ∀ {sys : System} {pc' : Pc}, s.go = some (s.next sys ⟨bs, pc'⟩, []) →
      Ok sys.kernel.masking bs pc' → Onward pc pc' [] → ∃ sys g es, s.Made bs pc sys g es :=
    fun hGo hOk hOn => ⟨_, _, _, hGo, hOk, nofun, hOn, fun _ => rfl⟩
  cases h with
  | user h => exact absurd rfl hPc
  | @calling _ c h hCall =>
    by_cases hSection : c.hasSection = true
    · simp only [hSection, if_true, jump, hAgent] at hGo
      exact hQuietly hGo (.getPrimask h ⟨rfl, hCall⟩) (.of_lt rfl (Nat.lt_succ_self _))
    · rw [Bool.not_eq_true] at hSection
      simp only [hSection, Bool.false_eq_true, if_false] at hGo
      have hFrame := Api.straight_masking hSection hCall s.sys
      refine hQuietly hGo ?_ (.of_lt rfl ?_)
      · rw [← hFrame] at h ⊢
        exact .leaving h hCall
      · show 2 < 12
        decide
  | getPrimask h hCaller =>
    simp only [jump, hAgent] at hGo
    exact hQuietly hGo (.disableIrq h hCaller) (.of_lt rfl (Nat.lt_succ_self _))
  | disableIrq h hCaller =>
    exact hQuietly hGo (.savePrimask h rfl hCaller)
      (.of_lt rfl (Nat.lt_succ_self _))
  | savePrimask h hMask hCaller =>
    exact hQuietly hGo (.nest (h.savePrimask hMask) hCaller)
      (.of_lt rfl (Nat.lt_succ_self _))
  | @nest b _ caller h hCaller =>
    have hRoom : bs.length + 1 < 2 ^ 32 := by
      unfold Below Nests at hBelow
      rw [hAgent] at hBelow
      exact hBelow rfl
    refine ⟨_, _, _, hGo, ?_, nofun,
      .of_lt caller.pc_inCall (Nat.lt_succ_of_le caller.pc_left), ?_⟩
    · cases caller with
      | user => exact .user (h.nest hRoom)
      | call c m =>
        obtain ⟨rfl, hCall⟩ := hCaller
        exact .body (h.nest hRoom) hCall
    · intro hEarly
      have hLe : 8 ≤ 7 := le_trans hEarly caller.pc_left
      exact absurd hLe (by decide)
  | @body m bs c h hCall =>
    simp only at hGo
    refine hQuietly hGo (.test ?_ ⟨rfl, hCall⟩) (.of_lt rfl (Nat.lt_succ_self _))
    rw [Api.body_masking]
    exact h
  | test h hCaller =>
    have hNe := h.unnest.1
    simp only [if_neg hNe, jump, hAgent] at hGo
    exact hQuietly hGo (.unnest h hCaller) (.of_lt rfl (Nat.lt_succ_self _))
  | unnest h hCaller =>
    exact hQuietly hGo (.retest h.unnest.2 hCaller)
      (.of_lt rfl (Nat.lt_succ_self _))
  | @retest b outer caller h hCaller =>
    by_cases hNil : outer = []
    · subst hNil
      have hZero : s.sys.kernel.criticalNesting = 0 := h.nesting_eq_zero.mpr rfl
      simp only [if_pos hZero, jump, hAgent] at hGo
      exact hQuietly hGo (.irqRestore h hCaller) (.of_lt rfl (Nat.lt_succ_self _))
    · have hNe : ¬ s.sys.kernel.criticalNesting = 0 := fun hZero =>
        hNil (h.nesting_eq_zero.mp hZero)
      simp only [if_neg hNe] at hGo
      obtain ⟨hQuiet, hMark⟩ := h.exit_inner hNil
      exact made_exited hAgent (Nat.le_succ 3) hCaller hGo hQuiet hMark
  | irqRestore h hCaller =>
    obtain ⟨hQuiet, hMark⟩ := h.exit_outer
    exact made_exited hAgent (Nat.le_refl 3) hCaller hGo hQuiet hMark
  | @leaving _ c exit h hCall =>
    cases exit with
    | returns =>
      simp only [jump, hAgent] at hGo
      exact made_returned rfl hGo h
    | yields =>
      exact hQuietly hGo (.yielded h hCall) (.of_lt rfl (Nat.lt_succ_self _))
  | @yielded _ c h hCall =>
    by_cases hRetries : c.retries = true
    · simp only [hRetries, if_true, jump, hAgent] at hGo
      refine hQuietly hGo (.calling h hCall) fun c m hIn => Or.inr ⟨hIn, Or.inr ?_⟩
      obtain ⟨rfl, rfl⟩ := Prod.mk.inj (Option.some.inj hIn)
      exact ⟨rfl, hRetries⟩
    · simp only [hRetries, jump, hAgent] at hGo
      exact made_returned rfl hGo h

-- ---------------------------------------------------------------------------
-- One step
-- ---------------------------------------------------------------------------

/-- **The invariant**: the variables are as the running agent's next statement
expects, and the other agents expect nothing of them. -/
structure Held (s : Cpu) : Prop where
  running : Ok s.sys.kernel.masking s.agent.brackets s.agent.pc
  parked  : ∀ a, a ≠ s.running → Parked (s.agents a)

omit [TaskConfig] in
theorem Held.next (h : Held s) {sys : System} {g : Agent}
    (hOk : Ok sys.kernel.masking g.brackets g.pc) : Held (s.next sys g) where
  running := by
    rw [next_agent]
    exact hOk
  parked := fun a ha => by
    have ha' : a ≠ s.running := ha
    rw [next_other ha']
    exact h.parked a ha'

omit [TaskConfig] in
theorem Cpu.Fresh.held (h : Fresh s) : Held s := by
  refine ⟨?_, fun a _ => ?_⟩
  · unfold agent
    rw [h.agents]
    exact .user ⟨h.primask, fun hNe => absurd rfl hNe, fun hNe => absurd rfl hNe, by decide,
      h.nesting, trivial⟩
  · rw [h.agents]
    exact fun v hClear hDepth => .user (.empty hClear hDepth)

omit [TaskConfig] in
theorem Held.clear (h : Held s) (hUnmasked : s.sys.kernel.Unmasked) :
    s.sys.kernel.masking.primask = 0 := by
  rcases h.running.isBit with hZero | hOne
  · exact hZero
  · have hPrimask : s.sys.kernel.primask = 1 := hOne
    unfold Kernel.Unmasked at hUnmasked
    rw [hPrimask] at hUnmasked
    exact absurd hUnmasked (by decide)

omit [TaskConfig] in
/-- A switch takes one agent off and puts another on. -/
theorem Held.switch (h : Held s) (hUnmasked : s.sys.kernel.Unmasked) (a : Nat) :
    Held { s with running := a } := by
  have hClear := h.clear hUnmasked
  obtain ⟨hDepth, hParked⟩ := h.running.parked hClear
  have hAll : ∀ b, Parked (s.agents b) := fun b => by
    by_cases hb : b = s.running
    · subst hb
      exact hParked
    · exact h.parked b hb
  exact ⟨hAll a _ hClear hDepth, fun b _ => hAll b⟩

/-- A statement inside a call, from its spec. -/
theorem Held.go (h : Held s) (hBelow : Below s .go) (hPc : s.agent.pc ≠ .user) :
    ∃ sys g es, s.Made s.agent.brackets s.agent.pc sys g es ∧ Held (s.next sys g) := by
  obtain ⟨sys, g, es, hMade⟩ := h.running.go rfl hPc hBelow
  exact ⟨sys, g, es, hMade, h.next hMade.ok⟩

/-- **The invariant is kept by every step**, and what ends restores. -/
theorem Held.step {l : Label} (h : Held s) (hBelow : Below s l)
    (hStep : s.step l = some (s', es)) : Held s' ∧ ∀ e ∈ es, e.Restores := by
  have hOk := h.running
  cases l with
  | work sys =>
    simp only [Cpu.step] at hStep
    split at hStep
    · rename_i hSame
      cases hStep
      refine ⟨⟨?_, h.parked⟩, nofun⟩
      show Ok sys.kernel.masking _ _
      rw [hSame]
      exact hOk
    · cases hStep
  | setPrimask masked =>
    simp only [Cpu.step] at hStep
    split at hStep
    · rename_i hPc hNil
      cases hStep
      rw [hPc, hNil] at hOk
      refine ⟨⟨?_, h.parked⟩, nofun⟩
      show Ok _ s.agent.brackets s.agent.pc
      rw [hPc, hNil]
      refine .user ⟨?_, fun hNe => absurd rfl hNe, fun hNe => absurd rfl hNe, by decide,
        hOk.of_user.depth, trivial⟩
      cases masked with
      | false => exact Or.inl rfl
      | true => exact Or.inr rfl
    · cases hStep
  | enter =>
    simp only [Cpu.step] at hStep
    split at hStep
    · rename_i hPc
      cases hStep
      rw [hPc] at hOk
      exact ⟨h.next (.getPrimask hOk.of_user trivial), nofun⟩
    · cases hStep
  | exit =>
    simp only [Cpu.step] at hStep
    split at hStep
    · rename_i b bs hPc hCons
      cases hStep
      rw [hPc, hCons] at hOk
      refine ⟨h.next ?_, nofun⟩
      rw [hCons]
      exact .test hOk.of_user trivial
    · cases hStep
  | call c =>
    simp only [Cpu.step] at hStep
    split at hStep
    · rename_i hPc
      split at hStep
      · cases hStep
      · rename_i hCall
        cases hStep
        rw [hPc] at hOk
        exact ⟨h.next (.calling hOk.of_user (Bool.eq_false_iff.mpr hCall)), nofun⟩
    · cases hStep
  | go =>
    have hPc : s.agent.pc ≠ .user := by
      intro hUser
      simp only [Cpu.step, Cpu.go, hUser] at hStep
      cases hStep
    obtain ⟨sys, g, made, hMade, hNext⟩ := h.go hBelow hPc
    simp only [Cpu.step, hMade.go] at hStep
    cases hStep
    exact ⟨hNext, hMade.restores⟩
  | switch a =>
    simp only [Cpu.step] at hStep
    split at hStep
    · rename_i hUnmasked
      cases hStep
      exact ⟨h.switch hUnmasked a, nofun⟩
    · cases hStep

/-- Along every run the invariant holds, and everything that ended restored. -/
theorem held {s₀ : Cpu} {tr : List Event} (hFresh : Fresh s₀)
    (hRun : Runs.Run Cpu.step Below s₀ tr s) : Held s ∧ ∀ e ∈ tr, e.Restores := by
  refine hRun.induct (fun tr s => Held s ∧ ∀ e ∈ tr, e.Restores) ⟨hFresh.held, nofun⟩
    fun tr s l s' es ⟨hHeld, hOld⟩ hBelow hStep => ?_
  obtain ⟨hNext, hNew⟩ := hHeld.step hBelow hStep
  refine ⟨hNext, fun e hMem => ?_⟩
  rcases List.mem_append.mp hMem with hMem | hMem
  · exact hOld e hMem
  · exact hNew e hMem

-- ---------------------------------------------------------------------------
-- Runs
-- ---------------------------------------------------------------------------

omit [TaskConfig] in
/-- **Critical sections are exclusive.** -/
theorem Held.exclusive (h : Held s) {a : Nat} (hInside : (s.agents a).Inside) :
    a = s.running ∧ s.sys.kernel.primask = 1 := by
  have hRunning : a = s.running := by
    by_contra hOther
    have hOk := h.parked a hOther ⟨0, 0, 0⟩ rfl rfl
    exact absurd (hOk.masked_of_inside hInside) (by decide)
  subst hRunning
  exact ⟨rfl, h.running.masked_of_inside hInside⟩

/-- **A call goes on by itself** to its return, or to its next round. -/
theorem call_goes_on {c : Api} {m : Mark} : ∀ (n : Nat) {s : Cpu}, Held s →
    s.agent.pc.left ≤ n → s.agent.pc.inCall = some (c, m) →
    (8 ≤ s.agent.pc.left → s.agent.brackets.length + 1 < 2 ^ 32) →
    ∃ k tr s', Runs.exec Cpu.step Below s (List.replicate k .go) = some (tr, s') ∧
      (.returned c m m ∈ tr ∨ c.retries = true ∧ s'.agent.pc = .yielded c m) := by
  intro n
  induction n with
  | zero =>
    intro s _ hLeft hIn _
    have hUser := Pc.eq_user_of_left (Nat.le_zero.mp hLeft)
    rw [hUser] at hIn
    cases hIn
  | succ n ih =>
    intro s hHeld hLeft hIn hRoom
    by_cases hLoops : s.agent.pc = .yielded c m ∧ c.retries = true
    · exact ⟨0, [], s, rfl, Or.inr ⟨hLoops.2, hLoops.1⟩⟩
    have hPc : s.agent.pc ≠ .user := by
      intro hUser
      rw [hUser] at hIn
      cases hIn
    have hBelow : Below s .go := by
      intro hNests
      unfold Nests at hNests
      split at hNests
      · rename_i hNest
        refine hRoom ?_
        rw [hNest]
        exact Nat.le_refl 8
      · cases hNests
    obtain ⟨sys, g, es, hMade, hNext⟩ := hHeld.go hBelow hPc
    have hStep : Cpu.step s .go = some (s.next sys g, es) := hMade.go
    rcases hMade.onward c m hIn with hReturned | ⟨hIn', hLess | hLoop⟩
    · refine ⟨1, es, s.next sys g, ?_, Or.inl hReturned⟩
      simp [Runs.exec, hBelow, hStep]
    · obtain ⟨k, tr, s', hExec, hEnd⟩ := ih hNext (by rw [next_agent]; omega)
        (by rw [next_agent]; exact hIn') (by
          rw [next_agent]
          intro hEarly
          rw [hMade.early hEarly]
          exact hRoom (by omega))
      refine ⟨k + 1, es ++ tr, s', ?_, ?_⟩
      · simp [List.replicate_succ, Runs.exec, hBelow, hStep, hExec]
      · exact hEnd.imp (List.mem_append_right es) id
    · exact absurd hLoop hLoops

/-- **Critical sections nest and restore across tasks.** Any number of agents
enter and leave critical sections, to any depth below `2^32`, directly and
inside the calls they make, from any PRIMASK, in any interleaving whose switches
happen with PRIMASK clear. Then in every state reached: an agent in a critical
section is the one that runs, with PRIMASK set, and nobody can be switched to;
every critical section that was left left PRIMASK and the depth as they were
before it; so did every call that returned; and a call in progress goes on by
itself to its return, or to the next round of its loop. -/
theorem critical_nest {s₀ : Cpu} {tr : List Event} (hFresh : Fresh s₀)
    (hRun : Runs.Run Cpu.step Below s₀ tr s) :
    (∀ a, (s.agents a).Inside →
      a = s.running ∧ s.sys.kernel.primask = 1 ∧ ∀ b, s.step (.switch b) = none) ∧
    (∀ before now, .exited before now ∈ tr → now = before) ∧
    (∀ c before now, .returned c before now ∈ tr → now = before) ∧
    ∀ c m, s.agent.pc.inCall = some (c, m) → s.agent.brackets.length + 1 < 2 ^ 32 →
      ∃ k tr' s', Runs.exec Cpu.step Below s (List.replicate k .go) = some (tr', s') ∧
        (.returned c m m ∈ tr' ∨ c.retries = true ∧ s'.agent.pc = .yielded c m) := by
  obtain ⟨hHeld, hRestores⟩ := held hFresh hRun
  refine ⟨fun a hInside => ?_, fun b n hMem => hRestores _ hMem,
    fun c b n hMem => hRestores _ hMem,
    fun c m hIn hRoom => call_goes_on _ hHeld (Nat.le_refl _) hIn fun _ => hRoom⟩
  obtain ⟨hRunning, hMasked⟩ := hHeld.exclusive hInside
  refine ⟨hRunning, hMasked, fun b => ?_⟩
  have hNot : ¬ s.sys.kernel.Unmasked := by
    unfold Kernel.Unmasked
    rw [hMasked]
    decide
  simp only [Cpu.step, if_neg hNot]

end

-- ---------------------------------------------------------------------------
-- A run
-- ---------------------------------------------------------------------------

/-- Two tasks and a semaphore with no permit; agent `0` runs. -/
def twoAgents : Cpu where
  sys := System.boot [1, 1] (fun _ => rtoskSemaphoreInit 0)
    (fun _ => ⟨fun _ => 0, 1, 2, 0, 0, 0, rtoskQueueNoWaiter⟩)
  running := 0
  agents := fun _ => ⟨[], .user⟩

/-- Agent `0` takes and blocks; agent `1` gets the processor, is taken off again
just before it masks, and agent `0` returns from its call. -/
def nestLabels : List Label :=
  [.call (.call (.semaphoreTake (some 0)))] ++ List.replicate 11 .go ++
  [.switch 1, .enter, .go, .switch 0, .go]

theorem critical_nest_twoAgents :
    ∃ tr s, Runs.Run Cpu.step Below twoAgents tr s ∧ tr.length = 2 ∧
      ∀ c before now, .returned c before now ∈ tr → now = before := by
  obtain ⟨tr, s, hRun, hLength⟩ :=
    Runs.exists_run_of_exec Cpu.step Below twoAgents nestLabels (fun tr _ => tr.length = 2)
      (by decide +kernel)
  exact ⟨tr, s, hRun, hLength,
    (critical_nest ⟨fun _ => rfl, rfl, Or.inl rfl⟩ hRun).2.2.1⟩

end Critical

end TinyRtos
