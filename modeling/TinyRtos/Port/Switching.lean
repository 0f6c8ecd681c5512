import TinyRtos.Port.Start

/-!
# TinyRTOS — the invariant of the context switch

Tasks that stay inside their own stacks and use no floating point
(`Disciplined`) are to be resumed with the context they had at their last entry
into PendSV, or, the first time, with the frame built for them
(`KeepsContexts`). The invariant (`Switching`) ties three places together for
every suspended task: the `sp` in its slot, the sixteen words it points to, and
the history.

`rtosk_task_create` is in no critical section. One call at a time does no harm:
until `RTOSK_TASK_COUNT++` nobody else looks at the slot it fills (`InFlight`).
So `Switching` is kept by every disciplined step that begins no creation inside
another (`Switching.step`):

* `Switching.of_same` — steps that touch nobody else's stack;
* `Switching.create`, `Switching.fill`, `Switching.publish` — a creation;
* `Switching.enter`, `Switching.leave` — the two ends of PendSV.
-/

namespace TinyRtos.Machine

open Runs (lastOf lastOf_concat)

-- ---------------------------------------------------------------------------
-- Histories
-- ---------------------------------------------------------------------------

/-- The context of `t` at an entry into PendSV. -/
def entry (t : Nat) : Event → Option Context
  | .entered u ctx _ => if u = t then some ctx else none
  | _ => none

/-- The function that slot `t` is created with. -/
def creation (t : Nat) : Event → Option UInt32
  | .created u taskFunc => if u = t then some taskFunc else none
  | _ => none

def lastEntry (t : Nat) (tr : List Event) : Option Context := lastOf (entry t) tr

/-- The function of slot `t`, given those at the start. -/
def taskFunc (funcs : Nat → UInt32) (t : Nat) (tr : List Event) : UInt32 :=
  (lastOf (creation t) tr).getD (funcs t)

variable [TaskConfig]

/-- The context that `t` is to be resumed with. -/
def Expected (img : Image) (funcs : Nat → UInt32) (tr : List Event) (t : Nat) (ctx : Context) :
    Prop :=
  match lastEntry t tr with
  | some last => ctx = last
  | none => BuiltFrame img t (taskFunc funcs t tr) ctx

/-- Whenever PendSV resumes a task, it does so with the expected context. -/
def KeepsContexts (img : Image) (funcs : Nat → UInt32) (tr : List Event) : Prop :=
  ∀ pre post t ctx lr, tr = pre ++ .resumed t ctx lr :: post → Expected img funcs pre t ctx

variable {img : Image} {funcs : Nat → UInt32} {tr : List Event} {m m' : Machine}

theorem Expected.concat {t : Nat} {ctx : Context} {e : Event}
    (h : Expected img funcs tr t ctx) (hEntry : entry t e = none)
    (hCreation : creation t e = none) : Expected img funcs (tr ++ [e]) t ctx := by
  have hLast : lastEntry t (tr ++ [e]) = lastEntry t tr := by
    unfold lastEntry
    rw [lastOf_concat, hEntry, Option.none_or]
  have hFunc : taskFunc funcs t (tr ++ [e]) = taskFunc funcs t tr := by
    unfold taskFunc
    rw [lastOf_concat, hCreation, Option.none_or]
  unfold Expected
  rw [hLast, hFunc]
  exact h

theorem Expected.entered (t : Nat) (ctx : Context) (extended : Bool) :
    Expected img funcs (tr ++ [.entered t ctx extended]) t ctx := by
  have hLast : lastEntry t (tr ++ [.entered t ctx extended]) = some ctx := by
    unfold lastEntry
    rw [lastOf_concat, entry, if_pos rfl, Option.some_or]
  unfold Expected
  rw [hLast]

/-- A slot that was never entered is expected at the frame it was created
with. -/
theorem Expected.created {t : Nat} {func : UInt32} {ctx : Context}
    (hNever : lastEntry t tr = none) (hBuilt : BuiltFrame img t func ctx) :
    Expected img funcs (tr ++ [.created t func]) t ctx := by
  have hLast : lastEntry t (tr ++ [.created t func]) = none := by
    unfold lastEntry at hNever ⊢
    rw [lastOf_concat, hNever]
    rfl
  have hFunc : taskFunc funcs t (tr ++ [.created t func]) = func := by
    unfold taskFunc
    rw [lastOf_concat, creation, if_pos rfl, Option.some_or, Option.getD_some]
  unfold Expected
  rw [hLast, hFunc]
  exact hBuilt

theorem KeepsContexts.concat {e : Event} (h : KeepsContexts img funcs tr)
    (hNew : ∀ t ctx lr, e = .resumed t ctx lr → Expected img funcs tr t ctx) :
    KeepsContexts img funcs (tr ++ [e]) := by
  intro pre post t ctx lr hSplit
  rcases Runs.split_concat hSplit with ⟨mid, hOld⟩ | ⟨rfl, hEq⟩
  · exact h pre mid t ctx lr hOld
  · exact hNew t ctx lr hEq

-- ---------------------------------------------------------------------------
-- Assumptions
-- ---------------------------------------------------------------------------

/-- What is asked of the tasks: no floating point, writes to the own stack only,
and room on it for the frame, a skipped word and R4–R11 when PendSV comes. -/
def Disciplined (img : Image) (m : Machine) : Label → Prop
  | .work w => w.fpRegs = none ∧ ∀ p ∈ w.writes, img.InStack m.current p.1
  | .kernel .pendSv =>
    img.stackBase m.current + 16 + m.psp % 2 ≤ m.psp ∧ m.psp ≤ img.stackEnd m.current
  | _ => True

/-- No creation begins while another is under way. -/
def CreatesAlone (m : Machine) : Label → Prop
  | .create taskFunc _ => Accepts m.table taskFunc → ∀ t < m.table.taskCount, m.creates t = none
  | _ => True

instance (img : Image) (m : Machine) : ∀ l, Decidable (Disciplined img m l)
  | .work _ => inferInstanceAs (Decidable (_ ∧ _))
  | .kernel .pendSv => inferInstanceAs (Decidable (_ ∧ _))
  | .kernel (.call _) | .kernel .yield | .kernel .resume | .kernel (.semaphoreGiveFromIsr _)
  | .kernel (.queueSendFromIsr _ _) | .kernel .tick | .kernel .scan | .kernel .pendSvExit
  | .create _ _ | .createStep => .isTrue trivial

instance (m : Machine) : ∀ l, Decidable (CreatesAlone m l)
  | .create _ _ => inferInstanceAs (Decidable (_ → _))
  | .kernel _ | .work _ | .createStep => .isTrue trivial

-- ---------------------------------------------------------------------------
-- The invariant
-- ---------------------------------------------------------------------------

/-- The code of task `t` runs. -/
def RunsTask (m : Machine) (t : Nat) : Prop := m.sys.scan = none ∧ m.current = t

/-- A creation under way fills the slot behind the last task, which is built once
`sp` is stored. -/
structure InFlight (img : Image) (m : Machine) (c : Create) : Prop where
  index : c.index = m.table.taskCount
  room  : m.table.taskCount < rtoskMaxTasks
  built : c.stage = .fields ∨ c.stage = .count → BuiltAt img m.table m.mem c.index c.taskFunc

/-- Slot `t` is suspended at the context it is to be resumed with. -/
def Suspended (img : Image) (funcs : Nat → UInt32) (tr : List Event) (m : Machine) (t : Nat) :
    Prop :=
  img.Holds t (m.table.tasks t).sp ∧
    Expected img funcs tr t (savedContext m.mem (m.table.tasks t).sp)

structure Switching (img : Image) (funcs : Nat → UInt32) (tr : List Event) (m : Machine) :
    Prop where
  dispatching : System.Dispatching m.sys
  current     : Live m.table m.current
  fpca        : m.fpca = false
  msp         : ∀ p ∈ m.msp, p.2 = excReturn false
  flight      : ∀ t c, m.creates t = some c → t < m.table.taskCount ∧ InFlight img m c
  alone       : ∀ t u, m.creates t ≠ none → m.creates u ≠ none → t = u
  fresh       : ∀ t, ¬ Live m.table t → lastEntry t tr = none
  suspended   : ∀ t, Live m.table t → ¬ m.RunsTask t → Suspended img funcs tr m t
  kept        : KeepsContexts img funcs tr

/-- A creation goes on undisturbed while the table's count and the slot it fills
stay. -/
theorem InFlight.of_frame {c : Create} (h : InFlight img m c)
    (hCount : m'.table.taskCount = m.table.taskCount)
    (hSp : (m'.table.tasks c.index).sp = (m.table.tasks c.index).sp)
    (hMem : ∀ a, img.InStack c.index a → m'.mem a = m.mem a) : InFlight img m' c where
  index := h.index.trans hCount.symm
  room := by
    rw [hCount]
    exact h.room
  built := fun hStage => (h.built hStage).of_frame hSp hMem

/-- The slot it fills is not the current one. -/
theorem InFlight.index_ne {c : Create} (h : InFlight img m c) {t : Nat} (ht : Live m.table t) :
    t ≠ c.index := by
  intro hEq
  rw [h.index] at hEq
  exact not_live_taskCount h.room (hEq ▸ ht)

omit [TaskConfig] in
/-- If nobody but `cur` creates, no two do. -/
theorem alone_of_others {creates : Nat → Option Create} {cur : Nat}
    (hOther : ∀ t, t ≠ cur → creates t = none) (t u : Nat) (ht : creates t ≠ none)
    (hu : creates u ≠ none) : t = u := by
  have ht' : t = cur := by_contra fun hne => ht (hOther t hne)
  have hu' : u = cur := by_contra fun hne => hu (hOther u hne)
  rw [ht', hu']

/-- Nobody creates a task beside the running one. -/
theorem Switching.creates_other (h : Switching img funcs tr m) {c : Create}
    (hAt : m.creates m.current = some c) {t : Nat} (ht : t ≠ m.current) : m.creates t = none := by
  by_contra hSome
  exact ht (h.alone t m.current hSome (by simp [hAt]))

theorem Started.switching (h : Started img funcs m) : Switching img funcs [] m where
  dispatching := h.sys.dispatching
  current := Or.inl h.current
  fpca := h.fpca
  msp := by simp [h.msp]
  flight := fun t c hc => absurd ((h.creates t).symm.trans hc) nofun
  alone := fun t _ ht _ => absurd (h.creates t) ht
  fresh := fun _ _ => rfl
  suspended := fun t ht _ => h.built t ht
  kept := fun pre post t ctx lr hSplit => absurd hSplit.symm (by simp)

/-- What a step may do without concerning the other tasks' contexts. -/
structure SameStacks (img : Image) (m m' : Machine) : Prop where
  taskCount : m'.table.taskCount = m.table.taskCount
  current   : m'.current = m.current
  scan      : m'.sys.scan = none ↔ m.sys.scan = none
  sp        : ∀ t, (m'.table.tasks t).sp = (m.table.tasks t).sp
  mem       : ∀ t a, ¬ m.RunsTask t → img.InStack t a → m'.mem a = m.mem a
  creates   : m'.creates = m.creates
  fpca      : m'.fpca = m.fpca
  msp       : m'.msp = m.msp

theorem Suspended.of_frame {tr' : List Event} {t : Nat} (h : Suspended img funcs tr m t)
    (hSp : (m'.table.tasks t).sp = (m.table.tasks t).sp)
    (hMem : ∀ a, img.InStack t a → m'.mem a = m.mem a)
    (hExp : ∀ ctx, Expected img funcs tr t ctx → Expected img funcs tr' t ctx) :
    Suspended img funcs tr' m' t := by
  obtain ⟨hHolds, hExpected⟩ := h
  unfold Suspended
  rw [hSp, savedContext_congr hHolds hMem]
  exact ⟨hHolds, hExp _ hExpected⟩

theorem Switching.of_same (h : Switching img funcs tr m) (hSame : SameStacks img m m')
    (hDisp : System.Dispatching m'.sys) : Switching img funcs tr m' := by
  have hLive : ∀ t, Live m'.table t ↔ Live m.table t := live_congr hSame.taskCount
  have hRuns : ∀ t, m'.RunsTask t ↔ m.RunsTask t := by
    intro t
    unfold RunsTask
    rw [hSame.scan, hSame.current]
  refine ⟨hDisp, ?_, hSame.fpca.trans h.fpca, ?_, ?_, ?_, ?_, ?_, h.kept⟩
  · rw [hSame.current]
    exact (hLive _).mpr h.current
  · rw [hSame.msp]
    exact h.msp
  · intro t c hc
    rw [hSame.creates] at hc
    obtain ⟨ht, hFlight⟩ := h.flight t c hc
    have hIdleSlot : ¬ m.RunsTask c.index := fun hRuns => hFlight.index_ne h.current hRuns.2
    rw [hSame.taskCount]
    exact ⟨ht, hFlight.of_frame hSame.taskCount (hSame.sp _) fun a => hSame.mem _ a hIdleSlot⟩
  · rw [hSame.creates]
    exact h.alone
  · intro t ht
    exact h.fresh t (mt (hLive t).mpr ht)
  · intro t ht hNot
    have hNot' : ¬ m.RunsTask t := mt (hRuns t).mpr hNot
    exact (h.suspended t ((hLive t).mp ht) hNot').of_frame (hSame.sp t)
      (fun a => hSame.mem t a hNot') fun _ hExp => hExp

-- ---------------------------------------------------------------------------
-- Steps of the kernel and of the tasks
-- ---------------------------------------------------------------------------

/-- Kernel steps other than PendSV's leave every stack alone. -/
theorem sameStacks_kernel {l : TinyRtos.Label} {s : System} {es : List TinyRtos.Event}
    (hEnter : l ≠ .pendSv) (hExit : l ≠ .pendSvExit) (hStep : System.StepCase m.sys l s es) :
    SameStacks img m (m.setSys s) := by
  obtain ⟨hCur, hScan⟩ := hStep.of_other hEnter hExit
  have hSetup := hStep.setup
  exact ⟨hSetup.taskCount, hCur, hScan, hSetup.sp, fun _ _ _ _ => rfl, rfl, rfl, rfl⟩

/-- A disciplined task changes nothing but its own stack. -/
theorem sameStacks_work {w : Work} (hRunning : m.Running)
    (hDisc : Disciplined img m (.work w)) : SameStacks img m (m.doWork w) := by
  obtain ⟨hBasic, hWrites⟩ := hDisc
  refine ⟨rfl, rfl, Iff.rfl, fun _ => rfl, ?_, rfl, ?_, rfl⟩
  · intro t a hNot ha
    apply Memory.writeAll_of_outside
    intro p hp hEq
    have hne : m.current ≠ t := fun hCur => hNot ⟨hRunning.1, hCur⟩
    exact img.not_inStack_of_ne hne (hEq ▸ hWrites p hp) ha
  · show (m.fpca || w.fpRegs.isSome) = m.fpca
    rw [hBasic]
    exact Bool.or_false _

-- ---------------------------------------------------------------------------
-- Creations
-- ---------------------------------------------------------------------------

/-- A creation begins, alone. -/
theorem Switching.create (h : Switching img funcs tr m) {func priority : UInt32}
    (hThread : m.sys.Thread) (hAccepts : Accepts m.table func)
    (hAlone : CreatesAlone m (.create func priority)) :
    Switching img funcs tr (m.setCreate (some (Create.start m.table func priority))) := by
  have hNone : ∀ t, m.creates t = none := by
    intro t
    cases hc : m.creates t with
    | none => rfl
    | some c => exact absurd (hAlone hAccepts t (h.flight t c hc).1) (by simp [hc])
  have hOther : ∀ t, t ≠ m.current →
      (m.setCreate (some (Create.start m.table func priority))).creates t = none := by
    intro t ht
    show Function.update m.creates m.current _ t = none
    rw [Function.update_of_ne ht]
    exact hNone t
  refine ⟨h.dispatching, h.current, h.fpca, h.msp, ?_, ?_, h.fresh, h.suspended, h.kept⟩
  · intro t c hc
    by_cases ht : t = m.current
    · subst ht
      have hSelf : Function.update m.creates m.current
          (some (Create.start m.table func priority)) m.current = some c := hc
      rw [Function.update_self] at hSelf
      obtain rfl := Option.some.inj hSelf
      exact ⟨hThread.2.1, ⟨rfl, hAccepts.2, by rintro (hStage | hStage) <;> cases hStage⟩⟩
    · exact absurd ((hOther t ht).symm.trans hc) nofun
  · exact alone_of_others hOther

/-- The machine after a piece of the running task's creation. -/
def fillSlot (k : TaskTable) (mem : Nat → UInt32) (rest : Option Create) (m : Machine) : Machine :=
  (({ m with mem := mem } : Machine).onTable (fun _ => k)).setCreate rest

/-- The pieces before `RTOSK_TASK_COUNT++` work on the slot behind the last
task. -/
theorem Switching.fill (h : Switching img funcs tr m) {c c' : Create} {k : TaskTable}
    {mem : Nat → UInt32} (hThread : m.sys.Thread) (hAt : m.creates m.current = some c)
    (hCount : k.taskCount = m.table.taskCount) (hCur : k.currentTask = m.current)
    (hIdle : k.idleReady = m.table.idleReady)
    (hSp : ∀ t, t ≠ c.index → (k.tasks t).sp = (m.table.tasks t).sp)
    (hMem : ∀ t a, t ≠ c.index → img.InStack t a → mem a = m.mem a)
    (hIndex : c'.index = c.index)
    (hBuilt : c'.stage = .fields ∨ c'.stage = .count → BuiltAt img k mem c'.index c'.taskFunc) :
    Switching img funcs tr (m.fillSlot k mem (some c')) := by
  obtain ⟨hUser, hFlight⟩ := h.flight _ c hAt
  have hLive : ∀ t, Live k t ↔ Live m.table t := live_congr hCount
  have hOther : ∀ t, t ≠ m.current → (m.fillSlot k mem (some c')).creates t = none := by
    intro t ht
    show Function.update m.creates k.currentTask (some c') t = none
    rw [hCur, Function.update_of_ne ht]
    exact h.creates_other hAt ht
  refine ⟨?_, ?_, h.fpca, h.msp, ?_, ?_, ?_, ?_, h.kept⟩
  · refine .of_thread hThread.1 ?_ ?_ ?_
    · show 0 < k.taskCount
      rw [hCount]
      exact h.dispatching.taskCount_pos
    · show k.taskCount ≤ rtoskMaxTasks
      rw [hCount]
      exact h.dispatching.taskCount_le
    · show k.idleReady = true
      rw [hIdle]
      exact h.dispatching.idleReady
  · show Live k k.currentTask
    rw [hLive, hCur]
    exact h.current
  · intro t d hd
    by_cases ht : t = m.current
    · subst ht
      have hSelf : Function.update m.creates k.currentTask (some c') m.current = some d := hd
      rw [hCur, Function.update_self] at hSelf
      obtain rfl := Option.some.inj hSelf
      refine ⟨?_, ?_, ?_, hBuilt⟩
      · show m.current < k.taskCount
        rw [hCount]
        exact hUser
      · show c'.index = k.taskCount
        rw [hCount, hIndex]
        exact hFlight.index
      · show k.taskCount < rtoskMaxTasks
        rw [hCount]
        exact hFlight.room
    · exact absurd ((hOther t ht).symm.trans hd) nofun
  · exact alone_of_others hOther
  · intro t ht
    exact h.fresh t (mt (hLive t).mpr ht)
  · intro t ht hNot
    have ht' : Live m.table t := (hLive t).mp ht
    have hNot' : ¬ m.RunsTask t := by
      rintro ⟨hScan, hCurrent⟩
      exact hNot ⟨hScan, hCur.trans hCurrent⟩
    have hne : t ≠ c.index := hFlight.index_ne ht'
    exact (h.suspended t ht' hNot').of_frame (hSp t hne) (fun a => hMem t a hne)
      fun _ hExp => hExp

/-- `RTOSK_TASK_COUNT++` makes the slot live, at the frame built for it. -/
theorem Switching.publish (h : Switching img funcs tr m) {c : Create} (hThread : m.sys.Thread)
    (hAt : m.creates m.current = some c) (hStage : c.stage = .count) :
    Switching img funcs (tr ++ [.created c.index c.taskFunc])
      (m.fillSlot { m.table with taskCount := m.table.taskCount + 1 } m.mem none) := by
  obtain ⟨hUser, hFlight⟩ := h.flight _ c hAt
  have hBuilt := hFlight.built (Or.inr hStage)
  have hNever : lastEntry c.index tr = none := by
    rw [hFlight.index]
    exact h.fresh _ (not_live_taskCount hFlight.room)
  have hNone : ∀ t, (m.fillSlot { m.table with taskCount := m.table.taskCount + 1 } m.mem
      none).creates t = none := by
    intro t
    show Function.update m.creates m.current none t = none
    by_cases ht : t = m.current
    · rw [ht, Function.update_self]
    · rw [Function.update_of_ne ht]
      exact h.creates_other hAt ht
  have hOld : ∀ t, t ≠ c.index →
      Live { m.table with taskCount := m.table.taskCount + 1 } t → Live m.table t := by
    rintro t hne (hLt | hIdle)
    · have hLt' : t < m.table.taskCount + 1 := hLt
      rw [hFlight.index] at hne
      exact Or.inl (by omega)
    · exact Or.inr hIdle
  refine ⟨?_, ?_, h.fpca, h.msp, ?_, ?_, ?_, ?_, h.kept.concat fun _ _ _ => nofun⟩
  · exact .of_thread hThread.1 (Nat.succ_pos _) hFlight.room h.dispatching.idleReady
  · exact Or.inl (Nat.lt_succ_of_lt hUser)
  · intro t d hd
    exact absurd ((hNone t).symm.trans hd) nofun
  · intro t _ ht _
    exact absurd (hNone t) ht
  · intro t ht
    have hDead : ¬ Live m.table t := by
      rintro (hLt | hIdle)
      · exact ht (Or.inl (Nat.lt_succ_of_lt hLt))
      · exact ht (Or.inr hIdle)
    unfold lastEntry
    rw [lastOf_concat]
    exact h.fresh t hDead
  · intro t ht hNot
    by_cases hNew : t = c.index
    · subst hNew
      exact ⟨hBuilt.1, Expected.created hNever hBuilt.2⟩
    · have hNot' : ¬ m.RunsTask t := hNot
      refine (h.suspended t (hOld t hNew ht) hNot').of_frame rfl (fun _ _ => rfl)
        fun _ hExp => hExp.concat rfl ?_
      exact if_neg fun hEq => hNew hEq.symm

/-- **One piece of a creation.** -/
theorem Switching.createStep (h : Switching img funcs tr m) {c : Create}
    (hThread : m.sys.Thread) (hAt : m.creates m.current = some c) :
    Switching img funcs (tr ++ (m.advance img c).2) (m.advance img c).1 := by
  obtain ⟨-, hFlight⟩ := h.flight _ c hAt
  have hSlot : c.index < rtoskTotalTaskSlots := by
    rw [hFlight.index]
    exact lt_of_lt_of_le hFlight.room (Nat.le_succ _)
  obtain ⟨index, func, priority, stage⟩ := c
  cases stage with
  | watermark =>
    simp only [advance, Create.advance, reduceCtorEq, if_false, List.append_nil]
    exact h.fill hThread hAt rfl rfl rfl (fun _ _ => rfl)
      (fun t a hne ha => watermark_of_outside (img.not_inStack_of_ne hne ha) m.mem) rfl
      (by rintro (hStage | hStage) <;> cases hStage)
  | build =>
    simp only [advance, Create.advance, reduceCtorEq, if_false, List.append_nil]
    refine h.fill hThread hAt rfl rfl rfl (fun t hne => ?_)
      (fun t a hne ha => buildStack_of_outside hSlot func (img.not_inStack_of_ne hne ha) m.mem)
      rfl fun _ => ?_
    · rw [TaskTable.setSp_sp, if_neg hne]
    · unfold BuiltAt
      rw [TaskTable.setSp_sp, if_pos rfl]
      exact ⟨buildStack_holds img hSlot func m.mem, buildStack_built img hSlot func m.mem⟩
  | fields =>
    simp only [advance, Create.advance, reduceCtorEq, if_false, List.append_nil]
    have hSp : ∀ t, (Function.update m.table.tasks index { m.table.tasks index with
        state := .ready, wakeTick := 0, priority := priority } t).sp =
          (m.table.tasks t).sp := by
      intro t
      by_cases ht : t = index
      · rw [ht, Function.update_self]
      · rw [Function.update_of_ne ht]
    refine h.fill hThread hAt rfl rfl rfl (fun t _ => hSp t) (fun _ _ _ _ => rfl) rfl fun _ => ?_
    exact (hFlight.built (Or.inl rfl)).of_frame (hSp index) fun _ _ => rfl
  | count =>
    simp only [advance, Create.advance, if_true]
    exact h.publish hThread hAt rfl

-- ---------------------------------------------------------------------------
-- The entry of PendSV
-- ---------------------------------------------------------------------------

/-- Where exception entry puts a basic frame. -/
def basicFrameptr (m : Machine) : Nat := (m.psp - 8) / 2 * 2

/-- What entering PendSV does with a basic frame: frame and R4–R11 below PSP, and
their address in the current slot. -/
structure SavesContext (img : Image) (m m' : Machine) : Prop where
  table   : m'.table = m.table.setSp m.current (m.basicFrameptr - 8)
  scan    : m'.sys.scan = m.sys.scan
  mem     : ∀ a, ¬ img.InStack m.current a → m'.mem a = m.mem a
  holds   : img.Holds m.current (m.basicFrameptr - 8)
  saved   : savedContext m'.mem (m.basicFrameptr - 8) = m.exceptionEntry.1.context
  fpca    : m'.fpca = false
  msp     : ∃ r4, m'.msp = (r4, excReturn false) :: m.msp
  creates : m'.creates = m.creates

/-- **Entering PendSV saves the context.** -/
theorem enterPendSv_saves (hFpca : m.fpca = false) (hPos : 0 < m.table.taskCount)
    (hDisc : Disciplined img m (.kernel .pendSv)) : SavesContext img m m.enterPendSv := by
  obtain ⟨hLo, hHi⟩ := hDisc
  have hEnd : img.stackEnd m.current = img.stackBase m.current + 256 := rfl
  have hPtr : m.basicFrameptr = m.psp - 8 - m.psp % 2 := by
    unfold basicFrameptr
    omega
  set frame := Function.update m.frame 7 (stackedXpsr (m.frame 7) (m.psp % 2 = 1))
  have hEntry : m.exceptionEntry =
      ({ m with
          mem := Memory.store m.mem m.basicFrameptr frame
          psp := m.basicFrameptr
          fpca := false }, excReturn false) := by
    simp [exceptionEntry, hFpca, frameWords, basicFrameptr, frame]
  have hMem : m.enterPendSv.mem =
      Memory.store (Memory.store m.mem m.basicFrameptr frame) (m.basicFrameptr - 8) m.r4r11 := by
    simp only [enterPendSv, hEntry]
    rfl
  refine ⟨?_, ?_, ?_, ⟨?_, ?_⟩, ?_, ?_, ⟨m.r4r11 0, ?_⟩, ?_⟩
  · simp only [enterPendSv, hEntry]
    exact rtoskTaskSaveStackPointer_eq hPos _
  · simp only [enterPendSv, hEntry]
    rfl
  · intro a ha
    have hOut : a < img.stackBase m.current ∨ img.stackEnd m.current ≤ a := by
      unfold Image.InStack at ha
      omega
    rw [hMem, Memory.store_of_outside _ _ (by omega), Memory.store_of_outside _ _ (by omega)]
  · omega
  · omega
  · -- R4–R11 lie right below the frame
    have hBelow : m.basicFrameptr - 8 + 8 = m.basicFrameptr := by omega
    rw [hMem, hEntry]
    unfold savedContext context
    rw [hBelow, Memory.load_store, Memory.load_store_of_disjoint _ _ (Or.inr (by omega))]
  · simp only [enterPendSv, hEntry]
    rfl
  · simp only [enterPendSv, hEntry]
    rfl
  · simp only [enterPendSv, hEntry]
    rfl

/-- PendSV begins. -/
theorem Switching.enter (h : Switching img funcs tr m)
    (hDisc : Disciplined img m (.kernel .pendSv)) {s : System} {es : List TinyRtos.Event}
    (hStep : System.StepCase m.enterPendSv.sys .pendSv s es) :
    Switching img funcs (tr ++ [.entered m.current m.exceptionEntry.1.context m.fpca])
      (m.enterPendSv.setSys s) := by
  have hSaves := enterPendSv_saves h.fpca h.dispatching.taskCount_pos hDisc
  obtain ⟨hIdle, hSys⟩ := hStep.of_pendSv
  have hTable : s.kernel.toTaskTable = m.table.setSp m.current (m.basicFrameptr - 8) := by
    rw [hSys]
    exact hSaves.table
  have hEntered : System.Dispatching m.enterPendSv.sys := by
    refine .of_thread hIdle ?_ ?_ ?_
    · show 0 < m.enterPendSv.table.taskCount
      rw [hSaves.table]
      exact h.dispatching.taskCount_pos
    · show m.enterPendSv.table.taskCount ≤ rtoskMaxTasks
      rw [hSaves.table]
      exact h.dispatching.taskCount_le
    · show m.enterPendSv.table.idleReady = true
      rw [hSaves.table]
      exact h.dispatching.idleReady
  have hSpOther : ∀ t, t ≠ m.current → (s.kernel.tasks t).sp = (m.table.tasks t).sp := by
    intro t ht
    rw [hTable, TaskTable.setSp_sp, if_neg ht]
  have hMemOther : ∀ t a, t ≠ m.current → img.InStack t a → m.enterPendSv.mem a = m.mem a :=
    fun t a ht ha => hSaves.mem a (img.not_inStack_of_ne ht ha)
  have hCount : s.kernel.taskCount = m.table.taskCount := by
    rw [hTable]
    rfl
  have hLive : ∀ t, Live s.kernel.toTaskTable t ↔ Live m.table t := live_congr hCount
  refine ⟨hEntered.step hStep, ?_, hSaves.fpca, ?_, ?_, ?_, ?_, ?_,
    h.kept.concat fun _ _ _ => nofun⟩
  · show Live s.kernel.toTaskTable s.kernel.toTaskTable.currentTask
    rw [hTable]
    exact h.current
  · obtain ⟨r4, hMsp⟩ := hSaves.msp
    show ∀ p ∈ m.enterPendSv.msp, p.2 = excReturn false
    rw [hMsp]
    intro p hp
    rcases List.mem_cons.mp hp with rfl | hOld
    · rfl
    · exact h.msp p hOld
  · intro t d hd
    have hd' : m.creates t = some d := by
      rw [← hSaves.creates]
      exact hd
    obtain ⟨ht, hFlight⟩ := h.flight t d hd'
    have hne : d.index ≠ m.current := (hFlight.index_ne h.current).symm
    exact ⟨hCount ▸ ht, hFlight.of_frame hCount (hSpOther _ hne) fun a => hMemOther _ a hne⟩
  · show ∀ t u, m.enterPendSv.creates t ≠ none → m.enterPendSv.creates u ≠ none → t = u
    rw [hSaves.creates]
    exact h.alone
  · intro t ht
    have ht' : ¬ Live m.table t := mt (hLive t).mpr ht
    have hne : m.current ≠ t := fun hEq => ht' (hEq ▸ h.current)
    unfold lastEntry
    rw [lastOf_concat, entry, if_neg hne, Option.none_or]
    exact h.fresh t ht'
  · intro t ht _
    by_cases hCur : t = m.current
    · -- the task that is switched out
      subst hCur
      have hSp : (s.kernel.tasks m.current).sp = m.basicFrameptr - 8 := by
        rw [hTable, TaskTable.setSp_sp, if_pos rfl]
      show img.Holds m.current (s.kernel.tasks m.current).sp ∧ Expected img funcs _ m.current
        (savedContext m.enterPendSv.mem (s.kernel.tasks m.current).sp)
      rw [hSp, hSaves.saved]
      exact ⟨hSaves.holds, Expected.entered _ _ _⟩
    · have ht' : Live m.table t := (hLive t).mp ht
      have hNot : ¬ m.RunsTask t := fun hRuns => hCur hRuns.2.symm
      refine (h.suspended t ht' hNot).of_frame (hSpOther t hCur) (fun a => hMemOther t a hCur)
        fun _ hExp => hExp.concat ?_ rfl
      exact if_neg fun hEq => hCur hEq.symm

-- ---------------------------------------------------------------------------
-- The exit of PendSV
-- ---------------------------------------------------------------------------

/-- PendSV resumes a task. -/
theorem Switching.leave (h : Switching img funcs tr m) {s : System}
    {es : List TinyRtos.Event} {es' : List Event}
    (hStep : System.StepCase m.sys .pendSvExit s es)
    (hLeave : (m.setSys s).leavePendSv = some (m', es')) :
    Switching img funcs (tr ++ es') m' := by
  have hDisp : System.Dispatching s := h.dispatching.step hStep
  obtain ⟨c, hScan, hDone, hSys⟩ := hStep.of_pendSvExit
  have hSetup := hStep.setup
  have hPos : 0 < (m.setSys s).table.taskCount := hDisp.taskCount_pos
  obtain ⟨r4, lr, msp, hMsp, rfl, hSys', hMem', hCreates', hMsp', hFpca'⟩ :=
    leavePendSv_eq hLeave
  have hTable' : m'.table = s.kernel.toTaskTable := congrArg (·.kernel.toTaskTable) hSys'
  have hCount' : m'.table.taskCount = m.table.taskCount := by
    rw [hTable']
    exact hSetup.taskCount
  have hSp' : ∀ t, (m'.table.tasks t).sp = (m.table.tasks t).sp := by
    intro t
    rw [hTable']
    exact hSetup.sp t
  have hPushed : ∀ p ∈ (r4, lr) :: msp, p.2 = excReturn false := hMsp ▸ h.msp
  have hLr : lr = excReturn false := hPushed _ (List.mem_cons_self ..)
  have hLive : ∀ t, Live s.kernel.toTaskTable t ↔ Live m.table t := live_congr hSetup.taskCount
  -- the selected slot is live
  have hCurrent : Live s.kernel.toTaskTable s.kernel.currentTask := by
    rw [hSys]
    rcases h.dispatching.selects hScan hDone with ⟨b, hEnd, hReady, -⟩ | ⟨hEnd, -⟩
    · rw [Kernel.onTable_toTaskTable, hEnd]
      exact Or.inl hReady.1
    · rw [Kernel.onTable_toTaskTable, hEnd]
      exact Or.inr rfl
  have hSuspended : ∀ t, Live m.table t → Suspended img funcs tr m t := fun t ht =>
    h.suspended t ht fun hRuns => by simp [RunsTask, hScan] at hRuns
  have hResumed : Expected img funcs tr s.kernel.currentTask
      (savedContext m.mem (s.kernel.tasks s.kernel.currentTask).sp) := by
    rw [hSetup.sp]
    exact (hSuspended _ ((hLive _).mp hCurrent)).2
  refine ⟨?_, ?_, ?_, ?_, ?_, ?_, ?_, ?_,
    h.kept.concat ?_⟩
  · rw [hSys']
    exact hDisp
  · show Live m'.table m'.table.currentTask
    rw [hTable']
    exact hCurrent
  · rw [hFpca', hLr, isExtended_excReturn]
  · rw [hMsp']
    exact fun p hp => hPushed p (List.mem_cons_of_mem _ hp)
  · intro t d hd
    rw [hCreates'] at hd
    obtain ⟨ht, hFlight⟩ := h.flight t d hd
    exact ⟨hCount' ▸ ht, hFlight.of_frame hCount' (hSp' _) fun a _ => congrFun hMem' a⟩
  · rw [hCreates']
    exact h.alone
  · intro t ht
    rw [hTable'] at ht
    unfold lastEntry
    rw [lastOf_concat]
    exact h.fresh t (mt (hLive t).mpr ht)
  · intro t ht _
    rw [hTable'] at ht
    exact (hSuspended t ((hLive t).mp ht)).of_frame (hSp' t) (fun a _ => congrFun hMem' a)
      fun _ hExp => hExp.concat rfl rfl
  · rintro t ctx lr' hEq
    cases hEq
    rw [rtoskTaskGetStackPointer_eq hPos]
    exact hResumed

-- ---------------------------------------------------------------------------
-- Runs
-- ---------------------------------------------------------------------------

/-- **`Switching` is kept by every disciplined step that begins no creation
inside another.** -/
theorem Switching.step (h : Switching img funcs tr m) {l : Label} {es : List Event}
    (hDisc : Disciplined img m l) (hAlone : CreatesAlone m l)
    (hStep : StepCase img m l m' es) : Switching img funcs (tr ++ es) m' := by
  cases hStep with
  | kernel hEnter hExit _ hKernel =>
    rw [List.append_nil]
    exact h.of_same (sameStacks_kernel hEnter hExit hKernel) (h.dispatching.step hKernel)
  | pendSv hKernel _ => exact h.enter hDisc hKernel
  | pendSvEmpty hKernel hScan _ =>
    -- there is a task, so the scan begins
    obtain ⟨-, hSys⟩ := hKernel.of_pendSv
    have hSaves := enterPendSv_saves h.fpca h.dispatching.taskCount_pos hDisc
    have hPos : 0 < m.enterPendSv.table.taskCount := by
      rw [hSaves.table]
      exact h.dispatching.taskCount_pos
    obtain ⟨c, hBegin, -⟩ := selectNextBegin_eq hPos
    rw [hSys] at hScan
    exact absurd (hScan.symm.trans hBegin) nofun
  | pendSvExit hKernel hLeave => exact h.leave hKernel hLeave
  | work w hRunning =>
    rw [List.append_nil]
    exact h.of_same (sameStacks_work hRunning hDisc)
      (.of_thread hRunning.1 h.dispatching.taskCount_pos h.dispatching.taskCount_le
        h.dispatching.idleReady)
  | createRefused _ _ _ =>
    rw [List.append_nil]
    exact h
  | create func priority hThread _ hAccepts =>
    rw [List.append_nil]
    exact h.create hThread hAccepts hAlone
  | createStep hThread hAt => exact h.createStep hThread hAt

end TinyRtos.Machine
