import TinyRtos.Bsp.Led
import TinyRtos.Kernel.Control

/-!
# TinyRTOS — the LEDs between tasks

A task that is preempted between its two accesses to `GPIOB->ODR` stores what
the register was before, and undoes what others did to their LEDs meanwhile.
Priorities decide which LEDs that can happen to.

* `leds_follow` — an LED that is used by a task of lower priority than all
  others that use LEDs is as the calls for it say, in every run of programs that
  call the kernel with interrupts unmasked and make no object twice;
* an example: of the two LEDs of `examples/osi`, the toggle of the one whose
  task has the higher priority is lost.
-/

namespace TinyRtos

-- ---------------------------------------------------------------------------
-- Bits
-- ---------------------------------------------------------------------------

/-- The pin of an LED. -/
def pin (i : Nat) (odr : BitVec 32) : Bool := odr.getLsbD i

/-- What a call says of an LED. -/
def LedCall.effect (led : Nat) : LedCall → Bool → Bool
  | .setOnBoardLed l state, lit => if l = led then state = 1 else lit
  | .toggleOnBoardLed l, lit => if l = led then !lit else lit

theorem pin_ledBit {led i : Nat} (hLed : led ≤ led2) :
    (ledBit led).getLsbD i = decide (led * 7 = i) := by
  have hLt : led * 7 < 32 := by
    unfold led2 at hLed
    omega
  simp [ledBit, hLt]

/-- The calls that get past their checks. -/
theorem LedCall.access_cases {call : LedCall} (h : call.access.isSome) :
    call.led ≤ led2 ∧ ((∃ led, call = .setOnBoardLed led 1 ∧
        call.odr = fun odr => odr ||| ledBit led) ∨
      (∃ led, call = .setOnBoardLed led 0 ∧ call.odr = fun odr => odr &&& ~~~ledBit led) ∨
      ∃ led, call = .toggleOnBoardLed led ∧ call.odr = fun odr => odr ^^^ ledBit led) := by
  cases call with
  | setOnBoardLed led state =>
    simp only [odr, access, rtoskBspF756zgSetOnBoardLed] at h ⊢
    split at h
    · cases h
    · rename_i hLed
      split at h
      · rename_i hOn
        subst hOn
        exact ⟨Nat.le_of_not_lt hLed, Or.inl ⟨led, rfl, by simp [hLed]⟩⟩
      · split at h
        · rename_i hOff
          subst hOff
          exact ⟨Nat.le_of_not_lt hLed, Or.inr (Or.inl ⟨led, rfl, by simp [hLed]⟩)⟩
        · cases h
  | toggleOnBoardLed led =>
    simp only [odr, access, rtoskBspF756zgToggleOnBoardLed] at h ⊢
    split at h
    · cases h
    · rename_i hLed
      exact ⟨Nat.le_of_not_lt hLed, Or.inr (Or.inr ⟨led, rfl, by simp [hLed]⟩)⟩

/-- A call stores every other pin as it loaded it. -/
theorem LedCall.pin_other {call : LedCall} (h : call.access.isSome) {i : Nat}
    (hPin : call.led * 7 ≠ i) (odr : BitVec 32) : pin i (call.odr odr) = pin i odr := by
  by_cases hi : i < 32
  · obtain ⟨hLed, ⟨led, rfl, hOdr⟩ | ⟨led, rfl, hOdr⟩ | ⟨led, rfl, hOdr⟩⟩ := access_cases h
    all_goals
      have hBit : (ledBit led).getLsbD i = false :=
        (pin_ledBit hLed).trans (decide_eq_false hPin)
      simp only [hOdr, pin, BitVec.getLsbD_or, BitVec.getLsbD_and, BitVec.getLsbD_xor,
        BitVec.getLsbD_not, hBit, hi]
      simp
  · simp only [pin, BitVec.getLsbD_of_ge _ _ (Nat.le_of_not_lt hi)]

theorem LedCall.pin_odr {call : LedCall} (h : call.access.isSome) {led : Nat}
    (hLed : led ≤ led2) (odr : BitVec 32) :
    pin (led * 7) (call.odr odr) = call.effect led (pin (led * 7) odr) := by
  by_cases hSame : call.led = led
  · obtain ⟨-, ⟨l, rfl, hOdr⟩ | ⟨l, rfl, hOdr⟩ | ⟨l, rfl, hOdr⟩⟩ := access_cases h
    all_goals
      obtain rfl : l = led := hSame
      have hBit : (ledBit l).getLsbD (l * 7) = true := (pin_ledBit hLed).trans (decide_eq_true rfl)
      simp only [hOdr, pin, effect, BitVec.getLsbD_or, BitVec.getLsbD_and, BitVec.getLsbD_xor,
        BitVec.getLsbD_not, hBit]
      simp
  · rw [pin_other h (by omega)]
    cases call with
    | setOnBoardLed l state => exact (if_neg hSame).symm
    | toggleOnBoardLed l => exact (if_neg hSame).symm

-- ---------------------------------------------------------------------------
-- Who may run between the accesses of a task
-- ---------------------------------------------------------------------------

namespace System

variable [TaskConfig] {s s' : System} {l : Label} {es : List Event} {t : Nat}

/-- The current task runs before `t` by right. -/
def Precedes (t : Nat) (s : System) : Prop :=
  t ≠ s.kernel.currentTask → s.scan = none → s.kernel.currentTask < s.kernel.taskCount →
    (s.kernel.pendSv = true ∧ s.kernel.Unmasked) ∨
      (s.kernel.tasks t).priority ≤ (s.kernel.tasks s.kernel.currentTask).priority

/-- A task in no call is READY. -/
theorem Control.ready_of_user (h : Control s) (ht : t < s.kernel.taskCount)
    (hPc : s.pc t = .user) : ReadyUser s.kernel.toTaskTable t := by
  refine ⟨ht, ?_⟩
  by_contra hNot
  obtain ⟨c, hCall, -⟩ := h.place t ht hNot
  rw [hPc] at hCall
  cases hCall

omit [TaskConfig] in
/-- Thread code is the code of a task that precedes `t`. -/
theorem Precedes.of_thread (h : Precedes t s) (hThread : s.Thread)
    (ht : t ≠ s.kernel.currentTask) :
    (s.kernel.tasks t).priority ≤ (s.kernel.tasks s.kernel.currentTask).priority :=
  (h ht hThread.1 hThread.2.1).resolve_left hThread.2.2

/-- A task in no call begins one, or stays in none. -/
theorem user_step (hPc : s.pc t = .user) (hCall : l.isCall → t ≠ s.kernel.currentTask)
    (hStep : StepCase s l s' es) : s'.pc t = .user := by
  cases hStep with
  | perform _ hAt hCallStep =>
    have hne : t ≠ s.kernel.currentTask := by
      rcases hAt with ⟨rfl, -⟩ | ⟨-, hAt, -⟩
      · exact hCall rfl
      · rintro rfl
        rw [hPc] at hAt
        cases hAt
    simp only [setPc, Function.update_of_ne hne, hCallStep.frame.1]
    exact hPc
  | yield _ hAt =>
    have hne : t ≠ s.kernel.currentTask := by
      rintro rfl
      rw [hPc] at hAt
      cases hAt
    simp only [setPc, Function.update_of_ne hne]
    exact hPc
  | resume => simp only [setPc, Function.update_apply, hPc, ite_self]
  | isr _ hIsr => exact (congrFun hIsr.frame.1 t).trans hPc
  | pendSvEmpty | pendSv | scan | pendSvExit => exact hPc

/-- **A task in no call is preempted by its equals and its betters only.** -/
theorem Precedes.step (h : Precedes t s) (hControl : Control s) (ht : t < s.kernel.taskCount)
    (hPc : s.pc t = .user) (hStep : StepCase s l s' es) : Precedes t s' := by
  have hSetup := hStep.setup
  have hSame : s.Thread → s'.kernel.currentTask = s.kernel.currentTask → Precedes t s' := by
    intro hThread hCur hne _ _
    rw [hCur] at hne ⊢
    rw [hSetup.priority, hSetup.priority]
    exact Or.inr (h.of_thread hThread hne)
  cases hStep with
  | perform hThread _ hCall => exact hSame hThread hCall.frame.2.2.1
  | yield hThread _ => exact hSame hThread rfl
  | resume hThread _ _ => exact hSame hThread rfl
  | isr hUnmasked hIsr =>
    intro hne hScan hUser
    obtain ⟨-, hScan', hCur, hPrimask, -⟩ := hIsr.frame
    rw [hCur] at hne hUser ⊢
    rw [hScan'] at hScan
    rw [hSetup.taskCount] at hUser
    rw [hSetup.priority, hSetup.priority]
    have hUnmasked' : s'.kernel.Unmasked := by
      unfold Kernel.Unmasked
      rw [hPrimask]
      exact hUnmasked
    rcases hIsr.pend with hPend | ⟨-, hPend⟩
    · exact Or.inl ⟨hPend, hUnmasked'⟩
    · rw [hPend]
      exact (h hne hScan hUser).imp (fun hOld => ⟨hOld.1, hUnmasked'⟩) id
  | pendSvEmpty _ _ _ hBegin =>
    obtain ⟨c, hSome, -⟩ := selectNextBegin_eq hControl.dispatching.taskCount_pos
    rw [hBegin] at hSome
    cases hSome
  | pendSv => exact fun _ hScan => absurd hScan (Option.some_ne_none _)
  | scan => exact fun _ hScan => absurd hScan (Option.some_ne_none _)
  | @pendSvExit c hScan hDone =>
    intro _ _ hUser
    have hUnmasked : s.kernel.Unmasked := by
      by_contra hMasked
      have hNone := (hControl.masked hMasked).1
      rw [hScan] at hNone
      cases hNone
    simp only [Kernel.onTable_toTaskTable, Kernel.onTable_pendSv] at hUser ⊢
    rcases hControl.dispatching.selects hScan hDone with ⟨b, hEnd, -, hBest⟩ | ⟨hEnd, hNone⟩
    · rw [hEnd]
      exact hBest.imp (fun hPend => ⟨hPend, hUnmasked⟩)
        fun hMax => hMax t (hControl.ready_of_user ht hPc)
    · -- idle, while `t` is READY
      exact Or.inl ⟨hNone.resolve_right fun hNobody =>
        hNobody t (hControl.ready_of_user ht hPc), hUnmasked⟩

end System

namespace Leds

/-- The tasks keep to the LEDs they use, call the kernel with interrupts unmasked
and do not initialise an object again. -/
def Programs (uses : Nat → Nat → Prop) (c : Leds) : Label → Prop
  | .sys l => System.CallsUnmasked c.sys l
  | .load call => uses c.current call.led
  | .store => True

instance (uses : Nat → Nat → Prop) [∀ t l, Decidable (uses t l)] (c : Leds) (l : Label) :
    Decidable (Programs uses c l) :=
  match l with
  | .sys l => inferInstanceAs (Decidable (System.CallsUnmasked c.sys l))
  | .load call => inferInstanceAs (Decidable (uses c.current call.led))
  | .store => inferInstanceAs (Decidable True)

/-- The calls that have stored, in that order. -/
def calls (tr : List Event) : List LedCall :=
  tr.map fun
    | .stored _ call => call

variable [TaskConfig] {uses : Nat → Nat → Prop} {led : Nat} {odr₀ : BitVec 32} {c c' : Leds}
  {tr es : List Event}

/-- What is known of the tasks between their accesses. -/
structure Accessing (uses : Nat → Nat → Prop) (c : Leds) : Prop where
  control  : System.Control c.sys
  task     : ∀ t call copy, c.odr.loaded t = some (call, copy) →
    call.access.isSome ∧ uses t call.led ∧ t < c.sys.kernel.taskCount ∧ c.sys.pc t = .user
  precedes : ∀ t, c.odr.loaded t ≠ none → c.sys.Precedes t

theorem Accessing.sys (h : Accessing uses c) {l : TinyRtos.Label} {s' : System}
    {ks : List TinyRtos.Event} (hGuard : System.CallsUnmasked c.sys l)
    (hOther : ¬ (l.isCall ∧ c.odr.loaded c.current ≠ none))
    (hStep : System.StepCase c.sys l s' ks) : Accessing uses { c with sys := s' } := by
  refine ⟨h.control.step hGuard hStep, fun t call copy hLoaded => ?_, fun t hLoaded => ?_⟩
  · obtain ⟨hAccess, hUses, ht, hPc⟩ := h.task t call copy hLoaded
    refine ⟨hAccess, hUses, ?_, ?_⟩
    · show t < s'.kernel.taskCount
      rw [hStep.setup.taskCount]
      exact ht
    · refine System.user_step hPc (fun hCall => ?_) hStep
      rintro rfl
      exact hOther ⟨hCall, Option.ne_none_iff_exists'.mpr ⟨_, hLoaded⟩⟩
  · obtain ⟨⟨call, copy⟩, hAt⟩ := Option.ne_none_iff_exists'.mp hLoaded
    obtain ⟨-, -, ht, hPc⟩ := h.task t call copy hAt
    exact (h.precedes t hLoaded).step h.control ht hPc hStep

theorem Accessing.load (h : Accessing uses c) {call : LedCall} (hAccess : call.access.isSome)
    (hUses : uses c.current call.led) (hThread : c.sys.Thread)
    (hPc : c.sys.pc c.current = .user) :
    Accessing uses { c with odr := c.odr.load c.current call } := by
  refine ⟨h.control, fun t call' copy hLoaded => ?_, fun t hLoaded => ?_⟩
  · by_cases ht : t = c.current
    · subst ht
      simp only [SharedWord.load, Function.update_self, Option.some.injEq, Prod.mk.injEq]
        at hLoaded
      obtain ⟨rfl, -⟩ := hLoaded
      exact ⟨hAccess, hUses, hThread.2.1, hPc⟩
    · simp only [SharedWord.load, Function.update_of_ne ht] at hLoaded
      exact h.task t call' copy hLoaded
  · by_cases ht : t = c.current
    · exact fun hne => absurd ht hne
    · simp only [SharedWord.load, Function.update_of_ne ht] at hLoaded
      exact h.precedes t hLoaded

theorem Accessing.store (h : Accessing uses c) {call : LedCall} {copy : BitVec 32}
    (hLoaded : c.odr.loaded c.current = some (call, copy)) :
    Accessing uses { c with odr := c.odr.store LedCall.odr c.current } := by
  have hSome {t : Nat} {p : LedCall × BitVec 32}
      (hAt : (c.odr.store LedCall.odr c.current).loaded t = some p) :
      c.odr.loaded t = some p := by
    simp only [SharedWord.store_eq hLoaded] at hAt
    by_cases ht : t = c.current
    · subst ht
      simp at hAt
    · rwa [Function.update_of_ne ht] at hAt
  refine ⟨h.control, fun t call' copy' hAt => h.task t call' copy' (hSome hAt), fun t hAt => ?_⟩
  obtain ⟨p, hp⟩ := Option.ne_none_iff_exists'.mp hAt
  exact h.precedes t (by rw [hSome hp]; exact Option.some_ne_none p)

/-- How the LEDs are in a run so far, from `odr₀` on. -/
structure Follows (odr₀ : BitVec 32) (led : Nat) (tr : List Event) (c : Leds) : Prop where
  fresh : SharedWord.Fresh (pin (led * 7)) c.odr
  lit   : pin (led * 7) c.odr.word =
    (calls tr).foldl (fun lit call => call.effect led lit) (pin (led * 7) odr₀)

/-- The task that uses `led` is outranked by all others that use LEDs. -/
def Lowest (uses : Nat → Nat → Prop) (led : Nat) (k : TaskTable) : Prop :=
  ∀ t u l, t ≠ u → uses t led → uses u l → (k.tasks t).priority < (k.tasks u).priority

/-- A store to an LED that `Lowest` is about comes when no one is between its
accesses. -/
theorem Accessing.alone (h : Accessing uses c) {call : LedCall} {copy : BitVec 32}
    (hLowest : Lowest uses call.led c.sys.kernel.toTaskTable) (hThread : c.sys.Thread)
    (hLoaded : c.odr.loaded c.current = some (call, copy)) :
    ∀ t, t ≠ c.current → c.odr.loaded t = none := by
  intro t ht
  by_contra hSome
  obtain ⟨⟨call', copy'⟩, hAt⟩ := Option.ne_none_iff_exists'.mp hSome
  have hLt := hLowest c.current t call'.led (Ne.symm ht) (h.task _ _ _ hLoaded).2.1
    (h.task _ _ _ hAt).2.1
  have hLe := (h.precedes t hSome).of_thread hThread ht
  exact absurd hLt (UInt32.not_lt.mpr hLe)

omit [TaskConfig] in
theorem Follows.store (h : Follows odr₀ led tr c) (hLed : led ≤ led2) {call : LedCall}
    {copy : BitVec 32} (hLoaded : c.odr.loaded c.current = some (call, copy))
    (hAccess : call.access.isSome)
    (hAlone : call.led = led → ∀ t, t ≠ c.current → c.odr.loaded t = none) :
    Follows odr₀ led (tr ++ [.stored c.current call])
      { c with odr := c.odr.store LedCall.odr c.current } := by
  have hStore : SharedWord.Fresh (pin (led * 7)) (c.odr.store LedCall.odr c.current) ∧
      pin (led * 7) (c.odr.store LedCall.odr c.current).word =
        call.effect led (pin (led * 7) c.odr.word) := by
    by_cases hSame : call.led = led
    · exact h.fresh.store_alone hLoaded (hAlone hSame) (LedCall.pin_odr hAccess hLed)
    · have hPin : call.led * 7 ≠ led * 7 := by omega
      obtain ⟨hFresh, hWord⟩ := h.fresh.store_keeps hLoaded (LedCall.pin_other hAccess hPin)
      refine ⟨hFresh, hWord.trans ?_⟩
      rw [← LedCall.pin_odr hAccess hLed, LedCall.pin_other hAccess hPin]
  refine ⟨hStore.1, hStore.2.trans ?_⟩
  rw [h.lit]
  simp [calls]

/-- What holds along every run. -/
structure Lit (uses : Nat → Nat → Prop) (led : Nat) (odr₀ : BitVec 32) (tr : List Event)
    (c : Leds) : Prop where
  accessing : Accessing uses c
  lowest    : Lowest uses led c.sys.kernel.toTaskTable
  follows   : Follows odr₀ led tr c
  others    : ∀ i, (∀ l ≤ led2, l * 7 ≠ i) →
    SharedWord.Fresh (pin i) c.odr ∧ pin i c.odr.word = pin i odr₀

theorem Lit.step (h : Lit uses led odr₀ tr c) (hLed : led ≤ led2) {l : Label}
    (hGuard : Programs uses c l) (hStep : c.step l = some (c', es)) :
    Lit uses led odr₀ (tr ++ es) c' := by
  cases l with
  | sys l =>
    simp only [Leds.step] at hStep
    split at hStep
    · cases hStep
    · rename_i hOther
      obtain ⟨⟨s', ks⟩, hSys, hEq⟩ := Option.map_eq_some_iff.mp hStep
      cases hEq
      have hCase := System.step_cases hSys
      rw [List.append_nil]
      refine ⟨h.accessing.sys hGuard hOther hCase, fun t u l hne ht hu => ?_,
        ⟨h.follows.fresh, h.follows.lit⟩, h.others⟩
      rw [hCase.setup.priority, hCase.setup.priority]
      exact h.lowest t u l hne ht hu
  | load call =>
    simp only [Leds.step] at hStep
    split at hStep
    · rename_i hPc _
      split at hStep
      · rename_i hThread
        split at hStep
        · rename_i hAccess
          cases hStep
          rw [List.append_nil]
          exact ⟨h.accessing.load hAccess hGuard hThread hPc, h.lowest,
            ⟨h.follows.fresh.load _ _, h.follows.lit⟩,
            fun i hi => ⟨(h.others i hi).1.load _ _, (h.others i hi).2⟩⟩
        · cases hStep
          rw [List.append_nil]
          exact h
      · cases hStep
    · cases hStep
  | store =>
    simp only [Leds.step] at hStep
    split at hStep
    · cases hStep
    · rename_i call copy hLoaded
      split at hStep
      · rename_i hThread
        cases hStep
        have hAccess := (h.accessing.task _ _ _ hLoaded).1
        refine ⟨h.accessing.store hLoaded, h.lowest,
          h.follows.store hLed hLoaded hAccess fun hSame => ?_, fun i hi => ?_⟩
        · subst hSame
          exact h.accessing.alone h.lowest hThread hLoaded
        · have hCallLed := (LedCall.access_cases hAccess).1
          obtain ⟨hFresh, hWord⟩ := (h.others i hi).1.store_keeps hLoaded
            (LedCall.pin_other hAccess (hi _ hCallLed))
          exact ⟨hFresh, hWord.trans (h.others i hi).2⟩
      · cases hStep

/-- **The LED of the lowest task.** Where tasks toggle and set LEDs without
keeping each other out, an LED that is used by one task only, and that one of
lower priority than all others that use LEDs, is what its calls make of it one
after the other; and no call ever changes another pin of the port than the three
LEDs'. That is so after every run in which the tasks keep to the LEDs that `uses`
gives them, make kernel calls unmasked, and initialise nothing again
(`Programs`). -/
theorem leds_follow {c₀ : Leds} (hStarted : System.Started c₀.sys)
    (hNone   : ∀ t, c₀.odr.loaded t = none)
    (hLed    : led ≤ led2)
    (hLowest : Lowest uses led c₀.sys.kernel.toTaskTable)
    (hRun    : Runs.Run step (Programs uses) c₀ tr c) :
    pin (led * 7) c.odr.word =
      (calls tr).foldl (fun lit call => call.effect led lit) (pin (led * 7) c₀.odr.word) ∧
    ∀ i, (∀ l ≤ led2, l * 7 ≠ i) → pin i c.odr.word = pin i c₀.odr.word := by
  have hStart : Lit uses led c₀.odr.word [] c₀ := by
    refine ⟨⟨hStarted.control, fun t call copy hLoaded => ?_, fun t hLoaded => ?_⟩, hLowest,
      ⟨SharedWord.fresh_of_none hNone, rfl⟩, fun i _ => ⟨SharedWord.fresh_of_none hNone, rfl⟩⟩
    · rw [hNone t] at hLoaded
      cases hLoaded
    · exact absurd (hNone t) hLoaded
  have hInv := hRun.induct (Lit uses led c₀.odr.word) hStart
    fun _ _ _ _ _ h hGuard hStep => h.step hLed hGuard hStep
  exact ⟨hInv.follows.lit, fun i hi => (hInv.others i hi).2⟩

end Leds

-- ---------------------------------------------------------------------------
-- Two LEDs
-- ---------------------------------------------------------------------------

namespace Leds

/-- The shell, `led0` and `led1`, as `examples/osi` creates them. -/
def osiExample : Leds where
  sys := System.boot [3, 2, 1] (fun _ => rtoskSemaphoreInit 0)
    fun _ => ⟨fun _ => 0, 1, 2, 0, 0, 0, rtoskQueueNoWaiter⟩
  odr := { word := 0, loaded := fun _ => none }

/-- Task `1` toggles LED `0`, task `2` LED `1`. -/
def osiUses (t led : Nat) : Prop := t = led + 1 ∧ led < 2

instance (t led : Nat) : Decidable (osiUses t led) := inferInstanceAs (Decidable (_ ∧ _))

def osiSwitch : List Label :=
  [.sys .pendSv, .sys .scan, .sys .scan, .sys .scan, .sys .pendSvExit]

/-- `led1` is preempted in its toggle by `led0`, which toggles for the second
time. -/
def osiRun : List Label :=
  [.sys (.call (.queueReceive (some 0) (some fun _ => 0))), .sys .yield] ++ osiSwitch ++
  [.load (.toggleOnBoardLed 0), .store, .sys (.call (.sleepMs 1)), .sys .yield] ++ osiSwitch ++
  [.load (.toggleOnBoardLed 1), .sys .tick] ++ osiSwitch ++
  [.sys .resume, .load (.toggleOnBoardLed 0), .store, .sys (.call (.sleepMs 1)), .sys .yield] ++
  osiSwitch ++ [.store]

/-- `led1` is as its toggles say; `led0` was toggled twice and is on. -/
theorem leds_follow_osi :
    ∃ tr c, Runs.Run step (Programs osiUses) osiExample tr c ∧
      calls tr = [.toggleOnBoardLed 0, .toggleOnBoardLed 0, .toggleOnBoardLed 1] ∧
      pin 0 c.odr.word = true ∧
      pin (1 * 7) c.odr.word =
        (calls tr).foldl (fun lit call => call.effect 1 lit) (pin (1 * 7) 0) := by
  obtain ⟨tr, c, hRun, hCalls, hLost⟩ :=
    Runs.exists_run_of_exec step (Programs osiUses) osiExample osiRun
      (fun tr c => calls tr = [.toggleOnBoardLed 0, .toggleOnBoardLed 0, .toggleOnBoardLed 1] ∧
        pin 0 c.odr.word = true)
      (by decide +kernel)
  have hStarted : System.Started osiExample.sys :=
    System.boot_started (by decide) (fun _ => rfl) fun _ => ⟨rfl, rfl, rfl, rfl⟩
  have hLowest : Lowest osiUses 1 osiExample.sys.kernel.toTaskTable := by
    rintro t u l hne ⟨rfl, -⟩ ⟨rfl, hl⟩
    obtain rfl | rfl : l = 0 ∨ l = 1 := by omega
    · decide
    · exact absurd rfl hne
  exact ⟨tr, c, hRun, hCalls, hLost,
    (leds_follow hStarted (fun _ => rfl) (by decide) hLowest hRun).1⟩

end Leds

end TinyRtos
