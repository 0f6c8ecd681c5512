import Mathlib.Logic.Function.Basic
import Mathlib.Data.Set.Defs

/-!
# Single-slot wait registrations

Parties `τ` wait on objects `ο`; every object remembers at most one waiter in
its `slot`. A party is active, asleep (a timed wait no object knows of) or
waiting on one object. The moves are what a kernel does with such slots:

* `park t o` — an active party starts waiting on `o` and takes its slot,
  whoever was registered there before;
* `release o` — the registered waiter, if any, becomes active again and the
  slot is cleared;
* `doze t` — an active party falls asleep;
* `stir` — some of the sleepers become active.

`Sound` (a registration names a party that waits on that very object) holds
along all moves. `CompleteAt o` (a party that waits on `o` is registered
there) survives only while nobody parks on an occupied slot: `park` is the one
move that can lose a waiter.
-/

namespace WaitSlots

/-- What a party is doing. -/
inductive Mode (ο : Type*)
  | active
  | asleep
  | waiting (o : ο)

/-- The modes of the parties and the slots of the objects. -/
structure Slots (τ ο : Type*) where
  mode : τ → Mode ο
  slot : ο → Option τ

inductive Action (τ ο : Type*)
  | stir
  | park (t : τ) (o : ο)
  | release (o : ο)
  | doze (t : τ)

variable {τ ο : Type*} [DecidableEq τ] [DecidableEq ο]

/-- The moves, each with the action that names it. -/
inductive Move : Action τ ο → Slots τ ο → Slots τ ο → Prop
  | stir {r : Slots τ ο} {m : τ → Mode ο}
      (h : ∀ t, m t = r.mode t ∨ (r.mode t = .asleep ∧ m t = .active)) :
      Move .stir r ⟨m, r.slot⟩
  | park {r : Slots τ ο} {t : τ} {o : ο} (h : r.mode t = .active) :
      Move (.park t o) r
        ⟨Function.update r.mode t (.waiting o), Function.update r.slot o (some t)⟩
  | releaseNone {r : Slots τ ο} {o : ο} (h : r.slot o = none) : Move (.release o) r r
  | releaseSome {r : Slots τ ο} {o : ο} {t : τ} (h : r.slot o = some t) :
      Move (.release o) r
        ⟨Function.update r.mode t .active, Function.update r.slot o none⟩
  | doze {r : Slots τ ο} {t : τ} (h : r.mode t = .active) :
      Move (.doze t) r ⟨Function.update r.mode t .asleep, r.slot⟩

/-- Registrations are never stale. -/
def Sound (r : Slots τ ο) : Prop :=
  ∀ o t, r.slot o = some t → r.mode t = .waiting o

/-- No waiter of `o` is lost. -/
def CompleteAt (o : ο) (r : Slots τ ο) : Prop :=
  ∀ t, r.mode t = .waiting o → r.slot o = some t

omit [DecidableEq τ] [DecidableEq ο] in
/-- A sound registry registers a party with one object at most. -/
theorem Sound.slot_inj {r : Slots τ ο} (h : Sound r) {o o' : ο} {t : τ}
    (ho : r.slot o = some t) (ho' : r.slot o' = some t) : o = o' := by
  have hEq : Mode.waiting o = Mode.waiting o' := by rw [← h o t ho, h o' t ho']
  injection hEq

theorem Sound.move {a : Action τ ο} {r r' : Slots τ ο} (hSound : Sound r)
    (hMove : Move a r r') : Sound r' := by
  intro o t hSlot
  cases hMove with
  | stir h =>
    rcases h t with hSame | ⟨hAsleep, -⟩
    · exact hSame.trans (hSound o t hSlot)
    · rw [hSound o t hSlot] at hAsleep
      cases hAsleep
  | @park _ u p h =>
    simp only at hSlot ⊢
    by_cases hop : o = p
    · subst hop
      rw [Function.update_self, Option.some.injEq] at hSlot
      subst hSlot
      rw [Function.update_self]
    · rw [Function.update_of_ne hop] at hSlot
      have hMode := hSound o t hSlot
      -- the parking party is active, so it is registered nowhere
      have htu : t ≠ u := by
        rintro rfl
        rw [h] at hMode
        cases hMode
      rw [Function.update_of_ne htu]
      exact hMode
  | releaseNone => exact hSound o t hSlot
  | @releaseSome _ p u h =>
    simp only at hSlot ⊢
    have hop : o ≠ p := by
      rintro rfl
      rw [Function.update_self] at hSlot
      cases hSlot
    rw [Function.update_of_ne hop] at hSlot
    have htu : t ≠ u := by
      rintro rfl
      exact hop (hSound.slot_inj hSlot h)
    rw [Function.update_of_ne htu]
    exact hSound o t hSlot
  | @doze _ u h =>
    simp only at hSlot ⊢
    have hMode := hSound o t hSlot
    have htu : t ≠ u := by
      rintro rfl
      rw [h] at hMode
      cases hMode
    rw [Function.update_of_ne htu]
    exact hMode

/-- Waiters of `o` stay registered as long as nobody parks on an occupied slot
of `o`. -/
theorem CompleteAt.move {a : Action τ ο} {r r' : Slots τ ο} {o : ο}
    (hComplete : CompleteAt o r) (hMove : Move a r r')
    (hFree : ∀ t, a = .park t o → r.slot o = none) : CompleteAt o r' := by
  intro t hMode
  cases hMove with
  | stir h =>
    rcases h t with hSame | ⟨-, hActive⟩
    · exact hComplete t (hSame ▸ hMode)
    · exact absurd (hActive.symm.trans hMode) nofun
  | @park _ u p h =>
    simp only at hMode ⊢
    by_cases htu : t = u
    · subst htu
      rw [Function.update_self, Mode.waiting.injEq] at hMode
      subst hMode
      exact Function.update_self ..
    · rw [Function.update_of_ne htu] at hMode
      have hSlot := hComplete t hMode
      have hop : o ≠ p := by
        rintro rfl
        rw [hFree u rfl] at hSlot
        cases hSlot
      rw [Function.update_of_ne hop]
      exact hSlot
  | releaseNone => exact hComplete t hMode
  | @releaseSome _ p u h =>
    simp only at hMode ⊢
    by_cases htu : t = u
    · subst htu
      rw [Function.update_self] at hMode
      cases hMode
    · rw [Function.update_of_ne htu] at hMode
      have hSlot := hComplete t hMode
      have hop : o ≠ p := by
        rintro rfl
        rw [h, Option.some.injEq] at hSlot
        exact htu hSlot.symm
      rw [Function.update_of_ne hop]
      exact hSlot
  | @doze _ u h =>
    simp only at hMode ⊢
    have htu : t ≠ u := by
      rintro rfl
      rw [Function.update_self] at hMode
      cases hMode
    rw [Function.update_of_ne htu] at hMode
    exact hComplete t hMode

/-- A wait begins only by parking. -/
theorem Move.waiting_begins {a : Action τ ο} {r r' : Slots τ ο} {o : ο} {t : τ}
    (hMove : Move a r r') (hMode : r'.mode t = .waiting o) :
    r.mode t = .waiting o ∨ a = .park t o := by
  cases hMove with
  | stir h =>
    rcases h t with hSame | ⟨-, hActive⟩
    · exact Or.inl (hSame ▸ hMode)
    · exact absurd (hActive.symm.trans hMode) nofun
  | @park _ u p h =>
    simp only at hMode
    by_cases htu : t = u
    · subst htu
      rw [Function.update_self, Mode.waiting.injEq] at hMode
      exact Or.inr (by rw [hMode])
    · rw [Function.update_of_ne htu] at hMode
      exact Or.inl hMode
  | releaseNone => exact Or.inl hMode
  | @releaseSome _ p u h | @doze _ u h =>
    simp only at hMode
    by_cases htu : t = u
    · subst htu
      rw [Function.update_self] at hMode
      cases hMode
    · rw [Function.update_of_ne htu] at hMode
      exact Or.inl hMode

end WaitSlots
