import Mathlib.Logic.Function.Basic

/-!
# A word changed by loading and storing

Agents change a shared word by loading it, computing, and storing the result;
between the load and the store others may do so too. What one of them stores is
right for the parts of the word that nobody has stored meanwhile.

`Fresh part s` says that of one part: every loaded copy agrees with the word on
it.

* `Fresh.load`, `Fresh.store_keeps` — loads, and stores of operations that leave
  the part alone, keep it;
* `Fresh.store_alone` — so does a store that changes the part while no one else
  has the word loaded, and then it changes the part as the operation says.
-/

/-- `loaded` is the operation an agent is at, and its copy of the word. -/
structure SharedWord (α ι β : Type*) where
  word : β
  loaded : α → Option (ι × β)

namespace SharedWord

variable {α ι β γ : Type*} [DecidableEq α]

def load (a : α) (op : ι) (s : SharedWord α ι β) : SharedWord α ι β :=
  { s with loaded := Function.update s.loaded a (some (op, s.word)) }

def store (apply : ι → β → β) (a : α) (s : SharedWord α ι β) : SharedWord α ι β :=
  match s.loaded a with
  | none => s
  | some (op, copy) => { word := apply op copy, loaded := Function.update s.loaded a none }

omit [DecidableEq α] in
/-- Every copy agrees with the word on this part. -/
def Fresh (part : β → γ) (s : SharedWord α ι β) : Prop :=
  ∀ a op copy, s.loaded a = some (op, copy) → part copy = part s.word

variable {part : β → γ} {apply : ι → β → β} {s : SharedWord α ι β} {a : α} {op : ι} {copy : β}

omit [DecidableEq α] in
theorem fresh_of_none (h : ∀ a, s.loaded a = none) : Fresh part s := by
  intro a op copy hLoaded
  rw [h a] at hLoaded
  cases hLoaded

theorem Fresh.load (h : Fresh part s) (a : α) (op : ι) : Fresh part (s.load a op) := by
  intro b op' copy hLoaded
  by_cases hb : b = a
  · subst hb
    simp only [SharedWord.load, Function.update_self, Option.some.injEq, Prod.mk.injEq]
      at hLoaded
    rw [← hLoaded.2]
    rfl
  · simp only [SharedWord.load, Function.update_of_ne hb] at hLoaded
    exact h b op' copy hLoaded

theorem store_eq (hLoaded : s.loaded a = some (op, copy)) :
    s.store apply a =
      { word := apply op copy, loaded := Function.update s.loaded a none } := by
  unfold store
  rw [hLoaded]

/-- What others have loaded stays fresh if the part is stored as it was. -/
theorem Fresh.store_keeps (h : Fresh part s) (hLoaded : s.loaded a = some (op, copy))
    (hKeeps : ∀ w, part (apply op w) = part w) :
    Fresh part (s.store apply a) ∧ part (s.store apply a).word = part s.word := by
  have hPart : part (apply op copy) = part s.word := (hKeeps copy).trans (h a op copy hLoaded)
  rw [store_eq hLoaded]
  refine ⟨fun b op' copy' hb => ?_, hPart⟩
  by_cases hba : b = a
  · subst hba
    simp at hb
  · simp only [Function.update_of_ne hba] at hb
    exact (h b op' copy' hb).trans hPart.symm

/-- **No update is lost** on a part that is stored by one agent at a time. -/
theorem Fresh.store_alone (h : Fresh part s) (hLoaded : s.loaded a = some (op, copy))
    (hAlone : ∀ b, b ≠ a → s.loaded b = none) {g : γ → γ}
    (hActs : ∀ w, part (apply op w) = g (part w)) :
    Fresh part (s.store apply a) ∧ part (s.store apply a).word = g (part s.word) := by
  rw [store_eq hLoaded]
  refine ⟨fresh_of_none fun b => ?_, ?_⟩
  · by_cases hba : b = a
    · subst hba
      exact Function.update_self ..
    · exact (Function.update_of_ne hba _ _).trans (hAlone b hba)
  · rw [← h a op copy hLoaded]
    exact hActs copy

end SharedWord
