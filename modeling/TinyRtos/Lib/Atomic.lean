import TinyRtos.Lib.Runs

/-!
# Many steps as one

One system at two levels: `fine` takes one by one what `coarse` takes in one
step.

* `Run.simulate` — where the fine level goes on to the end of a coarse step by
  steps that are not seen from there, its runs are coarse runs;
* `Alone` — what is left of a stretch inside of which the fine level has a single
  label enabled, so that whatever else may happen happens before or after it;
* `Reduces` — a fine step from outside of stretches, with what is left of the
  stretch it begins, is a coarse step, or none;
* `Reduces.run` — then every fine run, once the stretch it is in is over, is a
  coarse run with the same events.
-/

namespace Runs

variable {σ ℓ ε : Type*} {step : σ → ℓ → Option (σ × List ε)} {l : ℓ} {Inside : σ → Prop}
  {s s' : σ} {tr : List ε}

section Simulation

variable {τ ℓ' : Type*} {coarse : τ → ℓ' → Option (τ × List ε)} {G : τ → ℓ' → Prop}
  {H : σ → ℓ → Prop} {s₀ : σ}

/-- **Simulation rule.** Every step is one of `coarse` as seen through `view`, or
changes nothing there and emits nothing. -/
theorem Run.simulate (view : σ → τ) (Inv : σ → Prop) (hInv : Inv s₀)
    (hStep : ∀ s l s' es, Inv s → H s l → step s l = some (s', es) → Inv s' ∧
      ((view s' = view s ∧ es = []) ∨
        ∃ m, G (view s) m ∧ coarse (view s) m = some (view s', es)))
    (hRun : Run step H s₀ tr s) : Inv s ∧ Run coarse G (view s₀) tr (view s) := by
  refine hRun.induct (fun tr s => Inv s ∧ Run coarse G (view s₀) tr (view s)) ⟨hInv, .start⟩ ?_
  rintro tr s l s' es ⟨hOld, hCoarse⟩ hH hs
  obtain ⟨hNew, ⟨hView, rfl⟩ | ⟨m, hG, hNext⟩⟩ := hStep s l s' es hOld hH hs
  · refine ⟨hNew, ?_⟩
    rw [hView, List.append_nil]
    exact hCoarse
  · exact ⟨hNew, hCoarse.next hG hNext⟩

end Simulation

/-- `l` alone is enabled inside a stretch, and leads from `s` out of it to `s'`. -/
inductive Alone (step : σ → ℓ → Option (σ × List ε)) (l : ℓ) (Inside : σ → Prop) :
    σ → List ε → σ → Prop
  | out {s : σ} (hOut : ¬ Inside s) : Alone step l Inside s [] s
  | cons {s s₁ s' : σ} {es tr : List ε} (hInside : Inside s)
      (hOnly : ∀ l', l' ≠ l → step s l' = none) (hStep : step s l = some (s₁, es))
      (hRest : Alone step l Inside s₁ tr s') : Alone step l Inside s (es ++ tr) s'

/-- It ends outside. -/
theorem Alone.ends (h : Alone step l Inside s tr s') : ¬ Inside s' := by
  induction h with
  | out hOut => exact hOut
  | cons _ _ _ _ ih => exact ih

/-- Outside there is nothing left. -/
theorem Alone.of_outside (h : Alone step l Inside s tr s') (hOut : ¬ Inside s) :
    tr = [] ∧ s' = s := by
  cases h with
  | out => exact ⟨rfl, rfl⟩
  | cons hInside => exact absurd hInside hOut

/-- Inside, the next step is the next of the stretch. -/
theorem Alone.next (h : Alone step l Inside s tr s') (hInside : Inside s) {l' : ℓ} {s₁ : σ}
    {es : List ε} (hStep : step s l' = some (s₁, es)) :
    ∃ tr', tr = es ++ tr' ∧ Alone step l Inside s₁ tr' s' := by
  cases h with
  | out hOut => exact absurd hInside hOut
  | cons _ hOnly hNext hRest =>
    have hSame : l' = l := by
      by_contra hOther
      rw [hOnly l' hOther] at hStep
      cases hStep
    subst hSame
    rw [hNext] at hStep
    cases hStep
    exact ⟨_, rfl, hRest⟩

/-- A run goes on through a stretch. -/
theorem Alone.run {G : σ → ℓ → Prop} {s₀ : σ} {tr₀ : List ε} (h : Alone step l Inside s tr s')
    (hRun : Run step G s₀ tr₀ s) (hG : ∀ s, G s l) : Run step G s₀ (tr₀ ++ tr) s' := by
  induction h generalizing tr₀ with
  | out =>
    rw [List.append_nil]
    exact hRun
  | cons _ _ hStep _ ih =>
    rw [← List.append_assoc]
    exact ih (hRun.next (hG _) hStep)

variable {τ ℓ' : Type*} {coarse : τ → ℓ' → Option (τ × List ε)} {G : τ → ℓ' → Prop}
  {H : σ → ℓ → Prop} {view : σ → τ} {Inv : σ → Prop} {s₀ : σ}

/-- Outside of stretches a step, with what is left of the stretch it begins,
is a step of `coarse` or changes nothing there, and keeps the invariant. -/
def Reduces (step : σ → ℓ → Option (σ × List ε)) (coarse : τ → ℓ' → Option (τ × List ε)) (l : ℓ)
    (Inside : σ → Prop) (view : σ → τ) (Inv : σ → Prop) (H : σ → ℓ → Prop) (G : τ → ℓ' → Prop)
    (s₀ : σ) : Prop :=
  ∀ tr s l' s₁ es, Run coarse G (view s₀) tr (view s) → Inv s → ¬ Inside s → H s l' →
    step s l' = some (s₁, es) → ∃ tr' s', Alone step l Inside s₁ tr' s' ∧ Inv s' ∧
      ((view s' = view s ∧ es ++ tr' = []) ∨
        ∃ m, G (view s) m ∧ coarse (view s) m = some (view s', es ++ tr'))

/-- **Stretches are steps.** -/
theorem Reduces.run (h : Reduces step coarse l Inside view Inv H G s₀) (hInv : Inv s₀)
    (hOut : ¬ Inside s₀) (hRun : Run step H s₀ tr s) :
    ∃ tr' s', Alone step l Inside s tr' s' ∧ Inv s' ∧
      Run coarse G (view s₀) (tr ++ tr') (view s') := by
  refine hRun.induct (fun tr s => ∃ tr' s', Alone step l Inside s tr' s' ∧ Inv s' ∧
    Run coarse G (view s₀) (tr ++ tr') (view s')) ⟨[], s₀, .out hOut, hInv, .start⟩ ?_
  rintro tr s l' s₁ es ⟨tr', s', hAlone, hInv', hCoarse⟩ hH hStep
  by_cases hInside : Inside s
  · obtain ⟨rest, rfl, hRest⟩ := hAlone.next hInside hStep
    refine ⟨rest, s', hRest, hInv', ?_⟩
    rw [List.append_assoc]
    exact hCoarse
  · obtain ⟨rfl, rfl⟩ := hAlone.of_outside hInside
    rw [List.append_nil] at hCoarse
    obtain ⟨rest, s₂, hRest, hInv₂, hSame | ⟨m, hG, hNext⟩⟩ :=
      h tr s' l' s₁ es hCoarse hInv' hInside hH hStep
    · refine ⟨rest, s₂, hRest, hInv₂, ?_⟩
      rw [List.append_assoc, hSame.1, hSame.2, List.append_nil]
      exact hCoarse
    · refine ⟨rest, s₂, hRest, hInv₂, ?_⟩
      rw [List.append_assoc]
      exact hCoarse.next hG hNext

end Runs
