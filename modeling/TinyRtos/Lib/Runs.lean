import Mathlib.Algebra.BigOperators.Group.Finset.Basic
import Mathlib.Algebra.Order.BigOperators.Group.List
import Mathlib.Algebra.Order.Group.Nat
import Mathlib.Algebra.Order.Ring.Nat
import Mathlib.Data.List.Induction

/-!
# Guarded runs of a step function

A system is a partial step function `step : σ → ℓ → Option (σ × List ε)`: on a
label it either moves and emits events, or the label is not enabled. A
`Run step G s₀ tr s` is a finite sequence of steps from `s₀` to `s`, each of
which met the guard `G` in the state it was taken from; `tr` lists the events
in order. A theorem about every `Run` is a theorem about every interleaving of
the labels.

* `Run.induct` — the invariant rule, for invariants over state and history;
* `Run.weaken` — a stronger guard admits fewer runs;
* `exists_run_of_exec` — replaying a list of labels gives a run, so that a
  concrete run is checked by evaluation;
* `Goes` — steps of one label alone;
* `split_append` — where an event of an extended history sits;
* `lastOf` — the last event of a kind;
* `tally` — what the events of a history add up to;
* `watch` — the same steps, with an observer's remarks among the events;
* `feed` — a step function that takes every label, on a list of them.
-/

namespace Runs

variable {σ ℓ ε : Type*}

/-- Runs of `step` from `s₀` whose every step meets `G`, with the events they
emit. -/
inductive Run (step : σ → ℓ → Option (σ × List ε)) (G : σ → ℓ → Prop) (s₀ : σ) :
    List ε → σ → Prop
  | start : Run step G s₀ [] s₀
  | next {tr : List ε} {s : σ} {l : ℓ} {s' : σ} {es : List ε} :
      Run step G s₀ tr s → G s l → step s l = some (s', es) →
      Run step G s₀ (tr ++ es) s'

variable {step : σ → ℓ → Option (σ × List ε)} {G G' : σ → ℓ → Prop} {s₀ : σ}

/-- **Invariant rule.** What holds at the start and is kept by every guarded
step holds, with its history, after every run. -/
theorem Run.induct (I : List ε → σ → Prop) (hStart : I [] s₀)
    (hStep : ∀ tr s l s' es, I tr s → G s l → step s l = some (s', es) → I (tr ++ es) s')
    {tr : List ε} {s : σ} (h : Run step G s₀ tr s) : I tr s := by
  induction h with
  | start => exact hStart
  | next _ hG hs ih => exact hStep _ _ _ _ _ ih hG hs

/-- A run under a guard is a run under every weaker one. -/
theorem Run.weaken (hGG' : ∀ s l, G s l → G' s l) {tr : List ε} {s : σ}
    (h : Run step G s₀ tr s) : Run step G' s₀ tr s := by
  induction h with
  | start => exact .start
  | next _ hG hs ih => exact .next ih (hGG' _ _ hG) hs

-- ---------------------------------------------------------------------------
-- Replaying labels
-- ---------------------------------------------------------------------------

/-- Take the steps of a list of labels in order, each under the guard. -/
def exec (step : σ → ℓ → Option (σ × List ε)) (G : σ → ℓ → Prop)
    [∀ s l, Decidable (G s l)] : σ → List ℓ → Option (List ε × σ)
  | s, [] => some ([], s)
  | s, l :: ls =>
    if G s l then
      match step s l with
      | none => none
      | some (s', es) => (exec step G s' ls).map fun r => (es ++ r.1, r.2)
    else none

/-- A replay's first step and the rest of it. -/
theorem exec_cons [∀ s l, Decidable (G s l)] {l : ℓ} {ls : List ℓ} {s : σ} {r : List ε × σ}
    (h : exec step G s (l :: ls) = some r) :
    G s l ∧ ∃ s₁ es tr, step s l = some (s₁, es) ∧ exec step G s₁ ls = some (tr, r.2) ∧
      r.1 = es ++ tr := by
  rw [exec] at h
  split at h
  · rename_i hG
    cases hs : step s l with
    | none => simp [hs] at h
    | some next =>
      simp only [hs, Option.map_eq_some_iff] at h
      obtain ⟨rest, hRest, rfl⟩ := h
      exact ⟨hG, next.1, next.2, rest.1, rfl, hRest, rfl⟩
  · cases h

theorem exec_of_step [∀ s l, Decidable (G s l)] {l : ℓ} {ls : List ℓ} {s s₁ s' : σ}
    {es tr : List ε} (hG : G s l) (hStep : step s l = some (s₁, es))
    (h : exec step G s₁ ls = some (tr, s')) : exec step G s (l :: ls) = some (es ++ tr, s') := by
  rw [exec, if_pos hG]
  simp only [hStep, h, Option.map_some]

theorem Run.exec [∀ s l, Decidable (G s l)] {ls : List ℓ} {tr es : List ε} {s s' : σ}
    (hRun : Run step G s₀ tr s) (h : Runs.exec step G s ls = some (es, s')) :
    Run step G s₀ (tr ++ es) s' := by
  induction ls generalizing tr s es with
  | nil =>
    obtain ⟨rfl, rfl⟩ := Prod.mk.inj (Option.some.inj h)
    rw [List.append_nil]
    exact hRun
  | cons l rest ih =>
    obtain ⟨hG, s₁, first, tr', hStep, hRest, rfl⟩ := exec_cons h
    rw [← List.append_assoc]
    exact ih (hRun.next hG hStep) hRest

/-- A guard a replay meets does not change it. -/
theorem exec_unguarded [∀ s l, Decidable (G s l)] {ls : List ℓ} {s : σ} {r : List ε × σ}
    (h : exec step G s ls = some r) : exec step (fun _ _ => True) s ls = some r := by
  induction ls generalizing s r with
  | nil => exact h
  | cons l rest ih =>
    obtain ⟨-, s₁, es, tr, hStep, hRest, hEq⟩ := exec_cons h
    rw [exec_of_step trivial hStep (ih hRest), ← hEq]

/-- A replay begins with the replay of its first labels. -/
theorem exec_append [∀ s l, Decidable (G s l)] {before after : List ℓ} {s : σ} {r : List ε × σ}
    (h : exec step G s (before ++ after) = some r) : ∃ r', exec step G s before = some r' := by
  induction before generalizing s r with
  | nil => exact ⟨_, rfl⟩
  | cons l rest ih =>
    obtain ⟨hG, s₁, es, tr, hStep, hRest, -⟩ := exec_cons h
    obtain ⟨⟨tr', s'⟩, hBefore⟩ := ih hRest
    exact ⟨_, exec_of_step hG hStep hBefore⟩

/-- A replay that ends in a history and a state satisfying `P` is a run to such
a state. -/
theorem exists_run_of_exec (step : σ → ℓ → Option (σ × List ε)) (G : σ → ℓ → Prop)
    [∀ s l, Decidable (G s l)] (s₀ : σ) (ls : List ℓ) (P : List ε → σ → Prop)
    [∀ tr s, Decidable (P tr s)]
    (h : (exec step G s₀ ls).any (fun r => decide (P r.1 r.2)) = true) :
    ∃ tr s, Run step G s₀ tr s ∧ P tr s := by
  cases hr : exec step G s₀ ls with
  | none => simp [hr] at h
  | some r =>
    simp only [hr, Option.any_some, decide_eq_true_eq] at h
    have hRun := Run.exec (G := G) Run.start hr
    exact ⟨r.1, r.2, by simpa using hRun, h⟩

/-- Steps of one label alone, as many as it takes, lead from `s` to `s'`. -/
def Goes (step : σ → ℓ → Option (σ × List ε)) (l : ℓ) (s : σ) (tr : List ε) (s' : σ) : Prop :=
  ∃ k, exec step (fun _ _ => True) s (List.replicate k l) = some (tr, s')

theorem Goes.refl (l : ℓ) (s : σ) : Goes step l s [] s := ⟨0, rfl⟩

theorem Goes.cons {l : ℓ} {s s₁ s₂ : σ} {es tr : List ε} (h : step s l = some (s₁, es))
    (hRest : Goes step l s₁ tr s₂) : Goes step l s (es ++ tr) s₂ := by
  obtain ⟨k, hExec⟩ := hRest
  exact ⟨k + 1, by simp [List.replicate_succ, Runs.exec, h, hExec]⟩

/-- A run goes on by steps that are always allowed. -/
theorem Run.goes {l : ℓ} {tr es : List ε} {s s' : σ} (hRun : Run step G s₀ tr s)
    (hG : ∀ s, G s l) (h : Goes step l s es s') : Run step G s₀ (tr ++ es) s' := by
  obtain ⟨k, hExec⟩ := h
  induction k generalizing tr s es with
  | zero =>
    obtain ⟨rfl, rfl⟩ := Prod.mk.inj (Option.some.inj hExec)
    rw [List.append_nil]
    exact hRun
  | succ k ih =>
    rw [List.replicate_succ] at hExec
    obtain ⟨-, s₁, first, rest, hStep, hRest, rfl⟩ := exec_cons hExec
    rw [← List.append_assoc]
    exact ih (hRun.next (hG s) hStep) hRest

-- ---------------------------------------------------------------------------
-- Histories
-- ---------------------------------------------------------------------------

/-- An event of an extended history sits in the old history, or among the new
events. -/
theorem split_append {tr es pre post : List ε} {e : ε} (h : tr ++ es = pre ++ e :: post) :
    (∃ mid, tr = pre ++ e :: mid ∧ post = mid ++ es) ∨ ∃ mid, es = mid ++ e :: post := by
  rcases List.append_eq_append_iff.mp h with ⟨mid, -, hEs⟩ | ⟨mid, hTr, hEs⟩
  · exact Or.inr ⟨mid, hEs⟩
  · cases mid with
    | nil => exact Or.inr ⟨[], hEs.symm⟩
    | cons x mid =>
      obtain ⟨rfl, hPost⟩ := List.cons.inj hEs
      exact Or.inl ⟨mid, hTr, hPost⟩

/-- With one new event, it sits in the old history or is the new event. -/
theorem split_concat {tr pre post : List ε} {e x : ε} (h : tr ++ [x] = pre ++ e :: post) :
    (∃ mid, tr = pre ++ e :: mid) ∨ pre = tr ∧ x = e := by
  rcases split_append h with ⟨mid, hOld, -⟩ | ⟨mid, hNew⟩
  · exact Or.inl ⟨mid, hOld⟩
  · cases mid with
    | nil =>
      obtain ⟨hEq, hPost⟩ := List.cons.inj hNew
      rw [hEq, ← hPost] at h
      exact Or.inr ⟨(List.append_cancel_right h).symm, hEq⟩
    | cons y rest =>
      obtain ⟨-, hRest⟩ := List.cons.inj hNew
      exact absurd hRest.symm (by simp)

/-- Cutting a history at one of its events. -/
theorem split_getElem? {tr : List ε} {n : Nat} {e : ε} (h : tr[n]? = some e) :
    tr = tr.take n ++ e :: tr.drop (n + 1) := by
  obtain ⟨hLt, rfl⟩ := List.getElem?_eq_some_iff.mp h
  rw [List.getElem_cons_drop, List.take_append_drop]

/-- The last value that `pick` finds in a history. -/
def lastOf {β : Type*} (pick : ε → Option β) (tr : List ε) : Option β :=
  (tr.filterMap pick).getLast?

/-- A new event gives the last value, or leaves it. -/
theorem lastOf_concat {β : Type*} (pick : ε → Option β) (tr : List ε) (e : ε) :
    lastOf pick (tr ++ [e]) = (pick e).or (lastOf pick tr) := by
  unfold lastOf
  rw [List.filterMap_append, List.getLast?_append]
  cases hPick : pick e with
  | none => simp [hPick]
  | some b => simp [hPick]

/-- What the events of a history add up to. -/
def tally (weight : ε → Nat) (tr : List ε) : Nat := (tr.map weight).sum

@[simp] theorem tally_nil (weight : ε → Nat) : tally weight [] = 0 := rfl

@[simp] theorem tally_append (weight : ε → Nat) (tr es : List ε) :
    tally weight (tr ++ es) = tally weight tr + tally weight es := by
  simp [tally]

theorem tally_eq_zero {weight : ε → Nat} {tr : List ε} (h : ∀ e ∈ tr, weight e = 0) :
    tally weight tr = 0 := by
  induction tr with
  | nil => rfl
  | cons e rest ih =>
    have hHead := h e (List.mem_cons_self ..)
    have hRest := ih fun e he => h e (List.mem_cons_of_mem _ he)
    unfold tally at hRest ⊢
    rw [List.map_cons, List.sum_cons, hHead, hRest]

theorem tally_mono {weight weight' : ε → Nat} {tr : List ε}
    (h : ∀ e ∈ tr, weight e ≤ weight' e) : tally weight tr ≤ tally weight' tr :=
  List.sum_le_sum h

theorem tally_add (weight weight' : ε → Nat) (tr : List ε) :
    tally (fun e => weight e + weight' e) tr = tally weight tr + tally weight' tr :=
  List.sum_map_add

/-- Adding up by kinds. -/
theorem tally_sum {κ : Type*} (S : Finset κ) (weight : κ → ε → Nat) (tr : List ε) :
    tally (fun e => ∑ k ∈ S, weight k e) tr = ∑ k ∈ S, tally (weight k) tr := by
  induction tr with
  | nil => simp
  | cons e rest ih =>
    have hHead : ∀ w : ε → Nat, tally w (e :: rest) = w e + tally w rest := fun w => rfl
    simp only [hHead, ih, Finset.sum_add_distrib]

-- ---------------------------------------------------------------------------
-- Observers
-- ---------------------------------------------------------------------------

/-- `step` with an observer that remarks on each step, from the state before it
and the label. -/
def watch {ω : Type*} (step : σ → ℓ → Option (σ × List ε)) (look : σ → ℓ → List ω) (s : σ)
    (l : ℓ) : Option (σ × List (ε ⊕ ω)) :=
  (step s l).map fun r => (r.1, r.2.map Sum.inl ++ (look s l).map Sum.inr)

variable {ω : Type*} {look : σ → ℓ → List ω}

theorem watch_eq_some {s s' : σ} {l : ℓ} {xs : List (ε ⊕ ω)}
    (h : watch step look s l = some (s', xs)) :
    ∃ es, step s l = some (s', es) ∧ xs = es.map Sum.inl ++ (look s l).map Sum.inr := by
  obtain ⟨⟨s'', es⟩, hStep, hEq⟩ := Option.map_eq_some_iff.mp h
  obtain ⟨rfl, rfl⟩ := Prod.mk.inj hEq
  exact ⟨es, hStep, rfl⟩

/-- A watched step is the step it watches. -/
theorem watch_of_step {s s' : σ} {l : ℓ} {es : List ε} (h : step s l = some (s', es)) :
    watch step look s l = some (s', es.map Sum.inl ++ (look s l).map Sum.inr) := by
  unfold watch
  rw [h, Option.map_some]

theorem filterMap_remarks (es : List ε) (os : List ω) :
    (es.map Sum.inl ++ os.map Sum.inr).filterMap Sum.getLeft? = es := by
  simp [List.filterMap_append, List.filterMap_map, Function.comp_def]

/-- **Watching changes nothing**: a watched run, less the remarks, is a run. -/
theorem Run.unwatch {tr : List (ε ⊕ ω)} {s : σ} (h : Run (watch step look) G s₀ tr s) :
    Run step G s₀ (tr.filterMap Sum.getLeft?) s := by
  induction h with
  | start => exact .start
  | next _ hG hs ih =>
    obtain ⟨es, hStep, rfl⟩ := watch_eq_some hs
    rw [List.filterMap_append, filterMap_remarks]
    exact ih.next hG hStep

/-- What a watched history adds up to, events and remarks apart. -/
theorem tally_remarks (f : ε → Nat) (g : ω → Nat) (es : List ε) (os : List ω) :
    tally (Sum.elim f g) (es.map Sum.inl ++ os.map Sum.inr) = tally f es + tally g os := by
  rw [tally_append]
  simp [tally, Function.comp_def]

theorem tally_unwatch (f : ε → Nat) (tr : List (ε ⊕ ω)) :
    tally f (tr.filterMap Sum.getLeft?) = tally (Sum.elim f fun _ => 0) tr := by
  induction tr with
  | nil => rfl
  | cons x rest ih =>
    unfold tally at ih ⊢
    cases x with
    | inl e => simp [ih]
    | inr o =>
      rw [List.filterMap_cons_none rfl, List.map_cons, List.sum_cons, ih]
      exact (Nat.zero_add _).symm

-- ---------------------------------------------------------------------------
-- Total step functions
-- ---------------------------------------------------------------------------

/-- Feed a list of labels to a step function that takes every label. -/
def feed (step : σ → ℓ → σ × List ε) (s : σ) (ls : List ℓ) : σ × List ε :=
  ls.foldl (fun r l => let next := step r.1 l; (next.1, r.2 ++ next.2)) (s, [])

section Feed

variable (step : σ → ℓ → σ × List ε)

theorem feed_concat (s : σ) (ls : List ℓ) (l : ℓ) :
    feed step s (ls ++ [l]) =
      ((step (feed step s ls).1 l).1, (feed step s ls).2 ++ (step (feed step s ls).1 l).2) := by
  unfold feed
  rw [List.foldl_append, List.foldl_cons, List.foldl_nil]

theorem feed_nil (s : σ) : feed step s [] = (s, []) := rfl

/-- What was fed before does not matter but for the state it led to. -/
theorem feed_append (s : σ) (ls ls' : List ℓ) :
    feed step s (ls ++ ls') =
      ((feed step (feed step s ls).1 ls').1,
        (feed step s ls).2 ++ (feed step (feed step s ls).1 ls').2) := by
  induction ls' using List.reverseRecOn with
  | nil => simp [feed_nil]
  | append_singleton before l ih =>
    rw [← List.append_assoc, feed_concat, ih, feed_concat, List.append_assoc]

theorem feed_cons (s : σ) (l : ℓ) (ls : List ℓ) :
    feed step s (l :: ls) =
      ((feed step (step s l).1 ls).1, (step s l).2 ++ (feed step (step s l).1 ls).2) :=
  feed_append step s [l] ls

/-- **Feeding rule.** What holds at the start and is kept by every step holds of
what was fed, the state and the events. -/
theorem feed_induct (s : σ) (I : List ℓ → σ → List ε → Prop) (hStart : I [] s [])
    (hStep : ∀ ls l s' es, I ls s' es → I (ls ++ [l]) (step s' l).1 (es ++ (step s' l).2))
    (ls : List ℓ) : I ls (feed step s ls).1 (feed step s ls).2 := by
  induction ls using List.reverseRecOn with
  | nil => exact hStart
  | append_singleton before l ih =>
    rw [feed_concat]
    exact hStep before l _ _ ih

end Feed

end Runs
