import Mathlib.Order.Defs.LinearOrder
import Mathlib.Data.Set.Insert

/-!
# Scanning for the first maximum

A scan walks over indices, keeps the best candidate so far and replaces it only
by one with a strictly greater key, so that it ends with the *first* of the
candidates of maximal key. What it has established splits in two, because a
scan whose input changes under it keeps the first half and may lose the second:

* `Candidate` — the index it holds is ready and has the recorded key;
* `Covers` — no ready index already seen beats it (nor exists, if it holds
  none).

`Candidate.pick`/`Covers.pick`/`Covers.skip` are the rules for one index,
`scan_candidate`, `scan_covers` and `scan_head` those for a whole list.
-/

namespace FirstMax

variable {ι κ : Type*} [LinearOrder κ]

/-- Offer index `i` with key `k` to a scan that holds `best`. -/
def pick (best : Option (ι × κ)) (i : ι) (k : κ) : Option (ι × κ) :=
  match best with
  | none => some (i, k)
  | some (b, kb) => if kb < k then some (i, k) else some (b, kb)

/-- The index held is ready and carries the recorded key. -/
def Candidate (ready : ι → Prop) (key : ι → κ) (best : Option (ι × κ)) : Prop :=
  ∀ b k, best = some (b, k) → ready b ∧ key b = k

/-- Nothing ready in `seen` beats what the scan holds. -/
def Covers (ready : ι → Prop) (key : ι → κ) (seen : Set ι) (best : Option (ι × κ)) : Prop :=
  ∀ i ∈ seen, ready i → ∃ b k, best = some (b, k) ∧ key i ≤ k

variable {ready : ι → Prop} {key : ι → κ} {seen : Set ι} {best : Option (ι × κ)}

omit [LinearOrder κ] in
theorem candidate_none : Candidate ready key (none : Option (ι × κ)) := by
  intro b k h
  cases h

theorem covers_empty : Covers ready key ∅ best := fun _ hi => absurd hi (Set.notMem_empty _)

theorem Candidate.pick (h : Candidate ready key best) {i : ι} (hi : ready i) :
    Candidate ready key (pick best i (key i)) := by
  intro b k hb
  unfold FirstMax.pick at hb
  split at hb
  · cases hb
    exact ⟨hi, rfl⟩
  · split at hb
    · cases hb
      exact ⟨hi, rfl⟩
    · exact h b k hb

/-- The key held only grows. -/
theorem le_pick {b : ι} {k : κ} (i : ι) (ki : κ) :
    ∃ b' k', FirstMax.pick (some (b, k)) i ki = some (b', k') ∧ k ≤ k' := by
  by_cases hlt : k < ki
  · exact ⟨i, ki, if_pos hlt, hlt.le⟩
  · exact ⟨b, k, if_neg hlt, le_rfl⟩

/-- The index offered is covered afterwards. -/
theorem pick_covers_self (best : Option (ι × κ)) (i : ι) (ki : κ) :
    ∃ b k, FirstMax.pick best i ki = some (b, k) ∧ ki ≤ k := by
  cases best with
  | none => exact ⟨i, ki, rfl, le_rfl⟩
  | some p =>
    obtain ⟨b, k⟩ := p
    by_cases hlt : k < ki
    · exact ⟨i, ki, if_pos hlt, le_rfl⟩
    · exact ⟨b, k, if_neg hlt, not_lt.mp hlt⟩

theorem Covers.pick (h : Covers ready key seen best) (i : ι) :
    Covers ready key (insert i seen) (FirstMax.pick best i (key i)) := by
  intro j hj hReady
  rcases Set.mem_insert_iff.mp hj with rfl | hSeen
  · exact pick_covers_self best j (key j)
  · obtain ⟨b, k, rfl, hle⟩ := h j hSeen hReady
    obtain ⟨b', k', hPick, hle'⟩ := le_pick (b := b) (k := k) i (key i)
    exact ⟨b', k', hPick, hle.trans hle'⟩

theorem Covers.skip (h : Covers ready key seen best) {i : ι} (hi : ¬ ready i) :
    Covers ready key (insert i seen) best := by
  intro j hj hReady
  rcases Set.mem_insert_iff.mp hj with rfl | hSeen
  · exact absurd hReady hi
  · exact h j hSeen hReady

-- ---------------------------------------------------------------------------
-- Whole lists
-- ---------------------------------------------------------------------------

/-- Scan a list from left to right. -/
def scan (ready : ι → Prop) [DecidablePred ready] (key : ι → κ) :
    Option (ι × κ) → List ι → Option (ι × κ) :=
  List.foldl fun best i => if ready i then pick best i (key i) else best

variable [DecidablePred ready]

theorem scan_candidate : ∀ (l : List ι) {best : Option (ι × κ)},
    Candidate ready key best → Candidate ready key (scan ready key best l)
  | [], _, h => h
  | i :: l, best, h => by
    rw [scan, List.foldl_cons]
    by_cases hi : ready i
    · rw [if_pos hi]
      exact scan_candidate l (h.pick hi)
    · rw [if_neg hi]
      exact scan_candidate l h

theorem scan_covers : ∀ (l : List ι) {seen : Set ι} {best : Option (ι × κ)},
    Covers ready key seen best → Covers ready key {i | i ∈ seen ∨ i ∈ l} (scan ready key best l)
  | [], _, _, h => by
    intro j hj
    exact h j (hj.resolve_right List.not_mem_nil)
  | i :: l, seen, best, h => by
    have hStep : Covers ready key (insert i seen)
        (if ready i then FirstMax.pick best i (key i) else best) := by
      by_cases hi : ready i
      · rw [if_pos hi]
        exact h.pick i
      · rw [if_neg hi]
        exact h.skip hi
    intro j hj
    refine scan_covers l hStep j ?_
    rcases hj with hj | hj
    · exact Or.inl (Set.mem_insert_of_mem _ hj)
    · rcases List.mem_cons.mp hj with rfl | hj
      · exact Or.inl (Set.mem_insert ..)
      · exact Or.inr hj

omit [DecidablePred ready] in
theorem pick_of_le {b i : ι} {k ki : κ} (h : ki ≤ k) :
    FirstMax.pick (some (b, k)) i ki = some (b, k) := if_neg (not_lt.mpr h)

/-- A scan that holds a maximum keeps it. -/
theorem scan_of_max {b : ι} {k : κ} : ∀ {l : List ι},
    (∀ i ∈ l, ready i → key i ≤ k) → scan ready key (some (b, k)) l = some (b, k)
  | [], _ => rfl
  | i :: l, h => by
    have hRest := scan_of_max (b := b) fun j hj => h j (List.mem_cons_of_mem _ hj)
    rw [scan, List.foldl_cons]
    by_cases hi : ready i
    · rw [if_pos hi, pick_of_le (h i (List.mem_cons_self ..) hi)]
      exact hRest
    · rw [if_neg hi]
      exact hRest

/-- **The first maximum wins**: a ready head that nothing later beats is what
the scan ends with. -/
theorem scan_head {a : ι} {l : List ι} (ha : ready a)
    (hMax : ∀ i ∈ l, ready i → key i ≤ key a) :
    scan ready key none (a :: l) = some (a, key a) := by
  rw [scan, List.foldl_cons, if_pos ha]
  exact scan_of_max hMax

end FirstMax
