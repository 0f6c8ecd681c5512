import Mathlib.Logic.Function.Basic
import Mathlib.Data.List.Basic
import Mathlib.Data.List.FinRange

/-!
# Word memories and descending stacks

A memory is a function from word addresses to words of any type. Three ways of
writing to it, each with what it leaves behind and what it leaves alone:

* `store`/`load` — a block of `n` words at an address, as multi-register
  transfers move it (`load_store`, `load_store_of_disjoint`);
* `writeAll` — single words in the order of a list (`writeAll_of_outside`,
  `writeAll_of_mem`), which the other two come down to (`store_eq_writeAll`,
  `pushAll_eq_writeAll`);
* `push`/`pushAll` — words pushed on a full descending stack. The `k`-th word
  pushed lies `k + 1` places below the initial stack pointer
  (`pushAll_getElem`), and nothing outside the pushed words changes
  (`pushAll_of_outside`).
-/

namespace Memory

variable {α : Type*}

-- ---------------------------------------------------------------------------
-- Blocks
-- ---------------------------------------------------------------------------

/-- The `n` words from `off` on. -/
def load (mem : Nat → α) (off n : Nat) : Fin n → α := fun i => mem (off + i)

/-- Write the words of `v` from `off` on. -/
def store {n : Nat} (mem : Nat → α) (off : Nat) (v : Fin n → α) : Nat → α :=
  fun a => if h : off ≤ a ∧ a < off + n then v ⟨a - off, by omega⟩ else mem a

theorem load_store {n : Nat} (mem : Nat → α) (off : Nat) (v : Fin n → α) :
    load (store mem off v) off n = v := by
  funext i
  have hIn : off ≤ off + i.val ∧ off + i.val < off + n :=
    ⟨Nat.le_add_right .., Nat.add_lt_add_left i.isLt _⟩
  unfold load store
  rw [dif_pos hIn]
  congr 1
  exact Fin.ext (Nat.add_sub_cancel_left ..)

theorem store_of_outside {n : Nat} (mem : Nat → α) {off : Nat} (v : Fin n → α) {a : Nat}
    (ha : a < off ∨ off + n ≤ a) : store mem off v a = mem a := by
  unfold store
  rw [dif_neg (by omega)]

/-- A block is read off the words it covers. -/
theorem load_congr {mem mem' : Nat → α} {off n : Nat}
    (h : ∀ a, off ≤ a → a < off + n → mem' a = mem a) : load mem' off n = load mem off n := by
  funext i
  exact h _ (Nat.le_add_right ..) (Nat.add_lt_add_left i.isLt _)

theorem load_store_of_disjoint {m n : Nat} (mem : Nat → α) {off off' : Nat} (v : Fin n → α)
    (hDisj : off' + m ≤ off ∨ off + n ≤ off') :
    load (store mem off v) off' m = load mem off' m := by
  apply load_congr
  intro a hLo hHi
  exact store_of_outside mem v (by omega)

-- ---------------------------------------------------------------------------
-- Single words
-- ---------------------------------------------------------------------------

/-- Write the words of a list, one after the other. -/
def writeAll (mem : Nat → α) (ws : List (Nat × α)) : Nat → α :=
  ws.foldl (fun mem w => Function.update mem w.1 w.2) mem

theorem writeAll_of_outside {ws : List (Nat × α)} {a : Nat} (h : ∀ w ∈ ws, w.1 ≠ a)
    (mem : Nat → α) : writeAll mem ws a = mem a := by
  induction ws generalizing mem with
  | nil => rfl
  | cons w rest ih =>
    have hRest : ∀ w ∈ rest, w.1 ≠ a := fun w hw => h w (List.mem_cons_of_mem _ hw)
    have hHead : a ≠ w.1 := (h w (List.mem_cons_self ..)).symm
    show writeAll (Function.update mem w.1 w.2) rest a = mem a
    rw [ih hRest, Function.update_of_ne hHead]

theorem writeAll_cons (mem : Nat → α) (w : Nat × α) (rest : List (Nat × α)) :
    writeAll mem (w :: rest) = writeAll (Function.update mem w.1 w.2) rest := rfl

theorem writeAll_append (mem : Nat → α) (ws ws' : List (Nat × α)) :
    writeAll mem (ws ++ ws') = writeAll (writeAll mem ws) ws' :=
  List.foldl_append ..

/-- A word that is written once is there in the end. -/
theorem writeAll_of_mem {ws : List (Nat × α)} (hOnce : (ws.map Prod.fst).Nodup) {p : Nat × α}
    (hp : p ∈ ws) (mem : Nat → α) : writeAll mem ws p.1 = p.2 := by
  induction ws generalizing mem with
  | nil => exact absurd hp List.not_mem_nil
  | cons w rest ih =>
    obtain ⟨hNot, hRest⟩ := List.nodup_cons.mp hOnce
    rw [writeAll_cons]
    rcases List.mem_cons.mp hp with rfl | hp
    · have hOut : ∀ u ∈ rest, u.1 ≠ p.1 := fun u hu hEq => hNot (hEq ▸ List.mem_map_of_mem hu)
      rw [writeAll_of_outside hOut, Function.update_self]
    · exact ih hRest hp _

/-- The words of a block, one by one. -/
def blockWrites {n : Nat} (off : Nat) (v : Fin n → α) : List (Nat × α) :=
  (List.finRange n).map fun i => (off + i.val, v i)

theorem store_eq_writeAll {n : Nat} (mem : Nat → α) (off : Nat) (v : Fin n → α) :
    store mem off v = writeAll mem (blockWrites off v) := by
  have hOnce : ((blockWrites off v).map Prod.fst).Nodup := by
    unfold blockWrites
    rw [List.map_map]
    refine List.Nodup.map (fun i j hij => ?_) (List.nodup_finRange n)
    exact Fin.ext (Nat.add_left_cancel hij)
  funext a
  by_cases ha : off ≤ a ∧ a < off + n
  · obtain ⟨k, rfl⟩ := Nat.exists_eq_add_of_le ha.1
    have hk : k < n := by omega
    have hMem : (off + k, v ⟨k, hk⟩) ∈ blockWrites off v :=
      List.mem_map.mpr ⟨⟨k, hk⟩, List.mem_finRange _, rfl⟩
    rw [writeAll_of_mem hOnce hMem]
    exact congrFun (load_store mem off v) ⟨k, hk⟩
  · rw [store_of_outside mem v (by omega), writeAll_of_outside]
    intro w hw hEq
    obtain ⟨i, -, rfl⟩ := List.mem_map.mp hw
    have hi := i.isLt
    have hAddr : off + i.val = a := hEq
    omega

-- ---------------------------------------------------------------------------
-- Pushes
-- ---------------------------------------------------------------------------

/-- `*(--sp) = w`. -/
def push (s : Nat × (Nat → α)) (w : α) : Nat × (Nat → α) :=
  (s.1 - 1, Function.update s.2 (s.1 - 1) w)

/-- Push the words of a list, one after the other. -/
def pushAll (s : Nat × (Nat → α)) (ws : List α) : Nat × (Nat → α) := ws.foldl push s

theorem pushAll_cons (s : Nat × (Nat → α)) (w : α) (rest : List α) :
    pushAll s (w :: rest) = pushAll (push s w) rest := rfl

/-- The stack pointer comes down by one word a push. -/
theorem pushAll_fst (ws : List α) (s : Nat × (Nat → α)) :
    (pushAll s ws).1 = s.1 - ws.length := by
  induction ws generalizing s with
  | nil => rfl
  | cons w rest ih =>
    rw [pushAll_cons, ih]
    show s.1 - 1 - rest.length = s.1 - (rest.length + 1)
    omega

/-- The words of a list of pushes, each where it goes. -/
def pushWrites : Nat → List α → List (Nat × α)
  | _, [] => []
  | sp, w :: rest => (sp - 1, w) :: pushWrites (sp - 1) rest

theorem pushAll_eq_writeAll (ws : List α) (s : Nat × (Nat → α)) :
    (pushAll s ws).2 = writeAll s.2 (pushWrites s.1 ws) := by
  induction ws generalizing s with
  | nil => rfl
  | cons w rest ih =>
    rw [pushAll_cons, ih]
    rfl

theorem pushAll_of_outside {ws : List α} {s : Nat × (Nat → α)} (hFit : ws.length ≤ s.1)
    {a : Nat} (ha : a < s.1 - ws.length ∨ s.1 ≤ a) : (pushAll s ws).2 a = s.2 a := by
  induction ws generalizing s with
  | nil => rfl
  | cons w rest ih =>
    rw [List.length_cons] at hFit ha
    have hFit' : rest.length ≤ (push s w).1 := by
      show rest.length ≤ s.1 - 1
      omega
    have ha' : a < (push s w).1 - rest.length ∨ (push s w).1 ≤ a := by
      show a < s.1 - 1 - rest.length ∨ s.1 - 1 ≤ a
      omega
    rw [pushAll_cons, ih hFit' ha']
    exact Function.update_of_ne (by omega) _ _

/-- **What a push leaves behind.** -/
theorem pushAll_getElem {ws : List α} {s : Nat × (Nat → α)} (hFit : ws.length ≤ s.1) {k : Nat}
    (hk : k < ws.length) : (pushAll s ws).2 (s.1 - 1 - k) = ws[k] := by
  induction ws generalizing s k with
  | nil => exact absurd hk (Nat.not_lt_zero _)
  | cons w rest ih =>
    rw [List.length_cons] at hFit hk
    have hFit' : rest.length ≤ (push s w).1 := by
      show rest.length ≤ s.1 - 1
      omega
    rw [pushAll_cons]
    cases k with
    | zero =>
      -- the later pushes stay below the first word
      have hAbove : (push s w).1 ≤ s.1 - 1 - 0 := Nat.le_refl _
      rw [pushAll_of_outside hFit' (Or.inr hAbove)]
      exact Function.update_self ..
    | succ k =>
      have hAddr : s.1 - 1 - (k + 1) = (push s w).1 - 1 - k := by
        show s.1 - 1 - (k + 1) = s.1 - 1 - 1 - k
        omega
      rw [hAddr, ih hFit' (Nat.lt_of_succ_lt_succ hk)]
      rfl

end Memory
