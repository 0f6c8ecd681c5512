import TinyRtos.Port.Switching

/-!
# TinyRTOS — what a task is resumed with

In every run of disciplined tasks in which no creation begins while another is
under way, every task is resumed with its own context (`contexts_kept`), however
many tasks there are and wherever the table lies.

Two creations at a time fill one slot, and the second may be writing the stack
of a task that the first one has already published; then a context is lost
(`context_lost`).
-/

namespace TinyRtos.Machine

variable [TaskConfig] {img : Image} {funcs : Nat → UInt32} {tr : List Event} {m : Machine}

/-- **Tasks are resumed with their own contexts**, in every run in which no
creation begins inside another. -/
theorem contexts_kept {m₀ : Machine} (hStart : Started img funcs m₀)
    (hRun : Runs.Run (step img) (fun m l => Disciplined img m l ∧ CreatesAlone m l) m₀ tr m) :
    KeepsContexts img funcs tr :=
  (hRun.induct (Switching img funcs) hStart.switching
    fun _ _ _ _ _ h hG hStep => h.step hG.1 hG.2 (step_cases hStep)).kept

end TinyRtos.Machine

-- ---------------------------------------------------------------------------
-- Two tasks that create a third
-- ---------------------------------------------------------------------------

namespace TinyRtos.Machine

/-- The table begins at an odd word. -/
def creatorsImage : Image where
  tasks := 0x8000101
  idleTask := 0x08000201
  exitTrap := 0x08000221
  fits := by decide

/-- Task `0` runs first; task `1` outranks it. -/
def creatorTasks : List (UInt32 × UInt32) := [(0x08001001, 1), (0x08002001, 2)]

def creators : Machine :=
  boot creatorsImage creatorTasks (fun _ => 0) (fun _ => rtoskSemaphoreInit 0)
    fun _ => ⟨fun _ => 0, 1, 2, 0, 0, 0, rtoskQueueNoWaiter⟩

theorem creators_started : Started creatorsImage (bootFuncs creatorsImage creatorTasks) creators :=
  boot_started (by simp [creatorTasks]) (by simp [creatorTasks]) (by decide) (fun _ => rfl)
    fun _ => ⟨rfl, rfl, rfl, rfl⟩

/-- A tick, and the switch it asks for among `n` tasks. -/
def tickLabels (n : Nat) : List Label :=
  [.kernel .tick, .kernel .pendSv] ++ List.replicate n (.kernel .scan) ++ [.kernel .pendSvExit]

/-- The running task sleeps until the next tick. -/
def sleepLabels (n : Nat) : List Label :=
  [.kernel (.call (.sleepMs 0)), .kernel .yield, .kernel .pendSv] ++
    List.replicate n (.kernel .scan) ++ [.kernel .pendSvExit]

/-- Event `n` resumes a task with another context than its last one. -/
def lostAt (n : Nat) (tr : List Event) : Bool :=
  match tr[n]? with
  | some (.resumed t ctx _) =>
    match lastEntry t (tr.take n) with
    | some last => ctx ≠ last
    | none => false
  | _ => false

theorem not_keepsContexts_of_lostAt {img : Image} {funcs : Nat → UInt32} {n : Nat}
    {tr : List Event} (h : lostAt n tr = true) : ¬ KeepsContexts img funcs tr := by
  intro hKeeps
  unfold lostAt at h
  split at h
  · rename_i t ctx lr hAt
    split at h
    · rename_i last hLast
      have hExpected := hKeeps _ _ _ _ _ (Runs.split_getElem? hAt)
      unfold Expected at hExpected
      rw [hLast] at hExpected
      exact absurd hExpected (by simpa using h)
    · cases h
  · cases h

/-- Task `0` creates a third task, which outranks both and is switched to. -/
theorem contexts_kept_creators :
    ∃ tr m, Runs.Run (step creatorsImage)
        (fun m l => Disciplined creatorsImage m l ∧ CreatesAlone m l) creators tr m ∧
      m.current = 2 ∧
      KeepsContexts creatorsImage (bootFuncs creatorsImage creatorTasks) tr := by
  obtain ⟨tr, m, hRun, hCur⟩ :=
    Runs.exists_run_of_exec (step creatorsImage)
      (fun m l => Disciplined creatorsImage m l ∧ CreatesAlone m l) creators
      ([.create 0x08003001 3, .createStep, .createStep, .createStep, .createStep] ++ tickLabels 3)
      (fun _ m => m.current = 2) (by decide +kernel)
  exact ⟨tr, m, hRun, hCur, contexts_kept creators_started hRun⟩

/-- **Two creations at a time.** Task `0` is preempted inside a creation, task `1`
creates task `2`, which runs and sleeps; then task `0` goes on and builds its
frame over the context of task `2`. -/
theorem context_lost :
    ∃ tr m, Runs.Run (step creatorsImage) (Disciplined creatorsImage) creators tr m ∧
      ¬ KeepsContexts creatorsImage (bootFuncs creatorsImage creatorTasks) tr := by
  obtain ⟨tr, m, hRun, hLost⟩ :=
    Runs.exists_run_of_exec (step creatorsImage) (Disciplined creatorsImage) creators
      ([.create 0x08003001 3] ++ tickLabels 2 ++
        [.create 0x08003001 3, .createStep, .createStep, .createStep, .createStep] ++
        tickLabels 3 ++ [.work ⟨fun _ => 7, fun _ => 0, creatorsImage.stackEnd 2 - 1, [], none⟩] ++
        sleepLabels 3 ++ sleepLabels 3 ++ [.createStep, .createStep] ++ tickLabels 3)
      (fun tr _ => lostAt 10 tr = true) (by decide +kernel)
  exact ⟨tr, m, hRun, not_keepsContexts_of_lostAt hLost⟩

end TinyRtos.Machine
