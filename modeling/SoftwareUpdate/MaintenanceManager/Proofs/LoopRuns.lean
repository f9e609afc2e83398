import Mathlib.Data.List.Infix
import Mathlib.Data.List.Nodup
import SoftwareUpdate.MaintenanceManager.Proofs.Runs

/-!
# The loop over the tasks

The worker launches the tasks of its list one after another. A launch that fails is tried again
by counting the index down, with the timer of the first attempt, until the retries are used up;
then the loop gives the task up by setting its COMPLETE bit. The loop is looked at by itself:
the calls it makes answer anything, every wait returns, and the abort flag can be raised at any
point. It ends after a bounded number of statements, it stays within its list, and it attempts
the tasks in their order.
-/

namespace SoftwareUpdate.MaintenanceManager

open Misc Misc.BitField

variable {cfg : Config} {s s₀ s' : Sys} {t u : Tid} {w : Worker} {l : Thread} {e : Effect}
  {c : Choice} {ts : List Task} {trace : List Effect} {raised : Bool} {task : Task}

/-- The statements of the loop, up to the end of the function's own code. -/
def WorkerPc.looping : WorkerPc → Bool
  | .loopTest | .setCurrent | .abortTest | .startTimer | .setMap | .launch | .clearMap
  | .failComplete | .waitTask | .wakeTask | .stopTimer | .abortEnd | .clearAbort
  | .stopTimerEnd => true
  | _ => false

/-- The statements of an iteration. -/
def WorkerPc.iterating : WorkerPc → Bool
  | .setCurrent | .abortTest | .startTimer | .setMap | .launch | .clearMap | .failComplete
  | .waitTask | .wakeTask | .stopTimer => true
  | _ => false

/-- Thread `t` is about to enter the loop over `ts`. -/
structure EntersLoop (cfg : Config) (t : Tid) (ts : List Task) (s : Sys) (w : Worker) : Prop where
  thread : s.thread t = .worker w
  pc : w.pc = .loopTest
  i : w.i = 0
  retryCount : w.retryCount = cfg.taskRetryCount
  tasks : s.tasks = ts
  nodup : ts.Nodup

/-- The runs of the loop from `s` on, with the effects of the worker, oldest first. Another
thread can raise the abort flag when `raised` allows it. -/
inductive LoopRun (cfg : Config) (t : Tid) (raised : Bool) (s : Sys) : List Effect → Sys → Prop
  | refl : LoopRun cfg t raised s [] s
  | own {trace : List Effect} {s₁ : Sys} {w : Worker} {c : Choice} {l : Thread} {e : Effect}
      (run : LoopRun cfg t raised s trace s₁) (hw : s₁.thread t = .worker w)
      (hpc : w.pc.looping = true) (hst : taskExecutionThread cfg s₁ w c = some (l, e)) :
      LoopRun cfg t raised s (trace ++ [e]) (s₁.commit cfg t l e)
  | raise {trace : List Effect} {s₁ : Sys} {u : Tid} (run : LoopRun cfg t raised s trace s₁)
      (hraised : raised = true) (hu : u ≠ t) :
      LoopRun cfg t raised s trace (s₁.commit cfg u (s₁.thread u) (.setAbortFlag true))

/-! ## Counting attempts -/

/-- The task that an iteration attempts. -/
def Effect.attempted : Effect → Option Task
  | .setCurrentTask task => some task
  | _ => none

/-- The tasks that were attempted, one for every iteration. -/
def attempts (trace : List Effect) : List Task := trace.filterMap Effect.attempted

/-- The first tasks of the list, each as often as its count says. -/
def attemptsOf (counts : List ℕ) (ts : List Task) : List Task :=
  (counts.zipWith List.replicate ts).flatten

theorem attemptsOf_append_zero (counts : List ℕ) :
    attemptsOf (counts ++ [0]) ts = attemptsOf counts ts := by
  induction counts generalizing ts with
  | nil => cases ts <;> rfl
  | cons n counts ih =>
    cases ts with
    | nil => rfl
    | cons task ts => exact congrArg (List.replicate n task ++ ·) ih

theorem attemptsOf_append_succ {counts : List ℕ} {n : ℕ} (h : ts[counts.length]? = some task) :
    attemptsOf (counts ++ [n + 1]) ts = attemptsOf (counts ++ [n]) ts ++ [task] := by
  induction counts generalizing ts with
  | nil =>
    cases ts with
    | nil => cases h
    | cons task' ts =>
      obtain rfl : task' = task := by simpa using h
      simp [attemptsOf, List.replicate_succ']
  | cons m counts ih =>
    cases ts with
    | nil => cases h
    | cons task' ts =>
      have hrest := @ih ts (by simpa using h)
      simp only [attemptsOf, List.cons_append, List.zipWith_cons_cons, List.flatten_cons] at hrest ⊢
      rw [hrest, List.append_assoc]

theorem attempts_append : attempts (trace ++ [e]) = attempts trace ++ e.attempted.toList := by
  unfold attempts
  rw [List.filterMap_append]
  cases e <;> rfl

/-! ## How far the loop has come -/

/-- The attempts of the current task that have begun. -/
def begun (cfg : Config) (w : Worker) : ℕ :=
  cfg.taskRetryCount - w.retryCount +
    match w.pc with
    | .abortTest | .startTimer | .setMap | .launch | .clearMap | .failComplete | .waitTask
    | .wakeTask | .stopTimer => 1
    | _ => 0

/-- The iterations that are left, the current one included. -/
def iterationsLeft (cfg : Config) (ts : List Task) (w : Worker) : ℕ :=
  if w.i < ts.length then
    (ts.length - (w.i + 1)) * (cfg.taskRetryCount + 1) + w.retryCount + 1
  else 0

/-- The statements that are left at most. -/
def statementsLeft (cfg : Config) (ts : List Task) (w : Worker) : ℕ :=
  match w.pc with
  | .loopTest => 9 * iterationsLeft cfg ts w + 4
  | .setCurrent => 9 * iterationsLeft cfg ts w + 3
  | .abortTest => 9 * iterationsLeft cfg ts w + 2
  | .startTimer => 9 * iterationsLeft cfg ts w + 1
  | .setMap => 9 * iterationsLeft cfg ts w
  | .launch => 9 * iterationsLeft cfg ts w - 1
  | .clearMap | .waitTask => 9 * iterationsLeft cfg ts w - 2
  | .failComplete | .wakeTask => 9 * iterationsLeft cfg ts w - 3
  | .stopTimer => 9 * iterationsLeft cfg ts w - 4
  | .abortEnd => 3
  | .clearAbort => 2
  | .stopTimerEnd => 1
  | _ => 0

theorem iterationsLeft_pos (h : w.i < ts.length) : 0 < iterationsLeft cfg ts w := by
  rw [iterationsLeft, if_pos h]
  omega

/-- The iterations that are left after the current task. -/
theorem iterationsLeft_nextTask (h : w.i < ts.length) :
    iterationsLeft cfg ts (w.nextTask cfg) + w.retryCount + 1 = iterationsLeft cfg ts w := by
  have hi : (w.nextTask cfg).i = w.i + 1 := rfl
  have hretry : (w.nextTask cfg).retryCount = cfg.taskRetryCount := rfl
  unfold iterationsLeft
  rw [if_pos h, hi, hretry]
  split
  · next hnext =>
    obtain ⟨rest, hrest⟩ := Nat.exists_eq_add_of_lt hnext
    have h₁ : ts.length - (w.i + 1) = rest + 1 := by omega
    have h₂ : ts.length - (w.i + 1 + 1) = rest := by omega
    rw [h₁, h₂, Nat.succ_mul]
    omega
  · next hlast =>
    have h₁ : ts.length - (w.i + 1) = 0 := by omega
    rw [h₁]
    omega

/-- Where the worker is in the list, and what it has attempted and can still do. -/
structure InTurn (cfg : Config) (ts : List Task) (trace : List Effect) (s : Sys) (w : Worker) :
    Prop where
  tasks : s.tasks = ts
  le : w.i ≤ ts.length
  lt : w.pc.iterating = true → w.i < ts.length
  retry : w.retryCount ≤ cfg.taskRetryCount
  retrying : w.retryCount < cfg.taskRetryCount → w.i < ts.length ∧ w.isTaskTimerStarted = true
  inLoop : w.pc.looping = true ∨ w.pc = .unlockCall
  ordered : ∃ counts : List ℕ, counts.length = w.i ∧
    (∀ n ∈ counts, 1 ≤ n ∧ n ≤ cfg.taskRetryCount + 1) ∧
    attempts trace = attemptsOf (counts ++ [begun cfg w]) ts
  bounded : trace.length + statementsLeft cfg ts w ≤
    9 * (ts.length * (cfg.taskRetryCount + 1)) + 4

theorem EntersLoop.inTurn (h : EntersLoop cfg t ts s w) : InTurn cfg ts [] s w := by
  have hbegun : begun cfg w = 0 := by simp [begun, h.retryCount, h.pc]
  constructor
  · exact h.tasks
  · rw [h.i]
    exact Nat.zero_le _
  · intro hpc
    rw [h.pc] at hpc
    cases hpc
  · exact h.retryCount.le
  · intro hlt
    exact absurd h.retryCount hlt.ne
  · exact .inl (by rw [h.pc]; rfl)
  · refine ⟨[], h.i.symm, by simp, ?_⟩
    rw [hbegun, attemptsOf_append_zero]
    rfl
  · simp only [statementsLeft, h.pc, iterationsLeft, h.i, h.retryCount]
    split
    · next hpos =>
      obtain ⟨n, hn⟩ := Nat.exists_eq_succ_of_ne_zero hpos.ne'
      have hsub : ts.length - (0 + 1) = n := by omega
      have hmul : ts.length * (cfg.taskRetryCount + 1) =
          n * (cfg.taskRetryCount + 1) + (cfg.taskRetryCount + 1) := by
        rw [hn]
        exact Nat.succ_mul n _
      rw [hsub, hmul, List.length_nil]
      omega
    · simp

/-- A timer is started only by the first attempt of a task. -/
theorem retryCount_of_startTimer {created armed : Bool}
    (h : taskExecutionThread cfg s w c = some (l, .startTimer created armed)) :
    w.retryCount = cfg.taskRetryCount := by
  have hpc : w.pc = .startTimer := by
    obtain ⟨w', hw', hpc⟩ := (taskExecutionThread_step h).origin
    cases hw'
    exact hpc
  by_contra hne
  simp [taskExecutionThread, hpc, hne] at h

/-- An iteration that ends goes on to the next task. -/
theorem InTurn.nextTask (h : InTurn cfg ts trace s w) (hpc : w.pc.iterating = true)
    (hbegun : begun cfg w = cfg.taskRetryCount - w.retryCount + 1) (he : e.attempted = none)
    (hleft : 9 * iterationsLeft cfg ts w < statementsLeft cfg ts w + 5)
    (htasks : (s.commit cfg t (.worker (w.nextTask cfg)) e).tasks = s.tasks) :
    InTurn cfg ts (trace ++ [e]) (s.commit cfg t (.worker (w.nextTask cfg)) e)
      (w.nextTask cfg) := by
  have hlt := h.lt hpc
  obtain ⟨counts, hlength, hcounts, hattempts⟩ := h.ordered
  have hnone : begun cfg (w.nextTask cfg) = 0 := by simp [begun, Worker.nextTask]
  constructor
  · exact htasks.trans h.tasks
  · exact hlt
  · intro hiter
    cases hiter
  · exact Nat.le_refl _
  · intro hretry
    exact absurd hretry (Nat.lt_irrefl _)
  · exact .inl rfl
  · refine ⟨counts ++ [begun cfg w], by simp [hlength, Worker.nextTask], ?_, ?_⟩
    · intro n hn
      rcases List.mem_append.mp hn with hn | hn
      · exact hcounts n hn
      · obtain rfl := List.mem_singleton.mp hn
        omega
    · rw [hnone, attemptsOf_append_zero, attempts_append, he, hattempts]
      simp
  · have hnext : iterationsLeft cfg ts (w.nextTask cfg) + w.retryCount + 1 =
        iterationsLeft cfg ts w := iterationsLeft_nextTask hlt
    have hbounded := h.bounded
    have hstatements : statementsLeft cfg ts (w.nextTask cfg) =
        9 * iterationsLeft cfg ts (w.nextTask cfg) + 4 := rfl
    rw [hstatements, List.length_append, List.length_singleton]
    omega

/-- A statement that stays in the iteration. -/
theorem InTurn.goto (h : InTurn cfg ts trace s w) {pc : WorkerPc} {started : Bool}
    (he : e.attempted = none) (htasks : (s.commit cfg t l e).tasks = s.tasks)
    (hlt : pc.iterating = true → w.i < ts.length)
    (hstarted : w.retryCount < cfg.taskRetryCount → started = true)
    (hloop : pc.looping = true ∨ pc = .unlockCall)
    (hbegun : begun cfg { w with pc := pc, isTaskTimerStarted := started } = begun cfg w)
    (hleft : statementsLeft cfg ts { w with pc := pc, isTaskTimerStarted := started } <
      statementsLeft cfg ts w) :
    InTurn cfg ts (trace ++ [e]) (s.commit cfg t l e)
      { w with pc := pc, isTaskTimerStarted := started } := by
  obtain ⟨counts, hlength, hcounts, hattempts⟩ := h.ordered
  constructor
  · exact htasks.trans h.tasks
  · exact h.le
  · exact hlt
  · exact h.retry
  · intro hretry
    exact ⟨(h.retrying hretry).1, hstarted hretry⟩
  · exact hloop
  · refine ⟨counts, hlength, hcounts, ?_⟩
    rw [hbegun, attempts_append, he, hattempts]
    simp
  · have hbounded := h.bounded
    rw [List.length_append, List.length_singleton]
    omega

theorem statementsLeft_goto {pc : WorkerPc} {started : Bool} :
    statementsLeft cfg ts { w with pc := pc, isTaskTimerStarted := started } =
      statementsLeft cfg ts { w with pc := pc } := by
  cases pc <;> rfl

theorem iterationsLeft_goto {pc : WorkerPc} :
    iterationsLeft cfg ts { w with pc := pc } = iterationsLeft cfg ts w :=
  rfl

/-- The loop begins an attempt. -/
theorem InTurn.setCurrent (h : InTurn cfg ts trace s w) (hp : w.pc = .setCurrent)
    (ht : s.tasks[w.i]? = some task) :
    InTurn cfg ts (trace ++ [.setCurrentTask task])
      (s.commit cfg t (w.goto .abortTest) (.setCurrentTask task)) { w with pc := .abortTest } := by
  obtain ⟨counts, hlength, hcounts, hattempts⟩ := h.ordered
  have hlt := h.lt (by rw [hp]; rfl)
  have hbegun : begun cfg { w with pc := .abortTest } = begun cfg w + 1 := by simp [begun, hp]
  constructor
  · exact h.tasks
  · exact h.le
  · exact fun _ => hlt
  · exact h.retry
  · exact h.retrying
  · exact .inl rfl
  · refine ⟨counts, hlength, hcounts, ?_⟩
    have ht' : ts[counts.length]? = some task := by rw [hlength, ← h.tasks, ht]
    rw [hbegun, attemptsOf_append_succ ht', attempts_append, hattempts]
    rfl
  · have hbounded := h.bounded
    simp only [statementsLeft, hp] at hbounded
    simp only [statementsLeft, iterationsLeft_goto, List.length_append, List.length_singleton]
    omega

/-- The loop goes back to try the task again. -/
theorem InTurn.retryTask (h : InTurn cfg ts trace s w) (hp : w.pc = .clearMap)
    (hretry : 0 < w.retryCount) (hstarted : w.isTaskTimerStarted = true)
    (he : e.attempted = none) (htasks : (s.commit cfg t l e).tasks = s.tasks) :
    InTurn cfg ts (trace ++ [e]) (s.commit cfg t l e)
      { w with pc := .loopTest, retryCount := w.retryCount - 1 } := by
  obtain ⟨counts, hlength, hcounts, hattempts⟩ := h.ordered
  have hlt := h.lt (by rw [hp]; rfl)
  have hle := h.retry
  have hbegun : begun cfg { w with pc := .loopTest, retryCount := w.retryCount - 1 } =
      begun cfg w := by
    simp only [begun, hp]
    omega
  constructor
  · exact htasks.trans h.tasks
  · exact h.le
  · intro hiter
    cases hiter
  · show w.retryCount - 1 ≤ _
    omega
  · exact fun _ => ⟨hlt, hstarted⟩
  · exact .inl rfl
  · refine ⟨counts, hlength, hcounts, ?_⟩
    rw [hbegun, attempts_append, he, hattempts]
    simp
  · have hbounded := h.bounded
    have hleft : iterationsLeft cfg ts { w with pc := .loopTest, retryCount := w.retryCount - 1 } +
        1 = iterationsLeft cfg ts w := by
      simp only [iterationsLeft, if_pos hlt]
      omega
    simp only [statementsLeft, hp] at hbounded
    simp only [statementsLeft, List.length_append, List.length_singleton]
    omega

theorem InTurn.step (h : InTurn cfg ts trace s w) (hpc : w.pc.looping = true)
    (hst : taskExecutionThread cfg s w c = some (l, e)) :
    ∃ w', l = .worker w' ∧ InTurn cfg ts (trace ++ [e]) (s.commit cfg t l e) w' := by
  have hretrying (hlt : w.retryCount < cfg.taskRetryCount) : w.isTaskTimerStarted = true :=
    (h.retrying hlt).2
  have hpos (hiter : w.pc.iterating = true) : 0 < iterationsLeft cfg ts w :=
    iterationsLeft_pos (h.lt hiter)
  have hgoto {pc pc' : WorkerPc} (started : Bool) (hp : w.pc = pc)
      (hstarted : w.retryCount < cfg.taskRetryCount → started = true)
      (he : e.attempted = none) (htasks : (s.commit cfg t l e).tasks = s.tasks)
      (hiter : pc.iterating = true) (hiter' : pc'.iterating = true)
      (hbegun : begun cfg { w with pc := pc' } = begun cfg { w with pc := pc })
      (hleft : 0 < iterationsLeft cfg ts w → statementsLeft cfg ts { w with pc := pc' } <
        statementsLeft cfg ts { w with pc := pc }) :
      InTurn cfg ts (trace ++ [e]) (s.commit cfg t l e)
        { w with pc := pc', isTaskTimerStarted := started } := by
    subst hp
    refine h.goto he htasks (fun _ => h.lt hiter) hstarted (.inl ?_) hbegun ?_
    · cases pc' <;> first | rfl | cases hiter'
    · rw [statementsLeft_goto]
      exact hleft (hpos hiter)
  have hsteps := taskExecutionThread_step hst
  cases hsteps with
  | enterLoop hp hi _ =>
    refine ⟨_, rfl, h.goto rfl rfl (fun _ => h.tasks ▸ hi) hretrying (.inl rfl)
      ?_ ?_⟩
    · simp [begun, hp]
    · simp only [statementsLeft, hp, iterationsLeft_goto]
      omega
  | leaveLoop hp _ =>
    refine ⟨_, rfl, h.goto rfl rfl (fun hi => by cases hi) hretrying (.inl rfl)
      ?_ ?_⟩
    · simp [begun, hp]
    · simp only [statementsLeft, hp]
      omega
  | setCurrent hp task ht => exact ⟨_, rfl, h.setCurrent hp ht⟩
  | aborted hp _ =>
    refine ⟨_, rfl, h.nextTask (by rw [hp]; rfl) (by simp [begun, hp]) rfl ?_ rfl⟩
    simp only [statementsLeft, hp]
    omega
  | timerStarted hp _ _ =>
    exact ⟨_, rfl, hgoto true hp (fun _ => rfl) rfl rfl rfl rfl rfl
      fun _ => by simp only [statementsLeft, iterationsLeft_goto]; omega⟩
  | timerFailed hp created armed _ =>
    have hretry := retryCount_of_startTimer hst
    exact ⟨_, rfl, hgoto false hp (fun hlt => absurd hretry hlt.ne) rfl rfl rfl rfl rfl
      fun _ => by simp only [statementsLeft, iterationsLeft_goto]; omega⟩
  | clearThenRetry hp _ _ hretry hstarted =>
    exact ⟨_, rfl, h.retryTask hp hretry hstarted rfl rfl⟩
  | stopTimer hp _ =>
    have hleft := hpos (by rw [hp]; rfl)
    refine ⟨_, rfl, h.nextTask (by rw [hp]; rfl) (by simp [begun, hp]) rfl ?_ rfl⟩
    simp only [statementsLeft, hp]
    omega
  | abortedAtEnd hp _ =>
    refine ⟨_, rfl, h.goto rfl rfl (fun hi => by cases hi) hretrying
      (.inl rfl) ?_ ?_⟩
    · simp [begun, hp]
    · simp [statementsLeft, hp]
  | notAbortedAtEnd hp _ =>
    refine ⟨_, rfl, h.goto rfl rfl (fun hi => by cases hi) hretrying
      (.inr rfl) ?_ ?_⟩
    · simp [begun, hp]
    · simp [statementsLeft, hp]
  | clearAbort hp =>
    refine ⟨_, rfl, h.goto rfl rfl (fun hi => by cases hi) hretrying
      (.inl rfl) ?_ ?_⟩
    · simp [begun, hp]
    · simp [statementsLeft, hp]
  | stopTimerEnd hp _ =>
    refine ⟨_, rfl, h.goto rfl rfl (fun hi => by cases hi) hretrying
      (.inr rfl) ?_ ?_⟩
    · simp [begun, hp]
    · simp [statementsLeft, hp]
  | _ hp =>
    -- the statements outside the loop, and those that go on within the iteration
    first
    | rw [hp] at hpc
      cases hpc
      done
    | exact ⟨_, rfl, hgoto _ hp hretrying rfl rfl rfl rfl rfl
        fun _ => by simp only [statementsLeft, iterationsLeft_goto]; omega⟩

theorem InTurn.lt_of_begun (h : InTurn cfg ts trace s w) (hbegun : begun cfg w ≠ 0) :
    w.i < ts.length := by
  by_cases hretry : w.retryCount < cfg.taskRetryCount
  · exact (h.retrying hretry).1
  · refine h.lt ?_
    have hsub : cfg.taskRetryCount - w.retryCount = 0 := by omega
    cases hp : w.pc <;> first | rfl | simp [begun, hp, hsub] at hbegun

theorem begun_le : begun cfg w ≤ cfg.taskRetryCount + 1 := by
  unfold begun
  split <;> omega

/-! ## The loop does not get stuck -/

/-- Inside the list every statement of the loop can be executed. -/
theorem InTurn.proceeds (h : InTurn cfg ts trace s w) (hpc : w.pc.looping = true) (c : Choice) :
    taskExecutionThread cfg s w c ≠ none := by
  have hget (hiter : w.pc.iterating = true) : ∃ task, s.tasks[w.i]? = some task := by
    refine ⟨_, List.getElem?_eq_getElem ?_⟩
    rw [h.tasks]
    exact h.lt hiter
  cases hp : w.pc with
  | setCurrent | setMap | launch | clearMap | failComplete =>
    obtain ⟨task, htask⟩ := hget (by rw [hp]; rfl)
    simp [taskExecutionThread, hp, htask]
  | loopTest | abortTest | startTimer | abortEnd =>
    simp only [taskExecutionThread, hp]
    split <;> exact Option.some_ne_none _
  | waitTask | wakeTask | stopTimer | clearAbort | stopTimerEnd =>
    simp [taskExecutionThread, hp]
  | _ =>
    rw [hp] at hpc
    cases hpc

end SoftwareUpdate.MaintenanceManager
