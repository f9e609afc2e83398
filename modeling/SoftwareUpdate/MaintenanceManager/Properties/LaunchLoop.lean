import SoftwareUpdate.MaintenanceManager.Proofs.LoopTasks

/-!
# The launch loop is bounded, ordered and complete

What holds of every run of the loop over the tasks: it ends, it attempts the tasks in turn, it
resolves every task unless it is aborted, and it leaves the timer disarmed.
-/

namespace SoftwareUpdate.MaintenanceManager

open Misc Misc.BitField

variable {cfg : Config} {s s₀ s' : Sys} {t u : Tid} {w : Worker} {l : Thread} {e : Effect}
  {c : Choice} {ts : List Task} {trace : List Effect} {raised : Bool} {task : Task}

/-- The worker is behind the loop. -/
def LeftLoop (t : Tid) (s : Sys) : Prop := ∃ w, s.thread t = .worker w ∧ w.pc = .unlockCall

/-- The loop from `s₀` on is bounded, it goes through the list in its order, without an abort it
resolves every task, and it leaves the timer disarmed. -/
structure LaunchesInTurn (cfg : Config) (t : Tid) (ts : List Task) (raised : Bool) (s₀ : Sys)
    (trace : List Effect) (s : Sys) : Prop where
  bounded : trace.length ≤ 9 * (ts.length * (cfg.taskRetryCount + 1)) + 4
  proceeds : ∀ c, LeftLoop t s ∨ ∃ w, s.thread t = .worker w ∧ w.pc.looping = true ∧
    (w.pc.iterating = true → w.i < ts.length) ∧ taskExecutionThread cfg s w c ≠ none
  ordered : ∃ counts : List ℕ, counts.length ≤ ts.length ∧
    (∀ n ∈ counts, 1 ≤ n ∧ n ≤ cfg.taskRetryCount + 1) ∧ attempts trace = attemptsOf counts ts
  noSuccess : ∀ task cause, .setStatus (successBit task) cause ∉ trace
  resolved : s₀.abortFlag = false → raised = false → LeftLoop t s →
    ∀ task ∈ ts, Launched trace task ∨ GivenUp cfg trace s task
  disarmed : (∀ disarmed, .stopTimer disarmed ∈ trace → disarmed = true) → LeftLoop t s →
    s.taskTimerArmed = true → ts = [] ∧ s₀.taskTimerArmed = true
/-! ## The timer -/

/-- What the loop knows about the timer: an armed timer is that of a retry, or it is disarmed at
the end because of the abort, or the loop has not done anything yet. -/
def timerKept (cfg : Config) (ts : List Task) (s₀ s : Sys) (w : Worker) : Prop :=
  match w.pc with
  | .loopTest | .setCurrent | .abortTest => s.taskTimerArmed = true →
      s.abortFlag = true ∨ w.retryCount < cfg.taskRetryCount ∨
        w.i = 0 ∧ s₀.taskTimerArmed = true
  | .abortEnd => s.taskTimerArmed = true →
      s.abortFlag = true ∨ ts = [] ∧ s₀.taskTimerArmed = true
  | .unlockCall => s.taskTimerArmed = true → ts = [] ∧ s₀.taskTimerArmed = true
  | _ => True

/-- An armed timer has been created. -/
def Sys.timerExists (s : Sys) : Prop := s.taskTimerArmed = true → s.taskTimerCreated = true

theorem timerExists_commit (h : s.timerExists) : (s.commit cfg t l e).timerExists := by
  cases e with
  | startTimer created armed =>
    intro harmed
    have harmed' : (s.taskTimerArmed || ((s.taskTimerCreated || created) && armed)) = true := harmed
    show (s.taskTimerCreated || created) = true
    rcases Bool.or_eq_true_iff.mp harmed' with hold | hnew
    · rw [h hold, Bool.true_or]
    · exact (Bool.and_eq_true_iff.mp hnew).1
  | stopTimer disarmed => exact fun harmed => h (Bool.and_eq_true_iff.mp harmed).1
  | deleteTimer deleted =>
    intro harmed
    obtain ⟨hold, hkept⟩ := Bool.and_eq_true_iff.mp harmed
    have hcreated := h hold
    rw [hcreated, Bool.true_and] at hkept
    show (s.taskTimerCreated && !deleted) = true
    rw [hcreated, hkept]
    rfl
  | timerExpires => exact fun harmed => Bool.noConfusion harmed
  | _ => exact h

/-- The timer that `task_stopTimer` has stopped. -/
theorem timerArmed_commit_stopTimer (h : s.timerExists) :
    (s.commit cfg t l (.stopTimer true)).taskTimerArmed = false := by
  show (s.taskTimerArmed && !(s.taskTimerCreated && true)) = false
  cases harmed : s.taskTimerArmed with
  | false => rfl
  | true => rw [h harmed]; rfl

theorem timerKept_step {w' : Worker} (h : InTurn cfg ts trace s w) (hpc : w.pc.looping = true)
    (hexists : s.timerExists) (hkept : timerKept cfg ts s₀ s w)
    (hstop : ∀ disarmed, e = .stopTimer disarmed → disarmed = true)
    (hst : WorkerStep cfg s w (.worker w') e) :
    timerKept cfg ts s₀ (s.commit cfg t (.worker w') e) w' := by
  cases hst with
  | enterLoop hp _ _ | setCurrent hp _ _ =>
    simp only [timerKept, hp] at hkept
    exact hkept
  | leaveLoop hp hend =>
    simp only [timerKept, hp] at hkept
    intro harmed
    rw [h.tasks] at hend
    rcases hkept harmed with habort | hretry | ⟨hi, harmed₀⟩
    · exact .inl habort
    · exact .inl (hend (h.retrying hretry).1)
    · cases ts with
      | nil => exact .inr ⟨rfl, harmed₀⟩
      | cons task ts => exact .inl (hend (by rw [hi]; exact Nat.succ_pos _))
  | aborted hp habort => exact fun _ => .inl habort
  | clearThenRetry hp _ _ hretry _ =>
    intro _
    refine .inr (.inl ?_)
    have hle := h.retry
    show w.retryCount - 1 < cfg.taskRetryCount
    omega
  | stopTimer hp disarmed =>
    obtain rfl := hstop disarmed rfl
    intro harmed
    rw [timerArmed_commit_stopTimer hexists] at harmed
    cases harmed
  | notAbortedAtEnd hp habort =>
    simp only [timerKept, hp] at hkept
    intro harmed
    refine (hkept harmed).resolve_left ?_
    rw [habort]
    exact Bool.false_ne_true
  | stopTimerEnd hp disarmed =>
    obtain rfl := hstop disarmed rfl
    intro harmed
    rw [timerArmed_commit_stopTimer hexists] at harmed
    cases harmed
  | _ hp =>
    first
    | rw [hp] at hpc
      cases hpc
      done
    | trivial

theorem timerKept_raise (h : timerKept cfg ts s₀ s w) :
    timerKept cfg ts s₀ (s.commit cfg u l (.setAbortFlag true)) w := by
  cases hp : w.pc with
  | loopTest | setCurrent | abortTest | abortEnd =>
    simp only [timerKept, hp]
    exact fun _ => .inl rfl
  | unlockCall =>
    simp only [timerKept, hp] at h ⊢
    exact h
  | _ =>
    simp only [timerKept, hp]

/-! ## Every run of the loop -/

/-- Raising the flag on another thread. -/
theorem raise_thread :
    (s.commit cfg u (s.thread u) (.setAbortFlag true)).thread = s.thread := by
  show Function.update s.thread u (s.thread u) = s.thread
  exact Function.update_eq_self u s.thread

theorem LoopRun.inTurn {w₀ : Worker} (hrun : LoopRun cfg t raised s₀ trace s)
    (h : EntersLoop cfg t ts s₀ w₀) :
    ∃ w, s.thread t = .worker w ∧ InTurn cfg ts trace s w := by
  induction hrun with
  | refl => exact ⟨w₀, h.thread, h.inTurn⟩
  | own run hw hpc hst ih =>
    obtain ⟨w, hthread, hin⟩ := ih
    obtain rfl := Thread.worker.inj (hw.symm.trans hthread)
    obtain ⟨w', rfl, hin'⟩ := hin.step hpc hst
    exact ⟨w', commit_thread_self, hin'⟩
  | raise run _ hu ih =>
    obtain ⟨w, hthread, hin⟩ := ih
    exact ⟨w, (congrFun raise_thread t).trans hthread, { hin with tasks := hin.tasks }⟩

theorem LoopRun.timerKept {w₀ : Worker} (hrun : LoopRun cfg t raised s₀ trace s)
    (h : EntersLoop cfg t ts s₀ w₀) (hexists : s₀.timerExists)
    (hstop : ∀ disarmed, .stopTimer disarmed ∈ trace → disarmed = true) :
    s.timerExists ∧ ∀ w, s.thread t = .worker w → timerKept cfg ts s₀ s w := by
  induction hrun with
  | refl =>
    refine ⟨hexists, fun w hw => ?_⟩
    obtain rfl := Thread.worker.inj (hw.symm.trans h.thread)
    simp only [MaintenanceManager.timerKept, h.pc]
    exact fun harmed => .inr (.inr ⟨h.i, harmed⟩)
  | own run hw hpc hst ih =>
    obtain ⟨hex, hkept⟩ := ih fun d hd => hstop d (List.mem_append_left _ hd)
    obtain ⟨w, hthread, hin⟩ := run.inTurn h
    obtain rfl := Thread.worker.inj (hw.symm.trans hthread)
    obtain ⟨w', rfl, -⟩ := hin.step (t := t) hpc hst
    refine ⟨timerExists_commit hex, fun w hw' => ?_⟩
    obtain rfl := Thread.worker.inj (commit_thread_self.symm.trans hw')
    refine timerKept_step hin hpc hex (hkept _ hw) ?_ (taskExecutionThread_step hst)
    rintro disarmed rfl
    exact hstop disarmed (by simp)
  | raise run _ hu ih =>
    obtain ⟨hex, hkept⟩ := ih hstop
    refine ⟨hex, fun w hw => ?_⟩
    exact timerKept_raise (hkept w ((congrFun raise_thread t).symm.trans hw))

theorem LoopRun.resolving {w₀ : Worker} (hrun : LoopRun cfg t raised s₀ trace s)
    (h : EntersLoop cfg t ts s₀ w₀) (habort : s₀.abortFlag = false) (hraised : raised = false) :
    ∀ w, s.thread t = .worker w → Resolving cfg ts trace s w := by
  induction hrun with
  | refl =>
    intro w hw
    obtain rfl := Thread.worker.inj (hw.symm.trans h.thread)
    have hpending (v : Task) : Pending [] v 0 := ⟨rfl, rfl, fun _ hx => by cases hx⟩
    refine ⟨habort, ?_, fun _ _ v _ => hpending v, ?_, fun _ htest => absurd h.pc htest⟩
    · intro j hj
      rw [h.i] at hj
      cases hj
    · intro v _
      simp only [currentKept, h.pc, h.retryCount, Nat.sub_self]
      exact hpending v
  | own run hw hpc hst ih =>
    obtain ⟨w, hthread, hin⟩ := run.inTurn h
    obtain rfl := Thread.worker.inj (hw.symm.trans hthread)
    obtain ⟨w', rfl, -⟩ := hin.step (t := t) hpc hst
    intro w hw'
    obtain rfl := Thread.worker.inj (commit_thread_self.symm.trans hw')
    exact (ih _ hw).step hin h.nodup hpc (taskExecutionThread_step hst)
  | raise run hr hu ih =>
    rw [hraised] at hr
    cases hr

/-- The loop sets COMPLETE bits only. -/
theorem LoopRun.setStatus {n : ℕ} {cause : Cause} (hrun : LoopRun cfg t raised s₀ trace s)
    (hmem : .setStatus n cause ∈ trace) : ∃ v, n = completeBit v := by
  induction hrun with
  | refl => cases hmem
  | own run hw hpc hst ih =>
    rcases List.mem_append.mp hmem with hold | hnew
    · exact ih hold
    · obtain rfl := List.mem_singleton.mp hnew
      cases taskExecutionThread_step hst with
      | failComplete _ v _ => exact ⟨v, rfl⟩
      | markSuccess hp | markComplete hp =>
        rw [hp] at hpc
        cases hpc
  | raise run _ _ ih => exact ih hmem

/-- Every run of the loop goes through the list in turn: it is bounded and does not get stuck, it
attempts the tasks in their order, and when it ends without an abort every task has been
launched or given up. -/
theorem launchesInTurn {w₀ : Worker} (h : EntersLoop cfg t ts s₀ w₀) (hexists : s₀.timerExists)
    (hrun : LoopRun cfg t raised s₀ trace s) :
    LaunchesInTurn cfg t ts raised s₀ trace s := by
  obtain ⟨w, hthread, hin⟩ := hrun.inTurn h
  constructor
  · exact (Nat.le_add_right _ _).trans hin.bounded
  · intro c
    rcases hin.inLoop with hpc | hpc
    · exact .inr ⟨w, hthread, hpc, hin.lt, hin.proceeds hpc c⟩
    · exact .inl ⟨w, hthread, hpc⟩
  · obtain ⟨counts, hlength, hcounts, hattempts⟩ := hin.ordered
    by_cases hbegun : begun cfg w = 0
    · rw [hbegun, attemptsOf_append_zero] at hattempts
      exact ⟨counts, hlength ▸ hin.le, hcounts, hattempts⟩
    · refine ⟨counts ++ [begun cfg w], ?_, ?_, hattempts⟩
      · have hlt := hin.lt_of_begun hbegun
        simp only [List.length_append, List.length_singleton]
        omega
      · intro n hn
        rcases List.mem_append.mp hn with hn | hn
        · exact hcounts n hn
        · obtain rfl := List.mem_singleton.mp hn
          exact ⟨Nat.pos_of_ne_zero hbegun, begun_le⟩
  · intro v cause hmem
    obtain ⟨u, hu⟩ := hrun.setStatus hmem
    exact completeBit_ne_successBit u v hu.symm
  · rintro habort hraised ⟨w', hw', hpc⟩ v hv
    have hres := hrun.resolving h habort hraised w' hw'
    obtain ⟨j, hj, rfl⟩ := List.getElem_of_mem hv
    have hlen := hres.finished (by rw [hpc]; rfl) (by rw [hpc]; decide)
    exact hres.before j (Nat.lt_of_lt_of_le hj hlen) _ (List.getElem?_eq_getElem hj)
  · rintro hstop ⟨w', hw', hpc⟩
    have hkept := (hrun.timerKept h hexists hstop).2 w' hw'
    simpa only [timerKept, hpc] using hkept

/-! ## The loop in the plugin -/

theorem timerExists_of_reachable (h : (plugin cfg).Reachable s) : s.timerExists := by
  refine h.invariant ?_ ?_
  · rintro s ⟨threadCreated, rfl⟩ harmed
    cases harmed
  · intro s a s' _ hexists hstep
    obtain ⟨t, l, e, -, -, rfl⟩ := step_commit hstep
    exact timerExists_commit hexists

/-- Between the statements that clear the list and fill it again. -/
def Worker.erased (w : Worker) : Bool :=
  match w.pc with
  | .checkActivation | .checkNetwork | .branchWhoAmI | .checkActivated | .knowWhoAmI
  | .branchContext | .listenContext | .testContext | .waitContext | .wakeContext | .branchExit
  | .branchSkip | .markSuccess | .markComplete | .pushTasks => true
  | .lockStarted | .notifyStarted | .unlockStarted => w.delayMaintenanceStarted
  | _ => false

/-- What a worker that has not entered the loop yet keeps for it. -/
structure ReadyForLoop (cfg : Config) (s : Sys) (w : Worker) : Prop where
  retryCount : w.pc.looping = true ∨ w.pc = .unlockCall ∨ w.pc = .unlockWai ∨
    w.retryCount = cfg.taskRetryCount
  fresh : w.pc = .lockWai ∨ w.pc = .decideDelay → w.delayMaintenanceStarted = false
  erased : w.erased = true → s.tasks = []
  filled : w.pc = .lockCall → ∃ skip, s.tasks = tasksFor skip

theorem ReadyForLoop.create : ReadyForLoop cfg s (Worker.create cfg) := by
  constructor
  · exact .inr (.inr (.inr rfl))
  · exact fun _ => rfl
  · intro h
    cases h
  · intro h
    cases h

theorem ReadyForLoop.step {w' : Worker} (h : ReadyForLoop cfg s w)
    (hst : WorkerStep cfg s w (.worker w') e) :
    ReadyForLoop cfg (s.commit cfg t (.worker w') e) w' := by
  obtain ⟨hretry, hfresh, herased, hfilled⟩ := h
  cases hst with
  | pushTasks hp =>
    refine ⟨by simpa [hp, WorkerPc.looping, Worker.goto] using hretry, fun hx => ?_, fun hx => ?_,
      fun _ => ⟨w.skipsFirmware cfg, ?_⟩⟩
    · rcases hx with hx | hx <;> cases hx
    · cases hx
    · show s.tasks ++ _ = _
      rw [herased (by simp [Worker.erased, hp]), List.nil_append]
  | noDelay hp _ =>
    have hdelay := hfresh (.inr hp)
    refine ⟨by simpa [hp, WorkerPc.looping] using hretry, fun hx => ?_, fun hx => ?_,
      fun hx => by cases hx⟩
    · rcases hx with hx | hx <;> cases hx
    · have hx' : w.delayMaintenanceStarted = true := hx
      rw [hdelay] at hx'
      cases hx'
  | eraseThenActivation hp | eraseThenNetwork hp =>
    refine ⟨by simpa [hp, WorkerPc.looping] using hretry, fun hx => ?_, fun _ => rfl,
      fun hx => by cases hx⟩
    rcases hx with hx | hx <;> cases hx
  | _ hp =>
    simp only [Worker.erased, hp, WorkerPc.looping] at hretry hfresh herased hfilled
    constructor
    all_goals
      simp_all [Worker.erased, WorkerPc.looping, Effect.apply, Worker.nextTask]

theorem readyForLoop_of_reachable (h : (plugin cfg).Reachable s) (hw : s.thread t = .worker w) :
    ReadyForLoop cfg s w := by
  refine (reachedWhere_of_reachable h).forall_threads
    (A := fun s _ l => ∀ w, l = .worker w → ReadyForLoop cfg s w) ?_ ?_ ?_ ?_ t w hw
  · intro threadCreated u w hu
    rcases boot_thread threadCreated u with hidle | hworker
    · cases hidle.symm.trans hu
    · cases hworker.symm.trans hu
      exact .create
  · intro s t l e _ _ hready hmove _ _ w' hl
    subst hl
    rcases hmove.worker with ⟨w, -, hthread, hst⟩ | ⟨hthread, he⟩
    · exact (hready w hthread).step hst
    · have hold := hready w' hthread
      rcases he with rfl | rfl <;>
        exact ⟨hold.retryCount, hold.fresh, hold.erased, hold.filled⟩
  · intro s t l e u _ hok hready hmove _ _ hut w hw
    have hold := hready w hw
    have htasks : (s.commit cfg t l e).tasks = s.tasks := by
      have horigin := hmove.origin
      cases e with
      | setTasks ts =>
        obtain ⟨v, hv, -⟩ := horigin
        exact absurd (hok.worker_unique hw hv) hut
      | _ => rfl
    exact ⟨hold.retryCount, hold.fresh, fun hx => htasks.trans (hold.erased hx),
      fun hx => htasks ▸ hold.filled hx⟩
  · intro s t l w _ _ _ w' hw'
    cases hw'
    exact .create

/-- The worker of every run enters the loop as it is looked at here. -/
theorem entersLoop_of_reachable (h : (plugin cfg).Reachable s) (hw : s.thread t = .worker w)
    (hpc : w.pc = .lockCall) :
    ∃ ts, EntersLoop cfg t ts
      (s.commit cfg t (.worker { w with pc := .loopTest, i := 0 }) (.lock .call))
      { w with pc := .loopTest, i := 0 } := by
  have hready := readyForLoop_of_reachable h hw
  obtain ⟨skip, htasks⟩ := hready.filled hpc
  refine ⟨tasksFor skip, commit_thread_self, rfl, rfl, ?_, htasks, ?_⟩
  · simpa [hpc, WorkerPc.looping] using hready.retryCount
  · cases skip <;> decide

/-! ## A run -/

/-- The loop with the answers `cs`. -/
def runLoop (cfg : Config) (t : Tid) : List Choice → List Effect → Sys → Option (List Effect × Sys)
  | [], trace, s => some (trace, s)
  | c :: cs, trace, s =>
      match s.thread t with
      | .worker w =>
          if w.pc.looping then
            (taskExecutionThread cfg s w c).bind fun p =>
              runLoop cfg t cs (trace ++ [p.2]) (s.commit cfg t p.1 p.2)
          else none
      | _ => none

theorem loopRun_of_runLoop {cs : List Choice} {before : List Effect}
    (hrun : LoopRun cfg t raised s₀ before s) (h : runLoop cfg t cs before s = some (trace, s')) :
    LoopRun cfg t raised s₀ trace s' := by
  induction cs generalizing before s with
  | nil =>
    cases h
    exact hrun
  | cons c cs ih =>
    unfold runLoop at h
    split at h
    · next w hw =>
      split at h
      · next hpc =>
        obtain ⟨p, hst, hrest⟩ := Option.bind_eq_some_iff.mp h
        exact ih (.own hrun hw hpc hst) hrest
      · cases h
    · cases h

/-- A worker in front of a loop over two tasks. -/
def loopOverTwo : Sys :=
  { maintenanceManagerOnBootup (device false false) true with
    thread := Function.update (fun _ => .idle) 0
      (.worker { Worker.create (device false false) with pc := .loopTest })
    tasks := [.rfc, .logupload] }

/-- Both launches of the first task fail, that of the second succeeds. -/
def failsThenLaunches : List Choice :=
  let no : Choice := {}
  let yes : Choice := { answer := true, created := true }
  List.replicate 3 no ++ [yes] ++ List.replicate 10 no ++ [no, yes] ++
    List.replicate 3 no ++ [yes, no, yes, no, no, yes, no, no]

/-- The first task is given up, the second launched, and the worker leaves the loop. -/
theorem launchesInTurn_loopOverTwo : ∃ trace s,
    LoopRun (device false false) 0 false loopOverTwo trace s ∧ LeftLoop 0 s ∧
      attempts trace = [.rfc, .rfc, .logupload] ∧
      LaunchesInTurn (device false false) 0 [.rfc, .logupload] false loopOverTwo trace s := by
  have hcomputed : ((runLoop (device false false) 0 failsThenLaunches [] loopOverTwo).any fun p =>
      (p.2.thread 0).isWorker (·.pc == .unlockCall) &&
        attempts p.1 == [.rfc, .rfc, .logupload]) = true := by
    decide +kernel
  obtain ⟨⟨trace, s⟩, hrun, htest⟩ := (Option.any_eq_true _ _).mp hcomputed
  simp only [Bool.and_eq_true, beq_iff_eq] at htest
  obtain ⟨w, hw, hpc⟩ := Thread.isWorker_iff.mp htest.1
  have hloop : LoopRun (device false false) 0 false loopOverTwo trace s :=
    loopRun_of_runLoop .refl hrun
  exact ⟨trace, s, hloop, ⟨w, hw, beq_iff_eq.mp hpc⟩, htest.2,
    launchesInTurn ⟨rfl, rfl, rfl, rfl, rfl, by decide⟩ (fun harmed => by cases harmed) hloop⟩

end SoftwareUpdate.MaintenanceManager
