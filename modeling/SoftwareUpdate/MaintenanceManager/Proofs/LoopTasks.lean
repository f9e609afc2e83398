import SoftwareUpdate.MaintenanceManager.Proofs.LoopRuns

/-!
# What becomes of a task in the loop

Without an abort the loop either launches a task once, or it gives the task up when its attempts
are exhausted or its timer could not be started. Whatever the loop does to one task it spares the
others.
-/

namespace SoftwareUpdate.MaintenanceManager

open Misc Misc.BitField

variable {cfg : Config} {s s₀ s' : Sys} {t u : Tid} {w : Worker} {l : Thread} {e : Effect}
  {c : Choice} {ts : List Task} {trace : List Effect} {raised : Bool} {task : Task}

/-- The loop has launched the task once and has not set its COMPLETE bit. -/
structure Launched (trace : List Effect) (task : Task) : Prop where
  once : trace.count (.system task true) = 1
  incomplete : ∀ cause, .setStatus (completeBit task) cause ∉ trace

/-- The launch of the task failed as often as it may, or the timer could not be started. -/
def Exhausted (cfg : Config) (trace : List Effect) (task : Task) : Prop :=
  trace.count (.system task false) = cfg.taskRetryCount + 1 ∨
    ∃ created armed, (created && armed) = false ∧
      [.setCurrentTask task, .tau, .startTimer created armed, .setTaskMap task false] <:+: trace

/-- The loop has given the task up. -/
structure GivenUp (cfg : Config) (trace : List Effect) (s : Sys) (task : Task) : Prop where
  unlaunched : trace.count (.system task true) = 0
  completes : .setStatus (completeBit task) .launchFailed ∈ trace
  completed : s.taskStatus.getLsbD (completeBit task) = true
  cleared : s.taskMap task = false
  exhausted : Exhausted cfg trace task

/-! ## Task by task -/

/-- The effect has nothing to do with the launch of the task. -/
def Effect.spares (task : Task) : Effect → Bool
  | .system v _ => v ≠ task
  | .setTaskMap v _ => v ≠ task
  | .setStatus n _ => n ≠ completeBit task
  | .clearTaskStatus => false
  | _ => true

/-- The task has been launched `n` times in vain, and the loop has not set its COMPLETE bit. -/
structure Pending (trace : List Effect) (task : Task) (n : ℕ) : Prop where
  unlaunched : trace.count (.system task true) = 0
  failed : trace.count (.system task false) = n
  incomplete : ∀ cause, .setStatus (completeBit task) cause ∉ trace

/-- What the loop knows about the current task. -/
def currentKept (cfg : Config) (trace : List Effect) (s : Sys) (w : Worker) (task : Task) : Prop :=
  match w.pc with
  | .loopTest | .setCurrent => Pending trace task (cfg.taskRetryCount - w.retryCount)
  | .setMap | .launch => w.isTaskTimerStarted = true ∧
      Pending trace task (cfg.taskRetryCount - w.retryCount)
  | .abortTest => Pending trace task (cfg.taskRetryCount - w.retryCount) ∧
      ∃ before, trace = before ++ [.setCurrentTask task]
  | .startTimer => Pending trace task (cfg.taskRetryCount - w.retryCount) ∧
      ∃ before, trace = before ++ [.setCurrentTask task, .tau]
  | .clearMap =>
      (w.isTaskTimerStarted = true →
        Pending trace task (cfg.taskRetryCount - w.retryCount + 1)) ∧
      (w.isTaskTimerStarted = false → ∃ n, Pending trace task n ∧
        ∃ before created armed, (created && armed) = false ∧
          trace = before ++ [.setCurrentTask task, .tau, .startTimer created armed])
  | .failComplete => (∃ n, Pending trace task n) ∧ s.taskMap task = false ∧
      Exhausted cfg trace task
  | .waitTask | .wakeTask => Launched trace task
  | .stopTimer => Launched trace task ∨ GivenUp cfg trace s task
  | _ => True

/-- Without an abort: the tasks before the current one are resolved, those after it untouched. -/
structure Resolving (cfg : Config) (ts : List Task) (trace : List Effect) (s : Sys) (w : Worker) :
    Prop where
  noAbort : s.abortFlag = false
  before : ∀ j < w.i, ∀ task, ts[j]? = some task → Launched trace task ∨ GivenUp cfg trace s task
  after : ∀ j > w.i, ∀ task, ts[j]? = some task → Pending trace task 0
  current : ∀ task, ts[w.i]? = some task → currentKept cfg trace s w task
  finished : w.pc.iterating = false → w.pc ≠ .loopTest → ts.length ≤ w.i

theorem count_append_of_ne {x : Effect} (h : e ≠ x) : (trace ++ [e]).count x = trace.count x := by
  simp [List.count_append, h]

theorem notMem_append_of_ne {x : Effect} (hx : x ∉ trace) (h : e ≠ x) : x ∉ trace ++ [e] := by
  simp [hx, Ne.symm h]

theorem Effect.ne_system_of_spares {b : Bool} (h : e.spares task = true) : e ≠ .system task b := by
  rintro rfl
  simp [Effect.spares] at h

theorem Effect.ne_setStatus_of_spares {cause : Cause} (h : e.spares task = true) :
    e ≠ .setStatus (completeBit task) cause := by
  rintro rfl
  simp [Effect.spares] at h

theorem Pending.append {n : ℕ} (h : Pending trace task n) (hsystem : ∀ b, e ≠ .system task b)
    (hset : ∀ cause, e ≠ .setStatus (completeBit task) cause) : Pending (trace ++ [e]) task n where
  unlaunched := (count_append_of_ne (hsystem true)).trans h.unlaunched
  failed := (count_append_of_ne (hsystem false)).trans h.failed
  incomplete cause := notMem_append_of_ne (h.incomplete cause) (hset cause)

theorem Pending.spared {n : ℕ} (h : Pending trace task n) (he : e.spares task = true) :
    Pending (trace ++ [e]) task n :=
  h.append (fun _ => Effect.ne_system_of_spares he) fun _ => Effect.ne_setStatus_of_spares he

theorem Pending.mapped {n : ℕ} {b : Bool} (h : Pending trace task n) :
    Pending (trace ++ [.setTaskMap task b]) task n :=
  h.append (fun _ hx => by cases hx) fun _ hx => by cases hx

/-- A launch that fails. -/
theorem Pending.fail {n : ℕ} (h : Pending trace task n) :
    Pending (trace ++ [.system task false]) task (n + 1) where
  unlaunched := (count_append_of_ne (by simp)).trans h.unlaunched
  failed := by simp [List.count_append, h.failed]
  incomplete cause := notMem_append_of_ne (h.incomplete cause) fun hx => by cases hx

/-- A launch that succeeds. -/
theorem Pending.launch {n : ℕ} (h : Pending trace task n) :
    Launched (trace ++ [.system task true]) task where
  once := by simp [List.count_append, h.unlaunched]
  incomplete cause := notMem_append_of_ne (h.incomplete cause) fun hx => by cases hx

theorem Launched.append (h : Launched trace task) (he : e.spares task = true) :
    Launched (trace ++ [e]) task where
  once := (count_append_of_ne (Effect.ne_system_of_spares he)).trans h.once
  incomplete cause :=
    notMem_append_of_ne (h.incomplete cause) (Effect.ne_setStatus_of_spares he)

theorem Exhausted.append (h : Exhausted cfg trace task) (he : e ≠ .system task false) :
    Exhausted cfg (trace ++ [e]) task := by
  refine h.imp (fun hcount => (count_append_of_ne he).trans hcount) ?_
  rintro ⟨created, armed, hfail, hinfix⟩
  exact ⟨created, armed, hfail, hinfix.trans (List.prefix_append trace [e]).isInfix⟩

theorem taskMap_of_spares (he : e.spares task = true) :
    (s.commit cfg t l e).taskMap task = s.taskMap task := by
  cases e with
  | setTaskMap v b =>
    have hv : v ≠ task := by simpa [Effect.spares] using he
    exact Function.update_of_ne (Ne.symm hv) b s.taskMap
  | _ => rfl

theorem completed_of_spares (he : e.spares task = true)
    (h : s.taskStatus.getLsbD (completeBit task) = true) :
    (s.commit cfg t l e).taskStatus.getLsbD (completeBit task) = true := by
  cases e with
  | setStatus n cause => exact getLsbD_raise_of_getLsbD h
  | clearTaskStatus => cases he
  | _ => exact h

theorem GivenUp.append (h : GivenUp cfg trace s task) (he : e.spares task = true) :
    GivenUp cfg (trace ++ [e]) (s.commit cfg t l e) task where
  unlaunched := (count_append_of_ne (Effect.ne_system_of_spares he)).trans h.unlaunched
  completes := List.mem_append_left _ h.completes
  completed := completed_of_spares he h.completed
  cleared := (taskMap_of_spares he).trans h.cleared
  exhausted := h.exhausted.append (Effect.ne_system_of_spares he)

/-- The loop acts on the current task only. -/
theorem WorkerStep.spares (h : WorkerStep cfg s w l e) (hpc : w.pc.looping = true)
    (hother : ∀ v, s.tasks[w.i]? = some v → v ≠ task) : e.spares task = true := by
  cases h with
  | setMap _ v hv | launched _ v hv | launchFailed _ v hv | clearThenRetry _ v hv
  | clearThenFail _ v hv => simpa [Effect.spares] using hother v hv
  | failComplete _ v hv =>
    have hne := hother v hv
    simp only [Effect.spares, decide_eq_true_eq]
    cases v <;> cases task <;> first | decide | exact absurd rfl hne
  | markSuccess hp | markComplete hp =>
    rw [hp] at hpc
    cases hpc
  | _ => rfl

theorem currentKept_step {w' : Worker} (hin : InTurn cfg ts trace s w)
    (hpc : w.pc.looping = true) (habort : s.abortFlag = false) (htask : ts[w.i]? = some task)
    (h : currentKept cfg trace s w task) (hst : WorkerStep cfg s w (.worker w') e)
    (hi : w'.i = w.i) :
    currentKept cfg (trace ++ [e]) (s.commit cfg t (.worker w') e) w' task := by
  have hthis {v : Task} (hv : s.tasks[w.i]? = some v) : v = task := by
    rw [hin.tasks, htask] at hv
    exact (Option.some.inj hv).symm
  cases hst with
  | enterLoop hp _ _ =>
    simp only [currentKept, hp] at h
    exact h.spared rfl
  | setCurrent hp v hv =>
    obtain rfl := hthis hv
    simp only [currentKept, hp] at h
    exact ⟨h.spared rfl, trace, rfl⟩
  | notAborted hp _ =>
    simp only [currentKept, hp] at h
    obtain ⟨hpending, before, rfl⟩ := h
    exact ⟨hpending.spared rfl, before, by simp⟩
  | aborted _ hab | abortedAtEnd _ hab =>
    rw [habort] at hab
    cases hab
  | timerStarted hp _ _ =>
    simp only [currentKept, hp] at h
    exact ⟨rfl, h.1.spared rfl⟩
  | timerFailed hp created armed hfail =>
    simp only [currentKept, hp] at h
    obtain ⟨hpending, before, rfl⟩ := h
    refine ⟨fun hx => Bool.noConfusion hx, fun _ => ⟨_, hpending.spared rfl, before, created,
      armed, ?_, by simp⟩⟩
    revert hfail
    cases s.taskTimerCreated <;> cases created <;> cases armed <;> simp
  | retry hp _ hstarted =>
    simp only [currentKept, hp] at h
    exact ⟨hstarted, h.1.spared rfl⟩
  | noRetry hp hretry hstarted =>
    have hlt := Nat.lt_of_le_of_ne hin.retry hretry
    rw [(hin.retrying hlt).2] at hstarted
    cases hstarted
  | setMap hp v hv =>
    obtain rfl := hthis hv
    simp only [currentKept, hp] at h
    exact ⟨h.1, h.2.mapped⟩
  | launched hp v hv =>
    obtain rfl := hthis hv
    simp only [currentKept, hp] at h
    exact h.2.launch
  | launchFailed hp v hv =>
    obtain rfl := hthis hv
    simp only [currentKept, hp] at h
    refine ⟨fun _ => h.2.fail, fun hstarted => ?_⟩
    have hno := h.1.symm.trans hstarted
    cases hno
  | clearThenRetry hp v hv hretry hstarted =>
    obtain rfl := hthis hv
    simp only [currentKept, hp] at h
    have hle := hin.retry
    have hcount : cfg.taskRetryCount - (w.retryCount - 1) =
        cfg.taskRetryCount - w.retryCount + 1 := by omega
    show Pending _ _ (cfg.taskRetryCount - (w.retryCount - 1))
    rw [hcount]
    exact (h.1 hstarted).mapped
  | clearThenFail hp v hv hno =>
    obtain rfl := hthis hv
    simp only [currentKept, hp] at h
    have hcleared : (Function.update s.taskMap v false) v = false := Function.update_self ..
    cases hstarted : w.isTaskTimerStarted with
    | true =>
      have hpending := h.1 hstarted
      have hretry : w.retryCount = 0 := by
        by_contra hne
        exact hno ⟨Nat.pos_of_ne_zero hne, hstarted⟩
      refine ⟨⟨_, hpending.mapped⟩, hcleared, .inl ?_⟩
      have hfailed := (hpending.mapped (b := false)).failed
      rw [hfailed, hretry, Nat.sub_zero]
    | false =>
      obtain ⟨n, hpending, before, created, armed, hfail, rfl⟩ := h.2 hstarted
      exact ⟨⟨n, hpending.mapped⟩, hcleared, .inr ⟨created, armed, hfail, before, [], by simp⟩⟩
  | failComplete hp v hv =>
    obtain rfl := hthis hv
    simp only [currentKept, hp] at h
    obtain ⟨⟨n, hpending⟩, hcleared, hexhausted⟩ := h
    exact .inr
      { unlaunched := (count_append_of_ne (fun hx => by cases hx)).trans hpending.unlaunched
        completes := by simp
        completed := getLsbD_raise_self (completeBit_lt v)
        cleared := hcleared
        exhausted := hexhausted.append fun hx => by cases hx }
  | waitTask hp =>
    simp only [currentKept, hp] at h
    exact h.append rfl
  | wakeTask hp =>
    simp only [currentKept, hp] at h
    exact .inl (h.append rfl)
  | stopTimer hp _ => exact absurd hi (Nat.succ_ne_self w.i)
  | _ hp =>
    first
    | rw [hp] at hpc
      cases hpc
      done
    | trivial

theorem WorkerStep.noAbort (h : WorkerStep cfg s w l e) (habort : s.abortFlag = false) :
    (s.commit cfg t l e).abortFlag = false := by
  cases h <;> first | exact habort | rfl

/-- A statement of the loop stays at the task, or it goes on to the next one. -/
theorem WorkerStep.index {w' : Worker} (h : WorkerStep cfg s w (.worker w') e)
    (hpc : w.pc.looping = true) (habort : s.abortFlag = false) :
    w'.i = w.i ∨ w.pc = .stopTimer ∧ w' = w.nextTask cfg ∧ ∃ disarmed, e = .stopTimer disarmed := by
  cases h with
  | stopTimer hp disarmed => exact .inr ⟨hp, rfl, disarmed, rfl⟩
  | aborted _ hab =>
    rw [habort] at hab
    cases hab
  | lockCall hp =>
    rw [hp] at hpc
    cases hpc
  | _ => exact .inl rfl

theorem WorkerStep.finished {w' : Worker} (h : WorkerStep cfg s w (.worker w') e)
    (hpc : w.pc.looping = true) (habort : s.abortFlag = false) (htasks : s.tasks = ts)
    (hfinished : w.pc.iterating = false → w.pc ≠ .loopTest → ts.length ≤ w.i)
    (hiter : w'.pc.iterating = false) (htest : w'.pc ≠ .loopTest) : ts.length ≤ w'.i := by
  cases h with
  | leaveLoop hp hend =>
    rw [htasks, habort] at hend
    by_contra hlt
    exact absurd (hend (Nat.lt_of_not_le hlt)) Bool.false_ne_true
  | notAbortedAtEnd hp _ | abortedAtEnd hp _ | clearAbort hp | stopTimerEnd hp _ =>
    exact hfinished (by rw [hp]; rfl) (by rw [hp]; decide)
  | _ hp =>
    first
    | cases hiter
      done
    | exact absurd rfl htest
    | rw [hp] at hpc
      cases hpc

theorem Resolving.step {w' : Worker} (h : Resolving cfg ts trace s w)
    (hin : InTurn cfg ts trace s w) (hnodup : ts.Nodup) (hpc : w.pc.looping = true)
    (hst : WorkerStep cfg s w (.worker w') e) :
    Resolving cfg ts (trace ++ [e]) (s.commit cfg t (.worker w') e) w' := by
  have hspares {j : ℕ} {v : Task} (hj : j ≠ w.i) (hv : ts[j]? = some v) : e.spares v = true := by
    refine hst.spares hpc fun x hx hxv => hj ?_
    subst hxv
    rw [hin.tasks] at hx
    obtain ⟨hjlt, hjget⟩ := List.getElem?_eq_some_iff.mp hv
    obtain ⟨hilt, higet⟩ := List.getElem?_eq_some_iff.mp hx
    exact (List.Nodup.getElem_inj_iff hnodup).mp (hjget.trans higet.symm)
  have hresolved {j : ℕ} {v : Task} (hj : j < w.i) (hv : ts[j]? = some v) :
      Launched (trace ++ [e]) v ∨ GivenUp cfg (trace ++ [e]) (s.commit cfg t (.worker w') e) v :=
    (h.before j hj v hv).imp (fun hl => hl.append (hspares hj.ne hv))
      fun hg => hg.append (hspares hj.ne hv)
  have hafter {j : ℕ} {v : Task} (hj : w.i < j) (hv : ts[j]? = some v) :
      Pending (trace ++ [e]) v 0 :=
    (h.after j hj v hv).spared (hspares hj.ne' hv)
  have hnoAbort := hst.noAbort (t := t) h.noAbort
  rcases hst.index hpc h.noAbort with hi | ⟨hp, rfl, disarmed, rfl⟩
  · refine ⟨hnoAbort, ?_, ?_, ?_, hst.finished hpc h.noAbort hin.tasks h.finished⟩
    · intro j hj v hv
      exact hresolved (hi ▸ hj) hv
    · intro j hj v hv
      exact hafter (hi ▸ hj) hv
    · intro v hv
      rw [hi] at hv
      exact currentKept_step hin hpc h.noAbort hv (h.current v hv) hst hi
  · refine ⟨hnoAbort, ?_, ?_, ?_, fun hiter htest => absurd rfl htest⟩
    · intro j hj v hv
      rcases Nat.lt_succ_iff_lt_or_eq.mp hj with hlt | rfl
      · exact hresolved hlt hv
      · have hcurrent := h.current v hv
        simp only [currentKept, hp] at hcurrent
        exact hcurrent.imp (fun hl => hl.append rfl) fun hg => hg.append rfl
    · intro j hj v hv
      exact hafter (Nat.lt_of_succ_lt hj) hv
    · intro v hv
      have hpending := hafter (Nat.lt_succ_self w.i) hv
      show Pending _ _ (cfg.taskRetryCount - cfg.taskRetryCount)
      rw [Nat.sub_self]
      exact hpending

end SoftwareUpdate.MaintenanceManager
