import SoftwareUpdate.MaintenanceManager.Properties.FirstOutcome
import SoftwareUpdate.MaintenanceManager.Properties.OneCycle
import SoftwareUpdate.MaintenanceManager.Properties.StopSignal

/-!
# Why a status is posted

Three functions post statuses, and each of them for a reason that lies in the cycle it posts
in. The reasons hold in every run, whatever races it has: what the two reads of
`g_task_status` in a handler can disagree about is the firmware task, and only on a device
that may leave it out.
-/

namespace SoftwareUpdate.MaintenanceManager

open Misc Misc.BitField Misc.History

variable {cfg : Config} {s s' : Sys} {t u : Tid} {l : Thread} {e : Effect} {pc : EventPc}
  {v : NotifyStatus} {w : Worker} {task : Task} {n : ℕ} {cause : Cause}

/-- A COMPLETE event of the task has been handled in the current cycle, or the worker has left
the task out. -/
def Sys.succeeded (s : Sys) (task : Task) : Prop :=
  s.inCycle (· == .handle (.complete task)) = true ∨ task = .swupdate ∧ s.firmwareSkipped = true

/-- The COMPLETE bit of the task has been set in the current cycle. -/
def Sys.resolved (s : Sys) (task : Task) : Prop := s.inCycle (·.completes task) = true

/-- Who records that the task has failed: the handler of an ERROR or an ABORTED event, the timeout,
the worker whose launch attempts are exhausted. -/
def Cause.isFailure (task : Task) : Cause → Bool
  | .event (.error v) => v == task
  | .event .fwdownloadAborted => task == .swupdate
  | .timeout | .launchFailed => true
  | _ => false

/-- The COMPLETE bit of the task is set because it has failed. -/
def Effect.fails (task : Task) : Effect → Bool
  | .setStatus n cause => n == completeBit task && cause.isFailure task
  | _ => false

/-- A failure of the task has been recorded in the current cycle. -/
def Sys.failed (s : Sys) (task : Task) : Prop := s.inCycle (·.fails task) = true

/-- The device may leave the firmware task out: it has no WhoAmI support, and its build suppresses
maintenance until the device is activated. -/
def Config.maySkip (cfg : Config) : Bool :=
  !cfg.whoamiSupportEnabled && cfg.suppressMaintenanceEnabled

/-- What lies behind a status that thread `t` posts in state `s`. -/
inductive Reason (cfg : Config) (s : Sys) (t : Tid) : NotifyStatus → Prop
  /-- The worker opens its cycle. -/
  | opened (w : Worker) (hw : s.thread t = .worker w) (hstatus : s.notifyStatus ≠ .started) :
      Reason cfg s t .started
  /-- Every task has succeeded. -/
  | complete (hhandler : s.thread t = .event (.notify .complete))
      (hresolved : ∀ task, s.resolved task) (hsucceeded : ∀ task, s.succeeded task) :
      Reason cfg s t .complete
  /-- Every task is resolved, and one has failed. -/
  | failed (hhandler : s.thread t = .event (.notify .error))
      (hresolved : ∀ task, s.resolved task) (hfailed : ∃ task, s.failed task) :
      Reason cfg s t .error
  /-- The firmware task is left out between the handler's two reads. -/
  | reread (hhandler : s.thread t = .event (.notify .started))
      (hresolved : ∀ task, s.resolved task) (hskip : cfg.maySkip = true)
      (hskipped : s.firmwareSkipped = true) :
      Reason cfg s t .started
  /-- A stop has been accepted. -/
  | stopped (deinit : Bool) (hstop : s.thread t = .stop deinit .notifyError)
      (hstatus : s.notifyStatus = .started) : Reason cfg s t .error
  /-- The worker leaves the cycle, offline. -/
  | offline (w : Worker) (hw : s.thread t = .worker w) (hexit : w.exitOnNoNetwork = true) :
      Reason cfg s t .error

/-! ## The bits and the cycle -/

theorem ModuleStatus.eq_complete_of_sets {status : ModuleStatus}
    (h : status.sets (successBit task) = true) : status = .complete task := by
  cases status with
  | complete v =>
    simp only [ModuleStatus.sets, Bool.or_eq_true, beq_iff_eq] at h
    rcases h with h | h
    · rw [successBit_inj h]
    · exact absurd h.symm (completeBit_ne_successBit v task)
  | error v =>
    exact absurd (beq_iff_eq.mp h).symm (completeBit_ne_successBit v task)
  | _ => cases task <;> cases h

/-- A SUCCESS bit that is set tells of an event of this cycle, or of the task left out. -/
theorem succeeded_of_successBit (h : (plugin cfg).Reachable s)
    (hbit : s.taskStatus.getLsbD (successBit task) = true) : s.succeeded task := by
  refine (reachedWhere_of_reachable h).induct
    (I := fun s => s.taskStatus.getLsbD (successBit task) = true → s.succeeded task) ?_ ?_ hbit
  · intro threadCreated hbit
    simp [maintenanceManagerOnBootup] at hbit
  · intro s t l e hreach _ hi hmove _ _ hbit
    have hkeep (hb : e.beginsCycle = false) (hs : s.succeeded task) :
        (s.commit cfg t l e).succeeded task :=
      hs.imp (inCycle_commit_mono hb) (And.imp_right (inCycle_commit_mono hb))
    obtain ⟨hb, hold | ⟨cause, rfl⟩⟩ := getLsbD_of_commit hbit
    · exact hkeep hb (hi hold)
    · have hnot (v : Task) : successBit task ≠ completeBit v :=
        (completeBit_ne_successBit v task).symm
      rcases hmove.origin with ⟨status, rest, hp, -⟩ | ⟨v, -, hn, -⟩ | ⟨w, v, -, -, -, hn, -⟩ |
        ⟨w, -, rfl, ⟨-, hn⟩ | ⟨-, hn⟩⟩
      · have hcase := inCase_of_reachable hreach.reachable hp
        have hstatus := ModuleStatus.eq_complete_of_sets (hcase.sets (List.mem_cons_self ..))
        subst hstatus
        exact hkeep rfl (.inl hcase.handled)
      · exact absurd hn (hnot v)
      · exact absurd hn (hnot v)
      · obtain rfl := successBit_inj hn
        exact .inr ⟨rfl, by simp [Sys.firmwareSkipped, Effect.beginsCycle]⟩
      · exact absurd hn (hnot _)

/-! ## A task without success has failed -/

/-- Whoever is to set a COMPLETE bit for a success has set the SUCCESS bit before. -/
def Sys.successFirst (s : Sys) : Thread → Prop
  | .event (.body (.complete task) rest) =>
      .setStatus (completeBit task) ∈ rest → .setStatus (successBit task) ∉ rest →
        s.taskStatus.getLsbD (successBit task) = true
  | .worker w => w.pc = .markComplete → s.taskStatus.getLsbD (successBit .swupdate) = true
  | _ => True

theorem Sys.successFirst_mono (hbits : ∀ n, s.taskStatus.getLsbD n = true →
    s'.taskStatus.getLsbD n = true) (h : s.successFirst l) : s'.successFirst l := by
  cases l with
  | event pc =>
    cases pc with
    | body status rest =>
      cases status with
      | complete task => exact fun hmem hnot => hbits _ (h hmem hnot)
      | _ => trivial
    | _ => trivial
  | worker w => exact fun hpc => hbits _ (h hpc)
  | _ => trivial

theorem successFirst_own (h : s.successFirst (s.thread t)) (hmove : Move cfg s t l e) :
    (s.commit cfg t l e).successFirst l := by
  cases l with
  | event pc =>
    cases pc with
    | body status rest =>
      cases status with
      | complete task =>
        intro hmem hnot
        rcases hmove.body with ⟨-, -, rfl⟩ | ⟨x, c, hp, rfl⟩ | ⟨hp, rfl | rfl⟩
        · simp only [eventCase, completeCase] at hmem hnot
          split at hmem <;> simp_all
        · rw [hp] at h
          by_cases hx : x = .setStatus (successBit task)
          · subst hx
            exact getLsbD_raise_self (successBit_lt task)
          · have hbit := h (List.mem_cons_of_mem x hmem) (by simp [Ne.symm hx, hnot])
            exact getLsbD_commit (by cases x <;> rfl) hbit
        · rw [hp] at h
          exact h hmem hnot
        · rw [hp] at h
          exact h hmem hnot
      | _ => trivial
    | _ => trivial
  | worker w =>
    intro hpc
    rcases hmove.worker with ⟨w₀, -, hw, hstep⟩ | ⟨hw, rfl | rfl⟩
    · cases hstep with
      | markSuccess _ => exact getLsbD_raise_self (successBit_lt .swupdate)
      | _ => cases hpc
    · rw [hw] at h
      exact h hpc
    · rw [hw] at h
      exact h hpc
  | _ => trivial

/-- A thread that is to set a COMPLETE bit keeps the cycle from ending. -/
theorem successFirst_other (hok : SysOk cfg s) (h : s.successFirst (s.thread u))
    (hmove : Move cfg s t l e) (hu : u ≠ t) : (s.commit cfg t l e).successFirst (s.thread u) := by
  cases hthread : s.thread u with
  | event pc =>
    rw [hthread] at h
    cases pc with
    | body status rest =>
      have hbegins := hmove.beginsCycle_of_other hok hu (by rw [hthread]; rfl)
      exact Sys.successFirst_mono (fun _ => getLsbD_commit hbegins) h
    | _ => trivial
  | worker w =>
    rw [hthread] at h
    intro hpc
    have hphase : w.phase = .running := by simp [Worker.phase, hpc]
    exact (hok.undisturbed hthread hphase hmove hu).bits _ (h hpc)
  | _ => trivial

theorem successFirst_of_reachable (h : (plugin cfg).Reachable s) (u : Tid) :
    s.successFirst (s.thread u) := by
  refine (reachedWhere_of_reachable h).forall_threads (A := fun s _ l => s.successFirst l)
    ?_ ?_ ?_ ?_ u
  · intro threadCreated u
    rcases boot_thread threadCreated u with hu | hu <;> rw [hu]
    · trivial
    · intro hpc
      cases hpc
  · intro s t l e _ _ h hmove _ _
    exact successFirst_own h hmove
  · intro s t l e u _ hok h hmove _ _ hu
    exact successFirst_other hok h hmove hu
  · intro s t l w _ _ _ hpc
    cases hpc

/-- The COMPLETE bit of a task is set for a failure when its SUCCESS bit is not set. -/
theorem fails_of_setComplete (h : (plugin cfg).Reachable s)
    (hmove : Move cfg s t l (.setStatus (completeBit task) cause))
    (hno : s.taskStatus.getLsbD (successBit task) = false) :
    (Effect.setStatus (completeBit task) cause).fails task = true := by
  have hfirst := successFirst_of_reachable h t
  rcases hmove.origin with ⟨status, rest, hp, rfl⟩ | ⟨v, -, -, rfl⟩ | ⟨w, v, -, -, -, -, rfl⟩ |
    ⟨w, hw, -, ⟨-, hn⟩ | ⟨hpc, hn⟩⟩
  · have hsets := (inCase_of_reachable h hp).sets (List.mem_cons_self ..)
    cases status with
    | complete v =>
      obtain rfl : task = v := by
        simp only [ModuleStatus.sets, Bool.or_eq_true, beq_iff_eq] at hsets
        exact hsets.elim (fun hx => absurd hx (completeBit_ne_successBit task v)) completeBit_inj
      obtain ⟨taskMap, hsuffix⟩ := (inCase_of_reachable h hp).suffix
      rw [hp] at hfirst
      have hnot := not_setStatus_after_complete hsuffix (successBit task)
      have hbit := hfirst (List.mem_cons_self ..)
        (by simp [hnot, (completeBit_ne_successBit task task).symm])
      rw [hno] at hbit
      cases hbit
    | error v =>
      obtain rfl := completeBit_inj (beq_iff_eq.mp hsets)
      simp [Effect.fails, Cause.isFailure]
    | fwdownloadAborted =>
      cases task <;> first | rfl | cases hsets
    | rebootRequired => cases task <;> cases hsets
    | _ => cases hsets
  · simp [Effect.fails, Cause.isFailure]
  · simp [Effect.fails, Cause.isFailure]
  · exact absurd hn (completeBit_ne_successBit task .swupdate)
  · obtain rfl := completeBit_inj hn
    rw [hw] at hfirst
    rw [hfirst hpc] at hno
    cases hno

/-- A task that is resolved without success has failed in this cycle. -/
theorem failed_of_completeBit (h : (plugin cfg).Reachable s)
    (hdone : s.taskStatus.getLsbD (completeBit task) = true)
    (hno : s.taskStatus.getLsbD (successBit task) = false) : s.failed task := by
  refine (reachedWhere_of_reachable h).induct
    (I := fun s => s.taskStatus.getLsbD (completeBit task) = true →
      s.taskStatus.getLsbD (successBit task) = false → s.failed task) ?_ ?_ hdone hno
  · intro threadCreated hdone
    simp [maintenanceManagerOnBootup] at hdone
  · intro s t l e hreach _ hi hmove _ _ hdone hno
    obtain ⟨hb, hold | ⟨cause, rfl⟩⟩ := getLsbD_of_commit hdone
    all_goals
      have hbefore : s.taskStatus.getLsbD (successBit task) = false := by
        by_contra hbit
        rw [getLsbD_commit hb (by simpa using hbit)] at hno
        cases hno
    · exact inCycle_commit_mono hb (hi hold hbefore)
    · have hfails := fails_of_setComplete hreach.reachable hmove hbefore
      simp [Sys.failed, hb, hfails]

/-! ## The firmware task left out -/

/-- The worker marks the firmware task only on a device that may leave it out. -/
theorem skips_of_marks (h : (plugin cfg).Reachable s) (hw : s.thread t = .worker w)
    (hpc : w.pc = .markSuccess ∨ w.pc = .markComplete) : w.skipsFirmware cfg = true := by
  refine (reachedWhere_of_reachable h).forall_threads
    (A := fun _ _ l => ∀ w, l = .worker w → w.pc = .markSuccess ∨ w.pc = .markComplete →
      w.skipsFirmware cfg = true) ?_ ?_ ?_ ?_ t w hw hpc
  · intro threadCreated u w hw hpc
    rcases boot_thread threadCreated u with hu | hu <;> rw [hu] at hw <;> cases hw
    rcases hpc with hpc | hpc <;> cases hpc
  · intro s t l e _ _ ha hmove _ _ w' hl hpc
    subst hl
    rcases hmove.worker with ⟨w, -, hw, hstep⟩ | ⟨hw, -⟩
    · cases hstep with
      | skipFirmware _ hskip => exact hskip
      | markSuccess hp => exact ha w hw (.inl hp)
      | _ => rcases hpc with hpc | hpc <;> cases hpc
    · exact ha w' hw hpc
  · intro s t l e u _ _ ha _ _ _ _
    exact ha
  · intro s t l w _ _ _ w' hl hpc
    cases hl
    rcases hpc with hpc | hpc <;> cases hpc

/-- A device on which a worker has left the firmware task out may do so. -/
theorem maySkip_of_move (h : (plugin cfg).Reachable s)
    (hmove : Move cfg s t l (.setStatus n .firmwareSkipped)) : cfg.maySkip = true := by
  rcases hmove.origin with ⟨status, rest, -, hc⟩ | ⟨v, -, -, hc⟩ | ⟨w, v, -, -, -, -, hc⟩ |
    ⟨w, hw, -, hpc⟩
  · cases hc
  · cases hc
  · cases hc
  · have hskips := skips_of_marks h hw (hpc.imp And.left And.left)
    simp only [Worker.skipsFirmware, Bool.and_eq_true] at hskips
    simpa [Config.maySkip] using hskips.1

/-! ## The handler's verdict -/

/-- What the handler has found, in any run: where its first read has shown a task without
success, the task has failed, and only a firmware task left out since can hide that from the
second read. -/
structure Found (cfg : Config) (s : Sys) (pc : EventPc) : Prop where
  failed : pc = .testNotSuccess ∨ pc = .testSkipped ∨ pc.verdict = some .error →
    ∃ task, s.failed task
  hidden : pc = .testNotSuccess → (∃ task, s.taskStatus.getLsbD (successBit task) = false) ∨
    cfg.maySkip = true ∧ s.firmwareSkipped = true
  reread : pc.verdict = some .started → cfg.maySkip = true ∧ s.firmwareSkipped = true
  verdict : ∀ v, pc.verdict = some v → v = .complete ∨ v = .error ∨ v = .started

theorem Found.of_not_concluding (h : pc.concluding = false) : Found cfg s pc := by
  have hv {v : NotifyStatus} (hx : pc.verdict = some v) : False := by
    rw [EventPc.concluding_of_verdict hx] at h
    cases h
  refine ⟨?_, ?_, fun hx => (hv hx).elim, fun v hx => (hv hx).elim⟩
  · rintro (rfl | rfl | hx)
    · cases h
    · cases h
    · exact (hv hx).elim
  · rintro rfl
    cases h

/-- Among three resolved tasks one has failed exactly when not all have succeeded. -/
theorem exists_failed_iff (hdone : tasksCompleted s.taskStatus = true) :
    (∃ task, s.taskStatus.getLsbD (successBit task) = false) ↔
      allTasksSuccess s.taskStatus = false := by
  have hiff := allTasksSuccess_iff (v := s.taskStatus)
  simp only [hdone, true_and] at hiff
  rw [← Bool.not_eq_true, hiff, not_forall]
  simp only [Bool.not_eq_true]

theorem Found.congr (h : Found cfg s pc) (hs : s'.taskStatus = s.taskStatus)
    (hcycle : ∀ p, s.inCycle p = true → s'.inCycle p = true) : Found cfg s' pc where
  failed hp := (h.failed hp).imp fun _ => hcycle _
  hidden hp := by
    rw [hs]
    exact (h.hidden hp).imp_right (And.imp_right (hcycle _))
  reread hp := (h.reread hp).imp_right (hcycle _)
  verdict := h.verdict

/-- A step that keeps the verdict keeps what has been found. -/
theorem Found.of_verdict {pc' : EventPc} (h : Found cfg s pc) (hv : pc'.verdict = pc.verdict)
    (hsome : pc.verdict.isSome = true) : Found cfg s pc' where
  failed := by
    rintro (rfl | rfl | hx)
    · rw [← hv] at hsome
      cases hsome
    · rw [← hv] at hsome
      cases hsome
    · exact h.failed (.inr (.inr (hv.symm.trans hx)))
  hidden := by
    rintro rfl
    rw [← hv] at hsome
    cases hsome
  reread hx := h.reread (hv.symm.trans hx)
  verdict v hx := h.verdict v (hv.symm.trans hx)

theorem Found.commit (h : Found cfg s pc) (hb : e.beginsCycle = false)
    (hs : (e.apply cfg t s).taskStatus = s.taskStatus) : Found cfg (s.commit cfg t l e) pc :=
  h.congr (by rw [commit_taskStatus, hs]) fun _ => inCycle_commit_mono hb

theorem iarmEventHandler_found {c : Choice} {pc' : EventPc} (hok : Found cfg s pc)
    (hreach : (plugin cfg).Reachable s)
    (hdone : pc.concluding = true → tasksCompleted s.taskStatus = true)
    (hskip : maintenanceTaskSkipped s.taskStatus = false)
    (h : iarmEventHandler cfg s pc c = (.event pc', e)) :
    Found cfg (s.commit cfg t (.event pc') e) pc' := by
  have hhidden (hpc : pc.concluding = true) := exists_failed_iff (hdone hpc)
  have hfail (hpc : pc.concluding = true) (hno : allTasksSuccess s.taskStatus = false) :
      ∃ task, s.failed task := by
    obtain ⟨task, htask⟩ := (hhidden hpc).mpr hno
    exact ⟨task, failed_of_completeBit hreach (tasksCompleted_iff.mp (hdone hpc) task) htask⟩
  revert h
  fun_cases iarmEventHandler cfg s pc c
  all_goals
    simp only [Prod.mk.injEq, Thread.event.injEq, reduceCtorEq, false_and, IsEmpty.forall_iff]
    try rintro ⟨rfl, rfl⟩
  all_goals try exact Found.of_not_concluding rfl
  all_goals try exact Found.commit (hok.of_verdict rfl rfl) rfl rfl
  all_goals refine Found.commit ?_ rfl rfl
  case case10 => constructor <;> simp [EventPc.verdict]
  case case12 => constructor <;> simp [EventPc.verdict]
  case case13 hno =>
    have hno := Bool.of_not_eq_true hno
    exact ⟨fun _ => hfail rfl hno, fun _ => .inl ((hhidden rfl).mpr hno), by simp [EventPc.verdict],
      by simp [EventPc.verdict]⟩
  case case14 hall =>
    -- the second read differs from the first only when the firmware task has been left out
    have hskipped := (hok.hidden rfl).resolve_left fun hex => by
      rw [(hhidden rfl).mp hex] at hall
      cases hall
    exact ⟨by simp [EventPc.verdict], by simp, fun _ => hskipped, by simp [EventPc.verdict]⟩
  case case15 =>
    exact ⟨fun _ => hok.failed (.inl rfl), by simp, by simp [EventPc.verdict],
      by simp [EventPc.verdict]⟩
  case case16 hyes =>
    rw [hskip] at hyes
    cases hyes
  case case17 =>
    exact ⟨fun _ => hok.failed (.inr (.inl rfl)), by simp, by simp [EventPc.verdict],
      by simp [EventPc.verdict]⟩

theorem Found.other (hf : Found cfg s pc) (hreach : (plugin cfg).Reachable s) (hok : SysOk cfg s)
    (hc : Concludes s pc) (h : Move cfg s t l e) (hu : u ≠ t) (hthread : s.thread u = .event pc) :
    Found cfg (s.commit cfg t l e) pc := by
  cases hpc : pc.concluding with
  | false => exact Found.of_not_concluding hpc
  | true =>
    have hheld : (s.thread u).holds .status = true := by
      rw [hthread]
      exact EventPc.holds_of_concluding hpc
    have hbegins := h.beginsCycle_of_other hok hu hheld
    rcases hok.taskStatus_of_concluding h hu hthread hpc (hc.completed hpc) with heq | rfl
    · exact hf.congr heq fun _ => inCycle_commit_mono hbegins
    · have hskipped : cfg.maySkip = true ∧ (s.commit cfg t l
          (.setStatus (successBit .swupdate) .firmwareSkipped)).firmwareSkipped = true :=
        ⟨maySkip_of_move hreach h, by simp [Sys.firmwareSkipped, Effect.beginsCycle]⟩
      exact ⟨fun hp => (hf.failed hp).imp fun _ => inCycle_commit_mono hbegins,
        fun _ => .inr hskipped, fun _ => hskipped, hf.verdict⟩

theorem found_of_reachable (h : (plugin cfg).Reachable s) (hthread : s.thread u = .event pc) :
    Found cfg s pc := by
  refine (reachedWhere_of_reachable h).forall_handlers (A := Found cfg) ?_ ?_ ?_ ?_ hthread
  · intro s ev
    exact Found.of_not_concluding rfl
  · intro s t pc pc' c e hreach hf hthread hst _
    have hcompleted := (concludes_of_reachable hreach.reachable hthread).completed
    exact iarmEventHandler_found hf hreach.reachable hcompleted
      (not_maintenanceTaskSkipped hreach.reachable) hst
  · intro s t pc e hf he
    rcases he with rfl | rfl <;> exact hf.congr rfl fun _ => inCycle_commit_mono rfl
  · intro s t l e u pc hreach hok hf hthread hmove _ hu
    exact hf.other hreach.reachable hok (concludes_of_reachable hreach.reachable hthread) hmove hu
      hthread

/-! ## The reasons -/

/-- In every run, a status is posted for its reason; IDLE and INCOMPLETE are never posted after
boot-up. -/
theorem reason_of_posted (h : (plugin cfg).Reachable s) {a : Action}
    (hoffer : offer cfg s a = some (t, l, .onMaintenanceStatusChange v)) : Reason cfg s t v := by
  have hok := sysOk_of_reachable h
  rcases (offer_move hoffer).origin with ⟨w, hw, ⟨hpc, rfl⟩ | ⟨hpc, rfl⟩⟩ | ⟨d, hd, rfl⟩ | hp
  · have hstatus := (hok.worker hw).status
    simp only [Worker.phase, hpc, Phase.agrees] at hstatus
    exact .opened w hw hstatus
  · exact .offline w hw ((hok.worker hw).exiting.exits (by rw [hpc]; rfl))
  · exact .stopped d hd ((hok.threads t).stopping (by rw [hd]; rfl))
  · have hc := concludes_of_reachable h hp
    have hf := found_of_reachable h hp
    have hdone := hc.completed rfl
    have hresolved (task : Task) : s.resolved task :=
      inCycle_completes h task (tasksCompleted_iff.mp hdone task)
    rcases hf.verdict v rfl with rfl | rfl | rfl
    · have hsuccess := (allTasksSuccess_iff.mp (hc.success rfl)).2
      exact .complete hp hresolved fun task => succeeded_of_successBit h (hsuccess task)
    · exact .failed hp hresolved (hf.failed (.inr (.inr rfl)))
    · exact .reread hp hresolved (hf.reread rfl).1 (hf.reread rfl).2

/-- All three tasks complete, and COMPLETE is posted. -/
theorem reason_of_posted_complete : ∃ s, (plugin (device false false)).Reachable s ∧
    Reason (device false false) s 1 .complete := by
  obtain ⟨s, hs, htest⟩ := TransitionSystem.exists_reachable_of_run (plugin (device false false))
    (maintenanceManagerOnBootup (device false false) true) (allComplete ++ runs 1 3)
    (fun s => (offer (device false false) s (.run 1 {})).any
      fun p => p.2.2 == .onMaintenanceStatusChange .complete) ⟨true, rfl⟩ (by decide +kernel)
  obtain ⟨l, hoffer⟩ := offer_of_any htest
  exact ⟨s, hs, reason_of_posted hs hoffer⟩

/-! ## Devices that run all three tasks -/

/-- Where the firmware task is never left out the two reads of a handler agree. -/
theorem rereadsAgree_of_not_maySkip (hcfg : cfg.maySkip = false) (h : (plugin cfg).Reachable s) :
    ReachedWhere cfg RereadsAgree s := by
  induction h with
  | init hs => exact .init hs
  | step hs _ hstep ih =>
    refine .step ih ?_ hstep
    intro t l e hoffer n cause he hall u hu
    subst he
    have hmove := offer_move hoffer
    have hc := concludes_of_reachable hs hu
    have hsteady := (steady_of_reached ih hu).reread rfl
    have hut : u ≠ t := by
      rintro rfl
      rcases hmove.origin with ⟨status, rest, hp, -⟩ | ⟨v, hp, -⟩ | ⟨w, v, hp, -⟩ | ⟨w, hp, -⟩ <;>
        rw [hu] at hp <;> cases hp
    rcases (sysOk_of_reachable hs).taskStatus_of_concluding hmove hut hu rfl (hc.completed rfl) with
      heq | heq
    · rw [show raise _ n = _ from heq, hsteady] at hall
      cases hall
    · cases heq
      rw [maySkip_of_move hs hmove] at hcfg
      cases hcfg

/-- On a device that never leaves the firmware task out, the notifications of every run are
bracketed. -/
theorem wellBracketed_of_not_maySkip (hcfg : cfg.maySkip = false) (h : (plugin cfg).Reachable s) :
    WellBracketed s.notifications :=
  (posted_of_reached (rereadsAgree_of_not_maySkip hcfg h)).wellBracketed

/-- The boot cycle ends offline, and `startMaintenance` opens another cycle. -/
theorem wellBracketed_of_not_maySkip_restarted : ∃ s, (plugin (device false false)).Reachable s ∧
    s.notifications = [.idle, .started, .error, .started] ∧ WellBracketed s.notifications := by
  obtain ⟨s, hs, htest⟩ := TransitionSystem.exists_reachable_of_run (plugin (device false false))
    (maintenanceManagerOnBootup (device false false) true) restartSchedule
    (fun s => s.notifications == [.idle, .started, .error, .started]) ⟨true, rfl⟩
    (by decide +kernel)
  exact ⟨s, hs, by simpa using htest, wellBracketed_of_not_maySkip rfl hs⟩

end SoftwareUpdate.MaintenanceManager
