import SoftwareUpdate.MaintenanceManager.History
import SoftwareUpdate.MaintenanceManager.Proofs.Quiet
import SoftwareUpdate.MaintenanceManager.Proofs.Running

/-!
# A stopped cycle stays stopped

When `stopMaintenance` returns success the worker has been joined, the timer is disarmed and
ERROR has been posted. From then on, without another `startMaintenance`, no status is posted, no
task is launched and `m_thread` is not joinable. `g_task_status` can still change: a
`timer_handler` that was entered before the timer was disarmed goes on, as it tests neither the
abort flag nor the status.
-/

namespace SoftwareUpdate.MaintenanceManager

open Misc Misc.BitField Misc.History

variable {cfg : Config} {s s' s₀ : Sys} {t u : Tid} {l : Thread} {e : Effect} {v : Task}
  {d : Bool} {pc pc' : StopPc}

/-! ## The timer -/

/-- The effect disarms the timer or deletes it. -/
def Effect.disarms : Effect → Bool
  | .stopTimer disarmed | .deleteTimer disarmed => disarmed
  | _ => false

def Effect.expires : Effect → Bool
  | .timerExpires => true
  | _ => false

/-- The timer has been disarmed since it last expired. -/
def Sys.disarmed (s : Sys) : Bool := since (fun x => x.2.expires) (fun x => x.2.disarms) s.log

/-- `timer_settime` succeeds for a timer that exists, and a timer that has been disarmed delivers
no further SIGALRM. -/
structure TimerWorks (s : Sys) (_ : Tid) (_ : Thread) (e : Effect) : Prop where
  stops : ∀ disarmed, e = .stopTimer disarmed → s.taskTimerCreated = true → disarmed = true
  silent : e = .signal → s.disarmed = false

/-- No SIGALRM is going to be delivered before the timer is armed again. -/
def Sys.timerSilent (s : Sys) : Prop :=
  s.taskTimerArmed = false ∧ (s.disarmed = true ∨ s.signalPending = false)

theorem disarmed_commit :
    (s.commit cfg t l e).disarmed = (!e.expires && (e.disarms || s.disarmed)) := by
  cases e <;> rfl

/-- Only arming the timer ends the silence. -/
theorem timerSilent_commit (h : s.timerSilent) (hen : e.enabled s t = true)
    (hstart : ∀ created armed, e = .startTimer created armed →
      (s.taskTimerCreated || created) = false) : (s.commit cfg t l e).timerSilent := by
  obtain ⟨harmed, hsilent⟩ := h
  cases e with
  | timerExpires => cases harmed.symm.trans hen
  | startTimer created armed =>
    have hno := hstart created armed rfl
    exact ⟨by simp [Sys.commit, Effect.apply, harmed, hno], hsilent⟩
  | signal => exact ⟨harmed, .inr rfl⟩
  | stopTimer disarmed | deleteTimer disarmed =>
    refine ⟨by simp [Sys.commit, Effect.apply, harmed], hsilent.imp (fun hd => ?_) id⟩
    simp [disarmed_commit, Effect.expires, hd]
  | _ => exact ⟨harmed, hsilent⟩

/-- A timer that does not exist is silent. -/
theorem timerSilent_of_not_created (h : (plugin cfg).Reachable s)
    (hno : s.taskTimerCreated = false) : s.timerSilent := by
  revert hno
  refine (reachedWhere_of_reachable h).induct
    (I := fun s => s.taskTimerCreated = false → s.timerSilent) ?_ ?_
  · intro threadCreated _
    exact ⟨rfl, .inr rfl⟩
  · intro s t l e _ _ hi _ hen _ hno
    by_cases hbefore : s.taskTimerCreated = false
    · refine timerSilent_commit (hi hbefore) hen ?_
      rintro created armed rfl
      exact hno
    · have hcreated : s.taskTimerCreated = true := by simpa using hbefore
      cases e with
      | deleteTimer deleted =>
        have hdeleted : deleted = true := by
          simpa [Sys.commit, Effect.apply, hcreated] using hno
        subst hdeleted
        exact ⟨by simp [Sys.commit, Effect.apply, hcreated], .inl (by simp [disarmed_commit,
          Effect.expires, Effect.disarms])⟩
      | startTimer created armed => simp [Sys.commit, Effect.apply, hcreated] at hno
      | _ => exact absurd hno hbefore

/-- After `task_stopTimer` the timer is silent. -/
theorem timerSilent_stopTimer (h : (plugin cfg).Reachable s) {disarmed : Bool}
    (hcond : TimerWorks s t l (.stopTimer disarmed)) :
    (s.commit cfg t l (.stopTimer disarmed)).timerSilent := by
  cases hcreated : s.taskTimerCreated with
  | false => exact timerSilent_commit (timerSilent_of_not_created h hcreated) rfl nofun
  | true =>
    obtain rfl := hcond.stops disarmed rfl hcreated
    exact ⟨by simp [Sys.commit, Effect.apply, hcreated], .inl (by simp [disarmed_commit,
      Effect.expires, Effect.disarms])⟩

/-! ## While the stop holds the mutex -/

/-- The worker has lowered the abort flag, or has left its loop without seeing it. -/
def WorkerPc.afterAbort : WorkerPc → Bool
  | .stopTimerEnd | .unlockCall | .unlockWai => true
  | _ => false

/-- The loop of the worker up to the last `task_stopTimer` of an aborted cycle. -/
def WorkerPc.inLoop : WorkerPc → Bool
  | .loopTest | .setCurrent | .abortTest | .startTimer | .setMap | .launch | .clearMap
  | .failComplete | .waitTask | .wakeTask | .stopTimer | .abortEnd | .clearAbort
  | .stopTimerEnd => true
  | _ => false

/-- A worker that has not returned finds the abort flag raised, or it is past its last test. -/
def Sys.aborting (s : Sys) : Prop :=
  ∀ v w, s.thread v = .worker w → s.abortFlag = true ∨ w.pc.afterAbort = true

/-- The timer is silent, or the worker is going to disarm it. -/
def Sys.disarming (s : Sys) : Prop :=
  s.timerSilent ∨ ∃ v w, s.thread v = .worker w ∧ w.pc.inLoop = true

theorem apply_abortFlag_mono (he : e ≠ .setAbortFlag false) (h : s.abortFlag = true) :
    (e.apply cfg t s).abortFlag = true := by
  cases e with
  | setAbortFlag b =>
    cases b with
    | true => rfl
    | false => exact absurd rfl he
  | _ => exact h

theorem WorkerStep.afterAbort {w w' : Worker} (h : WorkerStep cfg s w (.worker w') e)
    (hw : w.pc.afterAbort = true ∨ e = .setAbortFlag false) : w'.pc.afterAbort = true := by
  cases h <;> simp_all [WorkerPc.afterAbort]

/-- No thread but the worker takes the abort back, unless a cycle is being opened. -/
theorem aborting_commit (hok : SysOk cfg s) (h : s.aborting) (hmove : Move cfg s t l e)
    (hcreate : ∀ w, e ≠ .create w) (hclear : s.thread t ≠ .start .clearAbort) :
    (s.commit cfg t l e).aborting := by
  intro v w hw
  by_cases hvt : v = t
  · subst hvt
    rw [commit_thread_self] at hw
    subst hw
    rcases hmove.worker with ⟨w₀, -, hthread, hstep⟩ | ⟨hthread, rfl | rfl⟩
    · by_cases he : e = .setAbortFlag false
      · exact .inr (hstep.afterAbort (.inr he))
      · exact (h v w₀ hthread).imp (apply_abortFlag_mono he) fun hpast =>
          hstep.afterAbort (.inl hpast)
    · exact h v w hthread
    · exact h v w hthread
  · rw [commit_thread_other hvt hcreate] at hw
    refine (h v w hw).imp (apply_abortFlag_mono ?_) id
    rintro rfl
    rcases hmove.origin with hp | ⟨w', hw', -⟩
    · exact hclear hp
    · exact hvt (hok.worker_unique hw hw')

/-- An aborted worker leaves its loop by disarming the timer. -/
theorem WorkerStep.leavesLoop {w : Worker} (h : WorkerStep cfg s w l e)
    (hw : w.pc.inLoop = true) :
    (∃ w', l = .worker w' ∧ w'.pc.inLoop = true) ∨ (∃ disarmed, e = .stopTimer disarmed) ∨
      w.pc = .abortEnd ∧ s.abortFlag = false := by
  cases h with
  | stopTimer hpc disarmed => exact .inr (.inl ⟨disarmed, rfl⟩)
  | stopTimerEnd hpc disarmed => exact .inr (.inl ⟨disarmed, rfl⟩)
  | notAbortedAtEnd hpc habort => exact .inr (.inr ⟨hpc, habort⟩)
  | _ hpc => first | exact .inl ⟨_, rfl, rfl⟩ | rw [hpc] at hw; cases hw

theorem WorkerStep.startTimer {w : Worker} {created armed : Bool}
    (h : WorkerStep cfg s w l (.startTimer created armed)) :
    ∃ w', l = .worker w' ∧ w'.pc.inLoop = true := by
  cases h <;> exact ⟨_, rfl, rfl⟩

theorem disarming_commit (hreach : (plugin cfg).Reachable s) (haborting : s.aborting)
    (h : s.disarming) (hmove : Move cfg s t l e) (hen : e.enabled s t = true)
    (hcond : TimerWorks s t l e) : (s.commit cfg t l e).disarming := by
  by_cases hloop : ∃ w, l = .worker w ∧ w.pc.inLoop = true
  · obtain ⟨w, rfl, hw⟩ := hloop
    exact .inr ⟨t, w, commit_thread_self, hw⟩
  · rcases h with hsilent | ⟨v, w, hthread, hw⟩
    · refine .inl (timerSilent_commit hsilent hen ?_)
      rintro created armed rfl
      obtain ⟨w, hthread, -⟩ := hmove.origin
      rcases hmove.of_worker hthread with hstep | ⟨-, he | he⟩
      · exact absurd hstep.startTimer hloop
      · cases he
      · cases he
    · by_cases hvt : v = t
      · subst hvt
        rcases hmove.of_worker hthread with hstep | ⟨hstay, -⟩
        · rcases hstep.leavesLoop hw with hin | ⟨disarmed, rfl⟩ | ⟨hpc, hflag⟩
          · exact absurd hin hloop
          · exact .inl (timerSilent_stopTimer hreach hcond)
          · rcases haborting v w hthread with hraised | hpast
            · cases hflag.symm.trans hraised
            · rw [hpc] at hpast
              cases hpast
        · exact absurd ⟨w, hstay, hw⟩ hloop
      · exact .inr ⟨v, w, commit_thread_stays hen hvt hthread (by simp), hw⟩

/-- The stop has disarmed the timer. -/
def StopPc.pastTimer : StopPc → Bool
  | .notify | .testJoinable | .join _ | .branchUnsolicited | .setUnsolicited | .notifyError
  | .unlock true => true
  | _ => false

/-- What an accepted stop has achieved at each of its program points. -/
structure StopHolds (s : Sys) (pc : StopPc) : Prop where
  aborting : pc.accepted = true → s.aborting
  disarming : pc.pastTimer = true → s.disarming
  stopped : pc = .unlock true → s.quiet ∧ s.notifyStatus = .error

theorem StopPc.accepted_of_pastTimer (h : pc.pastTimer = true) : pc.accepted = true := by
  unfold pastTimer at h
  split at h <;> first | rfl | cases h

/-- How a stop comes to each of its stages. -/
theorem stopMaintenanceTasks_stages {c : Choice}
    (h : stopMaintenanceTasks s d pc c = (.stop d pc', e)) :
    (pc'.accepted = true → pc = .setAbort ∧ e = .setAbortFlag true ∨ pc.accepted = true) ∧
    (pc'.pastTimer = true → pc = .stopTimer ∧ (∃ disarmed, e = .stopTimer disarmed) ∨
      pc.pastTimer = true) ∧
    (pc' = .unlock true → pc = .notifyError ∧ e = .onMaintenanceStatusChange .error) := by
  revert h
  fun_cases stopMaintenanceTasks s d pc c <;> intro heq <;> cases heq
  all_goals simp [StopPc.accepted, StopPc.pastTimer]

/-- The stop's own statements. -/
theorem StopHolds.own {c : Choice} (h : StopHolds s pc) (hreach : (plugin cfg).Reachable s)
    (hok : SysOk cfg s) (hthread : s.thread t = .stop d pc)
    (hst : stopMaintenanceTasks s d pc c = (.stop d pc', e))
    (hmove : Move cfg s t (.stop d pc') e) (hen : e.enabled s t = true)
    (hcond : TimerWorks s t (.stop d pc') e) : StopHolds (s.commit cfg t (.stop d pc') e) pc' := by
  obtain ⟨haccepted, hpast, hreturned⟩ := stopMaintenanceTasks_stages hst
  have hcreate (w : Tid) : e ≠ .create w := by
    rintro rfl
    obtain ⟨prev, hp⟩ := hmove.origin
    cases hthread.symm.trans hp
  have hclear : s.thread t ≠ .start .clearAbort := by
    rw [hthread]
    exact nofun
  refine ⟨fun hpc => ?_, fun hpc => ?_, fun hpc => ?_⟩
  · rcases haccepted hpc with ⟨-, rfl⟩ | hold
    · exact fun v w _ => .inl rfl
    · exact aborting_commit hok (h.aborting hold) hmove hcreate hclear
  · rcases hpast hpc with ⟨-, disarmed, rfl⟩ | hold
    · exact .inl (timerSilent_stopTimer hreach hcond)
    · exact disarming_commit hreach (h.aborting (StopPc.accepted_of_pastTimer hold))
        (h.disarming hold) hmove hen hcond
  · obtain ⟨rfl, rfl⟩ := hreturned hpc
    have hnone := (hok.threads t).joined (by rw [hthread]; rfl)
    exact ⟨⟨hnone, nofun⟩, rfl⟩

/-- A step that leaves the stop where it is and opens no cycle. -/
theorem StopHolds.keep (h : StopHolds s pc) (hreach : (plugin cfg).Reachable s)
    (hok : SysOk cfg s) (hmove : Move cfg s t l e) (hen : e.enabled s t = true)
    (hcond : TimerWorks s t l e) (hkeep : pc.accepted = true →
      (∀ w, e ≠ .create w) ∧ s.thread t ≠ .start .clearAbort) :
    StopHolds (s.commit cfg t l e) pc := by
  refine ⟨fun hpc => ?_, fun hpc => ?_, ?_⟩
  · exact aborting_commit hok (h.aborting hpc) hmove (hkeep hpc).1 (hkeep hpc).2
  · exact disarming_commit hreach (h.aborting (StopPc.accepted_of_pastTimer hpc))
      (h.disarming hpc) hmove hen hcond
  · rintro rfl
    obtain ⟨hquiet, herror⟩ := h.stopped rfl
    refine ⟨quiet_commit hok hquiet hmove (hkeep rfl).1, ?_⟩
    rw [quiet_notifyStatus hok hquiet hmove]
    exact herror

theorem stopHolds_of_reached (h : ReachedWhere cfg TimerWorks s)
    (hthread : s.thread u = .stop d pc) : StopHolds s pc := by
  refine h.forall_stops (A := fun s _ pc => StopHolds s pc) ?_ ?_ ?_ ?_ hthread
  · intro s
    exact ⟨⟨nofun, nofun, nofun⟩, ⟨nofun, nofun, nofun⟩⟩
  · intro s t d pc pc' c e hreach hok hs hthread hst hmove hen hcond
    exact hs.own hreach.reachable hok hthread hst hmove hen hcond
  · intro s t d pc e hreach hok hs hthread hmove hen hcond he
    refine hs.keep hreach.reachable hok hmove hen hcond fun _ => ⟨?_, by rw [hthread]; exact nofun⟩
    rintro w rfl
    rcases he with he | he <;> cases he
  · intro s t l e u d pc hreach hok hs hthread hmove hen hcond hu
    refine hs.keep hreach.reachable hok hmove hen hcond fun hpc => ?_
    have hheld : (s.thread u).holds .status = true := by
      rw [hthread]
      cases pc <;> first | rfl | cases hpc
    refine ⟨?_, fun hp => hu (hok.owners.unique hheld (by rw [hp]; rfl))⟩
    rintro w rfl
    cases hmove.not_cyclic_of_other hok.owners hu hheld

/-! ## After the stop has returned -/

/-- The task an effect launches, whether or not `system()` succeeds. -/
def Effect.launch : Effect → Option Task
  | .system v _ => some v
  | _ => none

/-- The tasks launched so far, newest first. -/
def Sys.launches (s : Sys) : List Task := s.log.filterMap fun x => x.2.launch

/-- What `s` leads to without `startMaintenance`. -/
def Later (cfg : Config) : Sys → Sys → Prop :=
  LeadsWhere cfg fun s t l e => TimerWorks s t l e ∧ ∀ pc, s.thread t ≠ .start pc

/-- The cycle that was stopped in `s` is stopped in `s'`. -/
structure StaysStopped (s s' : Sys) : Prop where
  error : s'.notifyStatus = .error
  taskStatus : s'.taskStatus = s.taskStatus
  launches : s'.launches = s.launches
  notJoinable : s'.mThread = none

/-- The task whose COMPLETE bit the handler is going to set. -/
def TimerPc.target (s : Sys) : TimerPc → Option Task
  | .readTask => s.currentTask.filter s.taskMap
  | .testMap v => if s.taskMap v then some v else none
  | .clearMap v | .setComplete v => some v
  | .notify _ => none

/-- No `timer_handler` is going to set a COMPLETE bit that is not set. -/
def NoTimeoutPending (s : Sys) : Prop :=
  ∀ u pc v, s.thread u = .timer pc → pc.target s = some v → s.completed v = true

section Quiet

variable (hok : SysOk cfg s) (hq : s.quiet) (hmove : Move cfg s t l e)
include hok hq hmove

/-- Without a cycle entries are only lowered. -/
theorem quiet_taskMap (h : (s.commit cfg t l e).taskMap v = true) : s.taskMap v = true := by
  cases e with
  | setTaskMap x b =>
    rcases hmove.origin with ⟨status, rest, hp⟩ | ⟨hp, rfl⟩ | ⟨d, hp, -⟩ | ⟨w, hp, -⟩
    · have hhandling := hok.not_handling_of_quiet hq (t := t)
      rw [hp] at hhandling
      cases hhandling
    · by_cases hvx : v = x
      · subst hvx
        simp [Sys.commit, Effect.apply] at h
      · simpa [Sys.commit, Effect.apply, hvx] using h
    · have hstopping := hok.not_stopping_of_quiet hq (t := t)
      rw [hp] at hstopping
      cases hstopping
    · exact absurd hp (hok.no_worker hq.1 w)
  | _ => exact h

theorem quiet_currentTask : (s.commit cfg t l e).currentTask = s.currentTask := by
  cases e with
  | setCurrentTask x =>
    obtain ⟨w, hw, -⟩ := hmove.origin
    exact absurd hw (hok.no_worker hq.1 w)
  | _ => rfl

theorem quiet_launches : (s.commit cfg t l e).launches = s.launches := by
  cases e with
  | system x launched =>
    obtain ⟨w, hw, -⟩ := hmove.origin
    exact absurd hw (hok.no_worker hq.1 w)
  | _ => rfl

/-- Without a cycle, and when none is opened, only `timer_handler` writes `g_task_status`. -/
theorem quiet_taskStatus (hstart : ∀ pc, s.thread t ≠ .start pc) :
    (s.commit cfg t l e).taskStatus = s.taskStatus ∨
      ∃ v, s.thread t = .timer (.setComplete v) ∧ e = .setStatus (completeBit v) .timeout := by
  cases e with
  | clearTaskStatus => exact absurd hmove.origin (hstart _)
  | setStatus n cause =>
    rcases hmove.origin with ⟨status, rest, hp, -⟩ | ⟨v, hp, rfl, rfl⟩ | ⟨w, v, hp, -⟩ | ⟨w, hp, -⟩
    · have hhandling := hok.not_handling_of_quiet hq (t := t)
      rw [hp] at hhandling
      cases hhandling
    · exact .inr ⟨v, hp, rfl⟩
    · exact absurd hp (hok.no_worker hq.1 w)
    · exact absurd hp (hok.no_worker hq.1 w)
  | _ => exact .inl rfl

/-- A handler keeps its target, or gives it up. -/
theorem target_other {pc : TimerPc} (h : pc.target (s.commit cfg t l e) = some v) :
    pc.target s = some v := by
  have hcurrent := quiet_currentTask hok hq hmove
  cases pc with
  | readTask =>
    simp only [TimerPc.target, hcurrent, Option.filter_eq_some_iff] at h ⊢
    exact ⟨h.1, quiet_taskMap hok hq hmove h.2⟩
  | testMap x =>
    simp only [TimerPc.target, Option.ite_none_right_eq_some] at h ⊢
    exact ⟨quiet_taskMap hok hq hmove h.1, h.2⟩
  | _ => exact h

end Quiet

/-- The statements of a handler keep its target. -/
theorem timerHandler_target {pc pc' : TimerPc} {c : Choice}
    (h : timerHandler s pc c = (.timer pc', e)) (hv : pc'.target s = some v) :
    pc.target s = some v := by
  revert h hv
  fun_cases timerHandler s pc c <;> intro heq hv <;> cases heq
  case case1 x hcurrent =>
    obtain ⟨hentry, hx⟩ := Option.ite_none_right_eq_some.mp hv
    cases hx
    exact Option.filter_eq_some_iff.mpr ⟨hcurrent, hentry⟩
  case case3 x hentry => simpa [TimerPc.target, hentry] using hv
  case case5 x => exact hv
  case case6 x => cases hv

/-- A move into `timer_handler` beyond its entry is a statement of it. -/
theorem Move.timer {pc : TimerPc} (h : Move cfg s t (.timer pc) e) (hsignal : e ≠ .signal) :
    ∃ pc₀, s.thread t = .timer pc₀ ∧ ∀ v, pc.target s = some v → pc₀.target s = some v := by
  generalize hl : Thread.timer pc = l at h
  cases h with
  | run c _ hst =>
    subst hl
    have hact := statement_activity hst
    cases hthread : s.thread t with
    | timer pc₀ =>
      rw [hthread] at hst
      exact ⟨pc₀, rfl, fun v => timerHandler_target (Option.some.inj hst)⟩
    | _ => simp [hthread, Thread.activity] at hact
  | call r _ => cases r <;> cases hl
  | wakeUp | timerExpires => exact ⟨pc, hl.symm, fun _ => id⟩
  | signal _ => exact absurd rfl hsignal

/-- What holds from the return of the stop in `s₀` on. -/
structure AfterStop (s₀ s : Sys) : Prop where
  quiet : s.quiet
  stays : StaysStopped s₀ s
  silent : s.timerSilent
  noTimeout : NoTimeoutPending s

/-- The steps of the stopped plugin other than those of `startMaintenance`. -/
theorem AfterStop.step (h : AfterStop s₀ s) (hok : SysOk cfg s) (hmove : Move cfg s t l e)
    (hen : e.enabled s t = true) (hcond : TimerWorks s t l e)
    (hstart : ∀ pc, s.thread t ≠ .start pc) : AfterStop s₀ (s.commit cfg t l e) := by
  obtain ⟨hq, ⟨herror, hstatus, hlaunches, hnone⟩, hsilent, htimeout⟩ := h
  have hcreate (w : Tid) : e ≠ .create w := by
    rintro rfl
    obtain ⟨prev, hp⟩ := hmove.origin
    exact hstart _ hp
  have htaskStatus : (s.commit cfg t l e).taskStatus = s.taskStatus := by
    rcases quiet_taskStatus hok hq hmove hstart with hsame | ⟨v, hp, rfl⟩
    · exact hsame
    · exact raise_eq_self (htimeout t _ v hp rfl)
  have hsignal : e ≠ .signal := by
    rintro rfl
    rcases hsilent.2 with hdisarmed | hpending
    · cases hdisarmed.symm.trans (hcond.silent rfl)
    · simp [Effect.enabled, hpending] at hen
  have hq' := quiet_commit hok hq hmove hcreate
  refine ⟨hq', ⟨?_, ?_, ?_, hq'.1⟩, ?_, fun u pc v hu hv => ?_⟩
  · rw [quiet_notifyStatus hok hq hmove]
    exact herror
  · rw [htaskStatus]
    exact hstatus
  · rw [quiet_launches hok hq hmove]
    exact hlaunches
  · refine timerSilent_commit hsilent hen ?_
    rintro created armed rfl
    obtain ⟨w, hw, -⟩ := hmove.origin
    exact absurd hw (hok.no_worker hq.1 w)
  · have hv' := target_other hok hq hmove hv
    rw [Sys.completed, htaskStatus]
    by_cases hut : u = t
    · subst hut
      rw [commit_thread_self] at hu
      subst hu
      obtain ⟨pc₀, hp, hkeep⟩ := hmove.timer hsignal
      exact htimeout u pc₀ v hp (hkeep v hv')
    · rw [commit_thread_other hut hcreate] at hu
      exact htimeout u pc v hu hv'

/-- The state in which `stopMaintenance` returns success. -/
theorem afterStop_of_returned (h : ReachedWhere cfg TimerWorks s)
    (hthread : s.thread t = .stop d (.unlock true)) (htimeout : NoTimeoutPending s) :
    AfterStop s s := by
  have hstop := stopHolds_of_reached h hthread
  obtain ⟨hq, herror⟩ := hstop.stopped rfl
  refine ⟨hq, ⟨herror, rfl, rfl, hq.1⟩, ?_, htimeout⟩
  rcases hstop.disarming rfl with hsilent | ⟨v, w, hw, -⟩
  · exact hsilent
  · exact absurd hw (h.ok.no_worker hq.1 w)

/-! ## A handler that was entered before -/

/-- One statement of a handler, as a later step. -/
theorem later_timer {pc : TimerPc} (hok : SysOk cfg s) (hthread : s.thread u = .timer pc)
    (hst : timerHandler s pc {} = (l, e)) (hen : e.enabled s u = true)
    (hcond : TimerWorks s u l e) :
    Later cfg s (s.commit cfg u l e) ∧ SysOk cfg (s.commit cfg u l e) := by
  have hwait : u ∉ s.waiters := by
    intro hin
    obtain ⟨w, hw, -⟩ := hok.waiting u hin
    cases hthread.symm.trans hw
  have hoffer : offer cfg s (.run u {}) = some (u, l, e) := by
    simp [offer, hwait, hthread, statement, hst]
  refine ⟨TransitionSystem.Leads.single (a := .run u {}) ?_ ?_,
    hok.step (offer_move hoffer) hen⟩
  · intro t l' e' ho
    cases hoffer.symm.trans ho
    exact ⟨hcond, fun pc' hp => by cases hthread.symm.trans hp⟩
  · show step cfg s _ = _
    simp [step, hoffer, hen]

/-- What `s` leads to without `startMaintenance` changes `g_task_status`. -/
def TaskStatusChanges (cfg : Config) (s : Sys) : Prop :=
  ∃ s', Later cfg s s' ∧ s'.taskStatus ≠ s.taskStatus

theorem changes_of_setComplete (hok : SysOk cfg s) (hthread : s.thread u = .timer (.setComplete v))
    (hopen : s.completed v = false) : TaskStatusChanges cfg s := by
  refine ⟨_, (later_timer hok hthread rfl rfl ⟨nofun, nofun⟩).1, fun hsame => ?_⟩
  have hset : (raise s.taskStatus (completeBit v)).getLsbD (completeBit v) = true :=
    getLsbD_raise_self (completeBit_lt v)
  rw [show raise s.taskStatus (completeBit v) = s.taskStatus from hsame] at hset
  cases hopen.symm.trans hset

/-- A statement of a handler before the last one leaves `g_task_status` as it is. -/
theorem TaskStatusChanges.timer {pc : TimerPc} (hok : SysOk cfg s) (hthread : s.thread u = .timer pc)
    (hst : timerHandler s pc {} = (l, e)) (he : e = .tau ∨ ∃ v, e = .setTaskMap v false)
    (h : SysOk cfg (s.commit cfg u l e) → TaskStatusChanges cfg (s.commit cfg u l e)) :
    TaskStatusChanges cfg s := by
  have hsame : e.enabled s u = true ∧ TimerWorks s u l e ∧
      (s.commit cfg u l e).taskStatus = s.taskStatus := by
    rcases he with rfl | ⟨v, rfl⟩ <;> exact ⟨rfl, ⟨nofun, nofun⟩, rfl⟩
  obtain ⟨hen, hcond, hstatus⟩ := hsame
  obtain ⟨hlater, hok'⟩ := later_timer hok hthread hst hen hcond
  obtain ⟨s', hrest, hne⟩ := h hok'
  exact ⟨s', hlater.trans hrest, by rwa [hstatus] at hne⟩

theorem changes_of_clearMap (hok : SysOk cfg s) (hthread : s.thread u = .timer (.clearMap v))
    (hopen : s.completed v = false) : TaskStatusChanges cfg s :=
  .timer hok hthread rfl (.inr ⟨v, rfl⟩) fun hok' =>
    changes_of_setComplete hok' commit_thread_self hopen

theorem changes_of_testMap (hok : SysOk cfg s) (hthread : s.thread u = .timer (.testMap v))
    (hentry : s.taskMap v = true) (hopen : s.completed v = false) : TaskStatusChanges cfg s :=
  .timer hok hthread (by rw [timerHandler, if_pos hentry]) (.inl rfl) fun hok' =>
    changes_of_clearMap hok' commit_thread_self hopen

theorem changes_of_readTask (hok : SysOk cfg s) (hthread : s.thread u = .timer .readTask)
    (hcurrent : s.currentTask = some v) (hentry : s.taskMap v = true)
    (hopen : s.completed v = false) : TaskStatusChanges cfg s := by
  have hst : timerHandler s .readTask {} = (.timer (.testMap v), .tau) := by
    rw [timerHandler, hcurrent]
  exact .timer hok hthread hst (.inl rfl) fun hok' =>
    changes_of_testMap hok' commit_thread_self hentry hopen

/-- A handler that is about to set a bit that is not set does so. -/
theorem changes_of_target {pc : TimerPc} (hok : SysOk cfg s) (hthread : s.thread u = .timer pc)
    (hv : pc.target s = some v) (hopen : s.completed v = false) : TaskStatusChanges cfg s := by
  cases pc with
  | readTask =>
    obtain ⟨hcurrent, hentry⟩ := Option.filter_eq_some_iff.mp hv
    exact changes_of_readTask hok hthread hcurrent hentry hopen
  | testMap x =>
    obtain ⟨hentry, hx⟩ := Option.ite_none_right_eq_some.mp hv
    cases hx
    exact changes_of_testMap hok hthread hentry hopen
  | clearMap x =>
    cases hv
    exact changes_of_clearMap hok hthread hopen
  | setComplete x =>
    cases hv
    exact changes_of_setComplete hok hthread hopen
  | notify x => cases hv

/-- A cycle that was stopped successfully stays stopped exactly when no `timer_handler` that was
entered before is going to set the COMPLETE bit of a task that is not over. -/
theorem staysStopped_iff (h : ReachedWhere cfg TimerWorks s)
    (hthread : s.thread t = .stop false (.unlock true)) :
    (∀ s', Later cfg s s' → StaysStopped s s') ↔ NoTimeoutPending s := by
  constructor
  · intro hstays u pc v hu hv
    by_contra hopen
    obtain ⟨s', hlater, hne⟩ := changes_of_target h.ok hu hv (by simpa using hopen)
    exact hne (hstays s' hlater).taskStatus
  · intro htimeout s' hlater
    refine (LeadsWhere.induct (I := AfterStop s) hlater h.ok
      (afterStop_of_returned h hthread htimeout) ?_).stays
    intro s t l e hok hafter hmove hen hcond
    exact hafter.step hok hmove hen hcond.1 hcond.2

/-- A test of the condition on the timer. -/
def timerWorks (s : Sys) : Effect → Bool
  | .stopTimer disarmed => !s.taskTimerCreated || disarmed
  | .signal => !s.disarmed
  | _ => true

theorem timerWorks_sound (h : timerWorks s e = true) : TimerWorks s t l e := by
  refine ⟨?_, ?_⟩
  · rintro disarmed rfl hcreated
    simpa [timerWorks, hcreated] using h
  · rintro rfl
    simpa [timerWorks] using h

/-- A test of a thread: it is a handler that is about to set the COMPLETE bit of the task. -/
def Thread.isTimingOut (v : Task) : Thread → Bool
  | .timer (.setComplete x) => x == v
  | _ => false

theorem Thread.isTimingOut_iff : l.isTimingOut v = true ↔ l = .timer (.setComplete v) := by
  cases l with
  | timer pc => cases pc <;> simp [isTimingOut]
  | _ => simp [isTimingOut]

/-- Thread 1 stops the cycle of the worker 0, which waits for a task; `aborts` signals the task
that is found running. Both `task_stopTimer` calls of the worker succeed. -/
def stopsInTime (aborts : List Action) : List Action :=
  .call 1 .stopMaintenance :: runs 1 6 ++ aborts ++ succeeds 1 ++ .run 1 { woken := some 0 } ::
    runs 1 1 ++ runs 0 1 ++ succeeds 0 ++ runs 0 3 ++ succeeds 0 ++ runs 0 2 ++ runs 1 4

/-- The RFC task is signalled and no timeout is on its way: the cycle stays stopped. -/
theorem staysStopped_iff_aborted : ∃ s, ReachedWhere (device false false) TimerWorks s ∧
    s.thread 1 = .stop false (.unlock true) ∧
    ∀ s', Later (device false false) s s' → StaysStopped s s' := by
  obtain ⟨s, hs, htest, hidle⟩ := exists_reachedWhere_idle_of_run (device false false) TimerWorks 2
    (startsUp 0 ++ launches 0 ++ stopsInTime (succeeds 1 ++ runs 1 1))
    (fun s => (s.thread 0).isFinished && (s.thread 1).isReturning)
    (fun s _ _ e => timerWorks s e) (fun _ _ _ _ _ _ h => timerWorks_sound h) (by decide)
    (by decide +kernel) (by decide +kernel)
  obtain ⟨hfinished, hreturning⟩ := Bool.and_eq_true_iff.mp htest
  have hthread := Thread.isReturning_iff.mp hreturning
  refine ⟨s, hs, hthread, (staysStopped_iff hs hthread).mpr fun u pc v hu _ => ?_⟩
  match u, hu with
  | 0, hu => cases (Thread.isFinished_iff.mp hfinished).symm.trans hu
  | 1, hu => cases hthread.symm.trans hu
  | u + 2, hu => cases (hidle (u + 2) (Nat.le_add_left 2 u)).symm.trans hu

/-- The timer expires during the RFC task, and thread 2 is in `timer_handler`, which has cleared
the entry of the task, when the cycle is stopped: `g_task_status` changes after the return. -/
theorem not_staysStopped_timeout : ∃ s s', ReachedWhere (device false false) TimerWorks s ∧
    s.thread 1 = .stop false (.unlock true) ∧ Later (device false false) s s' ∧
    ¬ StaysStopped s s' := by
  obtain ⟨s, hs, htest⟩ := exists_reachedWhere_of_run (device false false) TimerWorks true
    (startsUp 0 ++ launches 0 ++ [.timerExpires, .signal 2] ++ runs 2 3 ++ stopsInTime [])
    (fun s => (s.thread 2).isTimingOut .rfc && !s.completed .rfc && (s.thread 1).isReturning)
    (fun s _ _ e => timerWorks s e) (fun _ _ _ _ _ h => timerWorks_sound h) (by decide +kernel)
  simp only [Bool.and_eq_true, Bool.not_eq_true'] at htest
  obtain ⟨⟨htimeout, hopen⟩, hreturning⟩ := htest
  obtain ⟨s', hlater, hne⟩ := changes_of_setComplete hs.ok (Thread.isTimingOut_iff.mp htimeout) hopen
  exact ⟨s, s', hs, Thread.isReturning_iff.mp hreturning, hlater,
    fun hstays => hne hstays.taskStatus⟩

end SoftwareUpdate.MaintenanceManager
