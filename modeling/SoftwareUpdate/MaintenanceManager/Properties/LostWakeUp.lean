import SoftwareUpdate.MaintenanceManager.Proofs.Handlers
import SoftwareUpdate.MaintenanceManager.Proofs.Running

/-!
# Lost wake-ups

The worker launches a task and then waits, with no predicate and with a mutex that no
notifier takes. What the notifiers leave behind is the entry of the task in `m_task_map`: an
event or a timeout clears it when it notifies, and once it is false nothing notifies again.
A wake-up is lost exactly when the worker begins to wait although the notification has gone
by.
-/

namespace SoftwareUpdate.MaintenanceManager

open Misc

variable {cfg : Config} {s s' : Sys} {t u : Tid} {l : Thread} {e : Effect} {w : Worker} {v : Task}

/-- The thread goes on to `notify_one` whatever happens. -/
def Thread.notifies : Thread → Bool
  | .event (.body _ rest) => rest.contains .notifyOne
  | .stop _ .setAbort | .stop _ (.readMap _ _) | .stop _ (.abortTask _) | .stop _ (.clearMap _)
  | .stop _ .stopTimer | .stop _ .notify => true
  | .timer (.clearMap _) | .timer (.setComplete _) | .timer (.notify _) => true
  | .context .clearListen | .context .notify => true
  | _ => false

/-- The module status of an event that is on its way to the `switch`. -/
def EventPc.received : EventPc → Option ModuleStatus
  | .enter ev | .lock ev | .testAbort ev => some ev.status
  | .dispatch status => some status
  | _ => none

/-- An event with the status still gets to the handler, or has got there already. -/
def Sys.receives (s : Sys) (status : ModuleStatus) : Prop :=
  (s.instanceSet = true ∧ (s.eventHandlerRegistered = true ∨
      ∃ t ev, s.thread t = .event (.testInstance ev) ∧ ev.status = status)) ∨
    ∃ t pc, s.thread t = .event pc ∧ pc.received = some status

/-- An event for the task can still be handled, and notifies the worker: it is received, the
handler ignores nothing, and no thread keeps `m_statusMutex` until the worker has returned. -/
def Sys.eventNotifies (s : Sys) (v : Task) : Prop :=
  s.abortFlag = false ∧ s.notifyStatus = .started ∧ (∀ t, (s.thread t).joins = none) ∧
    ∃ status : ModuleStatus, status.about v = true ∧ .notifyOne ∈ eventCase s.taskMap status ∧
      s.receives status

/-- An expiry of the task's timer, pending or to come, notifies the worker. -/
def Sys.timerNotifies (s : Sys) (v : Task) : Prop :=
  s.taskMap v = true ∧ (s.taskTimerArmed = true ∨ s.signalPending = true ∨
    ∃ t, s.thread t = .timer .readTask ∨ s.thread t = .timer (.testMap v))

/-- The worker is inside `wait` for its task, the task is resolved or the cycle aborted, and
nothing is about to notify or would do so again. -/
def LostWakeUp (s : Sys) : Prop :=
  ∃ u w v, s.thread u = .worker w ∧ w.pc = .wakeTask ∧ u ∈ s.waiters ∧
    s.tasks[w.i]? = some v ∧ (s.completed v = true ∨ s.abortFlag = true) ∧
    (∀ t, (s.thread t).notifies = false) ∧ ¬ s.eventNotifies v ∧ ¬ s.timerNotifies v

/-- The notification for the task has not gone by: a thread is about to notify, or the task is
neither resolved nor aborted, and what resolves or aborts it will notify. -/
def Sys.covered (s : Sys) (v : Task) : Prop :=
  (∃ t, (s.thread t).notifies = true) ∨ (s.completed v = false ∧ s.abortFlag = false)

/-- When the worker begins to wait for a task, the notification for it has not gone by. -/
def WaitsInTime (s : Sys) (t : Tid) (_ : Thread) (e : Effect) : Prop :=
  ∀ w v, e = .wait .call → s.thread t = .worker w → s.tasks[w.i]? = some v → s.covered v

theorem Move.notifies (h : Move cfg s t l e) (hn : (s.thread t).notifies = true) :
    (∃ woken, e = .notifyOne woken) ∨ l.notifies = true := by
  cases h with
  | run c _ hst =>
    cases hthread : s.thread t with
    | event pc =>
      rw [hthread] at hst hn
      cases pc with
      | body status rest =>
        cases rest with
        | nil => cases hn
        | cons x rest =>
          cases hst
          cases x <;> first | exact .inl ⟨_, rfl⟩ | exact .inr (by simpa [Thread.notifies] using hn)
      | _ => cases hn
    | stop d pc =>
      rw [hthread] at hst hn
      obtain rfl : (stopMaintenanceTasks s d pc c).1 = l := congrArg Prod.fst (Option.some.inj hst)
      obtain rfl : (stopMaintenanceTasks s d pc c).2 = e := congrArg Prod.snd (Option.some.inj hst)
      clear hst
      fun_cases stopMaintenanceTasks s d pc c
      all_goals first
        | exact .inr rfl
        | exact .inl ⟨_, rfl⟩
        | cases hn
    | timer pc =>
      rw [hthread] at hst hn
      cases pc <;> cases hn <;> cases hst <;> simp [Thread.notifies]
    | context pc =>
      rw [hthread] at hst hn
      cases pc <;> cases hn <;> cases hst <;> simp [Thread.notifies]
    | _ => rw [hthread] at hn; cases hn
  | call r hidle | signal hidle =>
    rw [hidle] at hn
    cases hn
  | wakeUp | timerExpires => exact .inr hn

/-- A case sets the COMPLETE bit of its task before it notifies. -/
theorem notifyOne_mem_after_complete {taskMap : Task → Bool} {status : ModuleStatus}
    {rest : List CaseStmt} (h : .setStatus (completeBit v) :: rest <:+ eventCase taskMap status) :
    .notifyOne ∈ rest := by
  cases status <;> simp only [eventCase, completeCase, errorCase] at h <;> (try split at h) <;>
    simp_all [List.suffix_cons_iff, completeBit_ne_successBit]
  case rebootRequired =>
    cases v <;> cases h.1
  case fwdownloadAborted =>
    rcases h with ⟨hbit, -⟩ | ⟨-, rfl⟩
    · cases v <;> cases hbit
    · simp

/-- Whoever resolves the task of a worker that waits, notifies next. -/
theorem notifies_of_completes {n : ℕ} {cause : Cause} (hreach : (plugin cfg).Reachable s)
    (hok : SysOk cfg s) (h : Move cfg s t l (.setStatus n cause)) (hw : s.thread u = .worker w)
    (hut : u ≠ t) (hn : n = completeBit v) : (s.thread t).notifies = true := by
  subst hn
  rcases h.origin with ⟨status, rest, hp, -⟩ | ⟨x, hp, -⟩ | ⟨w', x, hp, -⟩ | ⟨w', hp, -⟩
  · obtain ⟨taskMap, hsuffix⟩ := (inCase_of_reachable hreach hp).suffix
    rw [hp]
    simpa [Thread.notifies] using notifyOne_mem_after_complete hsuffix
  · rw [hp]
    rfl
  · exact absurd (hok.worker_unique hw hp) hut
  · exact absurd (hok.worker_unique hw hp) hut

/-- While the worker stays inside `wait`, its task stays covered. -/
theorem covered_step (hreach : (plugin cfg).Reachable s) (hok : SysOk cfg s)
    (h : Move cfg s t l e) (hen : e.enabled s t = true) (hw : s.thread u = .worker w)
    (hut : u ≠ t) (hwait : u ∈ s.waiters) (hwait' : u ∈ (s.commit cfg t l e).waiters)
    (hc : s.covered v) : (s.commit cfg t l e).covered v := by
  by_cases hpending : ∃ x, (s.thread x).notifies = true
  · obtain ⟨x, hx⟩ := hpending
    left
    by_cases hxt : x = t
    · subst hxt
      rcases h.notifies hx with ⟨woken, rfl⟩ | hl
      · -- the worker is the only waiter, so it would be woken
        exfalso
        cases woken with
        | none =>
          have hnone : s.waiters = [] := List.isEmpty_iff.mp hen
          rw [hnone] at hwait
          cases hwait
        | some y =>
          obtain ⟨w', hw', -⟩ := hok.waiting y (by simpa [Effect.enabled] using hen)
          have hyu : y = u := hok.worker_unique hw' hw
          subst hyu
          exact hok.nodup.not_mem_erase hwait'
      · exact ⟨x, by rw [commit_thread_self]; exact hl⟩
    · refine ⟨x, ?_⟩
      rw [commit_thread_of_not_idle hen hxt (by rintro hidle; rw [hidle] at hx; cases hx)]
      exact hx
  · obtain ⟨hopen, habort⟩ := hc.resolve_left hpending
    have hquiet : (s.thread t).notifies = false := by
      by_contra hn
      exact hpending ⟨t, by simpa using hn⟩
    by_cases hl : l.notifies = true
    · exact .inl ⟨t, by rw [commit_thread_self]; exact hl⟩
    · refine .inr ⟨?_, ?_⟩
      · by_contra hdone
        have hbit : (s.commit cfg t l e).taskStatus.getLsbD (completeBit v) = true := by
          simpa [Sys.completed] using hdone
        rcases (getLsbD_of_commit hbit).2 with hbefore | ⟨cause, rfl⟩
        · exact absurd hbefore (by simpa [Sys.completed] using hopen)
        · rw [notifies_of_completes hreach hok h hw hut rfl] at hquiet
          cases hquiet
      · rw [commit_abortFlag]
        by_cases he : e = .setAbortFlag true
        · subst he
          obtain ⟨d, hd⟩ := h.origin
          rw [hd] at hquiet
          cases hquiet
        · cases e with
          | setAbortFlag b =>
            cases b with
            | true => exact absurd rfl he
            | false => rfl
          | _ => exact habort

/-- A step of the worker that leaves the flag and the bits alone. -/
theorem covered_worker {w' : Worker} (hthread : s.thread t = .worker w)
    (hcreate : ∀ y, e ≠ .create y) (habort : (e.apply cfg t s).abortFlag = s.abortFlag)
    (hbits : (e.apply cfg t s).taskStatus = s.taskStatus) (hc : s.covered v) :
    (s.commit cfg t (.worker w') e).covered v := by
  rcases hc with ⟨x, hx⟩ | ⟨hopen, hgoing⟩
  · have hxt : x ≠ t := by
      rintro rfl
      rw [hthread] at hx
      cases hx
    exact .inl ⟨x, by rw [commit_thread_other hxt hcreate]; exact hx⟩
  · refine .inr ⟨?_, habort.trans hgoing⟩
    rw [Sys.completed, commit_taskStatus, hbits]
    exact hopen

/-- In every run in which the worker begins each wait in time, its task is covered as long as
it waits. -/
theorem covered_of_reached (h : ReachedWhere cfg WaitsInTime s) (hw : s.thread u = .worker w)
    (hpc : w.pc = .wakeTask) (hwait : u ∈ s.waiters) (hv : s.tasks[w.i]? = some v) :
    s.covered v := by
  refine h.induct (I := fun s => ∀ u w v, s.thread u = .worker w → w.pc = .wakeTask →
    u ∈ s.waiters → s.tasks[w.i]? = some v → s.covered v) ?_ ?_ u w v hw hpc hwait hv
  · intro threadCreated u w v _ _ hwait _
    cases hwait
  · intro s t l e hreach hok ih hmove hen hc u w v hw hpc hwait hv
    by_cases hut : u = t
    · subst hut
      rw [commit_thread_self] at hw
      subst hw
      rcases hmove.worker with ⟨w₀, hnot, hthread, hstep⟩ | ⟨hthread, rfl | rfl⟩
      · rcases mem_waiters_apply hwait with hin | ⟨-, m, rfl⟩
        · exact absurd hin hnot
        · cases hstep with
          | waitContext => cases hpc
          | waitTask _ => exact covered_worker hthread (by simp) rfl rfl (hc w₀ v rfl hthread hv)
      · exact absurd hwait hok.nodup.not_mem_erase
      · exact covered_worker hthread (by simp) rfl rfl (ih u w v hthread hpc hwait hv)
    · have hin : u ∈ s.waiters := (mem_waiters_apply hwait).resolve_right fun heq => hut heq.1
      obtain ⟨w', hw', -⟩ := hok.waiting u hin
      rw [commit_thread_of_not_idle hen hut (by rw [hw']; simp)] at hw
      have hphase : w.phase = .running := by simp [Worker.phase, hpc]
      rw [(hok.undisturbed hw hphase hmove hut).tasks] at hv
      exact covered_step hreach.reachable hok hmove hen hw hut hin hwait (ih u w v hw hpc hin hv)

/-- In every run in which the worker begins each wait in time, no wake-up is lost. -/
theorem noLostWakeUp_of_reached (h : ReachedWhere cfg WaitsInTime s) : ¬ LostWakeUp s := by
  rintro ⟨u, w, v, hw, hpc, hwait, hv, hresolved, hquiet, -, -⟩
  rcases covered_of_reached h hw hpc hwait hv with ⟨t, ht⟩ | ⟨hopen, hgoing⟩
  · rw [hquiet t] at ht
    cases ht
  · rcases hresolved with hdone | habort
    · rw [hopen] at hdone
      cases hdone
    · rw [hgoing] at habort
      cases habort

/-- A wait that begins late is a lost wake-up, unless an event that is still to come or the timer
happens to notify again. -/
theorem lostWakeUp_of_late {w' : Worker} (hstep : WorkerStep cfg s w (.worker w') (.wait .call))
    (hv : s.tasks[w.i]? = some v) (hlate : ¬ s.covered v)
    (hevent : ¬ (s.commit cfg t (.worker w') (.wait .call)).eventNotifies v)
    (htimer : ¬ (s.commit cfg t (.worker w') (.wait .call)).timerNotifies v) :
    LostWakeUp (s.commit cfg t (.worker w') (.wait .call)) := by
  obtain ⟨hquiet, hresolved⟩ := not_or.mp hlate
  cases hstep with
  | waitTask hpc =>
    refine ⟨t, _, v, commit_thread_self, rfl, List.mem_cons_self .., hv, ?_, fun x => ?_, hevent,
      htimer⟩
    · by_contra hnot
      obtain ⟨hopen, hgoing⟩ := not_or.mp hnot
      exact hresolved ⟨Bool.not_eq_true _ ▸ hopen, Bool.not_eq_true _ ▸ hgoing⟩
    · by_cases hxt : x = t
      · rw [hxt, commit_thread_self]
        rfl
      · rw [commit_thread_other hxt (by simp)]
        by_contra hn
        exact hquiet ⟨x, by simpa using hn⟩

/-- A test of the condition: the task of the worker is neither resolved nor aborted. -/
def waitsInTime (s : Sys) (t : Tid) : Effect → Bool
  | .wait .call =>
      match s.thread t with
      | .worker w => !s.abortFlag && (s.tasks[w.i]?).all fun v => !s.completed v
      | _ => true
  | _ => true

theorem waitsInTime_of_test (h : waitsInTime s t e = true) : WaitsInTime s t l e := by
  intro w v he hthread hv
  subst he
  simp only [waitsInTime, hthread, hv, Option.all_some, Bool.and_eq_true, Bool.not_eq_true'] at h
  exact .inr ⟨h.2, h.1⟩

/-- The worker waits for the RFC task, and the event will wake it. -/
theorem noLostWakeUp_of_reached_waiting : ∃ s,
    ReachedWhere (device false false) WaitsInTime s ∧ s.waiters = [0] ∧ ¬ LostWakeUp s := by
  obtain ⟨s, hs, htest⟩ := exists_reachedWhere_of_run (device false false) WaitsInTime true
    (startsUp 0 ++ launches 0) (fun s => s.waiters == [0]) (fun s t _ e => waitsInTime s t e)
    (fun _ _ _ _ _ h => waitsInTime_of_test h) (by decide +kernel)
  exact ⟨s, hs, by simpa using htest, noLostWakeUp_of_reached hs⟩

/-- The RFC task completes after it has been launched and before the worker waits for it. -/
def earlyCompletionSchedule : List Action :=
  startsUp 0 ++ runs 0 3 ++ succeeds 0 ++ runs 0 1 ++ succeeds 0 ++
    delivers 1 (.complete .rfc) 12 ++ runs 0 1

/-- The worker waits for a task that has completed, and nothing will wake it. -/
theorem lostWakeUp_earlyCompletion : ∃ s, (plugin (device false false)).Reachable s ∧
    LostWakeUp s := by
  obtain ⟨s, hs, htest, hidle⟩ := exists_reachable_idle_of_run (device false false) 2
    earlyCompletionSchedule
    (fun s => (s.thread 0).isWorker (fun w => w.pc == .wakeTask && w.i == 0) &&
      (s.thread 1).isIdle && s.waiters == [0] && s.tasks == [.rfc, .swupdate, .logupload] &&
      s.completed .rfc && !s.taskMap .rfc) (by decide) (by decide) (by decide +kernel)
  simp only [Bool.and_eq_true, beq_iff_eq, Bool.not_eq_true'] at htest
  obtain ⟨⟨⟨⟨⟨hworker, hcaller⟩, hwaiters⟩, htasks⟩, hdone⟩, hmap⟩ := htest
  obtain ⟨w, hthread, hw⟩ := Thread.isWorker_iff.mp hworker
  simp only [Bool.and_eq_true, beq_iff_eq] at hw
  refine ⟨s, hs, 0, w, .rfc, hthread, hw.1, by simp [hwaiters], by simp [hw.2, htasks],
    .inl hdone, fun t => ?_, ?_, ?_⟩
  · match t with
    | 0 => rw [hthread]; rfl
    | 1 => rw [Thread.isIdle_iff.mp hcaller]; rfl
    | t + 2 => rw [hidle (t + 2) (by omega)]; rfl
  · rintro ⟨-, -, -, status, habout, hmem, -⟩
    cases status <;> simp_all [ModuleStatus.about, eventCase, completeCase, errorCase]
  · rintro ⟨htrue, -⟩
    rw [hmap] at htrue
    cases htrue

end SoftwareUpdate.MaintenanceManager
