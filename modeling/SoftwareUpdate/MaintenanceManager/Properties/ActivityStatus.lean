import SoftwareUpdate.MaintenanceManager.History
import SoftwareUpdate.MaintenanceManager.Proofs.Protected

/-!
# What the activity status tells

`getMaintenanceActivityStatus` reports two flags that are kept as texts. Their values are put
together in several steps under `m_statusMutex`: `startMaintenance` clears the first one and
restores it when no worker can be created, and a handler raises them after it has taken an event.
Whenever the mutex is free they tell what has happened: whether a critical update was reported
since the last worker was created, and whether a reboot is due.
-/

namespace SoftwareUpdate.MaintenanceManager

open Misc Misc.History

/-! ## What has happened -/

def Effect.createsWorker : Effect → Bool
  | .create _ => true
  | _ => false

/-- The event with the module status has been taken. -/
def Effect.handles (status : ModuleStatus) : Effect → Bool
  | .handle status' => status' == status
  | _ => false

def Effect.storesTime : Effect → Bool
  | .storeTime _ => true
  | _ => false

/-- A critical update has been reported since the last worker was created. -/
def Sys.criticalReported (s : Sys) : Bool :=
  since (fun x => x.2.createsWorker) (fun x => x.2.handles .criticalUpdate) s.log

/-- `startMaintenance` has passed its guard, whether or not it then created a worker, or an event
that asks for a reboot has been handled. -/
def Sys.rebootDue (s : Sys) : Bool :=
  s.log.any fun x => x.2.beginsCycle || x.2.handles .rebootRequired

/-- The flags of the response, what they should tell, and how many completion times have been
stored and how many cycles reported as complete. -/
structure Record where
  isCriticalMaintenance : Bool
  isRebootPending : Bool
  criticalReported : Bool
  rebootDue : Bool
  storedTimes : ℕ
  completed : ℕ

def Sys.record (s : Sys) : Record where
  isCriticalMaintenance := readFlag s.isCriticalMaintenance
  isRebootPending := readFlag s.isRebootPending
  criticalReported := s.criticalReported
  rebootDue := s.rebootDue
  storedTimes := s.log.countP fun x => x.2.storesTime
  completed := s.log.countP fun x => x.2.posted == some .complete

variable {cfg : Config} {s : Sys} {t : Tid} {l : Thread} {e : Effect} {r : Record}

/-- What an effect makes of the record. -/
def Effect.recordIn (r : Record) : Effect → Record
  | .setCritical v => { r with isCriticalMaintenance := readFlag v }
  | .setRebootPending v => { r with isRebootPending := readFlag v }
  | .handle status =>
      { r with
        criticalReported := status == .criticalUpdate || r.criticalReported
        rebootDue := status == .rebootRequired || r.rebootDue }
  | .create _ => { r with criticalReported := false }
  | .clearTaskStatus => { r with rebootDue := true }
  | .storeTime _ => { r with storedTimes := r.storedTimes + 1 }
  | .onMaintenanceStatusChange v => { r with completed := r.completed + (v == .complete).toNat }
  | _ => r

theorem record_commit : (s.commit cfg t l e).record = e.recordIn s.record := by
  cases e with
  | onMaintenanceStatusChange v =>
    cases v <;> simp [Sys.record, Effect.recordIn, Sys.commit, Effect.apply, Effect.posted,
      Effect.storesTime, Sys.criticalReported, Sys.rebootDue, Effect.createsWorker,
      Effect.handles, Effect.beginsCycle]
  | storeTime time =>
    simp [Sys.record, Effect.recordIn, Sys.commit, Effect.apply, Effect.posted,
      Effect.storesTime, Sys.criticalReported, Sys.rebootDue, Effect.createsWorker,
      Effect.handles, Effect.beginsCycle]
  | _ => rfl

/-! ## What is known where the holder of the mutex stands -/

/-- Between the clearing of the flag and the creation of the worker, the old value is that of
`prev_critical_maintenance`; a handler that has taken the event has still to raise the flag. -/
def Record.CriticalAt (r : Record) : Thread → Prop
  | .start (.testJoinable prev) | .start (.join _ prev) | .start (.create prev)
  | .start (.rollback prev) => r.isCriticalMaintenance = false ∧ readFlag prev = r.criticalReported
  | .event (.body _ rest) =>
      if .setCritical ∈ rest then r.criticalReported = true
      else r.isCriticalMaintenance = r.criticalReported
  | _ => r.isCriticalMaintenance = r.criticalReported

def Record.RebootAt (r : Record) : Thread → Prop
  | .start .setType | .start .clearAbort | .start .setReboot => r.rebootDue = true
  | .event (.body _ rest) =>
      if .setRebootPending ∈ rest then r.rebootDue = true else r.isRebootPending = r.rebootDue
  | _ => r.isRebootPending = r.rebootDue

/-- The time of a complete cycle is stored before the cycle is reported. -/
def Record.TimesAt (r : Record) : Thread → Prop
  | .event (.testJoinable v) | .event (.join _ v) | .event (.branchUnsolicited v)
  | .event (.setUnsolicited v) | .event (.notify v) =>
      r.storedTimes = r.completed + (v == .complete).toNat
  | _ => r.storedTimes = r.completed

structure Record.Told (r : Record) (l : Thread) : Prop where
  critical : r.CriticalAt l
  reboot : r.RebootAt l
  times : r.TimesAt l

theorem Record.told_of_free (hl : l.holds .status = false) : r.Told l ↔ r.Told .idle := by
  have hsame : (r.CriticalAt l ↔ r.CriticalAt .idle) ∧ (r.RebootAt l ↔ r.RebootAt .idle) ∧
      (r.TimesAt l ↔ r.TimesAt .idle) := by
    cases l with
    | start pc | event pc => cases pc <;> first | exact ⟨.rfl, .rfl, .rfl⟩ | cases hl
    | _ => exact ⟨.rfl, .rfl, .rfl⟩
  obtain ⟨hcritical, hreboot, htimes⟩ := hsame
  exact ⟨fun ⟨hc, hr, ht⟩ => ⟨hcritical.mp hc, hreboot.mp hr, htimes.mp ht⟩,
    fun ⟨hc, hr, ht⟩ => ⟨hcritical.mpr hc, hreboot.mpr hr, htimes.mpr ht⟩⟩

@[simp] theorem readFlag_true : readFlag "true" = true := by decide

@[simp] theorem readFlag_false : readFlag "false" = false := by decide

/-! ## One statement -/

theorem startMaintenance_told {pc : StartPc} {c : Choice} (h : s.record.Told (.start pc)) :
    ((startMaintenance s pc c).2.recordIn s.record).Told (startMaintenance s pc c).1 := by
  obtain ⟨hc, hr, ht⟩ := h
  fun_cases startMaintenance s pc c
  case case10 =>
    -- the old value of the flag is kept in `prev_critical_maintenance`
    exact ⟨⟨rfl, hc⟩, hr, ht⟩
  all_goals
    constructor <;>
      simp_all [Record.CriticalAt, Record.RebootAt, Record.TimesAt, Effect.recordIn]

theorem stopMaintenanceTasks_told {d : Bool} {pc : StopPc} {c : Choice}
    (h : r.Told (.stop d pc)) :
    ((stopMaintenanceTasks s d pc c).2.recordIn r).Told (stopMaintenanceTasks s d pc c).1 := by
  obtain ⟨hc, hr, ht⟩ := h
  fun_cases stopMaintenanceTasks s d pc c
  all_goals exact ⟨hc, hr, ht⟩

theorem WorkerStep.told {w : Worker} (hstep : WorkerStep cfg s w l e) (h : r.Told (.worker w)) :
    (e.recordIn r).Told l := by
  obtain ⟨hc, hr, ht⟩ := h
  cases hstep
  all_goals exact ⟨hc, hr, ht⟩

/-- Only the handler of the event that reports a critical update raises the flag. -/
theorem setCritical_mem_eventCase {taskMap : Task → Bool} {status : ModuleStatus} :
    .setCritical ∈ eventCase taskMap status ↔ status = .criticalUpdate := by
  cases status <;> simp [eventCase, completeCase, errorCase]

theorem setRebootPending_mem_eventCase {taskMap : Task → Bool} {status : ModuleStatus} :
    .setRebootPending ∈ eventCase taskMap status ↔ status = .rebootRequired := by
  cases status <;> simp [eventCase, completeCase, errorCase]

theorem dispatch_told {status : ModuleStatus} {taskMap : Task → Bool}
    (h : r.Told (.event (.dispatch status))) :
    (Effect.recordIn r (.handle status)).Told (.event (.body status (eventCase taskMap status)))
    where
  critical := by
    have hc : r.isCriticalMaintenance = r.criticalReported := h.critical
    simp only [Record.CriticalAt, setCritical_mem_eventCase, Effect.recordIn]
    split
    case isTrue hstatus => simp [hstatus]
    case isFalse hstatus => simp [hstatus, hc]
  reboot := by
    have hr : r.isRebootPending = r.rebootDue := h.reboot
    simp only [Record.RebootAt, setRebootPending_mem_eventCase, Effect.recordIn]
    split
    case isTrue hstatus => simp [hstatus]
    case isFalse hstatus => simp [hstatus, hr]
  times := h.times

theorem criticalAt_body_cons {status : ModuleStatus} {x : CaseStmt} {rest : List CaseStmt}
    (hx : CaseStmt.setCritical ≠ x) : r.CriticalAt (.event (.body status (x :: rest))) ↔
      r.CriticalAt (.event (.body status rest)) := by
  simp [Record.CriticalAt, hx]

theorem rebootAt_body_cons {status : ModuleStatus} {x : CaseStmt} {rest : List CaseStmt}
    (hx : CaseStmt.setRebootPending ≠ x) : r.RebootAt (.event (.body status (x :: rest))) ↔
      r.RebootAt (.event (.body status rest)) := by
  simp [Record.RebootAt, hx]

theorem body_told {status : ModuleStatus} {x : CaseStmt} {rest : List CaseStmt} {c : Choice}
    (h : r.Told (.event (.body status (x :: rest)))) :
    ((x.effect status c).recordIn r).Told (.event (.body status rest)) := by
  obtain ⟨hc, hr, ht⟩ := h
  cases x with
  | setCritical =>
    have hreported : r.criticalReported = true := by simpa [Record.CriticalAt] using hc
    rw [rebootAt_body_cons (by simp)] at hr
    refine ⟨?_, hr, ht⟩
    simp [Record.CriticalAt, CaseStmt.effect, Effect.recordIn, hreported]
  | setRebootPending =>
    have hdue : r.rebootDue = true := by simpa [Record.RebootAt] using hr
    rw [criticalAt_body_cons (by simp)] at hc
    refine ⟨hc, ?_, ht⟩
    simp [Record.RebootAt, CaseStmt.effect, Effect.recordIn, hdue]
  | _ =>
    rw [criticalAt_body_cons (by simp)] at hc
    rw [rebootAt_body_cons (by simp)] at hr
    exact ⟨hc, hr, ht⟩

theorem iarmEventHandler_told {pc : EventPc} {c : Choice} (h : r.Told (.event pc)) :
    ((iarmEventHandler cfg s pc c).2.recordIn r).Told (iarmEventHandler cfg s pc c).1 := by
  fun_cases iarmEventHandler cfg s pc c
  case case7 status => exact dispatch_told h
  case case9 status x rest => exact body_told h
  case case18 => exact ⟨h.critical, h.reboot, congrArg Nat.succ h.times⟩
  all_goals exact ⟨h.critical, h.reboot, h.times⟩

theorem statement_told {l₀ : Thread} {c : Choice} (hstep : statement cfg s c l₀ = some (l, e))
    (h : s.record.Told l₀) : (e.recordIn s.record).Told l := by
  have of_eq {p : Thread × Effect} (hp : some p = some (l, e))
      (htold : (p.2.recordIn s.record).Told p.1) : (e.recordIn s.record).Told l := by
    rwa [Option.some.inj hp] at htold
  cases l₀ with
  | idle | finished => cases hstep
  | worker w => exact (taskExecutionThread_step hstep).told h
  | start pc => exact of_eq hstep (startMaintenance_told h)
  | stop d pc => exact of_eq hstep (stopMaintenanceTasks_told h)
  | event pc => exact of_eq hstep (iarmEventHandler_told h)
  | timer pc =>
    refine of_eq hstep ?_
    fun_cases timerHandler s pc c <;> exact ⟨h.critical, h.reboot, h.times⟩
  | context pc =>
    refine of_eq hstep ?_
    fun_cases deviceInitializationContextEventHandler s pc c <;>
      exact ⟨h.critical, h.reboot, h.times⟩
  | internet pc =>
    refine of_eq hstep ?_
    fun_cases internetStatusChangeEventHandler s pc <;> exact ⟨h.critical, h.reboot, h.times⟩
  | mode pc =>
    refine of_eq hstep ?_
    fun_cases maintenanceMode pc <;> exact ⟨h.critical, h.reboot, h.times⟩

theorem Move.told (hmove : Move cfg s t l e) (h : s.record.Told (s.thread t)) :
    (s.commit cfg t l e).record.Told l := by
  rw [record_commit]
  cases hmove with
  | run c _ hstep => exact statement_told hstep h
  | call r hidle =>
    rw [hidle] at h
    exact (Record.told_of_free (by cases r <;> rfl)).mpr ⟨h.critical, h.reboot, h.times⟩
  | wakeUp | timerExpires => exact ⟨h.critical, h.reboot, h.times⟩
  | signal hidle =>
    rw [hidle] at h
    exact ⟨h.critical, h.reboot, h.times⟩

/-! ## The threads outside -/

/-- The record is written under `m_statusMutex`. -/
theorem statement_record {l₀ : Thread} {c : Choice} (hstep : statement cfg s c l₀ = some (l, e))
    (hheld : l₀.holds .status = false) : e.recordIn r = r := by
  have of_eq {p : Thread × Effect} (hp : some p = some (l, e)) (hsame : p.2.recordIn r = r) :
      e.recordIn r = r := by
    rwa [Option.some.inj hp] at hsame
  cases l₀ with
  | idle | finished => cases hstep
  | worker w =>
    cases taskExecutionThread_step hstep with
    | notifyStarted hpc | notifyError hpc => simp [Thread.holds, hpc, WorkerPc.holds] at hheld
    | _ => rfl
  | start pc =>
    refine of_eq hstep ?_
    fun_cases startMaintenance s pc c <;> first | rfl | cases hheld
  | stop d pc =>
    refine of_eq hstep ?_
    fun_cases stopMaintenanceTasks s d pc c <;> rfl
  | event pc =>
    refine of_eq hstep ?_
    fun_cases iarmEventHandler cfg s pc c <;> first | rfl | cases hheld
  | timer pc =>
    refine of_eq hstep ?_
    fun_cases timerHandler s pc c <;> rfl
  | context pc =>
    refine of_eq hstep ?_
    fun_cases deviceInitializationContextEventHandler s pc c <;> rfl
  | internet pc =>
    refine of_eq hstep ?_
    fun_cases internetStatusChangeEventHandler s pc <;> rfl
  | mode pc =>
    refine of_eq hstep ?_
    fun_cases maintenanceMode pc <;> rfl

theorem Move.record (hmove : Move cfg s t l e) (ht : (s.thread t).holds .status = false) :
    (s.commit cfg t l e).record = s.record := by
  rw [record_commit]
  cases hmove with
  | run c _ hstep => exact statement_record hstep ht
  | call | wakeUp | timerExpires | signal => rfl

theorem told_of_reachable (h : (plugin cfg).Reachable s) : s.record.Told s.holder := by
  refine (reachedWhere_of_reachable h).guarded (A := fun s l => s.record.Told l)
    Record.told_of_free ?_ (fun _ hmove _ => hmove.told) ?_
  · intro threadCreated
    cases threadCreated <;> exact ⟨rfl, rfl, rfl⟩
  · intro s t l e l' hmove ht _ htold
    rwa [hmove.record ht]

/-! ## While nobody is inside -/

/-- Whenever nobody holds `m_statusMutex`, the activity status tells whether a critical update
was reported since the last worker was created, and whether a cycle has been started or an event
has asked for a reboot. -/
theorem activityStatus_of_free (h : (plugin cfg).Reachable s) (hfree : s.owner .status = none) :
    (getMaintenanceActivityStatus s).isCriticalMaintenance = s.criticalReported ∧
      (getMaintenanceActivityStatus s).isRebootPending = s.rebootDue := by
  have htold := told_of_reachable h
  rw [holder_of_free hfree] at htold
  exact ⟨htold.critical, htold.reboot⟩

/-- A critical update is reported in the boot cycle. -/
theorem activityStatus_of_free_critical : ∃ s, (plugin (device false false)).Reachable s ∧
    s.criticalReported = true ∧ s.rebootDue = false ∧
      (getMaintenanceActivityStatus s).isCriticalMaintenance = s.criticalReported ∧
      (getMaintenanceActivityStatus s).isRebootPending = s.rebootDue := by
  obtain ⟨s, hs, htest⟩ := TransitionSystem.exists_reachable_of_run (plugin (device false false))
    (maintenanceManagerOnBootup (device false false) true)
    (startsUp 0 ++ delivers 1 .criticalUpdate 9)
    (fun s => s.owner .status == none && s.criticalReported && !s.rebootDue) ⟨true, rfl⟩
    (by decide +kernel)
  simp only [Bool.and_eq_true, beq_iff_eq, Bool.not_eq_true'] at htest
  obtain ⟨⟨hfree, hcritical⟩, hreboot⟩ := htest
  exact ⟨s, hs, hcritical, hreboot, activityStatus_of_free hs hfree⟩

/-- Whenever nobody holds `m_statusMutex`, as many completion times have been stored as COMPLETE
has been posted. -/
theorem storedTimes_of_free (h : (plugin cfg).Reachable s) (hfree : s.owner .status = none) :
    s.log.countP (fun x => x.2.storesTime) =
      s.log.countP fun x => x.2.posted == some .complete := by
  have htold := told_of_reachable h
  rw [holder_of_free hfree] at htold
  exact htold.times

theorem storedTimes_of_free_complete : ∃ s, (plugin (device false false)).Reachable s ∧
    s.log.countP (fun x => x.2.storesTime) = 1 ∧ s.log.countP (fun x => x.2.storesTime) =
      s.log.countP fun x => x.2.posted == some .complete := by
  obtain ⟨s, hs, htest⟩ := TransitionSystem.exists_reachable_of_run (plugin (device false false))
    (maintenanceManagerOnBootup (device false false) true) (allComplete ++ runs 1 5)
    (fun s => s.owner .status == none && s.log.countP (fun x => x.2.storesTime) == 1)
    ⟨true, rfl⟩ (by decide +kernel)
  simp only [Bool.and_eq_true, beq_iff_eq] at htest
  exact ⟨s, hs, htest.2, storedTimes_of_free hs htest.1⟩

end SoftwareUpdate.MaintenanceManager
