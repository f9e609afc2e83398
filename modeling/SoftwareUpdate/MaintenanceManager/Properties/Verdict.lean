import SoftwareUpdate.MaintenanceManager.Proofs.Conclusion
import SoftwareUpdate.MaintenanceManager.Proofs.Handlers

/-!
# The verdict on a cycle

A cycle that is not successful is to be reported as incomplete when its firmware download was
aborted. The handler records that in bit 7 (`TASK_SKIPPED`) and tests bit 9
(`MAINTENANCE_TASK_SKIPPED`), which nothing sets, so it never reports INCOMPLETE.
-/

namespace SoftwareUpdate.MaintenanceManager

open Misc Misc.BitField

variable {cfg : Config} {s s' : Sys} {t u : Tid} {l : Thread} {e : Effect} {pc : EventPc}

/-- A `MAINT_FWDOWNLOAD_ABORTED` event has been handled in the cycle. -/
def Sys.aborted (s : Sys) : Bool := s.inCycle (· == .handle .fwdownloadAborted)

/-- The SUCCESS bits of all three tasks are set. -/
def Sys.allSuccess (s : Sys) : Prop := ∀ v, s.taskStatus.getLsbD (successBit v) = true

/-- A handler that is about to report `v` reports what happened in the cycle. -/
def VerdictsMatch (s : Sys) : Prop :=
  ∀ t v, s.thread t = .event (.notify v) →
    (v = .complete ↔ s.allSuccess) ∧
    (v = .incomplete ↔ ¬ s.allSuccess ∧ s.aborted = true) ∧
    (v = .error ↔ ¬ s.allSuccess ∧ s.aborted = false)

/-- A handler that finds a task without success concludes a cycle without an abort, and no
step makes the tasks successful while it reports the failure. -/
structure FailsUnaborted (s : Sys) (t : Tid) (_ : Thread) (e : Effect) : Prop where
  unaborted : s.thread t = .event .testSuccess → allTasksSuccess s.taskStatus = false →
    s.aborted = false
  late : ∀ n cause, e = .setStatus n cause → allTasksSuccess s.taskStatus = false →
    allTasksSuccess (raise s.taskStatus n) = true →
      ∀ u pc, s.thread u = .event pc → pc.concluding = true → pc = .testSuccess

/-- What the handler knows once it has taken the branch of a cycle that failed. -/
structure Decided (s : Sys) (pc : EventPc) : Prop where
  failed : pc = .testNotSuccess ∨ pc = .testSkipped ∨ pc.verdict = some .error →
    allTasksSuccess s.taskStatus = false ∧ s.aborted = false
  verdict : ∀ v, pc.verdict = some v → v = .complete ∨ v = .error

theorem Decided.of_not_concluding (h : pc.concluding = false) : Decided s pc := by
  have hv {v : NotifyStatus} (hx : pc.verdict = some v) : False := by
    rw [EventPc.concluding_of_verdict hx] at h
    cases h
  refine ⟨?_, fun v hx => (hv hx).elim⟩
  rintro (rfl | rfl | hx)
  · cases h
  · cases h
  · exact (hv hx).elim

theorem iarmEventHandler_decided {c : Choice} {pc' : EventPc} (hok : Decided s pc)
    (hskip : maintenanceTaskSkipped s.taskStatus = false)
    (hunaborted : pc = .testSuccess → allTasksSuccess s.taskStatus = false → s.aborted = false)
    (h : iarmEventHandler cfg s pc c = (.event pc', e)) :
    Decided (s.commit cfg t (.event pc') e) pc' := by
  obtain ⟨hfailed, hverdict⟩ := hok
  revert h
  fun_cases iarmEventHandler cfg s pc c
  all_goals
    simp only [Prod.mk.injEq, Thread.event.injEq, reduceCtorEq, false_and, IsEmpty.forall_iff]
    try rintro ⟨rfl, rfl⟩
  all_goals constructor <;>
    simp_all [EventPc.verdict, Effect.apply, Sys.aborted, Effect.beginsCycle]

/-- While a handler concludes, no other event is handled and no cycle begins. -/
theorem aborted_other (hok : SysOk cfg s) (h : Move cfg s t l e) (hu : u ≠ t)
    (hheld : (s.thread u).holds .status = true) :
    (s.commit cfg t l e).aborted = s.aborted := by
  have hnot := h.not_cyclic_of_other hok.owners hu hheld
  have horigin := h.origin
  cases e with
  | handle status =>
    have hp : s.thread t = .event (.dispatch status) := horigin
    exact absurd (hok.owners.unique hheld (by rw [hp]; rfl)) hu
  | clearTaskStatus => cases hnot
  | _ => simp [Sys.aborted, Effect.beginsCycle]

theorem Decided.other (hd : Decided s pc) (hok : SysOk cfg s) (hc : Concludes s pc)
    (h : Move cfg s t l e) (hu : u ≠ t) (hthread : s.thread u = .event pc)
    (hcond : FailsUnaborted s t l e) : Decided (s.commit cfg t l e) pc := by
  cases hpc : pc.concluding with
  | false => exact Decided.of_not_concluding hpc
  | true =>
    have hheld : (s.thread u).holds .status = true := by
      rw [hthread]
      exact EventPc.holds_of_concluding hpc
    refine ⟨fun hf => ?_, hd.verdict⟩
    obtain ⟨hfail, hab⟩ := hd.failed hf
    refine ⟨?_, by rw [aborted_other hok h hu hheld]; exact hab⟩
    rcases hok.taskStatus_of_concluding h hu hthread hpc (hc.completed hpc) with heq | rfl
    · rw [commit_taskStatus, heq]
      exact hfail
    · by_contra hall
      obtain rfl := hcond.late _ _ rfl hfail (by simpa [Effect.apply] using hall) u pc hthread hpc
      rcases hf with hp | hp | hp <;> cases hp

theorem decided_of_reached (h : ReachedWhere cfg FailsUnaborted s)
    (hthread : s.thread u = .event pc) : Decided s pc := by
  refine h.forall_handlers (A := Decided) ?_ ?_ ?_ ?_ hthread
  · intro s ev
    exact Decided.of_not_concluding rfl
  · intro s t pc pc' c e hreach hd hthread hst hcond
    refine iarmEventHandler_decided hd (not_maintenanceTaskSkipped hreach.reachable) (fun hp => ?_)
      hst
    subst hp
    exact hcond.unaborted hthread
  · intro s t pc e hd he
    rcases he with rfl | rfl <;> exact ⟨hd.failed, hd.verdict⟩
  · intro s t l e u pc hreach hok hd hthread hmove hcond hu
    exact hd.other hok (concludes_of_reachable hreach.reachable hthread) hmove hu hthread hcond

/-- In every run in which no cycle fails after an abort, every verdict matches its cycle. -/
theorem verdictsMatch_of_reached (h : ReachedWhere cfg FailsUnaborted s) : VerdictsMatch s := by
  intro t v hthread
  have hc := concludes_of_reachable h.reachable hthread
  have hd := decided_of_reached h hthread
  have hdone := hc.completed rfl
  rcases hd.verdict v rfl with rfl | rfl
  · have hall : s.allSuccess := (allTasksSuccess_iff.mp (hc.success rfl)).2
    exact ⟨by simp [hall], by simp [hall], by simp [hall]⟩
  · obtain ⟨hfail, hab⟩ := hd.failed (.inr (.inr rfl))
    have hnot : ¬ s.allSuccess := fun hall => by
      rw [allTasksSuccess_iff.mpr ⟨hdone, hall⟩] at hfail
      cases hfail
    exact ⟨by simp [hnot], by simp [hab], by simp [hnot, hab]⟩

/-- A test of the condition: only handlers set bits, and none finds a failure after an
abort. -/
def failsUnaborted (s : Sys) (t : Tid) (e : Effect) : Bool :=
  setByHandler s t e && match s.thread t with
    | .event .testSuccess => allTasksSuccess s.taskStatus || !s.aborted
    | _ => true

theorem failsUnaborted_of_test (hok : SysOk cfg s) (h : failsUnaborted s t e = true) :
    FailsUnaborted s t l e := by
  simp only [failsUnaborted, Bool.and_eq_true] at h
  constructor
  · intro hthread hfail
    simpa [hthread, hfail] using h.2
  · intro n cause he _ _ u pc hthread hpc
    subst he
    rw [not_concluding_of_setByHandler hok h.1 hthread] at hpc
    cases hpc

/-- A cycle of three completed tasks is about to be reported as complete. -/
theorem verdictsMatch_of_reached_complete : ∃ s,
    ReachedWhere (device false false) FailsUnaborted s ∧
      s.thread 1 = .event (.notify .complete) ∧ VerdictsMatch s := by
  obtain ⟨s, hs, htest⟩ := exists_reachedWhere_of_run (device false false) FailsUnaborted true
    (allComplete ++ runs 1 3)
    (fun s => (s.thread 1).isReporting .complete)
    (fun s t _ e => failsUnaborted s t e)
    (fun _ _ _ _ hok h => failsUnaborted_of_test hok h) (by decide +kernel)
  exact ⟨s, hs, Thread.isReporting_iff.mp htest, verdictsMatch_of_reached hs⟩

/-- RFC and log upload complete, and the firmware download is aborted. -/
def abortedSchedule : List Action :=
  startsUp 0 ++ launches 0 ++ deliversOutcome 1 (.complete .rfc) 0 ++ runs 0 2 ++
    launches 0 ++ deliversOutcome 1 .fwdownloadAborted 0 ++ runs 0 2 ++
    launches 0 ++ deliversOutcome 1 (.complete .logupload) 0 ++ runs 1 3 ++ runs 0 6 ++ runs 1 3

/-- The cycle is reported as an error. -/
theorem verdict_aborted : ∃ s, (plugin (device false false)).Reachable s ∧ ¬ VerdictsMatch s := by
  obtain ⟨s, hs, htest⟩ := TransitionSystem.exists_reachable_of_run (plugin (device false false))
    (maintenanceManagerOnBootup (device false false) true) abortedSchedule
    (fun s => s.aborted && (s.thread 1).isReporting .error)
    ⟨true, rfl⟩ (by decide +kernel)
  simp only [Bool.and_eq_true] at htest
  obtain ⟨haborted, hthread⟩ := htest
  refine ⟨s, hs, fun hmatch => ?_⟩
  have herror := ((hmatch 1 .error (Thread.isReporting_iff.mp hthread)).2.2.mp rfl).2
  rw [haborted] at herror
  cases herror

end SoftwareUpdate.MaintenanceManager
