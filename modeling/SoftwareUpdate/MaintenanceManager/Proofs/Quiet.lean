import SoftwareUpdate.MaintenanceManager.Proofs.Runs

/-!
# The plugin at rest

What stays as it is once no worker is joinable and no cycle is running, and what is known of the
task timer.
-/

namespace SoftwareUpdate.MaintenanceManager

open Misc

variable {cfg : Config} {s : Sys} {t u : Tid} {l : Thread} {e : Effect}

/-- The stop has been accepted and has not returned yet. -/
def StopPc.accepted : StopPc → Bool
  | .readMap _ _ | .abortTask _ | .clearMap _ | .stopTimer | .notify | .testJoinable | .join _
  | .branchUnsolicited | .setUnsolicited | .notifyError | .unlock true => true
  | _ => false

/-- No worker is joinable and no cycle is running. -/
def Sys.quiet (s : Sys) : Prop := s.mThread = none ∧ s.notifyStatus ≠ .started

theorem SysOk.no_worker (hok : SysOk cfg s) (h : s.mThread = none) (w : Worker) :
    s.thread u ≠ .worker w := by
  intro hw
  have hjoinable := (hok.worker hw).joinable
  rw [h] at hjoinable
  cases hjoinable

section Quiet

variable (hok : SysOk cfg s) (hq : s.quiet) (hmove : Move cfg s t l e)
include hok hq

theorem SysOk.not_handling_of_quiet : (s.thread t).handling = false := by
  by_contra hhandling
  exact hq.2 ((hok.threads t).handling (by simpa using hhandling)).1

theorem SysOk.not_stopping_of_quiet : (s.thread t).stopping = false := by
  by_contra hstopping
  exact hq.2 ((hok.threads t).stopping (by simpa using hstopping))

include hmove

/-- Without a cycle no status is posted. -/
theorem quiet_notifyStatus : (s.commit cfg t l e).notifyStatus = s.notifyStatus := by
  refine apply_notifyStatus ?_
  rintro v rfl
  rcases hmove.origin with ⟨w, hw, -⟩ | ⟨d, hd, -⟩ | hp
  · exact hok.no_worker hq.1 w hw
  · have hstopping := hok.not_stopping_of_quiet hq (t := t)
    rw [hd] at hstopping
    cases hstopping
  · have hhandling := hok.not_handling_of_quiet hq (t := t)
    rw [hp] at hhandling
    cases hhandling

/-- Without a worker, only a new one can end the quiet. -/
theorem quiet_commit (hcreate : ∀ w, e ≠ .create w) : (s.commit cfg t l e).quiet := by
  refine ⟨?_, by rw [quiet_notifyStatus hok hq hmove]; exact hq.2⟩
  rw [commit_mThread]
  cases e with
  | join w => rfl
  | create w => exact absurd rfl (hcreate w)
  | _ => exact hq.1

end Quiet

/-- The timer is armed only when it exists. -/
theorem created_of_armed (h : (plugin cfg).Reachable s) (harmed : s.taskTimerArmed = true) :
    s.taskTimerCreated = true := by
  revert harmed
  refine (reachedWhere_of_reachable h).induct
    (I := fun s => s.taskTimerArmed = true → s.taskTimerCreated = true) ?_ ?_
  · intro threadCreated harmed
    cases harmed
  · intro s t l e _ _ hi _ _ _
    cases e <;> simp only [Sys.commit, Effect.apply] <;> grind

end SoftwareUpdate.MaintenanceManager
