import SoftwareUpdate.Misc.History
import SoftwareUpdate.MaintenanceManager.System

/-!
# What happened in a cycle

The log of effects, read as the history of the run. A cycle begins when `startMaintenance`
clears `g_task_status`, the first one at boot-up.
-/

namespace SoftwareUpdate.MaintenanceManager

open Misc.History

/-- `g_task_status = 0` in `startMaintenance`. -/
def Effect.beginsCycle : Effect → Bool
  | .clearTaskStatus => true
  | _ => false

/-- Whether an effect with `p` has occurred in the current cycle. -/
def Sys.inCycle (s : Sys) (p : Effect → Bool) : Bool :=
  since (fun x => x.2.beginsCycle) (fun x => p x.2) s.log

/-- The status an effect posts, if any. -/
def Effect.posted : Effect → Option NotifyStatus
  | .onMaintenanceStatusChange v => some v
  | _ => none

/-- The `onMaintenanceStatusChange` notifications so far, oldest first. -/
def Sys.notifications (s : Sys) : List NotifyStatus :=
  (s.log.filterMap fun x => x.2.posted).reverse

/-- COMPLETE, INCOMPLETE and ERROR end a cycle. -/
def NotifyStatus.terminal : NotifyStatus → Bool
  | .error | .complete | .incomplete => true
  | _ => false

variable {cfg : Config} {s : Sys} {t : Tid} {l : Thread} {e : Effect} {p : Effect → Bool}

@[simp] theorem inCycle_commit : (s.commit cfg t l e).inCycle p =
    (!e.beginsCycle && (p e || s.inCycle p)) := by
  cases e <;> rfl

/-- What has happened in the cycle stays so until the next one begins. -/
theorem inCycle_commit_mono (hb : e.beginsCycle = false) (h : s.inCycle p = true) :
    (s.commit cfg t l e).inCycle p = true := by
  simp [hb, h]

theorem inCycle_imp {q : Effect → Bool} (himp : ∀ e, p e = true → q e = true)
    (h : s.inCycle p = true) : s.inCycle q = true :=
  since_imp (fun x => himp x.2) h

theorem notifications_commit : (s.commit cfg t l e).notifications =
    s.notifications ++ e.posted.toList := by
  cases e <;> simp [Sys.notifications, Sys.commit, Effect.apply, Effect.posted]

/-- Only a notification changes the sequence. -/
theorem notifications_commit_of_ne (he : ∀ v, e ≠ .onMaintenanceStatusChange v) :
    (s.commit cfg t l e).notifications = s.notifications := by
  rw [notifications_commit]
  cases e with
  | onMaintenanceStatusChange v => exact absurd rfl (he v)
  | _ => simp [Effect.posted]

end SoftwareUpdate.MaintenanceManager
