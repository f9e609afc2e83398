import SoftwareUpdate.MaintenanceManager.Proofs.Runs

/-!
# What the other threads leave alone while a cycle runs

As long as the worker has posted STARTED and nothing else, no call can open another cycle:
the bit field only grows, an abort is not taken back, and the task list and the current task
are the worker's own.
-/

namespace SoftwareUpdate.MaintenanceManager

open Misc Misc.BitField

variable {cfg : Config} {s s' : Sys} {t u : Tid} {l : Thread} {e : Effect} {w : Worker}

/-- The terminal outcome of the task is recorded. -/
def Sys.completed (s : Sys) (t : Task) : Bool := s.taskStatus.getLsbD (completeBit t)

/-- What the other threads leave alone while a worker runs its cycle. -/
structure Undisturbed (s s' : Sys) : Prop where
  tasks : s'.tasks = s.tasks
  currentTask : s'.currentTask = s.currentTask
  abort : s.abortFlag = true → s'.abortFlag = true
  bits : ∀ n, s.taskStatus.getLsbD n = true → s'.taskStatus.getLsbD n = true

theorem Undisturbed.completed (h : Undisturbed s s') {v : Task} (hv : s.completed v = true) :
    s'.completed v = true :=
  h.bits _ hv

/-- No `startMaintenance` is past its guard while the worker runs. -/
theorem SysOk.not_opening (hok : SysOk cfg s) (hw : s.thread u = .worker w)
    (hphase : w.phase = .running) : (s.thread t).opening = false := by
  by_contra ho
  have hstatus := (hok.worker hw).status
  rw [hphase] at hstatus
  exact ((hok.threads t).opening (by simpa using ho)).1 hstatus

theorem SysOk.undisturbed (hok : SysOk cfg s) (hw : s.thread u = .worker w)
    (hphase : w.phase = .running) (h : Move cfg s t l e) (hu : u ≠ t) :
    Undisturbed s (s.commit cfg t l e) := by
  have hopening := hok.not_opening (t := t) hw hphase
  have hworker {v : Worker} (hv : s.thread t = .worker v) : False :=
    hu (hok.worker_unique hw hv)
  have horigin := h.origin
  cases e with
  | setTasks ts =>
    obtain ⟨v, hv, -⟩ := horigin
    exact (hworker hv).elim
  | setCurrentTask v =>
    obtain ⟨v, hv, -⟩ := horigin
    exact (hworker hv).elim
  | clearTaskStatus =>
    have hp : s.thread t = .start .clearTaskStatus := horigin
    rw [hp] at hopening
    cases hopening
  | setAbortFlag b =>
    cases b with
    | true => exact ⟨rfl, rfl, fun _ => rfl, fun _ hn => hn⟩
    | false =>
      rcases horigin with hp | ⟨v, hv, -⟩
      · rw [hp] at hopening
        cases hopening
      · exact (hworker hv).elim
  | setStatus n cause => exact ⟨rfl, rfl, id, fun _ hn => getLsbD_raise_of_getLsbD hn⟩
  | _ => exact ⟨rfl, rfl, id, fun _ hn => hn⟩

end SoftwareUpdate.MaintenanceManager
