import Mathlib.Tactic.IntervalCases
import SoftwareUpdate.Misc.BitField

/-!
# Status values, tasks and the task bit field

The enumerations of `MaintenanceManager.h`, the three maintenance tasks, and the bits of
`g_task_status` with the masks the end-of-cycle test reads. The masks are written down
separately from the bit numbers in the source, and are kept separate here.
-/

namespace SoftwareUpdate.MaintenanceManager

open Misc.BitField

/-- `Maint_notify_status_t`. -/
inductive NotifyStatus where
  | idle
  | started
  | error
  | complete
  | incomplete
  deriving DecidableEq, Repr

def notifyStatusToString : NotifyStatus → String
  | .idle => "MAINTENANCE_IDLE"
  | .started => "MAINTENANCE_STARTED"
  | .error => "MAINTENANCE_ERROR"
  | .complete => "MAINTENANCE_COMPLETE"
  | .incomplete => "MAINTENANCE_INCOMPLETE"

/-- `Maintenance_Type_t`. -/
inductive MaintenanceType where
  | solicited
  | unsolicited
  deriving DecidableEq, Repr

/-- `Auth_activation_status_t`: the AuthService answer, with every string outside the five
known ones collapsed to `invalid`. -/
inductive ActivationStatus where
  | activationConnect
  | activationReady
  | notActivated
  | activationDisconnect
  | activated
  | invalid
  deriving DecidableEq, Repr

/-- `TaskIndices`; the keys of `m_task_map` and the entries of `tasks`. -/
inductive Task where
  | rfc
  | swupdate
  | logupload
  deriving DecidableEq, Repr

/-- `IARM_Maint_module_status_t`, the values the event handler distinguishes. The
enumerators for one task differ only in the task: `MAINT_RFC_COMPLETE` is `complete .rfc`,
`MAINT_FWDOWNLOAD_ERROR` is `error .swupdate`, `MAINT_LOGUPLOAD_INPROGRESS` is
`inprogress .logupload`. -/
inductive ModuleStatus where
  | complete (t : Task)
  | error (t : Task)
  | inprogress (t : Task)
  | fwdownloadAborted
  | rebootRequired
  | criticalUpdate
  | other
  deriving DecidableEq, Repr

/-! ## Bit numbers

`SET_STATUS(g_task_status, n)` is `raise v n`. -/

/-- `RFC_SUCCESS`, `LOGUPLOAD_SUCCESS`, `SWUPDATE_SUCCESS`. -/
def successBit : Task → ℕ
  | .rfc => 0
  | .logupload => 2
  | .swupdate => 4

/-- `task_complete_status` and `task_status_map`: `RFC_COMPLETE`, `LOGUPLOAD_COMPLETE`,
`SWUPDATE_COMPLETE`. -/
def completeBit : Task → ℕ
  | .rfc => 1
  | .logupload => 3
  | .swupdate => 5

def rebootRequiredBit : ℕ := 6

/-- `TASK_SKIPPED`. -/
def taskSkippedBit : ℕ := 7

/-! ## Masks -/

def tasksCompletedMask : BitVec 16 := 0x2A

def allTasksSuccessMask : BitVec 16 := 0x3F

/-- `MAINTENANCE_TASK_SKIPPED`. -/
def maintenanceTaskSkippedMask : BitVec 16 := 0x200

/-- `(g_task_status & TASKS_COMPLETED) == TASKS_COMPLETED`. -/
def tasksCompleted (v : BitVec 16) : Bool := covers v tasksCompletedMask

/-- `(g_task_status & ALL_TASKS_SUCCESS) == ALL_TASKS_SUCCESS`. -/
def allTasksSuccess (v : BitVec 16) : Bool := covers v allTasksSuccessMask

/-- `(g_task_status & MAINTENANCE_TASK_SKIPPED) == MAINTENANCE_TASK_SKIPPED`. -/
def maintenanceTaskSkipped (v : BitVec 16) : Bool := covers v maintenanceTaskSkippedMask

theorem completeBit_lt (t : Task) : completeBit t < 16 := by cases t <;> decide

theorem successBit_lt (t : Task) : successBit t < 16 := by cases t <;> decide

theorem completeBit_ne_successBit (t u : Task) : completeBit t ≠ successBit u := by
  cases t <;> cases u <;> decide

theorem successBit_inj {t u : Task} (h : successBit t = successBit u) : t = u := by
  revert h
  cases t <;> cases u <;> decide

theorem completeBit_inj {t u : Task} (h : completeBit t = completeBit u) : t = u := by
  revert h
  cases t <;> cases u <;> decide

/-- `TASKS_COMPLETED` is the three COMPLETE bits. -/
theorem tasksCompleted_iff {v : BitVec 16} :
    tasksCompleted v = true ↔ ∀ t, v.getLsbD (completeBit t) = true := by
  rw [tasksCompleted, covers_iff]
  constructor
  · intro h t
    exact h _ (by cases t <;> decide)
  · intro h i hi
    have hlt : i < 16 := BitVec.lt_of_getLsbD hi
    have hbit : i = 1 ∨ i = 3 ∨ i = 5 := by
      revert hi
      interval_cases i <;> decide
    rcases hbit with rfl | rfl | rfl
    · exact h .rfc
    · exact h .logupload
    · exact h .swupdate

theorem tasksCompleted_zero : tasksCompleted 0 = false := by decide

/-- `ALL_TASKS_SUCCESS` is the three SUCCESS and the three COMPLETE bits. -/
theorem allTasksSuccess_iff {v : BitVec 16} : allTasksSuccess v = true ↔
    tasksCompleted v = true ∧ ∀ t, v.getLsbD (successBit t) = true := by
  rw [allTasksSuccess, covers_iff, tasksCompleted_iff]
  constructor
  · intro h
    exact ⟨fun t => h _ (by cases t <;> decide), fun t => h _ (by cases t <;> decide)⟩
  · rintro ⟨hc, hs⟩ i hi
    have hlt : i < 16 := BitVec.lt_of_getLsbD hi
    have hbit : i < 6 := by
      revert hi
      interval_cases i <;> decide
    interval_cases i
    · exact hs .rfc
    · exact hc .rfc
    · exact hs .logupload
    · exact hc .logupload
    · exact hs .swupdate
    · exact hc .swupdate

/-- The mask tested for a skipped task is bit 9, while `TASK_SKIPPED` raises bit 7. -/
theorem maintenanceTaskSkipped_iff {v : BitVec 16} :
    maintenanceTaskSkipped v = true ↔ v.getLsbD 9 = true := by
  rw [maintenanceTaskSkipped, covers_iff]
  constructor
  · intro h
    exact h 9 (by decide)
  · intro h i hi
    have hlt : i < 16 := BitVec.lt_of_getLsbD hi
    have hbit : i = 9 := by
      revert hi
      interval_cases i <;> decide
    rw [hbit]
    exact h

end SoftwareUpdate.MaintenanceManager
