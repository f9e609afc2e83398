import Mathlib.Data.List.Induction
import SoftwareUpdate.MaintenanceManager.Mode

/-!
# The stored background flag

The stored flag is to be `true` exactly when the mode in force is BACKGROUND. Every mode change
stores the flag with the mode, but boot-up sets the mode to FOREGROUND and leaves the flag as
it is, so the flag agrees as long as no boot-up finds it `true`.
-/

namespace SoftwareUpdate.MaintenanceManager

open Misc Helpers

/-- A boot-up, which loads the record file again when the process has been restarted, or a
call of `setMaintenanceMode`. -/
inductive ModeOp where
  | bootup (restarted : Bool)
  | setMaintenanceMode (status : NotifyStatus) (broadcast : Bool) (parameters : JsonObject)

namespace ModeState

variable {st : ModeState} {setting : CSettings} {ops : List ModeOp}

/-- `m_setting` when the plugin boots again. -/
def settingAtBoot (st : ModeState) (restarted : Bool) : CSettings :=
  if restarted then CSettings.create st.setting.file false else st.setting

def apply (st : ModeState) : ModeOp → ModeState
  | .bootup restarted => maintenanceManagerOnBootup (st.settingAtBoot restarted)
  | .setMaintenanceMode status broadcast parameters =>
      (MaintenanceManager.setMaintenanceMode st status broadcast parameters).1

def applyAll (st : ModeState) (ops : List ModeOp) : ModeState := ops.foldl apply st

/-- The stored flag is `true` exactly when the mode is BACKGROUND. -/
def FlagAgrees (st : ModeState) : Prop :=
  st.setting.getValue backgroundFlag = "true".toList ↔ st.currentMode = backgroundMode

theorem applyAll_concat {op : ModeOp} :
    st.applyAll (ops ++ [op]) = (st.applyAll ops).apply op := List.foldl_concat ..

/-- Boot-up leaves the flag alone. -/
theorem onBootup_backgroundFlag : (maintenanceManagerOnBootup setting).setting.getValue
    backgroundFlag = setting.getValue backgroundFlag := by
  have hne : cStr backgroundFlag ≠ cStr softwareOptOut := by
    simpa using backgroundFlag_ne_softwareOptOut
  unfold maintenanceManagerOnBootup
  split
  · rfl
  · rw [getValue_setValue_of_ne hne, getValue_remove_of_ne hne]

theorem flagAgrees_onBootup_iff : (maintenanceManagerOnBootup setting).FlagAgrees ↔
    setting.getValue backgroundFlag ≠ "true".toList := by
  have hmode : (maintenanceManagerOnBootup setting).currentMode ≠ backgroundMode :=
    backgroundMode_ne_foregroundMode.symm
  unfold FlagAgrees
  rw [onBootup_backgroundFlag]
  simp [hmode]

/-- A mode change stores the flag with the mode. -/
theorem FlagAgrees.setMaintenanceMode {status : NotifyStatus} {broadcast : Bool}
    {parameters : JsonObject} (h : st.FlagAgrees) :
    (MaintenanceManager.setMaintenanceMode st status broadcast parameters).1.FlagAgrees := by
  refine setMaintenanceMode_invariant (fun _ _ h => h) ?_ ?_ h
  · intro st mode _ _
    unfold FlagAgrees
    rw [changeMode_backgroundFlag]
    exact flagFor_eq_true_iff
  · intro st value _ h
    unfold FlagAgrees
    rw [storeOptOut_backgroundFlag]
    exact h

/-- In a run after the first boot-up the flag agrees throughout exactly when no boot-up finds
it `true`. -/
theorem flagAgrees_iff (setting : CSettings) (ops : List ModeOp) :
    (∀ done, done <+: ops → ((maintenanceManagerOnBootup setting).applyAll done).FlagAgrees) ↔
      setting.getValue backgroundFlag ≠ "true".toList ∧
      ∀ done restarted, done ++ [.bootup restarted] <+: ops →
        (((maintenanceManagerOnBootup setting).applyAll done).settingAtBoot restarted).getValue
          backgroundFlag ≠ "true".toList := by
  constructor
  · intro h
    refine ⟨flagAgrees_onBootup_iff.mp (h [] List.nil_prefix), fun done restarted hdone => ?_⟩
    have hboot := h _ hdone
    rw [applyAll_concat] at hboot
    exact flagAgrees_onBootup_iff.mp hboot
  · rintro ⟨hfirst, hboots⟩ done hdone
    induction done using List.reverseRecOn with
    | nil => exact flagAgrees_onBootup_iff.mpr hfirst
    | append_singleton done op ih =>
      rw [applyAll_concat]
      cases op with
      | bootup restarted => exact flagAgrees_onBootup_iff.mpr (hboots done restarted hdone)
      | setMaintenanceMode status broadcast parameters =>
        have hbefore : done <+: ops := (List.prefix_append done _).trans hdone
        exact (ih hbefore).setMaintenanceMode

/-- Background mode is requested, and the device restarts. -/
theorem not_flagAgrees_restart : ∃ ops : List ModeOp, ¬ ((maintenanceManagerOnBootup
    (CSettings.create (some ⟨[], true, true⟩) false)).applyAll ops).FlagAgrees := by
  refine ⟨[.setMaintenanceMode .idle true (OrderedMap.empty.setAll
    [("maintenanceMode".toList, backgroundMode), ("optOut".toList, "NONE".toList)]),
    .bootup true], ?_⟩
  unfold FlagAgrees
  decide +kernel

end ModeState

end SoftwareUpdate.MaintenanceManager
