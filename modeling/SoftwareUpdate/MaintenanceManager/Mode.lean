import SoftwareUpdate.Helpers.RoundTrip
import SoftwareUpdate.MaintenanceManager.Status

/-!
# The maintenance mode and its settings

`setMaintenanceMode`, `getMaintenanceMode` and what `maintenanceManagerOnBootup` does to the
settings. The plugin is built with IARM, so that a mode change during a cycle is broadcast.
-/

namespace SoftwareUpdate.MaintenanceManager

open Misc Helpers

/-- `g_currentMode`, `g_triggerMode` and `m_setting`. -/
structure ModeState where
  currentMode : Text
  triggerMode : Text
  setting : CSettings

def foregroundMode : Text := "FOREGROUND".toList

def backgroundMode : Text := "BACKGROUND".toList

/-- The keys of `m_setting`. -/
def softwareOptOut : Text := "softwareoptout".toList

def backgroundFlag : Text := "background_flag".toList

def checkValidOptOutModes (mode : Text) : Bool :=
  ["ENFORCE_OPTOUT".toList, "BYPASS_OPTOUT".toList, "IGNORE_UPDATE".toList,
    "NONE".toList].contains mode

/-! ## `maintenanceManagerOnBootup` -/

def ModeState.maintenanceManagerOnBootup (setting : CSettings) : ModeState where
  currentMode := foregroundMode
  triggerMode := []
  setting :=
    if checkValidOptOutModes (setting.getValue softwareOptOut) then
      setting
    else
      ((setting.remove softwareOptOut).1.setValue softwareOptOut "NONE".toList).1

/-! ## `setMaintenanceMode` -/

/-- `bg_flag`. -/
def flagFor (mode : Text) : Text :=
  if mode = backgroundMode then "true".toList else "false".toList

/-- The statements that change the mode: the old flag is removed and the new one stored. -/
def ModeState.changeMode (st : ModeState) (newMode : Text) : ModeState where
  currentMode := newMode
  triggerMode := st.triggerMode
  setting := ((st.setting.remove backgroundFlag).1.setValue backgroundFlag (flagFor newMode)).1

/-- While a cycle is running, the mode changes only when the broadcast succeeds. -/
def ModeState.updateMode (st : ModeState) (notifyStatus : NotifyStatus) (broadcast : Bool)
    (newMode : Text) : ModeState :=
  if notifyStatus ≠ .started then
    st.changeMode newMode
  else if broadcast then
    st.changeMode newMode
  else
    st

def ModeState.storeOptOut (st : ModeState) (newOptOut : Text) : ModeState :=
  { st with setting := (st.setting.setValue softwareOptOut newOptOut).1 }

/-- `setMaintenanceMode` and its `success`. The status is `m_notify_status` and `broadcast` tells
whether `IARM_Bus_BroadcastEvent` succeeds; `rdkvfwrfc` is always true. -/
def setMaintenanceMode (st : ModeState) (notifyStatus : NotifyStatus) (broadcast : Bool)
    (parameters : JsonObject) : ModeState × Bool :=
  match parameters.get? "maintenanceMode".toList, parameters.get? "optOut".toList with
  | some newMode, some newOptOut =>
      if newMode ≠ backgroundMode ∧ newMode ≠ foregroundMode then
        (st, false)
      else
        let st₁ := { st with triggerMode := (parameters.get? "triggerMode".toList).getD [] }
        let st₂ := st₁.updateMode notifyStatus broadcast newMode
        -- the opt-out mode is checked when the mode has been changed
        if checkValidOptOutModes newOptOut then (st₂.storeOptOut newOptOut, true) else (st₂, false)
  | _, _ => (st, false)

/-! ## `getMaintenanceMode` -/

/-- `getFileContent`: the lines that are not empty. -/
def getFileContent (content : Text) : List Text := (content.splitOn '\n').filter (· ≠ [])

/-- `parseConfigFile`: the value of the first line with the key, split at its first `=`. -/
def parseConfigFile (content findkey : Text) : Option Text :=
  (getFileContent content).findSome? fun line =>
    match splitAtFirst '=' line with
    | some (key, value) => if key = findkey then some value else none
    | none => none

/-- The response of `getMaintenanceMode`. -/
structure ModeResponse where
  maintenanceMode : Option Text
  triggerMode : Option Text
  optOut : Option Text
  success : Bool
  deriving DecidableEq, Repr

/-- The opt-out mode in the record file: none when there is no file, when the file has no value,
or when the value is not valid. A file that cannot be opened has no lines. -/
def readOptOut (file : Option File) : Option Text :=
  match file with
  | some f =>
      (parseConfigFile (if f.readable then f.content else []) softwareOptOut).filter
        checkValidOptOutModes
  | none => none

def getMaintenanceMode (st : ModeState) : ModeResponse :=
  if st.currentMode ≠ backgroundMode ∧ st.currentMode ≠ foregroundMode then
    ⟨none, none, none, false⟩
  else
    match readOptOut st.setting.file with
    | some value => ⟨some st.currentMode, some st.triggerMode, some (cStr value), true⟩
    | none => ⟨some st.currentMode, some st.triggerMode, none, false⟩

/-! ## What the functions leave of the settings -/

variable {st : ModeState} {setting : CSettings} {mode value key : Text} {status : NotifyStatus}
  {broadcast : Bool} {parameters : JsonObject}

@[simp] theorem cStr_softwareOptOut : cStr softwareOptOut = softwareOptOut := by decide

@[simp] theorem cStr_backgroundFlag : cStr backgroundFlag = backgroundFlag := by decide

theorem backgroundFlag_ne_softwareOptOut : backgroundFlag ≠ softwareOptOut := by decide

theorem backgroundMode_ne_foregroundMode : backgroundMode ≠ foregroundMode := by decide

theorem flagFor_eq_true_iff : flagFor mode = "true".toList ↔ mode = backgroundMode := by
  unfold flagFor
  split
  · next h => simp [h]
  · next h =>
    constructor
    · intro hflag
      exact absurd hflag (by decide)
    · intro hmode
      exact absurd hmode h

/-- The data after a setting has been removed and stored again. -/
theorem replace_data {setting : CSettings} (hkey : cStr key = key) :
    ((setting.remove key).1.setValue key value).1.data = (setting.data.erase key).set key value := by
  rw [CSettings.setValue_data, CSettings.remove_data, hkey]

theorem getValue_setValue_self : (setting.setValue key value).1.getValue key = value := by
  unfold CSettings.getValue
  rw [CSettings.setValue_data, OrderedMap.get?_set_self]
  rfl

theorem getValue_setValue_of_ne {key' : Text} (h : cStr key' ≠ cStr key) :
    (setting.setValue key value).1.getValue key' = setting.getValue key' := by
  unfold CSettings.getValue
  rw [CSettings.setValue_data, OrderedMap.get?_set_of_ne h]

theorem getValue_remove_of_ne {key' : Text} (h : cStr key' ≠ cStr key) :
    (setting.remove key).1.getValue key' = setting.getValue key' := by
  unfold CSettings.getValue
  rw [CSettings.remove_data, OrderedMap.get?_erase_of_ne h]

@[simp] theorem changeMode_backgroundFlag :
    (st.changeMode mode).setting.getValue backgroundFlag = flagFor mode := getValue_setValue_self

@[simp] theorem changeMode_softwareOptOut :
    (st.changeMode mode).setting.getValue softwareOptOut = st.setting.getValue softwareOptOut := by
  have hne : cStr softwareOptOut ≠ cStr backgroundFlag := by
    simpa using backgroundFlag_ne_softwareOptOut.symm
  unfold ModeState.changeMode
  rw [getValue_setValue_of_ne hne, getValue_remove_of_ne hne]

@[simp] theorem storeOptOut_softwareOptOut :
    (st.storeOptOut value).setting.getValue softwareOptOut = value := getValue_setValue_self

@[simp] theorem storeOptOut_backgroundFlag :
    (st.storeOptOut value).setting.getValue backgroundFlag = st.setting.getValue backgroundFlag :=
  getValue_setValue_of_ne (by simpa using backgroundFlag_ne_softwareOptOut)

/-- What the statements of `setMaintenanceMode` keep, a call keeps. -/
theorem setMaintenanceMode_invariant {I : ModeState → Prop}
    (trigger : ∀ st triggerMode, I st → I { st with triggerMode := triggerMode })
    (change : ∀ st mode, mode = backgroundMode ∨ mode = foregroundMode → I st →
      I (st.changeMode mode))
    (optOut : ∀ st value, checkValidOptOutModes value = true → I st → I (st.storeOptOut value))
    (h : I st) : I (setMaintenanceMode st status broadcast parameters).1 := by
  unfold setMaintenanceMode
  split
  · next newMode newOptOut _ _ =>
    split
    · exact h
    · next hinvalid =>
      have hmode : newMode = backgroundMode ∨ newMode = foregroundMode := by
        by_contra hno
        exact hinvalid (not_or.mp hno)
      have hupdate {st₁ : ModeState} (h₁ : I st₁) : I (st₁.updateMode status broadcast newMode) := by
        unfold ModeState.updateMode
        split
        · exact change _ _ hmode h₁
        · split
          · exact change _ _ hmode h₁
          · exact h₁
      have hst₁ := trigger st ((parameters.get? "triggerMode".toList).getD []) h
      simp only
      split
      · next hvalid => exact optOut _ _ hvalid (hupdate hst₁)
      · exact hupdate hst₁
  · exact h

end SoftwareUpdate.MaintenanceManager
