import SoftwareUpdate.MaintenanceManager.Mode

/-!
# `setMaintenanceMode` is all or nothing

A call that fails is to leave the mode, the trigger mode and the two stored settings as they
are, and a call that succeeds is to set all of them. The opt-out mode is checked after the
other updates, and a broadcast that fails is no failure of the call, so both depend on what
the request asks for and on what was in force before.
-/

namespace SoftwareUpdate.MaintenanceManager

open Misc Helpers

variable {st st' : ModeState} {status : NotifyStatus} {broadcast : Bool} {parameters : JsonObject}
  {newMode newOptOut : Text}

/-- Mode, trigger mode and the stored settings are those of `st`. -/
structure Unchanged (st st' : ModeState) : Prop where
  mode : st'.currentMode = st.currentMode
  trigger : st'.triggerMode = st.triggerMode
  flag : st'.setting.getValue backgroundFlag = st.setting.getValue backgroundFlag
  optOut : st'.setting.getValue softwareOptOut = st.setting.getValue softwareOptOut

/-- Mode, trigger mode and the stored settings are those of the request. -/
structure AsRequested (parameters : JsonObject) (st' : ModeState) : Prop where
  mode : parameters.get? "maintenanceMode".toList = some st'.currentMode
  trigger : st'.triggerMode = (parameters.get? "triggerMode".toList).getD []
  flag : st'.setting.getValue backgroundFlag = "true".toList ↔
    parameters.get? "maintenanceMode".toList = some backgroundMode
  optOut : parameters.get? "optOut".toList = some (st'.setting.getValue softwareOptOut)

structure AllOrNothing (st : ModeState) (status : NotifyStatus) (broadcast : Bool)
    (parameters : JsonObject) : Prop where
  failed : (setMaintenanceMode st status broadcast parameters).2 = false →
    Unchanged st (setMaintenanceMode st status broadcast parameters).1
  succeeded : (setMaintenanceMode st status broadcast parameters).2 = true →
    AsRequested parameters (setMaintenanceMode st status broadcast parameters).1

/-- The plugin accepts a mode change: no cycle is running, or the broadcast succeeds. -/
def acceptsMode (status : NotifyStatus) (broadcast : Bool) : Prop :=
  status ≠ .started ∨ broadcast = true

/-- With a valid opt-out mode the mode change is accepted or asks for the mode in force; with an
invalid one the trigger mode is the one in force, and the mode change is not accepted or asks
for the mode that is in force and stored. -/
def RequestFits (st : ModeState) (status : NotifyStatus) (broadcast : Bool)
    (parameters : JsonObject) : Prop :=
  ∀ newMode newOptOut, parameters.get? "maintenanceMode".toList = some newMode →
    parameters.get? "optOut".toList = some newOptOut →
    newMode = backgroundMode ∨ newMode = foregroundMode →
      (checkValidOptOutModes newOptOut = true → acceptsMode status broadcast ∨
        st.currentMode = newMode ∧
          (st.setting.getValue backgroundFlag = "true".toList ↔ newMode = backgroundMode)) ∧
      (checkValidOptOutModes newOptOut = false →
        st.triggerMode = (parameters.get? "triggerMode".toList).getD [] ∧
          (acceptsMode status broadcast → st.currentMode = newMode ∧
            st.setting.getValue backgroundFlag = flagFor newMode))

theorem updateMode_of_accepts (h : acceptsMode status broadcast) :
    st.updateMode status broadcast newMode = st.changeMode newMode := by
  unfold ModeState.updateMode
  rcases h with hstatus | hbroadcast
  · simp [hstatus]
  · simp [hbroadcast]

theorem updateMode_of_not_accepts (h : ¬ acceptsMode status broadcast) :
    st.updateMode status broadcast newMode = st := by
  unfold ModeState.updateMode
  simp only [acceptsMode, not_or] at h
  simp [h.1, h.2]

/-- A request without the labels or with an invalid mode does nothing. -/
theorem setMaintenanceMode_of_refused (h : ∀ newMode newOptOut,
    parameters.get? "maintenanceMode".toList = some newMode →
    parameters.get? "optOut".toList = some newOptOut →
    ¬ (newMode = backgroundMode ∨ newMode = foregroundMode)) :
    setMaintenanceMode st status broadcast parameters = (st, false) := by
  unfold setMaintenanceMode
  split
  · next newMode newOptOut hmode hopt => exact if_pos (not_or.mp (h _ _ hmode hopt))
  · rfl

/-- A request with the labels and a valid mode. -/
theorem setMaintenanceMode_of_labels (hmode : parameters.get? "maintenanceMode".toList = some newMode)
    (hopt : parameters.get? "optOut".toList = some newOptOut)
    (hvalid : newMode = backgroundMode ∨ newMode = foregroundMode) :
    setMaintenanceMode st status broadcast parameters =
      let st₂ := ModeState.updateMode
        { st with triggerMode := (parameters.get? "triggerMode".toList).getD [] } status broadcast
        newMode
      if checkValidOptOutModes newOptOut then (st₂.storeOptOut newOptOut, true)
      else (st₂, false) := by
  unfold setMaintenanceMode
  rw [hmode, hopt]
  exact if_neg (not_and_or.mpr (hvalid.imp not_not.mpr not_not.mpr))

/-- A call with a valid opt-out mode does what was requested when the mode is changed or was the
requested one. -/
theorem asRequested_iff (hmode : parameters.get? "maintenanceMode".toList = some newMode)
    (hopt : parameters.get? "optOut".toList = some newOptOut) :
    AsRequested parameters ((ModeState.updateMode
      { st with triggerMode := (parameters.get? "triggerMode".toList).getD [] } status broadcast
      newMode).storeOptOut newOptOut) ↔
    acceptsMode status broadcast ∨ st.currentMode = newMode ∧
      (st.setting.getValue backgroundFlag = "true".toList ↔ newMode = backgroundMode) := by
  by_cases haccept : acceptsMode status broadcast
  · rw [updateMode_of_accepts haccept]
    simp only [haccept, true_or, iff_true]
    constructor
    · exact hmode
    · rfl
    · rw [storeOptOut_backgroundFlag, changeMode_backgroundFlag, flagFor_eq_true_iff, hmode]
      exact Option.some_inj.symm
    · rw [storeOptOut_softwareOptOut]
      exact hopt
  · rw [updateMode_of_not_accepts haccept]
    simp only [haccept, false_or]
    constructor
    · intro h
      have hm : newMode = st.currentMode := Option.some.inj (hmode.symm.trans h.mode)
      have hflag := h.flag
      rw [storeOptOut_backgroundFlag, hmode, Option.some_inj] at hflag
      exact ⟨hm.symm, hflag⟩
    · rintro ⟨hm, hflag⟩
      constructor
      · rw [hmode, ← hm]
        rfl
      · rfl
      · rw [storeOptOut_backgroundFlag, hmode, Option.some_inj]
        exact hflag
      · rw [storeOptOut_softwareOptOut]
        exact hopt

/-- A call with an invalid opt-out mode changes nothing when it finds the trigger mode, and the
mode if it changes that, as requested. -/
theorem unchanged_iff : Unchanged st (ModeState.updateMode
      { st with triggerMode := (parameters.get? "triggerMode".toList).getD [] } status broadcast
      newMode) ↔
    st.triggerMode = (parameters.get? "triggerMode".toList).getD [] ∧
      (acceptsMode status broadcast → st.currentMode = newMode ∧
        st.setting.getValue backgroundFlag = flagFor newMode) := by
  by_cases haccept : acceptsMode status broadcast
  · rw [updateMode_of_accepts haccept]
    constructor
    · intro h
      have hflag := h.flag
      rw [changeMode_backgroundFlag] at hflag
      exact ⟨h.trigger.symm, fun _ => ⟨h.mode.symm, hflag.symm⟩⟩
    · rintro ⟨htrigger, h⟩
      obtain ⟨hmode, hflag⟩ := h haccept
      constructor
      · exact hmode.symm
      · exact htrigger.symm
      · rw [changeMode_backgroundFlag, hflag]
      · rw [changeMode_softwareOptOut]
  · rw [updateMode_of_not_accepts haccept]
    constructor
    · intro h
      exact ⟨h.trigger.symm, fun ha => absurd ha haccept⟩
    · rintro ⟨htrigger, -⟩
      exact ⟨rfl, htrigger.symm, rfl, rfl⟩

theorem allOrNothing_of_eq {ok : Bool}
    (h : setMaintenanceMode st status broadcast parameters = (st', ok)) :
    AllOrNothing st status broadcast parameters ↔
      (ok = false → Unchanged st st') ∧ (ok = true → AsRequested parameters st') := by
  constructor
  · rintro ⟨hfailed, hsucceeded⟩
    rw [h] at hfailed hsucceeded
    exact ⟨hfailed, hsucceeded⟩
  · rintro ⟨hfailed, hsucceeded⟩
    constructor
    · rw [h]
      exact hfailed
    · rw [h]
      exact hsucceeded

theorem requestFits_of_labels (hmode : parameters.get? "maintenanceMode".toList = some newMode)
    (hopt : parameters.get? "optOut".toList = some newOptOut)
    (hvalid : newMode = backgroundMode ∨ newMode = foregroundMode) :
    RequestFits st status broadcast parameters ↔
      (checkValidOptOutModes newOptOut = true → acceptsMode status broadcast ∨
        st.currentMode = newMode ∧
          (st.setting.getValue backgroundFlag = "true".toList ↔ newMode = backgroundMode)) ∧
      (checkValidOptOutModes newOptOut = false →
        st.triggerMode = (parameters.get? "triggerMode".toList).getD [] ∧
          (acceptsMode status broadcast → st.currentMode = newMode ∧
            st.setting.getValue backgroundFlag = flagFor newMode)) := by
  constructor
  · intro h
    exact h newMode newOptOut hmode hopt hvalid
  · intro h m o hm ho _
    obtain rfl : newMode = m := Option.some.inj (hmode.symm.trans hm)
    obtain rfl : newOptOut = o := Option.some.inj (hopt.symm.trans ho)
    exact h

/-- A call is all or nothing exactly when its request fits the plugin's state. -/
theorem allOrNothing_iff (st : ModeState) (status : NotifyStatus) (broadcast : Bool)
    (parameters : JsonObject) :
    AllOrNothing st status broadcast parameters ↔ RequestFits st status broadcast parameters := by
  by_cases hrequest : ∃ newMode newOptOut,
      parameters.get? "maintenanceMode".toList = some newMode ∧
      parameters.get? "optOut".toList = some newOptOut ∧
      (newMode = backgroundMode ∨ newMode = foregroundMode)
  · obtain ⟨newMode, newOptOut, hmode, hopt, hvalid⟩ := hrequest
    have hcall : setMaintenanceMode st status broadcast parameters = _ :=
      setMaintenanceMode_of_labels hmode hopt hvalid
    rw [requestFits_of_labels hmode hopt hvalid, ← asRequested_iff hmode hopt, ← unchanged_iff]
    cases hcheck : checkValidOptOutModes newOptOut with
    | true =>
      simp only [hcheck, if_true] at hcall
      rw [allOrNothing_of_eq hcall]
      simp
    | false =>
      simp only [hcheck, Bool.false_eq_true, if_false] at hcall
      rw [allOrNothing_of_eq hcall]
      simp
  · have hno (m o : Text) (hm : parameters.get? "maintenanceMode".toList = some m)
        (ho : parameters.get? "optOut".toList = some o) :
        ¬ (m = backgroundMode ∨ m = foregroundMode) :=
      fun hvalid => hrequest ⟨m, o, hm, ho, hvalid⟩
    rw [allOrNothing_of_eq (setMaintenanceMode_of_refused hno)]
    constructor
    · intro _ m o hm ho hvalid
      exact absurd hvalid (hno m o hm ho)
    · intro _
      exact ⟨fun _ => ⟨rfl, rfl, rfl, rfl⟩, fun h => absurd h Bool.false_ne_true⟩

/-- A plugin that has booted on an empty record file. -/
def freshMode : ModeState :=
  .maintenanceManagerOnBootup (CSettings.create (some ⟨[], true, true⟩) false)

/-- The parameters of a request for background mode. -/
def backgroundRequest (optOut : Text) : JsonObject :=
  OrderedMap.empty.setAll
    [("maintenanceMode".toList, backgroundMode), ("optOut".toList, optOut)]

/-- A call that fails for its opt-out mode has changed the mode, and a call that succeeds
although the broadcast failed has not. -/
theorem not_allOrNothing :
    ¬ AllOrNothing freshMode .idle true (backgroundRequest "ALWAYS".toList) ∧
      ¬ AllOrNothing freshMode .started false (backgroundRequest "NONE".toList) := by
  constructor
  · intro h
    have hmode := (h.failed (by decide)).mode
    revert hmode
    decide
  · intro h
    have hmode := (h.succeeded (by decide)).mode
    revert hmode
    decide

end SoftwareUpdate.MaintenanceManager
