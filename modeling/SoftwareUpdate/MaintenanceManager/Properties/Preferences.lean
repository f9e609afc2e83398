import SoftwareUpdate.Misc.Refinement
import SoftwareUpdate.MaintenanceManager.Properties.CompletionTime
import SoftwareUpdate.MaintenanceManager.Properties.Readers

/-!
# The mode and the opt-out mode over restarts

What `setMaintenanceMode` is for: two preferences, of which the maintenance mode is in force until
the next restart and the opt-out mode until it is changed. The plugin keeps the first one in memory
and the second one in the record file, where it shares the lines with the background flag and the
time of the last successful cycle. All that is done to the file makes no difference to what
`getMaintenanceMode` reports.
-/

namespace SoftwareUpdate.MaintenanceManager

open Misc Misc.OrderedMap Helpers Helpers.CSettings

/-! ## The preferences -/

inductive OperatingMode where
  | foreground
  | background
  deriving DecidableEq, Repr

inductive OptOut where
  | enforceOptOut
  | bypassOptOut
  | ignoreUpdate
  | none
  deriving DecidableEq, Repr

def OperatingMode.text : OperatingMode → Text
  | .foreground => foregroundMode
  | .background => backgroundMode

def OperatingMode.ofText (text : Text) : Option OperatingMode :=
  if text = foregroundMode then some .foreground
  else if text = backgroundMode then some .background
  else none

def OptOut.text : OptOut → Text
  | .enforceOptOut => "ENFORCE_OPTOUT".toList
  | .bypassOptOut => "BYPASS_OPTOUT".toList
  | .ignoreUpdate => "IGNORE_UPDATE".toList
  | .none => "NONE".toList

def OptOut.ofText (text : Text) : Option OptOut :=
  [OptOut.enforceOptOut, .bypassOptOut, .ignoreUpdate, .none].find? fun o => o.text = text

structure Preferences where
  mode : OperatingMode
  triggerMode : Text
  optOut : OptOut
  deriving DecidableEq

inductive PreferenceEvent where
  | restart
  /-- A request, with the mode when it is to be changed and the opt-out mode when it is valid. -/
  | request (mode : Option OperatingMode) (triggerMode : Text) (optOut : Option OptOut)
  deriving DecidableEq

def Preferences.apply (p : Preferences) : PreferenceEvent → Preferences
  | .restart => ⟨.foreground, [], p.optOut⟩
  | .request mode triggerMode optOut =>
      ⟨mode.getD p.mode, triggerMode, optOut.getD p.optOut⟩

def Preferences.applyAll (p : Preferences) (events : List PreferenceEvent) : Preferences :=
  events.foldl apply p

def Preferences.response (p : Preferences) : ModeResponse :=
  ⟨some p.mode.text, some p.triggerMode, some p.optOut.text, true⟩

def PreferenceEvent.optOut : PreferenceEvent → Option OptOut
  | .restart => none
  | .request _ _ optOut => optOut

/-- The opt-out mode is the last one that was requested. -/
theorem Preferences.applyAll_optOut (p : Preferences) (events : List PreferenceEvent) :
    (p.applyAll events).optOut =
      ((events.filterMap PreferenceEvent.optOut).getLast?).getD p.optOut := by
  induction events generalizing p with
  | nil => rfl
  | cons ev events ih =>
    have hfold : p.applyAll (ev :: events) = (p.apply ev).applyAll events := rfl
    rw [hfold, ih]
    cases ev with
    | restart => rfl
    | request mode triggerMode optOut =>
      cases optOut with
      | none => rfl
      | some o =>
        rw [List.filterMap_cons_some (by rfl), List.getLast?_cons]
        rfl

/-! ## The preferences of the plugin -/

variable {Tm : Type} {lt : LocalTime Tm} {st : ModeState} {setting : CSettings} {f : File}
  {content text value : Text} {mode : OperatingMode} {optOut : OptOut} {p : Preferences}
  {status : NotifyStatus} {broadcast : Bool} {parameters : JsonObject}

theorem OperatingMode.ofText_text (mode : OperatingMode) : ofText mode.text = some mode := by
  cases mode <;> decide

theorem OperatingMode.ofText_eq_some_iff : ofText text = some mode ↔ text = mode.text := by
  constructor
  · unfold ofText
    split
    · rintro ⟨⟩
      assumption
    · split
      · rintro ⟨⟩
        assumption
      · nofun
  · rintro rfl
    exact mode.ofText_text

theorem OptOut.ofText_text (optOut : OptOut) : ofText optOut.text = some optOut := by
  cases optOut <;> decide

theorem OptOut.ofText_eq_some_iff : ofText text = some optOut ↔ text = optOut.text := by
  constructor
  · intro h
    have htext : optOut.text = text := by simpa using List.find?_some h
    exact htext.symm
  · rintro rfl
    exact optOut.ofText_text

theorem OptOut.checkValidOptOutModes_iff :
    checkValidOptOutModes text = true ↔ ∃ optOut, ofText text = some optOut := by
  constructor
  · intro h
    rcases checkValidOptOutModes_cases h with rfl | rfl | rfl | rfl
    · exact ⟨.enforceOptOut, OptOut.ofText_text .enforceOptOut⟩
    · exact ⟨.bypassOptOut, OptOut.ofText_text .bypassOptOut⟩
    · exact ⟨.ignoreUpdate, OptOut.ofText_text .ignoreUpdate⟩
    · exact ⟨.none, OptOut.ofText_text .none⟩
  · rintro ⟨optOut, h⟩
    rw [ofText_eq_some_iff.mp h]
    cases optOut <;> decide

/-- What a call of `setMaintenanceMode` requests; the mode cannot be changed when a cycle is running
and the broadcast fails. -/
def requestEvent (status : NotifyStatus) (broadcast : Bool) (parameters : JsonObject) :
    Option PreferenceEvent :=
  match parameters.get? "maintenanceMode".toList, parameters.get? "optOut".toList with
  | some newMode, some newOptOut =>
      (OperatingMode.ofText newMode).map fun mode =>
        .request (if status ≠ .started ∨ broadcast then some mode else none)
          ((parameters.get? "triggerMode".toList).getD []) (OptOut.ofText newOptOut)
  | _, _ => none

/-- What a change of the settings is for the preferences. -/
def RecordOp.event : RecordOp → Option PreferenceEvent
  | .mode (.bootup _) => some .restart
  | .mode (.setMaintenanceMode status broadcast parameters) =>
      requestEvent status broadcast parameters
  | .removeTime | .storeTime _ => none

/-- The preferences that the plugin holds. -/
def ModeState.preferences (st : ModeState) : Preferences where
  mode := (OperatingMode.ofText st.currentMode).getD .foreground
  triggerMode := st.triggerMode
  optOut := (OptOut.ofText (st.setting.getValue softwareOptOut)).getD .none

/-- The plugin holds these preferences, the last one also in the record file. -/
structure Holds (st : ModeState) (p : Preferences) : Prop where
  mode : st.currentMode = p.mode.text
  triggerMode : st.triggerMode = p.triggerMode
  optOut : st.setting.Stores softwareOptOut p.optOut.text
  readAlike : ReadAlike st.setting

theorem Holds.preferences (h : Holds st p) : st.preferences = p := by
  have hmode : OperatingMode.ofText st.currentMode = some p.mode :=
    OperatingMode.ofText_eq_some_iff.mpr h.mode
  have hoptOut : OptOut.ofText (st.setting.getValue softwareOptOut) = some p.optOut :=
    OptOut.ofText_eq_some_iff.mpr h.optOut.now
  rw [ModeState.preferences, hmode, hoptOut, h.triggerMode]
  rfl

/-- `getMaintenanceMode` reports the preferences. -/
theorem Holds.response (h : Holds st p) : getMaintenanceMode st = p.response := by
  have hmode : st.currentMode = backgroundMode ∨ st.currentMode = foregroundMode := by
    rw [h.mode]
    cases p.mode with
    | foreground => exact .inr rfl
    | background => exact .inl rfl
  have hagree := h.readAlike.readersAgree hmode
  have hno : ¬ (st.currentMode ≠ backgroundMode ∧ st.currentMode ≠ foregroundMode) :=
    not_and_or.mpr (hmode.imp not_not.mpr not_not.mpr)
  have hsuccess := hagree.success
  have hoptOut := hagree.optOut
  unfold getMaintenanceMode at hsuccess hoptOut ⊢
  rw [if_neg hno] at hsuccess hoptOut ⊢
  cases hread : readOptOut st.setting.file with
  | none =>
    rw [hread] at hsuccess
    cases hsuccess
  | some value =>
    rw [hread, h.optOut.now] at hoptOut
    rw [Preferences.response, ← hoptOut, ← h.mode, ← h.triggerMode]

/-! ## What the changes are for the preferences -/

theorem completionTime_key : lastSuccessfulCompletionTime ≠ [] ∧
    '=' ∉ lastSuccessfulCompletionTime ∧ '\n' ∉ lastSuccessfulCompletionTime := by
  decide

theorem cStr_completionTime : cStr lastSuccessfulCompletionTime = lastSuccessfulCompletionTime := by
  decide

theorem completionTime_ne_softwareOptOut : lastSuccessfulCompletionTime ≠ softwareOptOut := by
  decide

theorem not_misread_completionTime : ¬ Misread (lastSuccessfulCompletionTime, value) := by
  have hno : ¬ optOutPrefix <+: lastSuccessfulCompletionTime := by decide
  exact fun h => hno h.1

theorem ReadAlike.removeTime (h : ReadAlike setting) :
    ReadAlike (setting.remove lastSuccessfulCompletionTime).1 := by
  obtain ⟨f, hf, hr, hw, -⟩ := h.file
  have hne : cStr softwareOptOut ≠ cStr lastSuccessfulCompletionTime :=
    ModeState.cStr_completionTime_ne.1.symm
  have hsaved := saved_applyAll [.remove lastSuccessfulCompletionTime] hf hw (by simp)
  refine (h.toValid.applyAll (by simp) ?_ ?_ ?_).readAlike trivial hsaved
  · intro op hop
    obtain rfl := List.mem_singleton.mp hop
    exact completionTime_key
  · show Leads Misread softwareOptOut
      (setting.remove lastSuccessfulCompletionTime).1.data.entries ↔ _
    rw [remove_data, cStr_completionTime]
    exact leads_filter_ne completionTime_ne_softwareOptOut fun _ => not_misread_completionTime
  · exact (congrArg checkValidOptOutModes (getValue_remove_of_ne hne)).trans h.valid

theorem ReadAlike.storeTime (h : ReadAlike setting) (hvalue : '\n' ∉ value) :
    ReadAlike (setting.setValue lastSuccessfulCompletionTime value).1 := by
  obtain ⟨f, hf, hr, hw, -⟩ := h.file
  have hne : cStr softwareOptOut ≠ cStr lastSuccessfulCompletionTime :=
    ModeState.cStr_completionTime_ne.1.symm
  have hsaved := saved_applyAll [.setValue lastSuccessfulCompletionTime value] hf hw (by simp)
  refine (h.toValid.applyAll (by simp) ?_ ?_ ?_).readAlike trivial hsaved
  · intro op hop
    obtain rfl := List.mem_singleton.mp hop
    obtain ⟨hkey, hsep, hline⟩ := completionTime_key
    exact ⟨hkey, hsep, hline, hvalue⟩
  · show Leads Misread softwareOptOut
      (setting.setValue lastSuccessfulCompletionTime value).1.data.entries ↔ _
    rw [setValue_data, cStr_completionTime]
    exact leads_putEntry_of_ne completionTime_ne_softwareOptOut
      fun _ => not_misread_completionTime
  · exact (congrArg checkValidOptOutModes (getValue_setValue_of_ne hne)).trans h.valid

/-- Settings are read alike when they are loaded again. -/
theorem ReadAlike.reload (h : ReadAlike setting) (hstores : setting.Stores softwareOptOut value) :
    ReadAlike (CSettings.create setting.file false) := by
  obtain ⟨⟨content, _, _⟩, hf, rfl, rfl, hparse⟩ := h.file
  have hvalue : loadedOptOut content = value := by
    have hreloaded := hstores.reloaded
    rwa [hf] at hreloaded
  have hvalid : checkValidOptOutModes (loadedOptOut content) = true := by
    rw [hvalue, ← hstores.now]
    exact h.valid
  rw [hf]
  refine readAlike_loaded hvalid ?_
  rw [hvalue, ← hstores.now]
  exact hparse

theorem holds_onBootup (hstores : setting.Stores softwareOptOut p.optOut.text)
    (hread : ReadAlike setting) :
    Holds (.maintenanceManagerOnBootup setting) (p.apply .restart) := by
  have hboot : ModeState.maintenanceManagerOnBootup setting = ⟨foregroundMode, [], setting⟩ := by
    unfold ModeState.maintenanceManagerOnBootup
    rw [if_pos hread.valid]
  rw [hboot]
  exact ⟨rfl, rfl, hstores, hread⟩

theorem Holds.setTrigger (h : Holds st p) (triggerMode : Text) :
    Holds { st with triggerMode := triggerMode } { p with triggerMode := triggerMode } :=
  ⟨h.mode, rfl, h.optOut, h.readAlike⟩

theorem Holds.changeMode (h : Holds st p) (mode : OperatingMode) :
    Holds (st.changeMode mode.text) { p with mode := mode } where
  mode := rfl
  triggerMode := h.triggerMode
  optOut := h.optOut.replace_of_ne (by decide) ModeState.flagFor_onLine (by decide)
  readAlike := h.readAlike.changeMode

theorem Holds.storeOptOut (h : Holds st p) (optOut : OptOut) :
    Holds (st.storeOptOut optOut.text) { p with optOut := optOut } := by
  have hvalid : checkValidOptOutModes optOut.text = true :=
    OptOut.checkValidOptOutModes_iff.mpr ⟨optOut, optOut.ofText_text⟩
  exact ⟨h.mode, h.triggerMode, h.optOut.setValue_self (by decide)
    (ModeState.validOptOut_onLine hvalid), h.readAlike.storeOptOut hvalid⟩

/-- The mode is changed unless a cycle is running and the broadcast fails. -/
theorem Holds.updateMode (h : Holds st p) (mode : OperatingMode) :
    Holds (st.updateMode status broadcast mode.text) { p with
      mode := (if status ≠ .started ∨ broadcast then some mode else none).getD p.mode } := by
  unfold ModeState.updateMode
  by_cases hstarted : status = .started
  · cases broadcast with
    | false => simpa [hstarted] using h
    | true => simpa [hstarted] using h.changeMode mode
  · simpa [hstarted] using h.changeMode mode

theorem Holds.setMaintenanceMode (h : Holds st p) :
    Holds (setMaintenanceMode st status broadcast parameters).1
      ((requestEvent status broadcast parameters).elim p p.apply) := by
  unfold MaintenanceManager.setMaintenanceMode requestEvent
  cases parameters.get? "maintenanceMode".toList with
  | none => exact h
  | some newMode =>
    cases parameters.get? "optOut".toList with
    | none => exact h
    | some newOptOut =>
      cases hmode : OperatingMode.ofText newMode with
      | none =>
        have hinvalid : newMode ≠ backgroundMode ∧ newMode ≠ foregroundMode := by
          constructor
          · rintro rfl
            cases (OperatingMode.ofText_text .background).symm.trans hmode
          · rintro rfl
            cases (OperatingMode.ofText_text .foreground).symm.trans hmode
        simp only [if_pos hinvalid, hmode, Option.map_none, Option.elim_none]
        exact h
      | some mode =>
        obtain rfl := OperatingMode.ofText_eq_some_iff.mp hmode
        have hvalid : ¬ (mode.text ≠ backgroundMode ∧ mode.text ≠ foregroundMode) := by
          rintro ⟨hback, hfore⟩
          cases mode with
          | foreground => exact hfore rfl
          | background => exact hback rfl
        have hupdated : Holds (ModeState.updateMode { st with
            triggerMode := (parameters.get? "triggerMode".toList).getD [] }
            status broadcast mode.text) _ := (h.setTrigger _).updateMode mode
        simp only [if_neg hvalid, hmode, Option.map_some, Option.elim_some, Preferences.apply]
        cases hoptOut : OptOut.ofText newOptOut with
        | none =>
          have hno : ¬ checkValidOptOutModes newOptOut = true := by
            rw [OptOut.checkValidOptOutModes_iff, hoptOut]
            simp
          rw [if_neg hno]
          exact hupdated
        | some optOut =>
          obtain rfl := OptOut.ofText_eq_some_iff.mp hoptOut
          rw [if_pos (OptOut.checkValidOptOutModes_iff.mpr ⟨optOut, hoptOut⟩)]
          exact hupdated.storeOptOut optOut

theorem Holds.applyRecord (h : Holds st p) (op : RecordOp) :
    Holds (st.applyRecord lt op) (op.event.elim p p.apply) := by
  cases op with
  | mode op =>
    cases op with
    | setMaintenanceMode status broadcast parameters => exact h.setMaintenanceMode
    | bootup restarted =>
      show Holds (.maintenanceManagerOnBootup (st.settingAtBoot restarted)) (p.apply .restart)
      cases restarted with
      | false => exact holds_onBootup h.optOut h.readAlike
      | true => exact holds_onBootup h.optOut.reload (h.readAlike.reload h.optOut)
  | removeTime =>
    exact ⟨h.mode, h.triggerMode, h.optOut.remove_of_ne ModeState.cStr_completionTime_ne.1.symm,
      h.readAlike.removeTime⟩
  | storeTime time =>
    exact ⟨h.mode, h.triggerMode, h.optOut.setValue_of_ne completionTime_key.2.2
      ModeState.formatInt_onLine ModeState.cStr_completionTime_ne.1.symm,
      h.readAlike.storeTime ModeState.formatInt_onLine.1⟩

/-! ## Whole runs -/

/-- The plugin, as far as its settings go: it has booted with a file that has one opt-out mode. -/
def modeService (lt : LocalTime Tm) : TransitionSystem ModeState RecordOp :=
  .ofFun (fun st => ∃ content, OneOptOut content [] ∧
    st = .maintenanceManagerOnBootup (loaded content)) (ModeState.applyRecord lt)

/-- The preferences after a boot-up. -/
def preferenceStore : TransitionSystem Preferences PreferenceEvent :=
  .ofFun (fun p => ∃ optOut, p = ⟨.foreground, [], optOut⟩) Preferences.apply

/-- The opt-out mode of the file, NONE when it has no valid one. -/
def initialOptOut (content : Text) : OptOut := (OptOut.ofText (loadedOptOut content)).getD .none

theorem holds_boot (h : OneOptOut content []) : Holds
    (.maintenanceManagerOnBootup (loaded content)) ⟨.foreground, [], initialOptOut content⟩ := by
  have hread := readAlike_onBootup h
  have hstores := stores_create (f := ⟨content, true, true⟩) softwareOptOut rfl rfl
  cases hvalid : checkValidOptOutModes (loadedOptOut content) with
  | true =>
    obtain ⟨optOut, hoptOut⟩ := OptOut.checkValidOptOutModes_iff.mp hvalid
    have hinitial : initialOptOut content = optOut := by
      rw [initialOptOut, hoptOut]
      rfl
    rw [onBootup_of_valid hvalid] at hread ⊢
    refine ⟨rfl, rfl, ?_, hread⟩
    rw [hinitial, ← OptOut.ofText_eq_some_iff.mp hoptOut]
    exact hstores
  | false =>
    have hinitial : initialOptOut content = .none := by
      cases hoptOut : OptOut.ofText (loadedOptOut content) with
      | none =>
        rw [initialOptOut, hoptOut]
        rfl
      | some optOut =>
        rw [OptOut.checkValidOptOutModes_iff.mpr ⟨optOut, hoptOut⟩] at hvalid
        cases hvalid
    rw [onBootup_of_not_valid hvalid] at hread ⊢
    refine ⟨rfl, rfl, ?_, hread⟩
    rw [hinitial]
    exact hstores.remove_self.setValue_self (by decide) (by decide)

theorem exists_holds (h : (modeService lt).Reachable st) : ∃ p, Holds st p := by
  refine TransitionSystem.Reachable.invariant (I := fun st => ∃ p, Holds st p) ?_ ?_ h
  · intro st hinit
    obtain ⟨content, hone, rfl⟩ := hinit
    exact ⟨_, holds_boot hone⟩
  · intro st op st' _ hholds hstep
    obtain ⟨p, hp⟩ := hholds
    obtain rfl := Option.some.inj hstep
    exact ⟨_, hp.applyRecord op⟩

/-- The plugin is a store of the preferences, whatever else is written to the record file. -/
theorem modeService_refines (lt : LocalTime Tm) :
    (modeService lt).Refines preferenceStore ModeState.preferences fun _ => RecordOp.event where
  init := by
    intro st hinit
    obtain ⟨content, hone, rfl⟩ := hinit
    exact ⟨initialOptOut content, (holds_boot hone).preferences⟩
  step := by
    intro st op st' hst hstep
    obtain ⟨p, hp⟩ := exists_holds hst
    obtain rfl := Option.some.inj hstep
    rw [hp.preferences, (hp.applyRecord op).preferences]
    cases op.event <;> rfl

theorem holds_recordRun (lt : LocalTime Tm) (h : OneOptOut content []) (ops : List RecordOp) :
    Holds (ModeState.recordRun lt ⟨content, true, true⟩ ops)
      (Preferences.applyAll ⟨.foreground, [], initialOptOut content⟩
        (ops.filterMap RecordOp.event)) := by
  have hstart : (modeService lt).Reachable (.maintenanceManagerOnBootup (loaded content)) :=
    .init ⟨content, h, rfl⟩
  obtain ⟨p, hp⟩ := exists_holds (TransitionSystem.reachable_ofFun hstart ops)
  have hrun := (modeService_refines lt).foldl ⟨content, h, rfl⟩ ops
  rw [(holds_boot h).preferences, hp.preferences] at hrun
  rw [Preferences.applyAll, hrun]
  exact hp

theorem oneOptOut_ignoreUpdate : OneOptOut "softwareoptout=IGNORE_UPDATE\n".toList [] := by
  have hmode : HasMode ("softwareoptout=IGNORE_UPDATE\n".toList.splitOn '\n')
      "IGNORE_UPDATE".toList := hasMode_iff.mpr (by decide)
  refine .inl ⟨_, hmode, ?_⟩
  rw [List.any_nil, if_neg Bool.false_ne_true]
  decide

/-- A request to bypass the opt-out in the background. -/
def bypassRequest : JsonObject :=
  OrderedMap.empty.setAll [("maintenanceMode".toList, backgroundMode),
    ("optOut".toList, OptOut.bypassOptOut.text)]

/-- After any run `getMaintenanceMode` reports the preferences that the requests and the restarts
leave. -/
theorem getMaintenanceMode_recordRun (lt : LocalTime Tm) (h : OneOptOut content [])
    (ops : List RecordOp) : getMaintenanceMode (ModeState.recordRun lt ⟨content, true, true⟩ ops) =
      (Preferences.applyAll ⟨.foreground, [], initialOptOut content⟩
        (ops.filterMap RecordOp.event)).response :=
  (holds_recordRun lt h ops).response

/-- A cycle succeeds after the request. -/
theorem getMaintenanceMode_recordRun_background : getMaintenanceMode
    (ModeState.recordRun ModeState.utc ⟨"softwareoptout=IGNORE_UPDATE\n".toList, true, true⟩
      [.mode (.setMaintenanceMode .idle true bypassRequest), .removeTime, .storeTime 86400]) =
    ⟨some backgroundMode, some [], some OptOut.bypassOptOut.text, true⟩ :=
  (getMaintenanceMode_recordRun ModeState.utc oneOptOut_ignoreUpdate _).trans (by decide)

/-- The opt-out mode that is reported is the last valid one that was requested, however many
restarts lie in between, and the one of the file when there was no such request. -/
theorem optOut_recordRun (lt : LocalTime Tm) (h : OneOptOut content []) (ops : List RecordOp) :
    (getMaintenanceMode (ModeState.recordRun lt ⟨content, true, true⟩ ops)).optOut =
      some (((ops.filterMap fun op => op.event.bind PreferenceEvent.optOut).getLast?).getD
        (initialOptOut content)).text := by
  rw [(holds_recordRun lt h ops).response, Preferences.response, Preferences.applyAll_optOut,
    List.filterMap_filterMap]

theorem optOut_recordRun_restarted : (getMaintenanceMode
    (ModeState.recordRun ModeState.utc ⟨"softwareoptout=IGNORE_UPDATE\n".toList, true, true⟩
      [.mode (.setMaintenanceMode .started false bypassRequest), .mode (.bootup true),
        .mode (.bootup true)])).optOut = some OptOut.bypassOptOut.text :=
  (optOut_recordRun ModeState.utc oneOptOut_ignoreUpdate _).trans (by decide)

end SoftwareUpdate.MaintenanceManager
