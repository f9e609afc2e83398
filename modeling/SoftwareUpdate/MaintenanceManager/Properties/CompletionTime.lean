import SoftwareUpdate.Helpers.CLibrary
import SoftwareUpdate.Helpers.Reload
import SoftwareUpdate.MaintenanceManager.Callers
import SoftwareUpdate.MaintenanceManager.Properties.BackgroundFlag

/-!
# The stored completion time

The time of the last successful cycle is stored as a decimal number and read back by
`getMaintenanceActivityStatus`. The number is that of a 64-bit `time_t` and is read as an `int`,
with 0 for what is no `int`, so the time survives exactly up to 2³¹ - 1. The old time is removed
before the new one is stored, and in between none is found.
-/

namespace SoftwareUpdate.MaintenanceManager

open Misc Helpers

def lastSuccessfulCompletionTime : Text := "LastSuccessfulCompletionTime".toList

/-- `localtime` and `mktime` in the zone of the device: they undo each other. -/
structure LocalTime (Tm : Type) where
  localtime : ℤ → Tm
  mktime : Tm → ℤ
  mktime_localtime : ∀ time, 0 ≤ time → mktime (localtime time) = time

/-- A change of the settings: by a boot-up or a mode request, or by one of the two statements
with which `iarmEventHandler` records a successful cycle. -/
inductive RecordOp where
  | mode (op : ModeOp)
  | removeTime
  | storeTime (time : ℕ)

namespace RecordOp

/-- The time of the last successful cycle, given that before the change. -/
def success (last : Option ℕ) : RecordOp → Option ℕ
  | .mode _ | .removeTime => last
  | .storeTime time => some time

/-- The time that is in the settings. -/
def record (recorded : Option ℕ) : RecordOp → Option ℕ
  | .mode _ => recorded
  | .removeTime => none
  | .storeTime time => some time

end RecordOp

/-- The time of the last successful cycle, `last` being that of the cycles before the run. -/
def lastSuccess (last : Option ℕ) (ops : List RecordOp) : Option ℕ :=
  ops.foldl RecordOp.success last

def recorded (last : Option ℕ) (ops : List RecordOp) : Option ℕ := ops.foldl RecordOp.record last

namespace ModeState

variable {Tm : Type} {lt : LocalTime Tm} {st : ModeState} {setting : CSettings} {f : File}
  {key value old : Text} {last : Option ℕ} {ops : List RecordOp}

/-- `str_successfulTime`. -/
def successfulTime (lt : LocalTime Tm) (time : ℕ) : Text :=
  formatInt 0 (lt.mktime (lt.localtime time))

def applyRecord (lt : LocalTime Tm) (st : ModeState) : RecordOp → ModeState
  | .mode op => st.apply op
  | .removeTime => { st with setting := (st.setting.remove lastSuccessfulCompletionTime).1 }
  | .storeTime time =>
      { st with
        setting := (st.setting.setValue lastSuccessfulCompletionTime (successfulTime lt time)).1 }

/-- A run from a boot-up on, which finds the record file `f`. -/
def recordRun (lt : LocalTime Tm) (f : File) (ops : List RecordOp) : ModeState :=
  ops.foldl (applyRecord lt) (maintenanceManagerOnBootup (CSettings.create (some f) false))

/-- What `getMaintenanceActivityStatus` reports as the `LastSuccessfulCompletionTime`. -/
def completionTime (st : ModeState) : ℤ :=
  let text :=
    if st.setting.contains lastSuccessfulCompletionTime then
      st.setting.getValue lastSuccessfulCompletionTime
    else
      "NA".toList
  if cStr text = "NA".toList then 0 else (Helpers.stoi (cStr text)).getD 0

/-- The time of the last successful cycle is reported, and 0 only when there was none. -/
def Survives (st : ModeState) (last : Option ℕ) (ops : List RecordOp) : Prop :=
  (∀ time, lastSuccess last ops = some time → st.completionTime = time) ∧
    (st.completionTime = 0 → lastSuccess last ops = none)

/-! ## What the changes leave under the key -/

theorem formatInt_onLine {i : ℤ} : '\n' ∉ formatInt 0 i ∧ '=' ∉ formatInt 0 i :=
  ⟨notMem_formatInt (by decide) (by decide), notMem_formatInt (by decide) (by decide)⟩

theorem validOptOut_onLine (h : checkValidOptOutModes value = true) :
    '\n' ∉ value ∧ '=' ∉ value := by
  have hmodes : ∀ mode ∈ ["ENFORCE_OPTOUT".toList, "BYPASS_OPTOUT".toList, "IGNORE_UPDATE".toList,
      "NONE".toList], '\n' ∉ mode ∧ '=' ∉ mode := by decide
  exact hmodes value (by simpa [checkValidOptOutModes] using h)

theorem flagFor_onLine : '\n' ∉ flagFor value ∧ '=' ∉ flagFor value := by
  unfold flagFor
  split <;> decide

theorem cStr_completionTime_ne : cStr lastSuccessfulCompletionTime ≠ cStr softwareOptOut ∧
    cStr lastSuccessfulCompletionTime ≠ cStr backgroundFlag := by decide

/-- A setting that is removed and stored again leaves the completion time alone. -/
theorem stores_replace (h : setting.Stores lastSuccessfulCompletionTime old)
    (hkey : '\n' ∉ key ∧ cStr lastSuccessfulCompletionTime ≠ cStr key)
    (hvalue : '\n' ∉ value ∧ '=' ∉ value) :
    ((setting.remove key).1.setValue key value).1.Stores lastSuccessfulCompletionTime old :=
  (h.remove_of_ne hkey.2).setValue_of_ne hkey.1 hvalue hkey.2

theorem stores_onBootup (h : setting.Stores lastSuccessfulCompletionTime old) :
    (maintenanceManagerOnBootup setting).setting.Stores lastSuccessfulCompletionTime old := by
  unfold maintenanceManagerOnBootup
  split
  · exact h
  · exact stores_replace h ⟨by decide, cStr_completionTime_ne.1⟩ (by decide)

theorem stores_apply (h : st.setting.Stores lastSuccessfulCompletionTime old) (op : ModeOp) :
    (st.apply op).setting.Stores lastSuccessfulCompletionTime old := by
  cases op with
  | bootup restarted =>
    refine stores_onBootup ?_
    unfold settingAtBoot
    split
    · exact h.reload
    · exact h
  | setMaintenanceMode status broadcast parameters =>
    refine setMaintenanceMode_invariant
      (I := fun st => st.setting.Stores lastSuccessfulCompletionTime old)
      (fun _ _ h => h) (fun st mode _ h => ?_) (fun st value hvalid h => ?_) h
    · exact stores_replace h ⟨by decide, cStr_completionTime_ne.2⟩ flagFor_onLine
    · exact h.setValue_of_ne (by decide) (validOptOut_onLine hvalid)
        cStr_completionTime_ne.1

/-- The text that is in the settings, given that before the change. -/
def recordedText (lt : LocalTime Tm) (text : Text) : RecordOp → Text
  | .mode _ => text
  | .removeTime => []
  | .storeTime time => successfulTime lt time

theorem stores_applyRecord (h : st.setting.Stores lastSuccessfulCompletionTime value)
    (op : RecordOp) : (st.applyRecord lt op).setting.Stores lastSuccessfulCompletionTime
      (recordedText lt value op) := by
  cases op with
  | mode op => exact stores_apply h op
  | removeTime => exact h.remove_self
  | storeTime time => exact h.setValue_self (by decide) formatInt_onLine

/-- In a run, the settings and the record file hold the text of the last change, or that of the
file the run began with. -/
theorem stores_recordRun (lt : LocalTime Tm) (ops : List RecordOp) (hr : f.readable = true)
    (hw : f.writable = true) :
    (recordRun lt f ops).setting.Stores lastSuccessfulCompletionTime
      (ops.foldl (recordedText lt)
        ((CSettings.create (some f) false).getValue lastSuccessfulCompletionTime)) := by
  induction ops using List.reverseRecOn with
  | nil => exact stores_onBootup (CSettings.stores_create lastSuccessfulCompletionTime hr hw)
  | append_singleton ops op ih =>
    unfold recordRun
    rw [List.foldl_concat, List.foldl_concat]
    exact stores_applyRecord ih op

/-- The text that a recorded time leaves in the settings. -/
def recordText (lt : LocalTime Tm) (time : Option ℕ) : Text := time.elim [] (successfulTime lt)

/-- Once a cycle has succeeded, the text is that of the recorded time. -/
theorem recordedText_eq (hlast : ∀ time, last = some time → old = successfulTime lt time)
    {time : ℕ} (h : lastSuccess last ops = some time) :
    ops.foldl (recordedText lt) old = recordText lt (recorded last ops) := by
  induction ops using List.reverseRecOn with
  | nil =>
    obtain rfl : last = some time := h
    exact hlast time rfl
  | append_singleton ops op ih =>
    unfold lastSuccess at h
    unfold recorded
    rw [List.foldl_concat] at h
    rw [List.foldl_concat, List.foldl_concat]
    cases op with
    | mode op => exact ih h
    | removeTime => rfl
    | storeTime time => rfl

/-! ## What is reported -/

theorem contains_eq : setting.contains key = decide (setting.getValue key ≠ []) := by
  unfold CSettings.contains CSettings.getValue
  cases setting.data.get? (cStr key) with
  | none => rfl
  | some value => rfl

theorem stoi_formatInt {i : ℤ} : Helpers.stoi (formatInt 0 i) = stoi i := by
  unfold Helpers.stoi
  rw [readInt_formatInt_nil]
  rfl

theorem stoi_natCast_getD {time : ℕ} :
    (stoi (time : ℤ)).getD 0 = if time < 2 ^ 31 then (time : ℤ) else 0 := by
  unfold stoi
  by_cases htime : time < 2 ^ 31
  · have hint : -2 ^ 31 ≤ (time : ℤ) ∧ (time : ℤ) < 2 ^ 31 := by omega
    rw [if_pos hint, if_pos htime]
    rfl
  · have hint : ¬ (-2 ^ 31 ≤ (time : ℤ) ∧ (time : ℤ) < 2 ^ 31) := by omega
    rw [if_neg hint, if_neg htime]
    rfl

/-- A recorded time is reported when it is an `int`, and 0 else. -/
theorem completionTime_of_stores {time : Option ℕ}
    (h : st.setting.Stores lastSuccessfulCompletionTime (recordText lt time)) :
    st.completionTime = time.elim (0 : ℤ) fun time => if time < 2 ^ 31 then (time : ℤ) else 0 := by
  unfold completionTime
  simp only [contains_eq, h.now]
  cases time with
  | none => rfl
  | some time =>
    have htext : successfulTime lt time = formatInt 0 time := by
      unfold successfulTime
      rw [lt.mktime_localtime time (by omega)]
    have hcStr : cStr (formatInt 0 (time : ℤ)) = formatInt 0 (time : ℤ) :=
      CSettings.cStr_eq_self (notMem_formatInt (by decide) (by decide))
    have hne : formatInt 0 (time : ℤ) ≠ "NA".toList := by
      intro heq
      have hmem : 'N' ∈ formatInt 0 (time : ℤ) := heq ▸ List.mem_cons_self
      exact notMem_formatInt (by decide) (by decide) hmem
    simp only [recordText, Option.elim_some, htext, formatInt_ne_nil, ne_eq, not_false_eq_true,
      decide_true, if_true, hcStr, hne, if_false, stoi_formatInt]
    exact stoi_natCast_getD

/-- A time that is in the settings is the last one. -/
theorem recorded_eq_some {time : ℕ} (h : recorded last ops = some time) :
    lastSuccess last ops = some time := by
  induction ops using List.reverseRecOn with
  | nil => exact h
  | append_singleton ops op ih =>
    unfold recorded at h
    unfold lastSuccess
    rw [List.foldl_concat] at h ⊢
    cases op with
    | mode op => exact ih h
    | removeTime => cases h
    | storeTime time => exact h

/-- In every run, the time of the last successful cycle is reported, and 0 only without one,
exactly when that time is a positive `int` and has not been removed again. The record file may
hold the time of a cycle before the run. -/
theorem survives_iff (lt : LocalTime Tm) (f : File) (hr : f.readable = true)
    (hw : f.writable = true) (last : Option ℕ)
    (hlast : ∀ time, last = some time →
      (CSettings.create (some f) false).getValue lastSuccessfulCompletionTime =
        successfulTime lt time)
    (ops : List RecordOp) : (recordRun lt f ops).Survives last ops ↔
      ∀ time, lastSuccess last ops = some time →
        0 < time ∧ time < 2 ^ 31 ∧ recorded last ops = some time := by
  unfold Survives
  cases hsuccess : lastSuccess last ops with
  | none =>
    refine iff_of_true ⟨fun time htime => ?_, fun _ => rfl⟩ (fun time htime => ?_)
    · cases htime
    · cases htime
  | some time =>
    have hstores := stores_recordRun lt ops hr hw
    rw [recordedText_eq hlast hsuccess] at hstores
    have hreport := completionTime_of_stores hstores
    constructor
    · rintro ⟨hsame, hzero⟩ time' htime
      obtain rfl : time = time' := Option.some.inj htime
      have hcompletion := hsame time rfl
      have hpos : 0 < time := by
        by_contra hno
        have hnone := hzero (by rw [hcompletion]; omega)
        cases hnone
      rw [hreport] at hcompletion
      cases hrecorded : recorded last ops with
      | none =>
        rw [hrecorded, Option.elim_none] at hcompletion
        omega
      | some time' =>
        obtain rfl : time = time' :=
          Option.some.inj (hsuccess.symm.trans (recorded_eq_some hrecorded))
        rw [hrecorded, Option.elim_some] at hcompletion
        split at hcompletion
        · next hint => exact ⟨hpos, hint, rfl⟩
        · omega
    · intro h
      obtain ⟨hpos, hint, hrecorded⟩ := h time rfl
      rw [hreport, hrecorded, Option.elim_some, if_pos hint]
      constructor
      · intro time' htime
        rw [Option.some.inj htime]
      · intro hzero
        omega

/-- Broken-down times of a device in UTC. -/
def utc : LocalTime (Date × ℤ) where
  localtime time := (Date.ofDays (time / 86400), time % 86400)
  mktime tm := tm.1.toDays * 86400 + tm.2
  mktime_localtime time _ := by
    show (Date.ofDays (time / 86400)).toDays * 86400 + time % 86400 = time
    rw [Date.toDays_ofDays]
    omega

/-- A cycle succeeds and the device restarts: the time is still reported. -/
theorem survives_restart : (recordRun utc ⟨[], true, true⟩
    [.removeTime, .storeTime 1700000000, .mode (.bootup true)]).Survives none
      [.removeTime, .storeTime 1700000000, .mode (.bootup true)] :=
  (survives_iff utc ⟨[], true, true⟩ rfl rfl none (fun time htime => by cases htime)
    [.removeTime, .storeTime 1700000000, .mode (.bootup true)]).mpr
      (fun time htime => by
        obtain rfl : 1700000000 = time := Option.some.inj htime
        exact ⟨by omega, by omega, rfl⟩)

/-- The first second that is no `int` is reported as 0. -/
theorem not_survives_afterInt :
    ¬ (recordRun utc ⟨[], true, true⟩ [.removeTime, .storeTime (2 ^ 31)]).Survives none
      [.removeTime, .storeTime (2 ^ 31)] := by
  rintro ⟨hsame, -⟩
  have hreport := hsame (2 ^ 31) rfl
  revert hreport
  decide

end ModeState

end SoftwareUpdate.MaintenanceManager
