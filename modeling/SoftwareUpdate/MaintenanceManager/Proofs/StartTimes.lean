import SoftwareUpdate.MaintenanceManager.Properties.ZoneFiles
import SoftwareUpdate.MaintenanceManager.StartTime
import SoftwareUpdate.Misc.Periodic

/-!
# The branches of `CalculateStartTime`

A call with a valid configuration and a zone takes one of its two branches, and the branch for
UTC gives the epoch of the configured time on the current day or on the next one.
-/

namespace SoftwareUpdate.MaintenanceManager

open Misc Helpers

variable {env : StartTimeEnv} {conf : StartConfig} {rawtime epoch : ℤ}
  {zone cmd : Text} {n : ℕ}

/-- The configured time as the seconds from midnight. -/
def StartConfig.secondOfDay (conf : StartConfig) : ℤ :=
  conf.startHr.toInt * 3600 + conf.startMin.toInt * 60

/-- The configuration that the call reads. -/
def StartTimeEnv.config (env : StartTimeEnv) : Option StartConfig :=
  env.maintConf.bind readStartConfig

/-- The zone that `getTimeZone` reads from the files. -/
def StartTimeEnv.zoneRead (env : StartTimeEnv) : Option Text :=
  (getTimeZone bufferSize [] ZoneBuffers.zero env.zoneFiles).map fun b => cStr b.zoneValue

theorem StartConfig.Valid.secondOfDay_bounds (h : conf.Valid) :
    0 ≤ conf.secondOfDay ∧ conf.secondOfDay ≤ 86340 := by
  obtain ⟨hhr, hmin, -⟩ := h
  unfold StartConfig.secondOfDay
  omega

/-- Midnight is the only time in the first minute. -/
theorem StartConfig.Valid.secondOfDay_zero_or (h : conf.Valid) :
    conf.secondOfDay = 0 ∨ 60 ≤ conf.secondOfDay := by
  obtain ⟨hhr, hmin, -⟩ := h
  unfold StartConfig.secondOfDay
  omega

theorem localTimeMode_ne_utcMode : localTimeMode ≠ utcMode := by decide +kernel

theorem toLong_eq {n : ℤ} (h : -2 ^ 63 ≤ n ∧ n < 2 ^ 63) : toLong n = n :=
  Int64.toInt_ofInt_of_le h.1 h.2

theorem tooClose_iff (h : -2 ^ 63 ≤ epoch - rawtime ∧ epoch - rawtime < 2 ^ 63) :
    tooClose epoch rawtime ↔ epoch - rawtime < 10 := by
  unfold tooClose
  rw [toLong_eq h]

theorem length_formatInt_two_le {i : ℤ} (h : 0 ≤ i ∧ i ≤ 99) : (formatInt 2 i).length ≤ 3 :=
  length_formatInt_le (by omega) (by omega) (by omega)

/-! ## The branches -/

theorem zoneRead_ne_none_iff : env.zoneRead ≠ none ↔ env.zoneFiles.DeviceNameGiven := by
  unfold StartTimeEnv.zoneRead
  rw [ne_eq, Option.map_eq_none_iff]
  exact getTimeZone_ne_none_iff _ _ _

theorem length_zoneRead (h : env.zoneRead = some zone) : zone.length ≤ 49 := by
  obtain ⟨b, hb, rfl⟩ := Option.map_eq_some_iff.mp h
  obtain ⟨hzone, -, -⟩ := terminated_getTimeZone terminated_zero (by decide) hb
  have hlength := hzone.length_cStr_lt
  unfold bufferSize at hlength
  omega

theorem runStartTime_utc (hconf : env.config = some conf) (hvalid : conf.Valid)
    (hmode : conf.tzMode = utcMode) (hzone : env.zoneFiles.DeviceNameGiven) :
    runStartTime env = ⟨[], utcStartTime env.rawtime conf⟩ := by
  obtain ⟨b, hb⟩ := Option.ne_none_iff_exists'.mp
    ((getTimeZone_ne_none_iff bufferSize [] ZoneBuffers.zero).mpr hzone)
  have hlocal : conf.tzMode ≠ localTimeMode := hmode ▸ localTimeMode_ne_utcMode.symm
  unfold StartTimeEnv.config at hconf
  unfold runStartTime
  simp only [hconf, hb, if_pos hvalid, if_neg hlocal]

/-- Without a device name the call has no defined outcome in either branch. -/
theorem runStartTime_of_noDeviceName (hconf : env.config = some conf) (hvalid : conf.Valid)
    (hzone : ¬ env.zoneFiles.DeviceNameGiven) : runStartTime env = ⟨[], .undefined⟩ := by
  have hb : getTimeZone bufferSize [] ZoneBuffers.zero env.zoneFiles = none := by
    by_contra hne
    exact hzone ((getTimeZone_ne_none_iff _ _ _).mp hne)
  unfold StartTimeEnv.config at hconf
  unfold runStartTime
  simp only [hconf, hb, if_pos hvalid]

theorem runStartTime_of_invalid (h : ∀ conf, env.config = some conf → ¬ conf.Valid) :
    runStartTime env = ⟨[], .error⟩ := by
  unfold StartTimeEnv.config at h
  unfold runStartTime
  split
  · next conf hconf => rw [if_neg (h conf hconf)]
  · rfl

theorem runStartTime_local (hconf : env.config = some conf) (hvalid : conf.Valid)
    (hmode : conf.tzMode = localTimeMode) (hzone : env.zoneRead = some zone) :
    runStartTime env = localStartTime env zone conf := by
  obtain ⟨b, hb, rfl⟩ := Option.map_eq_some_iff.mp hzone
  unfold StartTimeEnv.config at hconf
  unfold runStartTime
  simp only [hconf, hb, if_pos hvalid, if_pos hmode]

theorem calculateStartTime_eq_none (h : (runStartTime env).outcome = .undefined) :
    calculateStartTime env = none := by
  unfold calculateStartTime
  rw [h]

theorem calculateStartTime_eq_epoch (h : (runStartTime env).outcome = .startEpoch epoch) :
    calculateStartTime env = some (Int32.ofInt epoch) := by
  unfold calculateStartTime
  rw [h]

theorem readEpoch_bounds (h : readEpoch env n cmd = some epoch) : 0 < epoch ∧ epoch < 2 ^ 63 := by
  unfold readEpoch at h
  split at h
  · next epochStr _ =>
    split at h
    · cases h
    · next hpos =>
      cases h
      refine ⟨not_le.mp hpos, ?_⟩
      unfold strtol
      split
      · unfold saturate
        omega
      · decide
  · cases h

/-! ## UTC -/

/-- The configured time on the day of `rawtime`. -/
def todayAt (rawtime second : ℤ) : ℤ := rawtime / 86400 * 86400 + second

/-- The configured time today, or tomorrow when that is less than ten seconds away. -/
def utcEpoch (rawtime second : ℤ) : ℤ :=
  if todayAt rawtime second - rawtime < 10 then todayAt rawtime second + 86400
  else todayAt rawtime second

theorem utcStartTime_of_none (h : gmtime rawtime = none) :
    utcStartTime rawtime conf = .undefined := by
  unfold utcStartTime
  rw [h]

theorem utcStartTime_eq (hvalid : conf.Valid) (h : gmtime rawtime ≠ none) :
    utcStartTime rawtime conf = .startEpoch (utcEpoch rawtime conf.secondOfDay) := by
  obtain ⟨tm, htm⟩ := Option.ne_none_iff_exists'.mp h
  have hsecond := hvalid.secondOfDay_bounds
  have htoday : timegm { tm with tmHour := conf.startHr, tmMin := conf.startMin, tmSec := 0 } =
      todayAt rawtime conf.secondOfDay := by
    rw [timegm_of_gmtime htm]
    unfold todayAt StartConfig.secondOfDay
    rw [Int32.toInt_zero]
    omega
  have hclose : tooClose (todayAt rawtime conf.secondOfDay) rawtime ↔
      todayAt rawtime conf.secondOfDay - rawtime < 10 :=
    tooClose_iff (by unfold todayAt; omega)
  unfold utcStartTime utcEpoch
  simp only [htm, htoday]
  by_cases hlate : todayAt rawtime conf.secondOfDay - rawtime < 10
  · rw [if_pos (hclose.mpr hlate), if_pos hlate]
  · rw [if_neg (mt hclose.mp hlate), if_neg hlate]

theorem utcEpoch_modEq {second : ℤ} : utcEpoch rawtime second ≡ second [ZMOD 86400] := by
  unfold utcEpoch todayAt Int.ModEq
  split <;> omega

/-- The start is later than the current time and at most a day and ten seconds away. -/
theorem utcEpoch_bounds (rawtime : ℤ) {second : ℤ} (h : 0 ≤ second ∧ second ≤ 86340) :
    rawtime < utcEpoch rawtime second ∧ utcEpoch rawtime second < rawtime + 10 + 86400 := by
  unfold utcEpoch todayAt
  split <;> omega

end SoftwareUpdate.MaintenanceManager
