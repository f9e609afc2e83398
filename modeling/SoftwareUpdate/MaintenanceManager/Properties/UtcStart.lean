import SoftwareUpdate.MaintenanceManager.Proofs.StartTimes

/-!
# The next start in UTC

The start is to be the first occurrence of the configured time that is at least ten seconds away.
The time of the current day is corrected once, by a day, and the result is not looked at again:
in the last seconds before midnight the corrected start of 00:00 is too close as well.
-/

namespace SoftwareUpdate.MaintenanceManager

open Misc Helpers

variable {env : StartTimeEnv} {conf : StartConfig} {rawtime : ℤ}

/-- The epochs of the configured time, in UTC, that keep the safety margin. -/
def utcOccurrences (conf : StartConfig) (rawtime : ℤ) : Set ℤ :=
  {e | e ≡ conf.secondOfDay [ZMOD 86400] ∧ rawtime + 10 ≤ e}

/-- The configured time is midnight, and the next midnight is less than ten seconds away. -/
def NearMidnight (conf : StartConfig) (rawtime : ℤ) : Prop :=
  conf.startHr.toInt = 0 ∧ conf.startMin.toInt = 0 ∧ 86390 < rawtime % 86400

theorem margin_iff (hvalid : conf.Valid) :
    rawtime + 10 ≤ utcEpoch rawtime conf.secondOfDay ↔ ¬ NearMidnight conf rawtime := by
  obtain ⟨hhr, hmin, -⟩ := hvalid
  unfold NearMidnight utcEpoch todayAt StartConfig.secondOfDay
  constructor
  · rintro h ⟨hmidnight, hfirst, hlate⟩
    rw [hmidnight, hfirst] at h
    split at h <;> omega
  · intro h
    split
    · by_cases hmidnight : conf.startHr.toInt = 0 ∧ conf.startMin.toInt = 0
      · have hlate : ¬ 86390 < rawtime % 86400 := fun hlate => h ⟨hmidnight.1, hmidnight.2, hlate⟩
        omega
      · omega
    · omega

/-- One correction gives the first occurrence exactly when it keeps the margin. -/
theorem isLeast_utcEpoch_iff (hvalid : conf.Valid) :
    IsLeast (utcOccurrences conf rawtime) (utcEpoch rawtime conf.secondOfDay) ↔
      ¬ NearMidnight conf rawtime := by
  have hbounds := utcEpoch_bounds rawtime hvalid.secondOfDay_bounds
  unfold utcOccurrences
  rw [Periodic.isLeast_iff (by omega) utcEpoch_modEq, ← margin_iff hvalid]
  omega

/-- `CalculateStartTime` returns the next occurrence exactly when there is a device name and the
configured time is not a midnight less than ten seconds away. -/
theorem utcStart_iff (env : StartTimeEnv) (conf : StartConfig) (hconf : env.config = some conf)
    (hvalid : conf.Valid) (hmode : conf.tzMode = utcMode) (hraw : 0 ≤ env.rawtime) (e : ℤ)
    (he : IsLeast (utcOccurrences conf env.rawtime) e) (hfits : e < 2 ^ 31) :
    (calculateStartTime env).map Int32.toInt = some e ↔
      env.zoneFiles.DeviceNameGiven ∧ ¬ NearMidnight conf env.rawtime := by
  by_cases hzone : env.zoneFiles.DeviceNameGiven
  · have hmargin : env.rawtime + 10 ≤ e := he.1.2
    have hgm : gmtime env.rawtime ≠ none := gmtime_ne_none (by omega)
    have houtcome : (runStartTime env).outcome =
        .startEpoch (utcEpoch env.rawtime conf.secondOfDay) := by
      rw [runStartTime_utc hconf hvalid hmode hzone, utcStartTime_eq hvalid hgm]
    have hbounds := utcEpoch_bounds env.rawtime hvalid.secondOfDay_bounds
    have hnotLater : utcEpoch env.rawtime conf.secondOfDay ≤ e := by
      by_cases hkept : env.rawtime + 10 ≤ utcEpoch env.rawtime conf.secondOfDay
      · have hleast := (isLeast_utcEpoch_iff hvalid).mpr ((margin_iff hvalid).mp hkept)
        exact (hleast.unique he).le
      · omega
    rw [calculateStartTime_eq_epoch houtcome, Option.map_some, toInt_ofInt (by omega),
      ← isLeast_utcEpoch_iff hvalid]
    constructor
    · intro h
      rw [Option.some.inj h]
      exact ⟨hzone, he⟩
    · rintro ⟨-, hleast⟩
      rw [hleast.unique he]
  · have hundefined : (runStartTime env).outcome = .undefined := by
      rw [runStartTime_of_noDeviceName hconf hvalid hzone]
    rw [calculateStartTime_eq_none hundefined]
    simp [hzone]

/-- A device without files for its zone, whose maintenance is configured in UTC. -/
def utcEnv (maintConf : Text) (rawtime : ℤ) : StartTimeEnv where
  maintConf := some maintConf
  zoneFiles := ⟨none, none, none⟩
  rawtime := rawtime
  popen := fun _ _ => none
  mktime := id

/-- 02:30, asked for at midnight of 1 January 1970. -/
def halfPastTwo : Text :=
  "start_hr=\x222\x22\nstart_min=\x2230\x22\ntz_mode=\x22UTC\x22\n".toList

/-- Midnight. -/
def midnight : Text :=
  "start_hr=\x220\x22\nstart_min=\x220\x22\ntz_mode=\x22UTC\x22\n".toList

theorem utcStart_halfPastTwo : (calculateStartTime (utcEnv halfPastTwo 0)).map Int32.toInt =
    some 9000 := by
  have hleast : IsLeast (utcOccurrences ⟨2, 30, utcMode⟩ 0) 9000 :=
    (Periodic.isLeast_iff (by omega) (by decide)).mpr (by omega)
  refine (utcStart_iff (utcEnv halfPastTwo 0) ⟨2, 30, utcMode⟩ (by decide)
    (by decide) rfl (by decide) 9000 hleast (by decide)).mpr ⟨?_, ?_⟩
  · intro properties hproperties
    cases hproperties
  · rintro ⟨hhr, -⟩
    revert hhr
    decide

/-- One second before the midnight of 2 January 1970, the start of 00:00 is that midnight. -/
theorem not_utcStart_midnight : (utcEnv midnight 86399).config = some ⟨0, 0, utcMode⟩ ∧
    (calculateStartTime (utcEnv midnight 86399)).map Int32.toInt = some 86400 ∧
    ¬ IsLeast (utcOccurrences ⟨0, 0, utcMode⟩ 86399) 86400 := by
  refine ⟨by decide, by decide, ?_⟩
  rintro ⟨⟨-, hmargin⟩, -⟩
  revert hmargin
  decide

end SoftwareUpdate.MaintenanceManager
