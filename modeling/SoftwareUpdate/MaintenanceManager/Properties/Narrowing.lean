import SoftwareUpdate.MaintenanceManager.Properties.UtcStart

/-!
# The start time as an `int`

The epoch of the start is calculated as a 64-bit number and returned as an `int`. What is
reported is the epoch exactly when that is below 2³¹, in UTC for the current times of a bounded
range, in local time when the number that the deciding `date -d` command prints is.
-/

namespace SoftwareUpdate.MaintenanceManager

open Misc Helpers

variable {env : StartTimeEnv} {conf : StartConfig} {rawtime epoch second : ℤ} {zone cmd : Text}
  {tm : Tm} {commands : List Text} {n : ℕ}

/-- Unless the call takes an error exit, it reports the epoch that it has calculated, which is
positive, and so not the -1 of an error, and in the future. -/
def ReportsEpoch (env : StartTimeEnv) : Prop :=
  (runStartTime env).outcome ≠ .error →
    ∃ epoch, (runStartTime env).outcome = .startEpoch epoch ∧
      getMaintenanceStartTime env = some epoch ∧ 0 < epoch ∧ env.rawtime < epoch

/-- The first current time whose start in UTC is positive. -/
def firstRawtime (second : ℤ) : ℤ := if second = 0 then 0 else second - 86409

/-- The first current time whose start in UTC is no `int`. -/
def endRawtime (second : ℤ) : ℤ :=
  (2 ^ 31 - 1 - second) / 86400 * 86400 + if second = 0 then 0 else second - 9

/-- The first `date -d` command, which is the third one of a call, prints a number below 2³¹
unless that is too close; the second one a number below 2³¹ that is in the future. -/
def AnswersRepresentable (env : StartTimeEnv) : Prop :=
  (∀ cmd, (runStartTime env).commands[2]? = some cmd → ∀ epoch, readEpoch env 2 cmd = some epoch →
    ¬ tooClose epoch env.rawtime → epoch < 2 ^ 31) ∧
  ∀ cmd, (runStartTime env).commands[3]? = some cmd → ∀ epoch, readEpoch env 3 cmd = some epoch →
    epoch < 2 ^ 31 ∧ env.rawtime < epoch

/-- With a valid configuration there is a device name, and in UTC the current time is in its
range. -/
structure StartRepresentable (env : StartTimeEnv) : Prop where
  deviceName : ∀ conf, env.config = some conf → conf.Valid → env.zoneFiles.DeviceNameGiven
  utc : ∀ conf, env.config = some conf → conf.Valid → conf.tzMode = utcMode →
    firstRawtime conf.secondOfDay ≤ env.rawtime ∧ env.rawtime < endRawtime conf.secondOfDay
  answers : AnswersRepresentable env

/-! ## Epochs that are reported -/

/-- A positive epoch is reported as it is exactly when it is an `int`. -/
theorem reportsEpoch_iff (h : (runStartTime env).outcome = .startEpoch epoch) (hpos : 0 < epoch) :
    ReportsEpoch env ↔ epoch < 2 ^ 31 ∧ env.rawtime < epoch := by
  have hreport : getMaintenanceStartTime env = some (Int32.ofInt epoch).toInt := by
    unfold getMaintenanceStartTime
    rw [calculateStartTime_eq_epoch h]
    rfl
  unfold ReportsEpoch
  rw [hreport, h]
  constructor
  · intro hreports
    obtain ⟨epoch', hsame, hint, -, hfuture⟩ := hreports (by simp)
    cases hsame
    have hlt := (Int32.ofInt epoch).toInt_lt
    rw [Option.some.inj hint] at hlt
    exact ⟨hlt, hfuture⟩
  · rintro ⟨hlt, hfuture⟩ -
    exact ⟨epoch, rfl, by rw [toInt_ofInt (by omega)], hpos, hfuture⟩

theorem not_reportsEpoch_of_undefined (h : (runStartTime env).outcome = .undefined) :
    ¬ ReportsEpoch env := by
  intro hreports
  obtain ⟨epoch, hepoch, -⟩ := hreports (by simp [h])
  rw [h] at hepoch
  cases hepoch

/-! ## UTC -/

theorem utcEpoch_fits_iff (h : conf.Valid) :
    0 < utcEpoch rawtime conf.secondOfDay ∧ utcEpoch rawtime conf.secondOfDay < 2 ^ 31 ↔
      firstRawtime conf.secondOfDay ≤ rawtime ∧ rawtime < endRawtime conf.secondOfDay := by
  have hbounds := h.secondOfDay_bounds
  have hfirst := h.secondOfDay_zero_or
  generalize conf.secondOfDay = second at hbounds hfirst ⊢
  unfold utcEpoch todayAt firstRawtime endRawtime
  by_cases hmidnight : second = 0
  · subst hmidnight
    simp only [if_true]
    split <;> omega
  · simp only [if_neg hmidnight]
    split <;> omega

/-! ## Local time -/

/-- An epoch that is not too close is in the future, also where the difference overflows. -/
theorem lt_of_not_tooClose (hraw : -2 ^ 63 ≤ env.rawtime ∧ env.rawtime < 2 ^ 63)
    (hepoch : 0 < epoch) (h : ¬ tooClose epoch env.rawtime) : env.rawtime < epoch := by
  by_contra hpast
  have hclose : tooClose epoch env.rawtime ↔ epoch - env.rawtime < 10 := tooClose_iff (by omega)
  exact h (hclose.mpr (by omega))

/-- A call in local time is an error before a `date -d` command is run, or schedules from a date
after two commands. -/
theorem localStartTime_cases (env : StartTimeEnv) (zone : Text) (conf : StartConfig) :
    ((localStartTime env zone conf).outcome = .error ∧
      (localStartTime env zone conf).commands.length ≤ 2) ∨
    ∃ tm, localStartTime env zone conf = scheduleFrom env zone conf tm
      [currentTimeCommand zone, currentDateCommand zone] := by
  unfold localStartTime
  split
  · exact .inl ⟨rfl, by simp⟩
  · split
    · simp only
      split
      · split
        · exact .inr ⟨_, rfl⟩
        · exact .inl ⟨rfl, by simp⟩
      · exact .inl ⟨rfl, by simp⟩
    · exact .inl ⟨rfl, by simp⟩

theorem answersRepresentable_of_few (h : (runStartTime env).commands.length ≤ 2) :
    AnswersRepresentable env := by
  have hnone {n : ℕ} (hn : 2 ≤ n) : (runStartTime env).commands[n]? = none :=
    List.getElem?_eq_none (by omega)
  constructor
  · intro cmd hcmd
    rw [hnone le_rfl] at hcmd
    cases hcmd
  · intro cmd hcmd
    rw [hnone (by omega)] at hcmd
    cases hcmd

theorem reportsEpoch_local_iff (hraw : -2 ^ 63 ≤ env.rawtime ∧ env.rawtime < 2 ^ 63)
    {time date : Text} (hrun : runStartTime env = scheduleFrom env zone conf tm [time, date]) :
    ReportsEpoch env ↔ AnswersRepresentable env := by
  unfold scheduleFrom at hrun
  simp only at hrun
  unfold AnswersRepresentable
  cases hfirst : readEpoch env 2 (epochCommand zone tm conf) with
  | none =>
    simp only [hfirst] at hrun
    simp [ReportsEpoch, hrun, hfirst]
  | some epoch =>
    have hepoch := readEpoch_bounds hfirst
    by_cases hclose : tooClose epoch env.rawtime
    · cases hsecond : readEpoch env 3 (epochCommand zone (nextDay env tm) conf) with
      | none =>
        simp only [hfirst, if_pos hclose, hsecond] at hrun
        simp [ReportsEpoch, hrun, hfirst, hsecond, hclose]
      | some next =>
        simp only [hfirst, if_pos hclose, hsecond] at hrun
        rw [reportsEpoch_iff (by rw [hrun]) (readEpoch_bounds hsecond).1]
        simp [hrun, hfirst, hsecond, hclose]
    · simp only [hfirst, if_neg hclose] at hrun
      have hfuture := lt_of_not_tooClose hraw hepoch.1 hclose
      rw [reportsEpoch_iff (by rw [hrun]) hepoch.1]
      simp [hrun, hfirst, hclose, hfuture]

/-! ## Both branches -/

theorem reportsEpoch_of_error (h : (runStartTime env).outcome = .error) : ReportsEpoch env :=
  fun hno => absurd h hno

theorem reportsEpoch_utc_iff (hraw : -2 ^ 63 ≤ env.rawtime ∧ env.rawtime < 2 ^ 63)
    (hconf : env.config = some conf) (hvalid : conf.Valid) (hmode : conf.tzMode = utcMode)
    (hzone : env.zoneFiles.DeviceNameGiven) : ReportsEpoch env ↔
      firstRawtime conf.secondOfDay ≤ env.rawtime ∧
        env.rawtime < endRawtime conf.secondOfDay := by
  have hbounds := hvalid.secondOfDay_bounds
  have hrun := runStartTime_utc hconf hvalid hmode hzone
  by_cases hgm : gmtime env.rawtime = none
  · have hundefined : (runStartTime env).outcome = .undefined := by
      rw [hrun]
      exact utcStartTime_of_none hgm
    refine iff_of_false (not_reportsEpoch_of_undefined hundefined) ?_
    rintro ⟨hfirst, hlast⟩
    refine gmtime_ne_none ?_ hgm
    unfold firstRawtime at hfirst
    unfold endRawtime at hlast
    split at hfirst <;> split at hlast <;> omega
  · have houtcome : (runStartTime env).outcome =
        .startEpoch (utcEpoch env.rawtime conf.secondOfDay) := by
      rw [hrun]
      exact utcStartTime_eq hvalid hgm
    rw [← utcEpoch_fits_iff hvalid]
    by_cases hpos : 0 < utcEpoch env.rawtime conf.secondOfDay
    · rw [reportsEpoch_iff houtcome hpos]
      simp [hpos, (utcEpoch_bounds _ hbounds).1]
    · refine iff_of_false (fun hreports => ?_) (fun h => hpos h.1)
      obtain ⟨epoch, hsame, -, hepoch, -⟩ := hreports (by simp [houtcome])
      rw [houtcome] at hsame
      cases hsame
      exact hpos hepoch

/-- In local time it is the answers that have to be representable. -/
theorem startRepresentable_local_iff (hconf : env.config = some conf)
    (hmode : conf.tzMode = localTimeMode) (hzone : env.zoneFiles.DeviceNameGiven) :
    StartRepresentable env ↔ AnswersRepresentable env := by
  refine ⟨fun h => h.answers, fun h => ⟨fun _ _ _ => hzone, ?_, h⟩⟩
  intro conf' hconf' _ hutc
  obtain rfl : conf = conf' := Option.some.inj (hconf.symm.trans hconf')
  exact absurd (hmode.symm.trans hutc) localTimeMode_ne_utcMode

theorem startRepresentable_utc_iff (hconf : env.config = some conf) (hvalid : conf.Valid)
    (hmode : conf.tzMode = utcMode) (hzone : env.zoneFiles.DeviceNameGiven) :
    StartRepresentable env ↔ firstRawtime conf.secondOfDay ≤ env.rawtime ∧
      env.rawtime < endRawtime conf.secondOfDay := by
  have hnone : (runStartTime env).commands.length ≤ 2 := by
    simp [runStartTime_utc hconf hvalid hmode hzone]
  refine ⟨fun h => h.utc conf hconf hvalid hmode,
    fun h => ⟨fun _ _ _ => hzone, ?_, answersRepresentable_of_few hnone⟩⟩
  intro conf' hconf' _ _
  obtain rfl : conf = conf' := Option.some.inj (hconf.symm.trans hconf')
  exact h

/-- The start time that is reported is the epoch that was calculated, for every current time and
configuration and whatever the commands print, exactly when that epoch is representable. -/
theorem reportsEpoch_iff_representable (env : StartTimeEnv)
    (hraw : -2 ^ 63 ≤ env.rawtime ∧ env.rawtime < 2 ^ 63) :
    ReportsEpoch env ↔ StartRepresentable env := by
  by_cases hvalid : ∃ conf, env.config = some conf ∧ conf.Valid
  · obtain ⟨conf, hconf, hvalid⟩ := hvalid
    by_cases hzone : env.zoneFiles.DeviceNameGiven
    · rcases hvalid.2.2 with hmode | hmode
      · rw [startRepresentable_local_iff hconf hmode hzone]
        obtain ⟨zone, hread⟩ := Option.ne_none_iff_exists'.mp (zoneRead_ne_none_iff.mpr hzone)
        have hrun := runStartTime_local hconf hvalid hmode hread
        rcases localStartTime_cases env zone conf with
          ⟨herror, hfew⟩ | ⟨tm, hschedule⟩
        · exact iff_of_true (reportsEpoch_of_error (hrun ▸ herror))
            (answersRepresentable_of_few (hrun ▸ hfew))
        · exact reportsEpoch_local_iff hraw (hrun.trans hschedule)
      · rw [startRepresentable_utc_iff hconf hvalid hmode hzone]
        exact reportsEpoch_utc_iff hraw hconf hvalid hmode hzone
    · have hrun := runStartTime_of_noDeviceName hconf hvalid hzone
      exact iff_of_false (not_reportsEpoch_of_undefined (by rw [hrun]))
        fun h => hzone (h.deviceName conf hconf hvalid)
  · have hinvalid : ∀ conf, env.config = some conf → ¬ conf.Valid :=
      fun conf hconf hv => hvalid ⟨conf, hconf, hv⟩
    have hrun := runStartTime_of_invalid hinvalid
    refine iff_of_true (reportsEpoch_of_error (by rw [hrun])) ⟨?_, ?_, ?_⟩
    · intro conf hconf hv
      exact absurd hv (hinvalid conf hconf)
    · intro conf hconf hv
      exact absurd hv (hinvalid conf hconf)
    · exact answersRepresentable_of_few (by simp [hrun])

theorem reportsEpoch_halfPastTwo : ReportsEpoch (utcEnv halfPastTwo 0) := by
  refine (reportsEpoch_iff_representable (utcEnv halfPastTwo 0) (by decide)).mpr ⟨?_, ?_, ?_⟩
  · intro _ _ _ properties hproperties
    cases hproperties
  · intro conf hconf _ _
    have hread : (utcEnv halfPastTwo 0).config = some ⟨2, 30, utcMode⟩ := by decide
    obtain rfl : StartConfig.mk 2 30 utcMode = conf := Option.some.inj (hread.symm.trans hconf)
    decide
  · refine answersRepresentable_of_few ?_
    decide

/-- After the last second that is an `int`, the next midnight is reported as a negative number. -/
theorem not_reportsEpoch_afterInt : ¬ ReportsEpoch (utcEnv midnight (2 ^ 31)) := by
  have hnegative : getMaintenanceStartTime (utcEnv midnight (2 ^ 31)) = some (-2147408896) := by
    decide
  intro hreports
  obtain ⟨epoch, -, hepoch, hpos, -⟩ := hreports (by decide)
  rw [hnegative] at hepoch
  obtain rfl : -2147408896 = epoch := Option.some.inj hepoch
  revert hpos
  decide

end SoftwareUpdate.MaintenanceManager
