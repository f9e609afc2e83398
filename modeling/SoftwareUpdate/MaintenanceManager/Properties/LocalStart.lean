import SoftwareUpdate.MaintenanceManager.Proofs.DateCommands

/-!
# The next start in local time

Whether the start is today or tomorrow is decided by the time that the first `date` command
prints, and today is the date that the second one prints. No day is skipped unless midnight
passes between the two, the first time is past the start, and the start of the new day is
still to come.
-/

namespace SoftwareUpdate.MaintenanceManager

open Misc Helpers

variable {env : StartTimeEnv} {conf : StartConfig} {zone : Text} {zo : ZoneOffset} {tm : Tm}
  {date : Date} {t1 t2 r e : ℤ} {commands : List Text}

/-- The epochs of the configured local time. -/
def localOccurrences (zo : ZoneOffset) (conf : StartConfig) : Set ℤ :=
  {e | e + zo.seconds ≡ conf.secondOfDay [ZMOD 86400]}

/-- The start is an occurrence of the configured time that keeps the margin to `t0`, and no
occurrence that keeps it to `t2` is before the start. -/
def SkipsNoDay (zo : ZoneOffset) (conf : StartConfig) (t0 t2 r : ℤ) : Prop :=
  r ∈ localOccurrences zo conf ∧ t0 + 10 ≤ r ∧
    ∀ e ∈ localOccurrences zo conf, ¬ (t2 + 10 ≤ e ∧ e < r)

/-- The time and the date are read on the same local day; or the time is before the start; or the
start on the day of the date is over or too close. -/
def ReadingsAgree (zo : ZoneOffset) (conf : StartConfig) (t1 t2 : ℤ) : Prop :=
  zo.day t1 = zo.day t2 ∨ zo.hhmm t1 < conf.startHr.toInt * 100 + conf.startMin.toInt ∨
    zo.startOn conf (zo.day t2) < t2 + 10

/-! ## The epochs that are read -/

theorem epoch_of_scheduleFrom
    (h : (scheduleFrom env zone conf tm commands).outcome = .startEpoch r) :
    ∃ e, readEpoch env 2 (epochCommand zone tm conf) = some e ∧
      (¬ tooClose e env.rawtime ∧ r = e ∨ tooClose e env.rawtime ∧
        readEpoch env 3 (epochCommand zone (nextDay env tm) conf) = some r) := by
  unfold scheduleFrom at h
  simp only at h
  cases hfirst : readEpoch env 2 (epochCommand zone tm conf) with
  | none =>
    rw [hfirst] at h
    cases h
  | some e =>
    refine ⟨e, rfl, ?_⟩
    rw [hfirst] at h
    simp only at h
    by_cases hclose : tooClose e env.rawtime
    · rw [if_pos hclose] at h
      cases hsecond : readEpoch env 3 (epochCommand zone (nextDay env tm) conf) with
      | none =>
        rw [hsecond] at h
        cases h
      | some e' =>
        rw [hsecond] at h
        cases h
        exact .inr ⟨hclose, rfl⟩
    · rw [if_neg hclose] at h
      cases h
      exact .inl ⟨hclose, rfl⟩

/-- What a call in local time has read when it returns an epoch. -/
theorem epoch_of_localStartTime (h : (localStartTime env zone conf).outcome = .startEpoch r) :
    ∃ hhmm today tm, readCommand env 0 8 (currentTimeCommand zone) = some hhmm ∧
      readCommand env 1 16 (currentDateCommand zone) = some today ∧
      readDate (today.takeWhile (· ≠ '\n')) = some tm ∧
      (scheduleFrom env zone conf
        (if conf.startHr.toInt * 100 + conf.startMin.toInt > (atoi hhmm).toInt then tm
          else nextDay env tm)
        [currentTimeCommand zone, currentDateCommand zone]).outcome = .startEpoch r := by
  unfold localStartTime at h
  split at h
  · cases h
  · split at h
    · next hhmm htime =>
      simp only at h
      split at h
      · next today hdate =>
        split at h
        · next tm htm => exact ⟨hhmm, today, tm, htime, hdate, htm, h⟩
        · cases h
      · cases h
    · cases h

/-! ## Large years -/

/-- From a date of a very large year no epoch that is an `int` is scheduled. -/
theorem large_scheduleFrom (hdate : DateCorrect env zone conf zo t1 t2) (hvalid : conf.Valid)
    (hzone : zone.length ≤ 49) (hmktime : MktimeCorrect env.mktime) (htm : HasDate tm date)
    (hmonth : NearMonth date) (hlarge : 10 ^ 8 + 1000 ≤ date.year ∧ date.year < 2 ^ 31 + 1000)
    (h : (scheduleFrom env zone conf tm commands).outcome = .startEpoch r) : 2 ^ 31 ≤ r := by
  obtain ⟨e, hfirst, ⟨-, rfl⟩ | ⟨-, hsecond⟩⟩ := epoch_of_scheduleFrom h
  · exact hdate.le_of_large hvalid hzone le_rfl htm hmonth (by omega) hfirst
  · have hnext := htm.nextDay hmktime hmonth (by omega)
    have hyear := hmonth.year_nextDay
    exact hdate.le_of_large hvalid hzone (by omega) hnext (nearMonth_of_valid Date.valid_ofDays)
      (by omega) hsecond

/-! ## The scheduled epoch -/

/-- From the date of a day the start of that day is scheduled, or that of the next day. -/
theorem scheduleFrom_eq (hdate : DateCorrect env zone conf zo t1 t2) (hvalid : conf.Valid)
    (hzone : zone.length ≤ 49) (hmktime : MktimeCorrect env.mktime) {day : ℤ}
    (htm : HasDate tm (Date.ofDays day))
    (hyear : 1000 ≤ (Date.ofDays day).year ∧ (Date.ofDays day).year < 2 ^ 30)
    (hraw : 0 ≤ env.rawtime ∧ env.rawtime ≤ zo.startOn conf day + 2 ^ 62)
    (h : (scheduleFrom env zone conf tm commands).outcome = .startEpoch r) :
    r = zo.startOn conf day ∧ 10 ≤ zo.startOn conf day - env.rawtime ∨
      r = zo.startOn conf (day + 1) ∧ zo.startOn conf day - env.rawtime < 10 := by
  have hread {n : ℕ} {tm : Tm} {day e : ℤ} (hn : 2 ≤ n) (htm : HasDate tm (Date.ofDays day))
      (hyear : 0 ≤ (Date.ofDays day).year ∧ (Date.ofDays day).year < 2 ^ 31)
      (h : readEpoch env n (epochCommand zone tm conf) = some e) :
      e = zo.startOn conf day ∧ 0 < e := by
    rw [htm.epochCommand_eq (nearMonth_of_valid Date.valid_ofDays) hzone hvalid,
      printedDate_eq hyear.2] at h
    obtain ⟨-, he, hpos⟩ := hdate.readEpoch_eq hvalid hn (by omega) h
    rw [Date.toDays_ofDays] at he
    exact ⟨he, hpos⟩
  obtain ⟨e, hfirst, hcases⟩ := epoch_of_scheduleFrom h
  have hbound := readEpoch_bounds hfirst
  obtain ⟨rfl, hpos⟩ := hread le_rfl htm (by omega) hfirst
  have hclose : tooClose (zo.startOn conf day) env.rawtime ↔
      zo.startOn conf day - env.rawtime < 10 := tooClose_iff (by omega)
  rcases hcases with ⟨hkept, rfl⟩ | ⟨hlate, hsecond⟩
  · rw [hclose] at hkept
    exact .inl ⟨rfl, by omega⟩
  · have hnear := nearMonth_of_valid (Date.valid_ofDays (n := day))
    have hnext := htm.nextDay hmktime hnear (by omega)
    have hnextYear := hnear.year_nextDay
    rw [Date.toDays_ofDays] at hnext hnextYear
    obtain ⟨rfl, -⟩ := hread (by omega) hnext (by omega) hsecond
    exact .inr ⟨rfl, hclose.mp hlate⟩

/-- The first candidate: the start of the day of the date, or of the next one when the time that
was read is not before it. -/
def firstDay (zo : ZoneOffset) (conf : StartConfig) (t1 t2 : ℤ) : ℤ :=
  if zo.hhmm t1 < conf.startHr.toInt * 100 + conf.startMin.toInt then zo.day t2 else zo.day t2 + 1

/-- The epoch that is returned in local time, when it is an `int`. -/
theorem startEpoch_local (hvalid : conf.Valid) (hzone : zone.length ≤ 49)
    (hraw : 0 ≤ env.rawtime) (ht2 : env.rawtime ≤ t2)
    (hdate : DateCorrect env zone conf zo t1 t2) (hmktime : MktimeCorrect env.mktime)
    (h : (localStartTime env zone conf).outcome = .startEpoch r) (hfits : r < 2 ^ 31) :
    r = zo.startOn conf (firstDay zo conf t1 t2) ∧
        10 ≤ zo.startOn conf (firstDay zo conf t1 t2) - env.rawtime ∨
      r = zo.startOn conf (firstDay zo conf t1 t2 + 1) ∧
        zo.startOn conf (firstDay zo conf t1 t2) - env.rawtime < 10 := by
  have hoffset := zo.bounded
  have hsecond := hvalid.secondOfDay_bounds
  have hday : zo.day t2 * 86400 ≤ t2 + zo.seconds ∧
      t2 + zo.seconds < zo.day t2 * 86400 + 86400 := by
    unfold ZoneOffset.day
    omega
  have hyear := Date.year_ofDays (n := zo.day t2)
  obtain ⟨hhmm, today, tm, htime, htoday, hread, hschedule⟩ := epoch_of_localStartTime h
  rw [hdate.atoi_eq htime] at hschedule
  obtain ⟨htext, hint⟩ := hdate.today_eq htoday
  have hexists := Date.valid_ofDays (n := zo.day t2)
  obtain ⟨day, tm', hread', htm, hlow, hhigh, hexact⟩ := readDate_take hexists (by omega)
  rw [htext, hread'] at hread
  obtain rfl : tm' = tm := Option.some.inj hread
  have hnear : NearMonth { Date.ofDays (zo.day t2) with day := day } :=
    ⟨(nearMonth_of_valid hexists).1, hlow, hhigh⟩
  by_cases hlarge : (Date.ofDays (zo.day t2)).year < 10 ^ 9
  · have htm : HasDate tm' (Date.ofDays (zo.day t2)) := by
      rw [hexact hlarge] at htm
      exact htm
    unfold firstDay
    by_cases hbefore : zo.hhmm t1 < conf.startHr.toInt * 100 + conf.startMin.toInt
    · rw [if_pos hbefore] at hschedule ⊢
      refine scheduleFrom_eq hdate hvalid hzone hmktime htm (by omega) ?_ hschedule
      unfold ZoneOffset.startOn
      omega
    · rw [if_neg hbefore] at hschedule ⊢
      have hnext := htm.nextDay hmktime (nearMonth_of_valid hexists) (by omega)
      rw [Date.toDays_ofDays] at hnext
      have hnextYear := Date.year_ofDays (n := zo.day t2 + 1)
      refine scheduleFrom_eq hdate hvalid hzone hmktime hnext (by omega) ?_ hschedule
      unfold ZoneOffset.startOn
      omega
  · -- a date of such a year is read in part only, but no epoch of it is an `int`
    have hlate : 2 ^ 31 ≤ r := by
      by_cases hbefore : zo.hhmm t1 < conf.startHr.toInt * 100 + conf.startMin.toInt
      · rw [if_pos hbefore] at hschedule
        exact large_scheduleFrom hdate hvalid hzone hmktime htm hnear
          (by simp only; omega) hschedule
      · rw [if_neg hbefore] at hschedule
        have hnext := htm.nextDay hmktime hnear (by simp only; omega)
        have hnextYear := hnear.year_nextDay
        simp only at hnextYear
        exact large_scheduleFrom hdate hvalid hzone hmktime hnext
          (nearMonth_of_valid Date.valid_ofDays) (by omega) hschedule
    omega

/-! ## No day is skipped -/

/-- Of two times of day in minutes, the earlier one is read as the smaller number. -/
theorem hhmm_lt_iff (hvalid : conf.Valid) :
    zo.hhmm t1 < conf.startHr.toInt * 100 + conf.startMin.toInt ↔
      zo.secondOfDay t1 < conf.secondOfDay := by
  obtain ⟨hhr, hmin, -⟩ := hvalid
  unfold ZoneOffset.hhmm StartConfig.secondOfDay
  have hday : 0 ≤ zo.secondOfDay t1 ∧ zo.secondOfDay t1 < 86400 := by
    unfold ZoneOffset.secondOfDay
    omega
  omega

theorem startOn_mem {day : ℤ} : zo.startOn conf day ∈ localOccurrences zo conf := by
  show zo.startOn conf day + zo.seconds ≡ conf.secondOfDay [ZMOD 86400]
  unfold ZoneOffset.startOn Int.ModEq
  omega

/-- The occurrences are the starts of the days. -/
theorem exists_day_of_mem (h : e ∈ localOccurrences zo conf) : ∃ day, e = zo.startOn conf day := by
  have hmod : (e + zo.seconds) % 86400 = conf.secondOfDay % 86400 := h
  refine ⟨(e + zo.seconds - conf.secondOfDay) / 86400, ?_⟩
  unfold ZoneOffset.startOn
  omega

/-- The start of a day skips none exactly when the start of the day before is too close. -/
theorem skipsNoDay_startOn_iff {t0 day : ℤ} (hmargin : t0 + 10 ≤ zo.startOn conf day) :
    SkipsNoDay zo conf t0 t2 (zo.startOn conf day) ↔ zo.startOn conf (day - 1) < t2 + 10 := by
  constructor
  · rintro ⟨-, -, hnone⟩
    by_contra hskipped
    refine hnone (zo.startOn conf (day - 1)) startOn_mem ⟨not_lt.mp hskipped, ?_⟩
    unfold ZoneOffset.startOn
    omega
  · intro hbefore
    refine ⟨startOn_mem, hmargin, fun e he => ?_⟩
    obtain ⟨day', rfl⟩ := exists_day_of_mem he
    unfold ZoneOffset.startOn at hbefore ⊢
    omega

/-- In local time `CalculateStartTime` returns a start that skips no day exactly when the readings
of the time and of the date agree. -/
theorem localStart_iff (env : StartTimeEnv) (conf : StartConfig) (zone : Text) (zo : ZoneOffset)
    (t1 t2 epoch : ℤ) (hconf : env.config = some conf) (hvalid : conf.Valid)
    (hmode : conf.tzMode = localTimeMode) (hzone : env.zoneRead = some zone)
    (hraw : 0 ≤ env.rawtime) (ht1 : env.rawtime ≤ t1) (ht2 : t1 ≤ t2)
    (hdate : DateCorrect env zone conf zo t1 t2) (hmktime : MktimeCorrect env.mktime)
    (hepoch : (runStartTime env).outcome = .startEpoch epoch) (hfits : epoch < 2 ^ 31) :
    (∃ r, (calculateStartTime env).map Int32.toInt = some r ∧
        SkipsNoDay zo conf env.rawtime t2 r) ↔ ReadingsAgree zo conf t1 t2 := by
  have hrun := runStartTime_local hconf hvalid hmode hzone
  have hstart := startEpoch_local hvalid (length_zoneRead hzone) hraw (ht1.trans ht2) hdate hmktime
    (hrun ▸ hepoch) hfits
  have hsecond := hvalid.secondOfDay_bounds
  have hminute := hvalid.secondOfDay_zero_or
  have hday1 : zo.day t1 * 86400 + zo.secondOfDay t1 = t1 + zo.seconds ∧
      0 ≤ zo.secondOfDay t1 := by
    unfold ZoneOffset.day ZoneOffset.secondOfDay
    omega
  have hday2 : zo.day t2 * 86400 ≤ t2 + zo.seconds ∧
      t2 + zo.seconds < zo.day t2 * 86400 + 86400 := by
    unfold ZoneOffset.day
    omega
  have hstartOn (day : ℤ) : zo.startOn conf day = day * 86400 + conf.secondOfDay - zo.seconds := rfl
  have hreturn : ∀ low : -2 ^ 31 ≤ epoch, (∃ r, (calculateStartTime env).map Int32.toInt = some r ∧
      SkipsNoDay zo conf env.rawtime t2 r) ↔ SkipsNoDay zo conf env.rawtime t2 epoch := by
    intro hlow
    rw [calculateStartTime_eq_epoch hepoch, Option.map_some, toInt_ofInt ⟨hlow, hfits⟩]
    simp
  unfold ReadingsAgree
  rw [hhmm_lt_iff hvalid]
  unfold firstDay at hstart
  rw [if_congr (hhmm_lt_iff hvalid) rfl rfl] at hstart
  by_cases hbefore : zo.secondOfDay t1 < conf.secondOfDay
  · -- the start is still to come when the time is read
    rw [if_pos hbefore] at hstart
    refine iff_of_true ?_ (.inr (.inl hbefore))
    rcases hstart with ⟨rfl, hmargin⟩ | ⟨rfl, hclose⟩
    · rw [hreturn (by rw [hstartOn]; omega), skipsNoDay_startOn_iff (by omega), hstartOn]
      omega
    · rw [hreturn (by rw [hstartOn]; omega), skipsNoDay_startOn_iff (by rw [hstartOn]; omega),
        add_sub_cancel_right]
      omega
  · rw [if_neg hbefore] at hstart
    rcases hstart with ⟨rfl, hmargin⟩ | ⟨rfl, hclose⟩
    · rw [hreturn (by rw [hstartOn]; omega), skipsNoDay_startOn_iff (by omega),
        add_sub_cancel_right, hstartOn]
      constructor
      · intro hover
        exact .inr (.inr hover)
      · rintro (hsame | hlate | hover)
        · omega
        · exact absurd hlate hbefore
        · exact hover
    · -- a start tomorrow that is too close to the first reading is over at the last one
      refine iff_of_true ?_ (.inr (.inr ?_))
      · rw [hreturn (by rw [hstartOn]; omega), skipsNoDay_startOn_iff (by rw [hstartOn]; omega),
          add_sub_cancel_right]
        omega
      · rw [hstartOn] at hclose ⊢
        omega

/-! ## A zone of its own -/

theorem dateText_injective {date' : Date} (h : dateText date = dateText date') : date = date' := by
  unfold dateText at h
  rw [List.append_assoc, List.append_assoc] at h
  obtain ⟨hyear, hrest⟩ := formatInt_append_inj (by simp) (by simp) h
  obtain ⟨hmonth, hrest⟩ := formatInt_append_inj (by simp) (by simp) (List.cons.inj hrest).2
  have hday : formatInt 2 date.day = formatInt 2 date'.day := (List.cons.inj hrest).2
  exact Date.ext hyear hmonth (formatInt_inj hday)

theorem epochText_injective {date' : Date}
    (h : epochText zone date conf = epochText zone date' conf) : date = date' := by
  refine dateText_injective ?_
  unfold epochText at h
  simp only [List.append_assoc, List.append_cancel_left_eq, List.append_cancel_right_eq] at h
  exact h

/-- `date` for a clock that is read at `t1` and at `t2`; of the dates only `asked` is converted. -/
def dateAnswers (zo : ZoneOffset) (conf : StartConfig) (zone : Text) (t1 t2 : ℤ) (asked : Date) :
    ℕ → Text → Option Text
  | 0, _ => some (formatInt 4 (zo.hhmm t1) ++ ['\n'])
  | 1, _ => some (dateText (Date.ofDays (zo.day t2)) ++ ['\n'])
  | _, cmd =>
      if cmd = epochText zone asked conf then
        some (formatInt 0 (zo.startOn conf asked.toDays) ++ ['\n'])
      else
        none

theorem dateCorrect_dateAnswers {asked : Date} (hasked : asked.Valid)
    (hyear : (Date.ofDays (zo.day t2)).year < 2 ^ 31)
    (henv : env.popen = dateAnswers zo conf zone t1 t2 asked) :
    DateCorrect env zone conf zo t1 t2 := by
  refine ⟨fun out hout => ?_, fun out hout => ?_, fun n date out hn hout => ?_⟩
  · rw [henv] at hout
    exact (Option.some.inj hout).symm
  · rw [henv] at hout
    exact ⟨(Option.some.inj hout).symm, hyear⟩
  · obtain ⟨m, rfl⟩ : ∃ m, n = m + 2 := ⟨n - 2, by omega⟩
    rw [henv] at hout
    unfold dateAnswers at hout
    simp only at hout
    split at hout
    · next hsame =>
      obtain rfl := epochText_injective hsame
      exact ⟨hasked, (Option.some.inj hout).symm⟩
    · cases hout

/-- `mktime`, with the time of day left out. -/
def normalise (tm : Tm) : Tm := Tm.ofDate (Date.ofDays tm.date.toDays) 0 0 0

theorem mktimeCorrect_normalise : MktimeCorrect normalise := by
  intro tm hhigh hlow
  obtain ⟨hmonth, hday⟩ := nearMonth_of_valid (Date.valid_ofDays (n := tm.date.toDays))
  unfold normalise Tm.ofDate HasDate
  simp only
  rw [toInt_ofInt (by omega), toInt_ofInt (by omega), toInt_ofInt (by omega)]
  omega

/-- Eastern Standard Time. -/
def eastern : ZoneOffset := ⟨-18000, by decide⟩

/-- The start is at 02:00. -/
def twoOClock : StartConfig := ⟨2, 0, localTimeMode⟩

/-- A device in that zone whose clock is read at `t0`, `t1` and `t2`. -/
def easternEnv (t0 t1 t2 : ℤ) (asked : Date) : StartTimeEnv where
  maintConf := some "start_hr=\x222\x22\nstart_min=\x220\x22\ntz_mode=\x22Local time\x22\n".toList
  zoneFiles := ⟨some "DEVICE_NAME=XYZ\n".toList, some "EST5\n".toList, none⟩
  rawtime := t0
  popen := dateAnswers eastern twoOClock "EST5".toList t1 t2 asked
  mktime := normalise

/-- In the evening of 14 November 2023 the start is at 02:00 on the next day. -/
theorem localStart_evening : ∃ r,
    (calculateStartTime (easternEnv 1700000000 1700000000 1700000000 ⟨2023, 11, 15⟩)).map
      Int32.toInt = some r ∧ SkipsNoDay eastern twoOClock 1700000000 1700000000 r :=
  (localStart_iff (easternEnv 1700000000 1700000000 1700000000 ⟨2023, 11, 15⟩) twoOClock
    "EST5".toList eastern 1700000000 1700000000 1700031600 (by decide) (by decide)
    rfl (by decide) (by decide) le_rfl le_rfl
    (dateCorrect_dateAnswers (by decide) (by decide) rfl) mktimeCorrect_normalise
    (by decide) (by decide)).mpr (.inl rfl)

/-- Midnight passes between the time, 23:59, and the date: the start at 02:00 of the new day is
skipped for that of 16 November. -/
theorem not_localStart_midnight :
    DateCorrect (easternEnv 1700024399 1700024399 1700024400 ⟨2023, 11, 16⟩) "EST5".toList twoOClock
      eastern 1700024399 1700024400 ∧ MktimeCorrect normalise ∧
    (calculateStartTime (easternEnv 1700024399 1700024399 1700024400 ⟨2023, 11, 16⟩)).map
      Int32.toInt = some 1700118000 ∧
    ¬ SkipsNoDay eastern twoOClock 1700024399 1700024400 1700118000 := by
  refine ⟨dateCorrect_dateAnswers (by decide) (by decide) rfl,
    mktimeCorrect_normalise, by decide, ?_⟩
  rintro ⟨-, -, hnone⟩
  refine hnone 1700031600 ?_ (by decide)
  show (1700031600 + eastern.seconds) % 86400 = twoOClock.secondOfDay % 86400
  decide

end SoftwareUpdate.MaintenanceManager
