import SoftwareUpdate.MaintenanceManager.Proofs.StartTimes

/-!
# `date` and `mktime` in a zone of a fixed offset

What is assumed of the two: `date` prints and converts the local time of the zone whenever it
answers, and `mktime` normalises a date. From that, what the branch for local time reads.
-/

namespace SoftwareUpdate.MaintenanceManager

open Misc Helpers

variable {env : StartTimeEnv} {conf : StartConfig} {zone rest s : Text} {tm : Tm} {date : Date}
  {offset t t1 t2 e : ℤ} {n : ℕ}

/-- The seconds by which local time is ahead of UTC; the hours of an offset have at most three
digits. -/
structure ZoneOffset where
  seconds : ℤ
  bounded : -604800 < seconds ∧ seconds < 604800

variable {zo : ZoneOffset}

def ZoneOffset.day (zo : ZoneOffset) (t : ℤ) : ℤ := (t + zo.seconds) / 86400

def ZoneOffset.secondOfDay (zo : ZoneOffset) (t : ℤ) : ℤ := (t + zo.seconds) % 86400

/-- The local time as `HHMM`. -/
def ZoneOffset.hhmm (zo : ZoneOffset) (t : ℤ) : ℤ :=
  zo.secondOfDay t / 3600 * 100 + zo.secondOfDay t % 3600 / 60

/-- The epoch of the configured time on the local day. -/
def ZoneOffset.startOn (zo : ZoneOffset) (conf : StartConfig) (day : ℤ) : ℤ :=
  day * 86400 + conf.secondOfDay - zo.seconds

def dateText (date : Date) : Text :=
  formatInt 4 date.year ++ '-' :: formatInt 2 date.month ++ '-' :: formatInt 2 date.day

/-- The command that asks for the epoch of the configured time on the date. -/
def epochText (zone : Text) (date : Date) (conf : StartConfig) : Text :=
  "TZ=".toList ++ zone ++ " date -d '".toList ++ dateText date ++
    ' ' :: formatInt 2 conf.startHr.toInt ++ ':' :: formatInt 2 conf.startMin.toInt ++
    ":00' +%s".toList

/-- Whenever `date` answers, it answers correctly: the local time at `t1`, the local date at `t2`,
whose year is an `int`, and the epoch of the configured time on a date, which it only converts
when it exists. -/
structure DateCorrect (env : StartTimeEnv) (zone : Text) (conf : StartConfig) (zo : ZoneOffset)
    (t1 t2 : ℤ) : Prop where
  time : ∀ out, env.popen 0 (currentTimeCommand zone) = some out →
    out = formatInt 4 (zo.hhmm t1) ++ ['\n']
  today : ∀ out, env.popen 1 (currentDateCommand zone) = some out →
    out = dateText (Date.ofDays (zo.day t2)) ++ ['\n'] ∧
      (Date.ofDays (zo.day t2)).year < 2 ^ 31
  epoch : ∀ n date out, 2 ≤ n → env.popen n (epochText zone date conf) = some out →
    date.Valid ∧ out = formatInt 0 (zo.startOn conf date.toDays) ++ ['\n']

/-- The fields are those of the date. -/
def HasDate (tm : Tm) (date : Date) : Prop :=
  tm.tmYear.toInt + 1900 = date.year ∧ tm.tmMon.toInt + 1 = date.month ∧
    tm.tmMday.toInt = date.day

/-- `mktime` normalises the date, unless its year gets too large for the field. -/
def MktimeCorrect (mktime : Tm → Tm) : Prop :=
  ∀ tm, (Date.ofDays tm.date.toDays).year - 1900 < 2 ^ 31 →
    -2 ^ 31 ≤ (Date.ofDays tm.date.toDays).year - 1900 →
    HasDate (mktime tm) (Date.ofDays tm.date.toDays)

/-- A month, and a day that may be behind its end. -/
def NearMonth (date : Date) : Prop :=
  (1 ≤ date.month ∧ date.month ≤ 12) ∧ 0 ≤ date.day ∧ date.day ≤ 99

theorem nearMonth_of_valid (h : date.Valid) : NearMonth date := by
  obtain ⟨hfirst, hlast, hday, hlength⟩ := h
  have hle := monthLength_le (y := date.year) (m := date.month)
  exact ⟨⟨hfirst, hlast⟩, by omega, by omega⟩

/-- The next day keeps the year, up to the 400 years that are looked at together. -/
theorem NearMonth.year_nextDay (h : NearMonth date) :
    date.year - 402 ≤ (Date.ofDays (date.toDays + 1)).year ∧
      (Date.ofDays (date.toDays + 1)).year ≤ date.year + 402 := by
  obtain ⟨hmonth, hday⟩ := h
  rw [← Date.toDays_nextDay]
  exact Date.year_ofDays_toDays hmonth (by simp only; omega)

/-! ## The next day -/

theorem HasDate.date_eq (h : HasDate tm date) (hmonth : NearMonth date) : tm.date = date := by
  obtain ⟨hyear, hmon, hmday⟩ := h
  obtain ⟨hmonth, -⟩ := hmonth
  unfold Tm.date
  ext
  · simp only
    omega
  · simp only
    omega
  · exact hmday

theorem HasDate.addDay (h : HasDate tm date) (hmonth : NearMonth date) :
    HasDate { tm with tmMday := tm.tmMday + 1 } { date with day := date.day + 1 } := by
  obtain ⟨hyear, hmon, hmday⟩ := h
  obtain ⟨-, hday⟩ := hmonth
  refine ⟨hyear, hmon, ?_⟩
  simp only
  rw [Int32.toInt_add, Int32.toInt_one, hmday, Int.bmod_eq_of_le (by omega) (by omega)]

/-- The date of the next day has the next number. -/
theorem HasDate.nextDay (hmktime : MktimeCorrect env.mktime) (h : HasDate tm date)
    (hmonth : NearMonth date) (hyear : -2 ^ 30 ≤ date.year ∧ date.year < 2 ^ 31 + 1000) :
    HasDate (nextDay env tm) (Date.ofDays (date.toDays + 1)) := by
  have hadd := h.addDay hmonth
  have hdate : ({ tm with tmMday := tm.tmMday + 1 } : Tm).date =
      { date with day := date.day + 1 } := by
    rw [← (h.date_eq hmonth)]
    unfold Tm.date
    ext
    · rfl
    · rfl
    · show (tm.tmMday + 1).toInt = tm.tmMday.toInt + 1
      rw [hadd.2.2, h.2.2]
  have hbound := hmonth.year_nextDay
  have hnext := hmktime { tm with tmMday := tm.tmMday + 1 }
  rw [hdate, Date.toDays_nextDay] at hnext
  exact hnext (by omega) (by omega)

/-! ## The commands for an epoch -/

/-- The year that is printed: it is added up as an `int`. -/
def printedDate (date : Date) : Date :=
  { date with year := if date.year < 2 ^ 31 then date.year else date.year - 2 ^ 32 }

theorem printedDate_eq (h : date.year < 2 ^ 31) : printedDate date = date := by
  unfold printedDate
  rw [if_pos h]

theorem HasDate.printedYear (h : HasDate tm date) :
    (tm.tmYear + 1900).toInt = (printedDate date).year := by
  have hlow := tm.tmYear.le_toInt
  have hhigh := tm.tmYear.toInt_lt
  have hfield : (1900 : Int32).toInt = 1900 := by decide
  rw [Int32.toInt_add, hfield, h.1, Int.bmod_def]
  rw [← sub_eq_iff_eq_add.mpr h.1.symm] at hlow hhigh
  unfold printedDate
  simp only
  split <;> split <;> omega

theorem HasDate.printedMonth (h : HasDate tm date) (hmonth : NearMonth date) :
    (tm.tmMon + 1).toInt = date.month := by
  have hfirst := hmonth.1
  have hmon := h.2.1
  rw [Int32.toInt_add, Int32.toInt_one, hmon, Int.bmod_eq_of_le (by omega) (by omega)]

theorem HasDate.epochCommand_eq (h : HasDate tm date) (hmonth : NearMonth date)
    (hzone : zone.length ≤ 49) (hvalid : conf.Valid) :
    epochCommand zone tm conf = epochText zone (printedDate date) conf := by
  obtain ⟨hhr, hmin, -⟩ := hvalid
  have hlength : (dateText (printedDate date)).length ≤ 31 := by
    have hyear : (formatInt 4 (printedDate date).year).length ≤ 11 := by
      have hlow := (tm.tmYear + 1900).le_toInt
      have hhigh := (tm.tmYear + 1900).toInt_lt
      rw [h.printedYear] at hlow hhigh
      exact length_formatInt_le (by omega) (by omega) (by omega)
    have hmon := length_formatInt_two_le (i := date.month) (by have hm := hmonth.1; omega)
    have hday := length_formatInt_two_le hmonth.2
    unfold dateText
    simp only [List.length_append, List.length_cons]
    show _ + ((formatInt 2 date.month).length + 1) + ((formatInt 2 date.day).length + 1) ≤ 31
    omega
  have hscheduled : scheduledDate tm = dateText (printedDate date) := by
    unfold scheduledDate snprintf
    rw [h.printedYear, h.printedMonth hmonth, h.2.2]
    exact List.take_of_length_le hlength
  have hhour := length_formatInt_two_le (i := conf.startHr.toInt) (by omega)
  have hminute := length_formatInt_two_le (i := conf.startMin.toInt) (by omega)
  have htz : ("TZ=".toList).length = 3 := by decide
  have hstart : (" date -d '".toList).length = 10 := by decide
  have hend : (":00' +%s".toList).length = 8 := by decide
  unfold epochCommand epochText
  rw [hscheduled]
  refine List.take_of_length_le ?_
  simp only [List.length_append, List.length_cons]
  omega

/-- What is read of an answer: the epoch of the configured time on the date, which exists. -/
theorem DateCorrect.readEpoch_eq (hdate : DateCorrect env zone conf zo t1 t2) (hvalid : conf.Valid)
    (hn : 2 ≤ n) (hyear : -2 ^ 33 ≤ date.year ∧ date.year ≤ 2 ^ 33)
    (h : readEpoch env n (epochText zone date conf) = some e) :
    date.Valid ∧ e = zo.startOn conf date.toDays ∧ 0 < e := by
  have hpos := (readEpoch_bounds h).1
  have hsecond := hvalid.secondOfDay_bounds
  have hoffset := zo.bounded
  unfold readEpoch readCommand at h
  cases hout : env.popen n (epochText zone date conf) with
  | none =>
    rw [hout] at h
    cases h
  | some out =>
    obtain ⟨hexists, rfl⟩ := hdate.epoch n date out hn hout
    have hnear := nearMonth_of_valid hexists
    have hdays := Date.toDays_bounds hnear.1 (by have hday := hnear.2; omega)
    have hsize : -2 ^ 62 ≤ zo.startOn conf date.toDays ∧
        zo.startOn conf date.toDays < 2 ^ 62 := by
      unfold Date.daysBeforeYear at hdays
      unfold ZoneOffset.startOn
      omega
    have hlength : (formatInt 0 (zo.startOn conf date.toDays)).length ≤ 21 :=
      length_formatInt_le (by omega) (by omega) (by omega)
    have hline : '\n' ∉ formatInt 0 (zo.startOn conf date.toDays) :=
      notMem_formatInt (by decide) (by decide)
    have hnull : '\x00' ∉ formatInt 0 (zo.startOn conf date.toDays) ++ ['\n'] := by
      simp [notMem_formatInt]
    have hread : strtol (cStr (fgetsPiece 32 (formatInt 0 (zo.startOn conf date.toDays) ++
        ['\n']))) = zo.startOn conf date.toDays := by
      rw [fgetsPiece_line hline (by omega), CSettings.cStr_eq_self hnull,
        strtol_formatInt_line (by omega)]
    rw [hout] at h
    simp only [List.append_eq_nil_iff, List.cons_ne_self, and_false, if_false, hread] at h
    split at h
    · cases h
    · cases h
      exact ⟨hexists, rfl, hpos⟩

/-- A date of a very large year has no epoch that is an `int`. -/
theorem DateCorrect.le_of_large (hdate : DateCorrect env zone conf zo t1 t2) (hvalid : conf.Valid)
    (hzone : zone.length ≤ 49) (hn : 2 ≤ n) (htm : HasDate tm date) (hmonth : NearMonth date)
    (hlarge : 10 ^ 8 ≤ date.year) (h : readEpoch env n (epochCommand zone tm conf) = some e) :
    2 ^ 31 ≤ e := by
  have hlow := tm.tmYear.le_toInt
  have hhigh := tm.tmYear.toInt_lt
  have hfield := htm.1
  have hsecond := hvalid.secondOfDay_bounds
  have hoffset := zo.bounded
  rw [htm.epochCommand_eq hmonth hzone hvalid] at h
  have hprinted : (printedDate date).year = date.year ∧ date.year < 2 ^ 31 ∨
      (printedDate date).year = date.year - 2 ^ 32 ∧ 2 ^ 31 ≤ date.year := by
    unfold printedDate
    simp only
    split <;> omega
  obtain ⟨hexists, he, hpos⟩ := hdate.readEpoch_eq hvalid hn (by omega) h
  have hnear := nearMonth_of_valid hexists
  have hdays := Date.toDays_bounds hnear.1 (by have hday := hnear.2; omega)
  unfold Date.daysBeforeYear at hdays
  unfold ZoneOffset.startOn at he
  omega

/-! ## The current time and date -/

theorem DateCorrect.atoi_eq (hdate : DateCorrect env zone conf zo t1 t2)
    (h : readCommand env 0 8 (currentTimeCommand zone) = some s) : (atoi s).toInt = zo.hhmm t1 := by
  have hbounds : 0 ≤ zo.hhmm t1 ∧ zo.hhmm t1 < 10 ^ 4 := by
    unfold ZoneOffset.hhmm ZoneOffset.secondOfDay
    omega
  unfold readCommand at h
  cases hout : env.popen 0 (currentTimeCommand zone) with
  | none =>
    rw [hout] at h
    cases h
  | some out =>
    obtain rfl := hdate.time out hout
    have hlength : (formatInt 4 (zo.hhmm t1)).length ≤ 5 :=
      length_formatInt_le (by omega) (by omega) (by omega)
    have hline : '\n' ∉ formatInt 4 (zo.hhmm t1) := notMem_formatInt (by decide) (by decide)
    have hnull : '\x00' ∉ formatInt 4 (zo.hhmm t1) ++ ['\n'] := by simp [notMem_formatInt]
    rw [hout] at h
    simp only [List.append_eq_nil_iff, List.cons_ne_self, and_false, if_false] at h
    obtain rfl := Option.some.inj h
    unfold atoi
    rw [fgetsPiece_line hline (by omega), CSettings.cStr_eq_self hnull,
      strtol_formatInt_line (by omega), toInt_ofInt (by omega)]

/-- The date is read up to the size of its buffer. -/
theorem DateCorrect.today_eq (hdate : DateCorrect env zone conf zo t1 t2)
    (h : readCommand env 1 16 (currentDateCommand zone) = some s) :
    s.takeWhile (· ≠ '\n') = (dateText (Date.ofDays (zo.day t2))).take 15 ∧
      (Date.ofDays (zo.day t2)).year < 2 ^ 31 := by
  unfold readCommand at h
  cases hout : env.popen 1 (currentDateCommand zone) with
  | none =>
    rw [hout] at h
    cases h
  | some out =>
    obtain ⟨rfl, hyear⟩ := hdate.today out hout
    have hline : '\n' ∉ dateText (Date.ofDays (zo.day t2)) := by
      simp [dateText, notMem_formatInt]
    have hnull : '\x00' ∉ dateText (Date.ofDays (zo.day t2)) := by
      simp [dateText, notMem_formatInt]
    rw [hout] at h
    simp only [List.append_eq_nil_iff, List.cons_ne_self, and_false, if_false] at h
    obtain rfl := Option.some.inj h
    exact ⟨takeWhile_fgetsPiece_line hline hnull, hyear⟩

theorem scanText_dash : scanText "-".toList ('-' :: s) = some s := by
  have hdash : "-".toList = ['-'] := by decide
  simp [scanText, hdash]

/-- The three fields of a date, of which the last one is what can be scanned of the rest. -/
theorem readDate_eq {year month : ℤ} {day : Int32} (hyear : -2 ^ 63 ≤ year ∧ year < 2 ^ 63)
    (hmonth : -2 ^ 63 ≤ month ∧ month < 2 ^ 63) (hday : scanInt rest = some (day, [])) :
    readDate (formatInt 4 year ++ '-' :: formatInt 2 month ++ '-' :: rest) =
      some ⟨Int32.ofInt year - 1900, Int32.ofInt month - 1, day, 0, 0, 0, -1⟩ := by
  have hfirst : scanInt (formatInt 4 year ++ '-' :: formatInt 2 month ++ '-' :: rest) =
      some (Int32.ofInt year, '-' :: formatInt 2 month ++ '-' :: rest) := by
    rw [List.append_assoc]
    exact scanInt_formatInt hyear (by simp)
  have hsecond : scanInt (formatInt 2 month ++ '-' :: rest) =
      some (Int32.ofInt month, '-' :: rest) := scanInt_formatInt hmonth (by simp)
  unfold readDate
  simp only [hfirst, List.cons_append, scanText_dash, hsecond, hday, Option.bind_eq_bind,
    Option.bind_some, Option.pure_def]

theorem scanInt_digits (hdigits : ∀ c ∈ s, c.isDigit) (hne : s ≠ []) (hlength : s.length ≤ 2) :
    ∃ k : ℤ, 0 ≤ k ∧ k ≤ 99 ∧ scanInt s = some (Int32.ofInt k, []) := by
  have hlt := ofDigitChars_lt hdigits
  have hbound : Nat.ofDigitChars 10 s 0 < 100 :=
    lt_of_lt_of_le hlt (Nat.pow_le_pow_right (by omega) hlength)
  have hfirst : ∀ c ∈ s.head?, c.isDigit := fun c hc => hdigits c (List.mem_of_mem_head? hc)
  have hread : readNat (s ++ []) = some (Nat.ofDigitChars 10 s 0, []) :=
    readNat_append hdigits hne (by simp)
  have hsaturate : saturate (Nat.ofDigitChars 10 s 0 : ℤ) = Nat.ofDigitChars 10 s 0 := by
    unfold saturate
    omega
  rw [List.append_nil] at hread
  refine ⟨Nat.ofDigitChars 10 s 0, by omega, by omega, ?_⟩
  unfold scanInt
  rw [readInt_of_isDigit hfirst, hread, Option.map_some, Option.map_some, hsaturate]

/-- A date that is read through the buffer keeps its year and month, and its day when the year has
at most nine digits. -/
theorem readDate_take (hvalid : date.Valid) (hyear : 0 ≤ date.year ∧ date.year < 2 ^ 31) :
    ∃ day tm, readDate ((dateText date).take 15) = some tm ∧ HasDate tm { date with day := day } ∧
      0 ≤ day ∧ day ≤ 99 ∧ (date.year < 10 ^ 9 → day = date.day) := by
  have hnear := nearMonth_of_valid hvalid
  obtain ⟨⟨hfirst, hlast⟩, hday, hdayLast⟩ := hnear
  have hyearLength : (formatInt 4 date.year).length ≤ 10 := by
    rw [formatInt_of_nonneg hyear.1]
    exact length_padded_le (by omega) (by omega) (by omega)
  have hmonthLength : (formatInt 2 date.month).length ≤ 2 := by
    rw [formatInt_of_nonneg (by omega)]
    exact length_padded_le (by omega) (by omega) (by omega)
  have hdayText := formatInt_of_nonneg (w := 2) hday
  have hdayLength : (formatInt 2 date.day).length ≤ 2 := by
    rw [hdayText]
    exact length_padded_le (by omega) (by omega) (by omega)
  obtain ⟨k, hk⟩ : ∃ k, k = 15 - (formatInt 4 date.year ++ '-' :: formatInt 2 date.month ++
      ['-']).length := ⟨_, rfl⟩
  have hlength : (formatInt 4 date.year ++ '-' :: formatInt 2 date.month ++ ['-']).length =
      (formatInt 4 date.year).length + (formatInt 2 date.month).length + 2 := by
    simp only [List.length_append, List.length_cons, List.length_nil]
    omega
  have htake : (dateText date).take 15 = formatInt 4 date.year ++ '-' ::
      formatInt 2 date.month ++ '-' :: (formatInt 2 date.day).take k := by
    calc (dateText date).take 15
        = ((formatInt 4 date.year ++ '-' :: formatInt 2 date.month ++ ['-']) ++
            formatInt 2 date.day).take 15 := by simp [dateText]
      _ = (formatInt 4 date.year ++ '-' :: formatInt 2 date.month ++ ['-']) ++
            (formatInt 2 date.day).take k := by
        rw [List.take_append, List.take_of_length_le (by omega), hk]
      _ = _ := by simp
  have hfields {day : ℤ} (h : 0 ≤ day ∧ day ≤ 99) : HasDate ⟨Int32.ofInt date.year - 1900,
      Int32.ofInt date.month - 1, Int32.ofInt day, 0, 0, 0, -1⟩ { date with day := day } := by
    have hbase : (1900 : Int32).toInt = 1900 := by decide
    refine ⟨?_, ?_, toInt_ofInt (by omega)⟩
    · simp only
      rw [Int32.toInt_sub, toInt_ofInt (by omega), hbase, Int.bmod_eq_of_le (by omega) (by omega)]
      omega
    · simp only
      rw [Int32.toInt_sub, toInt_ofInt (by omega), Int32.toInt_one,
        Int.bmod_eq_of_le (by omega) (by omega)]
      omega
  by_cases hlarge : date.year < 10 ^ 9
  · have hshort : (formatInt 4 date.year).length ≤ 9 := by
      rw [formatInt_of_nonneg hyear.1]
      exact length_padded_le (by omega) (by omega) (by omega)
    have hwhole : (formatInt 2 date.day).take k = formatInt 2 date.day :=
      List.take_of_length_le (by omega)
    have hscan : scanInt (formatInt 2 date.day) = some (Int32.ofInt date.day, []) :=
      scanInt_formatInt_nil (by omega)
    refine ⟨date.day, _, ?_, hfields ⟨hday, hdayLast⟩, hday, hdayLast, fun _ => rfl⟩
    rw [htake, hwhole]
    exact readDate_eq (by omega) (by omega) hscan
  · obtain ⟨day, hlow, hhigh, hscan⟩ := scanInt_digits (s := (formatInt 2 date.day).take k)
      (by
        intro c hc
        have hmem := List.mem_of_mem_take hc
        rw [hdayText] at hmem
        exact isDigit_of_mem_padded hmem)
      (by
        simp only [ne_eq, List.take_eq_nil_iff, not_or]
        exact ⟨by omega, formatInt_ne_nil⟩)
      ((List.length_take_le' ..).trans hdayLength)
    refine ⟨day, _, ?_, hfields ⟨hlow, hhigh⟩, hlow, hhigh, fun h => absurd h hlarge⟩
    rw [htake]
    exact readDate_eq (by omega) (by omega) hscan

end SoftwareUpdate.MaintenanceManager
