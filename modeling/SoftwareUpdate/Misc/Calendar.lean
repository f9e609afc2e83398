import Mathlib.Data.Int.Notation
import Mathlib.Tactic.IntervalCases

/-!
# The Gregorian calendar

Dates and day numbers, counted from 1 January 1970. The year is taken to begin in March, so that
the leap day is its last: 400 years are then four centuries, a century is 25 times four years
and four years are four, of which the last one of each may be a day longer or shorter.
-/

namespace SoftwareUpdate.Misc

/-- A date; the months and the days are counted from one. -/
@[ext] structure Date where
  year : ℤ
  month : ℤ
  day : ℤ
  deriving DecidableEq, Repr

namespace Date

variable {date : Date} {n y m : ℤ}

def isLeapYear (y : ℤ) : Prop := y % 4 = 0 ∧ (y % 100 ≠ 0 ∨ y % 400 = 0)

instance : Decidable (isLeapYear y) := inferInstanceAs (Decidable (_ ∧ _))

def monthLength (y m : ℤ) : ℤ :=
  if m = 2 then
    if isLeapYear y then 29 else 28
  else if m = 4 ∨ m = 6 ∨ m = 9 ∨ m = 11 then
    30
  else
    31

/-- The day exists. -/
def Valid (date : Date) : Prop :=
  1 ≤ date.month ∧ date.month ≤ 12 ∧ 1 ≤ date.day ∧ date.day ≤ monthLength date.year date.month

instance : Decidable date.Valid := inferInstanceAs (Decidable (_ ∧ _))

/-- The days before the month `m`, counted from March, in its year. -/
def daysBeforeMonth (m : ℤ) : ℤ := (153 * m + 2) / 5

/-- The days from 1 March of the year 0 to 1 March of the year `y`. -/
def daysBeforeYear (y : ℤ) : ℤ := 365 * y + y / 4 - y / 100 + y / 400

/-- The number of the day; the days behind the end of a month are those of the next one. -/
def toDays (date : Date) : ℤ :=
  if date.month ≤ 2 then
    daysBeforeYear (date.year - 1) + daysBeforeMonth (date.month + 9) + (date.day - 1) - 719468
  else
    daysBeforeYear date.year + daysBeforeMonth (date.month - 3) + (date.day - 1) - 719468

/-- The year, from March on, that the day `n` after 1 March of the year 0 is in. -/
def yearOf (n : ℤ) : ℤ :=
  let inEra := n % 146097
  let century := min (inEra / 36524) 3
  let inCentury := inEra - 36524 * century
  let four := inCentury / 1461
  let inFour := inCentury % 1461
  400 * (n / 146097) + 100 * century + 4 * four + min (inFour / 365) 3

/-- The date whose year and month are counted from March. -/
def ofMarch (y m d : ℤ) : Date := if m < 10 then ⟨y, m + 3, d⟩ else ⟨y + 1, m - 9, d⟩

/-- The month, counted from March, that the day `d` of the year is in. -/
def monthOf (d : ℤ) : ℤ := (5 * d + 2) / 153

def ofDays (n : ℤ) : Date :=
  let year := yearOf (n + 719468)
  let dayOfYear := n + 719468 - daysBeforeYear year
  ofMarch year (monthOf dayOfYear) (dayOfYear - daysBeforeMonth (monthOf dayOfYear) + 1)

/-! ## The year of a day -/

/-- The days before a year that is given by its centuries, groups of four and single years. -/
theorem daysBeforeYear_pieces {e c f a : ℤ} (hc : 0 ≤ c ∧ c ≤ 3) (hf : 0 ≤ f ∧ f ≤ 24)
    (ha : 0 ≤ a ∧ a ≤ 3) :
    daysBeforeYear (400 * e + 100 * c + 4 * f + a) =
      146097 * e + 36524 * c + 1461 * f + 365 * a := by
  unfold daysBeforeYear
  omega

/-- The leap day ends the last of four years, apart from that of three centuries. -/
theorem isLeapYear_pieces {e c f a : ℤ} (hc : 0 ≤ c ∧ c ≤ 3) (hf : 0 ≤ f ∧ f ≤ 24)
    (ha : 0 ≤ a ∧ a ≤ 3) :
    isLeapYear (400 * e + 100 * c + 4 * f + a + 1) ↔ a = 3 ∧ (f ≠ 24 ∨ c = 3) := by
  unfold isLeapYear
  omega

/-- A year has 366 days when the leap day at its end, in the year `y + 1`, exists. -/
theorem daysBeforeYear_succ :
    daysBeforeYear (y + 1) = daysBeforeYear y + if isLeapYear (y + 1) then 366 else 365 := by
  by_cases hleap : isLeapYear (y + 1)
  · rw [if_pos hleap]
    unfold daysBeforeYear
    unfold isLeapYear at hleap
    omega
  · rw [if_neg hleap]
    unfold daysBeforeYear
    unfold isLeapYear at hleap
    omega

/-- The day is in the year it is said to be in. -/
theorem yearOf_spec : daysBeforeYear (yearOf n) ≤ n ∧ n < daysBeforeYear (yearOf n + 1) := by
  obtain ⟨c, hc⟩ : ∃ c, c = min (n % 146097 / 36524) 3 := ⟨_, rfl⟩
  obtain ⟨f, hf⟩ : ∃ f, f = (n % 146097 - 36524 * c) / 1461 := ⟨_, rfl⟩
  obtain ⟨a, ha⟩ : ∃ a, a = min ((n % 146097 - 36524 * c) % 1461 / 365) 3 := ⟨_, rfl⟩
  have hyear : yearOf n = 400 * (n / 146097) + 100 * c + 4 * f + a := by
    rw [ha, hf, hc]
    rfl
  have hcentury : (0 ≤ c ∧ c ≤ 3) ∧ 36524 * c ≤ n % 146097 ∧
      (n % 146097 < 36524 * c + 36524 ∨ c = 3 ∧ n % 146097 = 146096) := by omega
  have hfour : (0 ≤ f ∧ f ≤ 24) ∧ 36524 * c + 1461 * f ≤ n % 146097 := by omega
  have hsingle : (0 ≤ a ∧ a ≤ 3) ∧ 36524 * c + 1461 * f + 365 * a ≤ n % 146097 ∧
      (n % 146097 < 36524 * c + 1461 * f + 365 * a + 365 ∨
        a = 3 ∧ n % 146097 = 36524 * c + 1461 * f + 1460) := by omega
  have hstart := daysBeforeYear_pieces (e := n / 146097) hcentury.1 hfour.1 hsingle.1
  have hleap := isLeapYear_pieces (e := n / 146097) hcentury.1 hfour.1 hsingle.1
  clear hc hf ha
  rw [daysBeforeYear_succ, hyear, hstart]
  refine ⟨by omega, ?_⟩
  by_cases hlong : a = 3 ∧ (f ≠ 24 ∨ c = 3)
  · rw [if_pos (hleap.mpr hlong)]
    omega
  · -- without a leap day the four years, or the century, are a day short
    rw [if_neg (mt hleap.mp hlong)]
    omega

theorem yearOf_bounds : 400 * (n / 146097) ≤ yearOf n ∧ yearOf n ≤ 400 * (n / 146097) + 399 := by
  unfold yearOf
  simp only
  omega

/-! ## The month of a day -/

theorem monthOf_spec {d : ℤ} (h : 0 ≤ d ∧ d ≤ 365) : (0 ≤ monthOf d ∧ monthOf d ≤ 11) ∧
    daysBeforeMonth (monthOf d) ≤ d ∧ d < daysBeforeMonth (monthOf d + 1) := by
  unfold monthOf daysBeforeMonth
  omega

theorem toDays_ofMarch {d : ℤ} (h : 0 ≤ m ∧ m ≤ 11) :
    (ofMarch y m d).toDays = daysBeforeYear y + daysBeforeMonth m + (d - 1) - 719468 := by
  unfold ofMarch toDays
  by_cases hm : m < 10
  · have hmarch : ¬ m + 3 ≤ 2 := by omega
    simp [hm, hmarch]
  · have hjanuary : m - 9 ≤ 2 := by omega
    simp [hm, hjanuary]

/-- Only February, the last month, depends on the year. -/
theorem monthLength_ofMarch {d : ℤ} (h : 0 ≤ m ∧ m ≤ 11) :
    monthLength (ofMarch y m d).year (ofMarch y m d).month =
      if m < 11 then daysBeforeMonth (m + 1) - daysBeforeMonth m
      else if isLeapYear (y + 1) then 29 else 28 := by
  obtain ⟨k, rfl⟩ := Int.eq_ofNat_of_zero_le h.1
  have hk : k ≤ 11 := by omega
  interval_cases k <;> rfl

theorem month_ofMarch {d : ℤ} (h : 0 ≤ m ∧ m ≤ 11) :
    1 ≤ (ofMarch y m d).month ∧ (ofMarch y m d).month ≤ 12 := by
  unfold ofMarch
  by_cases hm : m < 10
  · simp only [if_pos hm]
    omega
  · simp only [if_neg hm]
    omega

@[simp] theorem day_ofMarch {d : ℤ} : (ofMarch y m d).day = d := by
  unfold ofMarch
  split <;> rfl

/-! ## Dates and day numbers -/

theorem dayOfYear_bounds : 0 ≤ n - daysBeforeYear (yearOf n) ∧ n - daysBeforeYear (yearOf n) ≤
    if isLeapYear (yearOf n + 1) then 365 else 364 := by
  have hyear := yearOf_spec (n := n)
  rw [daysBeforeYear_succ] at hyear
  split at hyear
  · next hleap =>
    rw [if_pos hleap]
    omega
  · next hleap =>
    rw [if_neg hleap]
    omega

/-- The day number of the date of a day is that of the day. -/
theorem toDays_ofDays : (ofDays n).toDays = n := by
  have hday := dayOfYear_bounds (n := n + 719468)
  have hmonth := monthOf_spec (d := n + 719468 - daysBeforeYear (yearOf (n + 719468)))
    (by split at hday <;> omega)
  unfold ofDays
  simp only
  rw [toDays_ofMarch hmonth.1]
  omega

theorem valid_ofDays : (ofDays n).Valid := by
  have hday := dayOfYear_bounds (n := n + 719468)
  have hmonth := monthOf_spec (d := n + 719468 - daysBeforeYear (yearOf (n + 719468)))
    (by split at hday <;> omega)
  unfold ofDays
  simp only
  generalize n + 719468 - daysBeforeYear (yearOf (n + 719468)) = d at hday hmonth ⊢
  obtain ⟨hfirst, hlast⟩ := month_ofMarch (y := yearOf (n + 719468))
    (d := d - daysBeforeMonth (monthOf d) + 1) hmonth.1
  refine ⟨hfirst, hlast, by rw [day_ofMarch]; omega, ?_⟩
  rw [monthLength_ofMarch hmonth.1, day_ofMarch]
  by_cases hm : monthOf d < 11
  · rw [if_pos hm]
    omega
  · -- the days of the year behind the end of January
    have hfebruary : daysBeforeMonth (monthOf d) = 337 := by
      obtain h : monthOf d = 11 := by omega
      rw [h]
      rfl
    rw [if_neg hm]
    split at hday <;> rename_i hleap
    · rw [if_pos hleap]
      omega
    · rw [if_neg hleap]
      omega

theorem year_ofDays : 400 * ((n + 719468) / 146097) ≤ (ofDays n).year ∧
    (ofDays n).year ≤ 400 * ((n + 719468) / 146097) + 400 := by
  have hyear := yearOf_bounds (n := n + 719468)
  unfold ofDays ofMarch
  simp only
  split
  · simp only
    omega
  · simp only
    omega

theorem toDays_nextDay : toDays { date with day := date.day + 1 } = date.toDays + 1 := by
  unfold toDays
  simp only
  split <;> omega

theorem toDays_bounds (hmonth : 1 ≤ date.month ∧ date.month ≤ 12)
    (hday : 0 ≤ date.day ∧ date.day ≤ 100) :
    daysBeforeYear date.year - 500 ≤ date.toDays + 719468 ∧
      date.toDays + 719468 ≤ daysBeforeYear date.year + 500 := by
  have hstep := daysBeforeYear_succ (y := date.year - 1)
  rw [sub_add_cancel] at hstep
  unfold toDays daysBeforeMonth
  split at hstep <;> split <;> omega

/-- The day number keeps the year, up to the 400 years that are looked at together. -/
theorem year_ofDays_toDays (hmonth : 1 ≤ date.month ∧ date.month ≤ 12)
    (hday : 0 ≤ date.day ∧ date.day ≤ 100) : date.year - 402 ≤ (ofDays date.toDays).year ∧
      (ofDays date.toDays).year ≤ date.year + 402 := by
  have hyear := year_ofDays (n := date.toDays)
  have hdays := toDays_bounds hmonth hday
  unfold daysBeforeYear at hdays
  omega

end Date

end SoftwareUpdate.Misc
