import SoftwareUpdate.Helpers.CSettings
import SoftwareUpdate.Misc.Calendar
import SoftwareUpdate.Misc.Decimal

/-!
# The C library

What the plugins use of it: strings in `char` buffers, numbers in texts and broken-down times.
A byte is a character, a buffer is the list of its bytes, and the string in it ends at the first
null. `int` has 32 bits and `long` 64.
-/

namespace SoftwareUpdate.Helpers

open Misc

variable {size i : ℕ} {buffer s t a b rest : Text} {c delim : Char} {n : ℤ}

/-! ## Streams -/

/-- A text through its first newline. -/
def throughNewline : Text → Text
  | [] => []
  | c :: s => if c = '\n' then [c] else c :: throughNewline s

/-- What `fgets` with `size` bytes takes from the front of a stream. -/
def fgetsPiece (size : ℕ) (s : Text) : Text := throughNewline (s.take (size - 1))

def fgetsPiecesFrom (size : ℕ) : ℕ → Text → List Text
  | 0, _ => []
  | fuel + 1, s =>
      if s = [] then
        []
      else
        fgetsPiece size s :: fgetsPiecesFrom size fuel (s.drop (fgetsPiece size s).length)

/-- What `fgets` takes from a stream, call by call, until its end. -/
def fgetsPieces (size : ℕ) (s : Text) : List Text := fgetsPiecesFrom size s.length s

/-! ## Buffers -/

/-- The buffer with the bytes of `s` written from its start on. -/
def overwrite (buffer s : Text) : Text := s ++ buffer.drop s.length

/-- `fgets`; none at the end of the stream, when the buffer stays as it is. -/
def fgets (size : ℕ) (buffer s : Text) : Option Text :=
  if s = [] then none else some (overwrite buffer (fgetsPiece size s ++ ['\x00']))

/-- `strncpy`, which fills up with nulls. -/
def strncpy (size : ℕ) (buffer s : Text) : Text :=
  overwrite buffer ((s.take size).rightpad size '\x00')

/-- `strncpy` of all but the last byte, and a null in the last. -/
def copyText (size : ℕ) (buffer s : Text) : Text :=
  (strncpy (size - 1) buffer s).set (size - 1) '\x00'

/-- The newline at the end of the string is replaced by a null. -/
def stripNewline (buffer : Text) : Text :=
  if (cStr buffer).getLast? = some '\n' then
    buffer.set ((cStr buffer).length - 1) '\x00'
  else
    buffer

/-- `strtok` with one delimiter: the next token and what is left behind it. -/
def strtok (delim : Char) (s : Text) : Option (Text × Text) :=
  let s' := s.dropWhile (· = delim)
  if s' = [] then none else some (s'.takeWhile (· ≠ delim), (s'.dropWhile (· ≠ delim)).tail)

/-- `strncmp` with a count is 0. -/
def strncmpEq (s t : Text) (count : ℕ) : Bool := (cStr s).take count == (cStr t).take count

/-- A buffer of the size with a string that ends in it. -/
def Terminated (size : ℕ) (buffer : Text) : Prop := buffer.length = size ∧ '\x00' ∈ buffer

/-! ## Numbers -/

def saturate (n : ℤ) : ℤ := max (-2 ^ 63) (min n (2 ^ 63 - 1))

/-- `strtol` to the base 10. -/
def strtol (s : Text) : ℤ :=
  match readInt s with
  | some (n, _) => saturate n
  | none => 0

def atoi (s : Text) : Int32 := Int32.ofInt (strtol s)

/-- `std::stoi`; none when it throws. -/
def stoi (s : Text) : Option ℤ :=
  match readInt s with
  | some (n, _) => if -2 ^ 31 ≤ n ∧ n < 2 ^ 31 then some n else none
  | none => none

/-- `%d` of `fscanf` and `sscanf`, and the rest of the input. -/
def scanInt (s : Text) : Option (Int32 × Text) :=
  (readInt s).map fun p => (Int32.ofInt (saturate p.1), p.2)

/-- Ordinary characters in a format have to be there. -/
def scanText (expected s : Text) : Option Text :=
  if expected.isPrefixOf s then some (s.drop expected.length) else none

/-- White space in a format matches any amount of it. -/
def scanSpace (s : Text) : Text := s.dropWhile isSpace

/-- `snprintf` with the formatted text `s`. -/
def snprintf (size : ℕ) (s : Text) : Text := s.take (size - 1)

/-! ## Broken-down times -/

/-- `struct tm`, without what `mktime` ignores. -/
structure Tm where
  tmYear : Int32
  tmMon : Int32
  tmMday : Int32
  tmHour : Int32
  tmMin : Int32
  tmSec : Int32
  tmIsdst : Int32
  deriving DecidableEq, Repr

/-- The date; months outside the year are in another one. -/
def Tm.date (tm : Tm) : Date where
  year := tm.tmYear.toInt + 1900 + tm.tmMon.toInt / 12
  month := tm.tmMon.toInt % 12 + 1
  day := tm.tmMday.toInt

def Tm.ofDate (date : Date) (hour min sec : ℤ) : Tm where
  tmYear := Int32.ofInt (date.year - 1900)
  tmMon := Int32.ofInt (date.month - 1)
  tmMday := Int32.ofInt date.day
  tmHour := Int32.ofInt hour
  tmMin := Int32.ofInt min
  tmSec := Int32.ofInt sec
  tmIsdst := 0

/-- `gmtime_r`; none when the year is no `int`. -/
def gmtime (time : ℤ) : Option Tm :=
  let date := Date.ofDays (time / 86400)
  if -2 ^ 31 ≤ date.year - 1900 ∧ date.year - 1900 < 2 ^ 31 then
    some (Tm.ofDate date (time % 86400 / 3600) (time % 3600 / 60) (time % 60))
  else
    none

def timegm (tm : Tm) : ℤ :=
  tm.date.toDays * 86400 + tm.tmHour.toInt * 3600 + tm.tmMin.toInt * 60 + tm.tmSec.toInt

/-! ## What the calls leave in a buffer -/

theorem length_throughNewline_le : (throughNewline s).length ≤ s.length := by
  induction s with
  | nil => simp [throughNewline]
  | cons c s ih =>
    unfold throughNewline
    split
    · simp
    · simpa using ih

theorem length_fgetsPiece_le : (fgetsPiece size s).length ≤ size - 1 :=
  length_throughNewline_le.trans (by simp)

theorem cStr_append_null (h : '\x00' ∉ a) : cStr (a ++ '\x00' :: b) = a := by
  have ha : ∀ c ∈ a, decide (c ≠ '\x00') = true := by
    intro c hc
    simp only [decide_eq_true_eq]
    rintro rfl
    exact h hc
  unfold cStr
  rw [List.takeWhile_append_of_pos ha]
  simp

theorem length_overwrite (h : s.length ≤ buffer.length) :
    (overwrite buffer s).length = buffer.length := by
  simp only [overwrite, List.length_append, List.length_drop]
  omega

theorem Terminated.length_cStr_lt (h : Terminated size buffer) : (cStr buffer).length < size := by
  obtain ⟨a, b, hbuffer, ha⟩ := List.eq_append_cons_of_mem h.2
  rw [hbuffer, cStr_append_null ha, ← h.1, hbuffer]
  simp

theorem Terminated.fgets (h : Terminated size buffer) (hsize : 0 < size)
    (hs : fgets size buffer s = some t) : Terminated size t := by
  unfold Helpers.fgets at hs
  split at hs
  · cases hs
  · cases hs
    have hlength : (fgetsPiece size s).length ≤ size - 1 := length_fgetsPiece_le
    refine ⟨?_, by simp [overwrite]⟩
    rw [length_overwrite, h.1]
    rw [List.length_append, List.length_singleton, h.1]
    omega

/-- What fits is copied, and the rest of the buffer is null. -/
theorem copyText_eq (h : buffer.length = size) (hsize : 0 < size) :
    copyText size buffer s = (s.take (size - 1)).rightpad (size - 1) '\x00' ++ ['\x00'] := by
  have hpad : ((s.take (size - 1)).rightpad (size - 1) '\x00').length = size - 1 := by
    simp only [List.rightpad, List.length_append, List.length_take, List.length_replicate]
    omega
  have hlast : (buffer.drop (size - 1)).length = 1 := by
    rw [List.length_drop]
    omega
  obtain ⟨c, hc⟩ := List.length_eq_one_iff.mp hlast
  unfold copyText strncpy overwrite
  rw [hpad, hc, List.set_append_right _ _ (by omega), hpad]
  simp

theorem terminated_copyText (h : buffer.length = size) (hsize : 0 < size) :
    Terminated size (copyText size buffer s) := by
  rw [copyText_eq h hsize]
  refine ⟨?_, by simp⟩
  simp only [List.rightpad, List.length_append, List.length_take, List.length_replicate,
    List.length_singleton]
  omega

theorem cStr_copyText (h : buffer.length = size) (hs : '\x00' ∉ s) (hlength : s.length < size) :
    cStr (copyText size buffer s) = s := by
  rw [copyText_eq h (by omega), List.take_of_length_le (by omega), List.rightpad]
  cases hpad : size - 1 - s.length with
  | zero =>
    rw [List.replicate_zero, List.append_nil]
    exact cStr_append_null hs
  | succ n =>
    rw [List.replicate_succ, List.append_assoc, List.cons_append]
    exact cStr_append_null hs

theorem Terminated.stripNewline (h : Terminated size buffer) :
    Terminated size (stripNewline buffer) := by
  unfold Helpers.stripNewline
  split
  · have hlength := h.length_cStr_lt
    have hindex : (cStr buffer).length - 1 < buffer.length := by
      rw [h.1]
      omega
    exact ⟨by rw [List.length_set, h.1], List.mem_set hindex _⟩
  · exact h

/-! ## Reading a line -/

theorem throughNewline_line (h : '\n' ∉ s) : throughNewline (s ++ '\n' :: t) = s ++ ['\n'] := by
  induction s with
  | nil => simp [throughNewline]
  | cons c s ih =>
    simp only [List.mem_cons, not_or] at h
    simp [throughNewline, Ne.symm h.1, ih h.2]

theorem throughNewline_eq_self (h : '\n' ∉ s) : throughNewline s = s := by
  induction s with
  | nil => rfl
  | cons c s ih =>
    simp only [List.mem_cons, not_or] at h
    simp [throughNewline, Ne.symm h.1, ih h.2]

/-- A line that fits the buffer is read with its newline. -/
theorem fgetsPiece_line (h : '\n' ∉ s) (hlength : s.length + 1 < size) :
    fgetsPiece size (s ++ ['\n']) = s ++ ['\n'] := by
  unfold fgetsPiece
  rw [List.take_of_length_le (by rw [List.length_append, List.length_singleton]; omega)]
  exact throughNewline_line h

/-- Without its newline, a line is read up to the size of the buffer. -/
theorem takeWhile_fgetsPiece_line (hline : '\n' ∉ s) (hnull : '\x00' ∉ s) :
    (cStr (fgetsPiece size (s ++ ['\n']))).takeWhile (· ≠ '\n') = s.take (size - 1) := by
  have hall {t : Text} (ht : '\n' ∉ t) : ∀ c ∈ t, decide (c ≠ '\n') = true := by
    intro c hc
    simp only [decide_eq_true_eq]
    rintro rfl
    exact ht hc
  by_cases hlength : s.length + 1 < size
  · have hcStr : cStr (s ++ ['\n']) = s ++ ['\n'] := CSettings.cStr_eq_self (by simpa using hnull)
    rw [fgetsPiece_line hline hlength, hcStr, List.takeWhile_append_of_pos (hall hline),
      List.take_of_length_le (by omega)]
    simp
  · have htake : (s ++ ['\n']).take (size - 1) = s.take (size - 1) :=
      List.take_append_of_le_length (by omega)
    have hnotLine : '\n' ∉ s.take (size - 1) := fun h => hline (List.mem_of_mem_take h)
    have hnotNull : '\x00' ∉ s.take (size - 1) := fun h => hnull (List.mem_of_mem_take h)
    unfold fgetsPiece
    rw [htake, throughNewline_eq_self hnotLine, CSettings.cStr_eq_self hnotNull,
      List.takeWhile_eq_self_iff.mpr (hall hnotLine)]

/-- A number on a line of its own. -/
theorem strtol_formatInt_line {w : ℕ} (h : -2 ^ 63 ≤ n ∧ n < 2 ^ 63) :
    strtol (formatInt w n ++ ['\n']) = n := by
  unfold strtol
  rw [readInt_formatInt (by simp)]
  unfold saturate
  simp only
  omega

/-- A number is scanned up to a character that is no digit. -/
theorem scanInt_formatInt {w : ℕ} (h : -2 ^ 63 ≤ n ∧ n < 2 ^ 63)
    (hrest : ∀ c ∈ rest.head?, c.isDigit = false) :
    scanInt (formatInt w n ++ rest) = some (Int32.ofInt n, rest) := by
  have hsaturate : saturate n = n := by
    unfold saturate
    omega
  unfold scanInt
  rw [readInt_formatInt hrest, Option.map_some, hsaturate]

theorem scanInt_formatInt_nil {w : ℕ} (h : -2 ^ 63 ≤ n ∧ n < 2 ^ 63) :
    scanInt (formatInt w n) = some (Int32.ofInt n, []) := by
  have hscan : scanInt (formatInt w n ++ []) = some (Int32.ofInt n, []) :=
    scanInt_formatInt h (by simp)
  rwa [List.append_nil] at hscan

/-! ## What the conversions of times give -/

theorem toInt_ofInt {n : ℤ} (h : -2 ^ 31 ≤ n ∧ n < 2 ^ 31) : (Int32.ofInt n).toInt = n :=
  Int32.toInt_ofInt_of_le h.1 h.2

theorem monthLength_le {y m : ℤ} : Date.monthLength y m ≤ 31 := by
  unfold Date.monthLength
  split
  · split <;> omega
  · split <;> omega

theorem date_ofDate {date : Date} (hour min sec : ℤ)
    (hyear : -2 ^ 31 ≤ date.year - 1900 ∧ date.year - 1900 < 2 ^ 31) (hvalid : date.Valid) :
    (Tm.ofDate date hour min sec).date = date := by
  obtain ⟨hfirst, hlast, hday, hlength⟩ := hvalid
  have hle := monthLength_le (y := date.year) (m := date.month)
  unfold Tm.date Tm.ofDate
  simp only
  rw [toInt_ofInt hyear, toInt_ofInt (by omega), toInt_ofInt (by omega)]
  ext
  · simp only
    omega
  · simp only
    omega
  · rfl

theorem timegm_timeOfDay {tm : Tm} {hour min sec : Int32} :
    timegm { tm with tmHour := hour, tmMin := min, tmSec := sec } =
      tm.date.toDays * 86400 + hour.toInt * 3600 + min.toInt * 60 + sec.toInt := rfl

/-- With another time of the day, the broken-down time is on the same day. -/
theorem timegm_of_gmtime {time : ℤ} {tm : Tm} {hour min sec : Int32} (h : gmtime time = some tm) :
    timegm { tm with tmHour := hour, tmMin := min, tmSec := sec } =
      time / 86400 * 86400 + hour.toInt * 3600 + min.toInt * 60 + sec.toInt := by
  unfold gmtime at h
  simp only at h
  split at h
  · next hyear =>
    cases h
    have hdate := date_ofDate (time % 86400 / 3600) (time % 3600 / 60) (time % 60) hyear
      Date.valid_ofDays
    have hday := congrArg Date.toDays hdate
    rw [Date.toDays_ofDays] at hday
    rw [timegm_timeOfDay, hday]
  · cases h

theorem gmtime_ne_none {time : ℤ} (h : -2 ^ 40 ≤ time ∧ time < 2 ^ 40) : gmtime time ≠ none := by
  have hyear := Date.year_ofDays (n := time / 86400)
  have hint : -2 ^ 31 ≤ (Date.ofDays (time / 86400)).year - 1900 ∧
      (Date.ofDays (time / 86400)).year - 1900 < 2 ^ 31 := by omega
  unfold gmtime
  simp only [if_pos hint]
  simp

end SoftwareUpdate.Helpers
