import SoftwareUpdate.MaintenanceManager.TimeZone

/-!
# Arbitrary time zone files

Whatever is in the three files, `getTimeZone` leaves terminated strings in the buffers and a
PLATCO device gets a zone and an offset. It compares the device name before it knows that there
is one: the pointer is null when the first `DEVICE_NAME` line has no value.
-/

namespace SoftwareUpdate.MaintenanceManager

open Misc Helpers

variable {size : ℕ} {b b' : ZoneBuffers} {files : TimeZoneFiles} {deviceName buffer line : Text}
  {lines : List Text} {s : Text} {delim : Char}

def ZoneBuffers.Terminated (size : ℕ) (b : ZoneBuffers) : Prop :=
  Helpers.Terminated size b.zoneValue ∧ Helpers.Terminated size b.timeZone ∧
    Helpers.Terminated size b.timeZoneOffset

/-- No null pointer is passed to `strcmp`, the buffers hold terminated strings, and those of the
zone and of the offset are not empty when the device name is PLATCO. -/
def ZoneSafe (deviceName : Text) (b : ZoneBuffers) (files : TimeZoneFiles) : Prop :=
  ∃ b', getTimeZone bufferSize deviceName b files = some b' ∧ b'.Terminated bufferSize ∧
    ∀ properties, files.deviceProperties = some properties →
      comparedDeviceName deviceName properties = some platco →
        cStr b'.zoneValue ≠ [] ∧ cStr b'.timeZoneOffset ≠ []

/-- The first line for the device name, if there is one, has a value: behind its first `=` there
is something else than newlines. -/
def DeviceNameGiven (properties : Text) : Prop :=
  ∀ line, (fgetsPieces 128 properties).find? isDeviceNameLine = some line →
    ∃ name value, cStr line = name ++ '=' :: value ∧ '=' ∉ name ∧ ∃ c ∈ value, c ≠ '\n'

/-! ## The buffers -/

theorem terminated_readFirstLine (h : Helpers.Terminated size buffer) (hsize : 0 < size) :
    Helpers.Terminated size (readFirstLine size buffer s) := by
  unfold readFirstLine
  cases hs : fgets size buffer s with
  | some t => exact (h.fgets hsize hs).stripNewline
  | none => exact h

theorem terminated_readTimeZone {dst : Option Text} (h : Helpers.Terminated size buffer)
    (hsize : 0 < size) : Helpers.Terminated size (readTimeZone size buffer dst) := by
  unfold readTimeZone
  cases dst with
  | some content =>
    have hfirst := terminated_readFirstLine (s := content) h hsize
    simp only
    split
    · exact terminated_copyText hfirst.1 hsize
    · exact hfirst
  | none => exact terminated_copyText h.1 hsize

theorem terminated_readZoneLine (h : b.Terminated size) (hsize : 0 < size) :
    (readZoneLine size b line).Terminated size := by
  obtain ⟨hzone, htz, hoffset⟩ := h
  unfold readZoneLine
  split
  · simp only
    split
    · exact ⟨terminated_copyText hzone.1 hsize, htz, terminated_copyText hoffset.1 hsize⟩
    · exact ⟨terminated_copyText hzone.1 hsize, htz, hoffset⟩
  · exact ⟨hzone, htz, hoffset⟩

theorem terminated_findZone (h : b.Terminated size) (hsize : 0 < size) :
    (findZone size b lines).Terminated size := by
  induction lines with
  | nil => exact h
  | cons line lines ih =>
    unfold findZone
    simp only
    split
    · exact terminated_readZoneLine h hsize
    · exact ih

theorem terminated_lookUpZone (files : TimeZoneFiles) (h : b.Terminated size) (hsize : 0 < size) :
    (lookUpZone size b files).Terminated size := by
  obtain ⟨hzone, htz, hoffset⟩ := h
  have hread : { b with timeZone := readTimeZone size b.timeZone files.timeZoneDST }.Terminated
      size := ⟨hzone, terminated_readTimeZone htz hsize, hoffset⟩
  unfold lookUpZone
  cases files.timeZoneOffsetMap with
  | some content => exact terminated_findZone hread hsize
  | none => exact hread

theorem terminated_platcoTimeZone (h : b.Terminated size) (hsize : 0 < size) :
    (platcoTimeZone size b files).Terminated size := by
  obtain ⟨hzone, htz, hoffset⟩ := terminated_lookUpZone files h hsize
  unfold platcoTimeZone
  simp only
  split
  · exact ⟨terminated_copyText hzone.1 hsize, htz, terminated_copyText hoffset.1 hsize⟩
  · exact ⟨hzone, htz, hoffset⟩

theorem terminated_otherTimeZone (h : b.Terminated size) (hsize : 0 < size) :
    (otherTimeZone size b files).Terminated size := by
  unfold otherTimeZone
  split
  · exact ⟨terminated_readFirstLine h.1 hsize, h.2⟩
  · exact h

/-- What `getTimeZone` leaves in the buffers is terminated. -/
theorem terminated_getTimeZone (h : b.Terminated size) (hsize : 0 < size)
    (hb : getTimeZone size deviceName b files = some b') : b'.Terminated size := by
  unfold getTimeZone at hb
  split at hb
  · split at hb
    · split at hb
      · cases hb
        exact terminated_platcoTimeZone h hsize
      · cases hb
        exact terminated_otherTimeZone h hsize
    · cases hb
  · cases hb
    exact h

/-- A zone or an offset that is missing is replaced by the defaults. -/
theorem platcoTimeZone_ne_nil (h : b.Terminated bufferSize) :
    cStr (platcoTimeZone bufferSize b files).zoneValue ≠ [] ∧
      cStr (platcoTimeZone bufferSize b files).timeZoneOffset ≠ [] := by
  obtain ⟨hzone, -, hoffset⟩ := terminated_lookUpZone files h (by decide)
  unfold platcoTimeZone
  simp only
  split
  · simp only
    rw [cStr_copyText hzone.1 (by decide) (by decide),
      cStr_copyText hoffset.1 (by decide) (by decide)]
    decide
  · next hfound => exact not_or.mp hfound

/-! ## The device name -/

theorem strtok_eq_none_iff : strtok delim s = none ↔ ∀ c ∈ s, c = delim := by
  unfold strtok
  simp only
  split
  · next hnil =>
    have hall := List.dropWhile_eq_nil_iff.mp hnil
    simpa using hall
  · next hne =>
    constructor
    · intro h
      cases h
    · intro hall
      exact absurd (List.dropWhile_eq_nil_iff.mpr (by simpa using hall)) hne

/-- The first token of a line for the device name ends at its first `=`. -/
theorem strtok_deviceNameLine (h : isDeviceNameLine line = true) : strtok '=' (cStr line) =
    some ((cStr line).takeWhile (· ≠ '='), ((cStr line).dropWhile (· ≠ '=')).tail) := by
  have htake : (cStr line).take 11 = deviceNameKey := by
    have hkey : (cStr deviceNameKey).take 11 = deviceNameKey := by decide
    rw [← hkey]
    exact beq_iff_eq.mp h
  have hfirst : ∃ rest, cStr line = 'D' :: rest := by
    cases hs : cStr line with
    | nil =>
      rw [hs] at htake
      cases htake
    | cons c rest =>
      have hhead : deviceNameKey.head? = some 'D' := by decide
      rw [← htake, hs] at hhead
      obtain rfl : c = 'D' := Option.some.inj hhead
      exact ⟨rest, rfl⟩
  obtain ⟨rest, hrest⟩ := hfirst
  have hstart : (cStr line).dropWhile (· = '=') = cStr line := by
    rw [hrest, List.dropWhile_cons_of_neg (by decide)]
  unfold strtok
  simp only [hstart]
  rw [if_neg (by simp [hrest])]

/-- The device name is a null pointer exactly when the first line for it has no value. -/
theorem findDeviceName_eq_none_iff : findDeviceName deviceName lines = none ↔
    ∃ line, lines.find? isDeviceNameLine = some line ∧
      ∀ c ∈ ((cStr line).dropWhile (· ≠ '=')).tail, c = '\n' := by
  induction lines with
  | nil => simp [findDeviceName]
  | cons line lines ih =>
    unfold findDeviceName
    by_cases hline : isDeviceNameLine line = true
    · rw [if_pos hline, strtok_deviceNameLine hline]
      simp [hline, strtok_eq_none_iff]
    · rw [if_neg hline, ih]
      simp [hline]

theorem tail_dropWhile {name value : Text} (h : delim ∉ name) :
    ((name ++ delim :: value).dropWhile (· ≠ delim)).tail = value := by
  have hname : ∀ c ∈ name, decide (c ≠ delim) = true := by
    intro c hc
    simp only [decide_eq_true_eq]
    rintro rfl
    exact h hc
  rw [List.dropWhile_append_of_pos hname, List.dropWhile_cons_of_neg (by simp), List.tail_cons]

theorem deviceNameGiven_iff (deviceName : Text) {properties : Text} : DeviceNameGiven properties ↔
    comparedDeviceName deviceName properties ≠ none := by
  unfold comparedDeviceName
  rw [ne_eq, findDeviceName_eq_none_iff]
  unfold DeviceNameGiven
  constructor
  · rintro h ⟨line, hline, hrest⟩
    obtain ⟨name, value, hsplit, hname, c, hc, hne⟩ := h line hline
    rw [hsplit, tail_dropWhile hname] at hrest
    exact hne (hrest c hc)
  · intro h line hline
    have hvalue : ¬ ∀ c ∈ ((cStr line).dropWhile (· ≠ '=')).tail, c = '\n' :=
      fun hall => h ⟨line, hline, hall⟩
    by_cases hmem : '=' ∈ cStr line
    · obtain ⟨name, value, hsplit, hname⟩ := List.eq_append_cons_of_mem hmem
      rw [hsplit, tail_dropWhile hname] at hvalue
      exact ⟨name, value, hsplit, hname, by simpa using hvalue⟩
    · -- without `=` nothing is left for the second token
      have hnil : (cStr line).dropWhile (· ≠ '=') = [] := by
        rw [List.dropWhile_eq_nil_iff]
        intro c hc
        simp only [decide_eq_true_eq]
        rintro rfl
        exact hmem hc
      rw [hnil] at hvalue
      exact absurd (by simp) hvalue

/-- The null pointer is the only way for `getTimeZone` not to return. -/
theorem getTimeZone_eq_none_iff : getTimeZone size deviceName b files = none ↔
    ∃ properties, files.deviceProperties = some properties ∧
      comparedDeviceName deviceName properties = none := by
  unfold getTimeZone
  cases files.deviceProperties with
  | none => simp
  | some properties =>
    cases hname : comparedDeviceName deviceName properties with
    | none => simp [hname]
    | some name =>
      by_cases hplatco : name = platco
      · simp [hname, hplatco]
      · simp [hname, hplatco]

/-- The device properties, if they can be opened, have a value in the first line for the device
name. -/
def TimeZoneFiles.DeviceNameGiven (files : TimeZoneFiles) : Prop :=
  ∀ properties, files.deviceProperties = some properties →
    MaintenanceManager.DeviceNameGiven properties

theorem getTimeZone_ne_none_iff (size : ℕ) (deviceName : Text) (b : ZoneBuffers) :
    getTimeZone size deviceName b files ≠ none ↔ files.DeviceNameGiven := by
  rw [ne_eq, getTimeZone_eq_none_iff]
  unfold TimeZoneFiles.DeviceNameGiven
  simp only [deviceNameGiven_iff deviceName]
  push Not
  rfl

/-- A PLATCO device gets a zone and an offset. -/
theorem getTimeZone_platco {properties : Text} (hb : b.Terminated bufferSize)
    (hproperties : files.deviceProperties = some properties)
    (hname : comparedDeviceName deviceName properties = some platco)
    (hrun : getTimeZone bufferSize deviceName b files = some b') :
    cStr b'.zoneValue ≠ [] ∧ cStr b'.timeZoneOffset ≠ [] := by
  unfold getTimeZone at hrun
  simp only [hproperties, hname, if_true] at hrun
  cases hrun
  exact platcoTimeZone_ne_nil hb

/-- Whatever the files hold, `getTimeZone` is safe exactly when the device properties, if they
can be opened, have a value in the first line for the device name. -/
theorem zoneSafe_iff (deviceName : Text) (b : ZoneBuffers) (hb : b.Terminated bufferSize)
    (files : TimeZoneFiles) : ZoneSafe deviceName b files ↔ files.DeviceNameGiven := by
  rw [← getTimeZone_ne_none_iff bufferSize deviceName b]
  unfold ZoneSafe
  constructor
  · rintro ⟨b', hb', -, -⟩ hnone
    rw [hb'] at hnone
    cases hnone
  · intro h
    obtain ⟨b', hb'⟩ := Option.ne_none_iff_exists'.mp h
    refine ⟨b', hb', terminated_getTimeZone hb (by decide) hb', ?_⟩
    intro properties hproperties hname
    exact getTimeZone_platco hb hproperties hname hb'

theorem terminated_zero : ZoneBuffers.zero.Terminated bufferSize :=
  ⟨by unfold Terminated; decide, by unfold Terminated; decide,
    by unfold Terminated; decide⟩

/-- A PLATCO device without the other two files. -/
theorem zoneSafe_platco :
    ZoneSafe [] ZoneBuffers.zero ⟨some "DEVICE_NAME=PLATCO\n".toList, none, none⟩ := by
  refine (zoneSafe_iff [] ZoneBuffers.zero terminated_zero
    ⟨some "DEVICE_NAME=PLATCO\n".toList, none, none⟩).mpr ?_
  intro properties hproperties
  obtain rfl : "DEVICE_NAME=PLATCO\n".toList = properties := Option.some.inj hproperties
  rw [deviceNameGiven_iff []]
  show comparedDeviceName [] _ ≠ none
  decide

/-- The line has no value, and the null pointer is compared. -/
theorem not_zoneSafe_noValue :
    ¬ ZoneSafe [] ZoneBuffers.zero ⟨some "DEVICE_NAME=\n".toList, none, none⟩ := by
  rintro ⟨b, hb, -⟩
  have hnull : getTimeZone bufferSize [] ZoneBuffers.zero
      ⟨some "DEVICE_NAME=\n".toList, none, none⟩ = none := by decide
  rw [hnull] at hb
  cases hb

end SoftwareUpdate.MaintenanceManager
