import Mathlib.Data.List.TakeWhile
import SoftwareUpdate.Misc.OrderedMap
import SoftwareUpdate.Misc.Split

/-!
# `cSettings`

The settings store of `cSettings.h`: a JSON object in memory and a file of `key=value` lines.
The file is read when the store is constructed and written again after every change. A
`JsonObject` is an insertion-ordered map from labels to values; the plugin stores strings
only, so a value is its `String()`.
-/

namespace SoftwareUpdate.Helpers

open Misc

/-- `std::string`. -/
abbrev Text := List Char

abbrev JsonObject := OrderedMap Text Text

/-- `s.c_str()` where a C string is expected: the text up to the first null character. -/
def cStr (s : Text) : Text := s.takeWhile (· ≠ '\x00')

structure File where
  content : Text
  readable : Bool
  writable : Bool
  deriving DecidableEq, Repr

/-- `cSettings`; the file is `none` when there is no file of that name. -/
structure CSettings where
  data : JsonObject
  file : Option File

namespace CSettings

/-- One turn of the loop of `readFromFile`. -/
def readLine (data : JsonObject) (content : Text) : JsonObject :=
  match splitAtLast '=' content with
  | some (key, value) => data.set (cStr key) value
  | none => data

/-- The loop of `readFromFile`: `std::getline` until the end of the file, which gives the text
before, between and behind the newlines. -/
def readLines (data : JsonObject) (content : Text) : JsonObject :=
  (content.splitOn '\n').foldl readLine data

def readFromFile (s : CSettings) : CSettings × Bool :=
  match s.file with
  | some f =>
      if f.readable then ({ s with data := readLines s.data f.content }, true) else (s, false)
  | none => (s, false)

/-- The line `key=value` of a setting. -/
def writeLine (e : Text × Text) : Text := e.1 ++ '=' :: e.2

/-- The loop of `writeToFile`, which leaves the settings with an empty value out. -/
def writeLines (data : JsonObject) : Text :=
  (data.entries.filter fun e => e.2 ≠ []).flatMap fun e => writeLine e ++ ['\n']

def writeToFile (s : CSettings) : CSettings × Bool :=
  match s.file with
  | some f =>
      if f.writable then
        ({ s with file := some { f with content := writeLines s.data } }, true)
      else
        (s, false)
  | none => (s, false)

/-- The constructor; `created` tells whether a file that is not there can be created. -/
def create (file : Option File) (created : Bool) : CSettings :=
  let (s, read) := readFromFile { data := OrderedMap.empty, file := file }
  if read then
    s
  else
    match s.file with
    | some _ => s
    | none => if created then { s with file := some ⟨[], true, true⟩ } else s

/-- `getValue(key).String()`; a missing label has the empty value. -/
def getValue (s : CSettings) (key : Text) : Text := (s.data.get? (cStr key)).getD []

def setValue (s : CSettings) (key value : Text) : CSettings × Bool :=
  writeToFile { s with data := s.data.set (cStr key) value }

def contains (s : CSettings) (key : Text) : Bool :=
  match s.data.get? (cStr key) with
  | some value => value ≠ []
  | none => false

def remove (s : CSettings) (key : Text) : CSettings × Bool :=
  -- the empty value is a work-around for a label that cannot be removed
  let s' := { s with data := (s.data.set (cStr key) []).erase (cStr key) }
  if s'.contains key = false then s'.writeToFile else (s', false)

/-! ## Reading and writing lines -/

/-- The setting in a line. -/
def lineSetting (content : Text) : Option (Text × Text) :=
  (splitAtLast '=' content).map fun p => (cStr p.1, p.2)

theorem readLines_eq_setAll {data : JsonObject} {content : Text} :
    readLines data content = data.setAll ((content.splitOn '\n').filterMap lineSetting) := by
  unfold readLines
  induction content.splitOn '\n' generalizing data with
  | nil => rfl
  | cons l ls ih =>
    rw [List.foldl_cons, ih]
    unfold readLine
    cases hl : splitAtLast '=' l with
    | none => simp [lineSetting, hl]
    | some p => simp [lineSetting, hl, OrderedMap.setAll]

theorem cStr_eq_self {s : Text} (h : '\x00' ∉ s) : cStr s = s := by
  unfold cStr
  rw [List.takeWhile_eq_self_iff]
  intro c hc
  simp only [decide_eq_true_eq]
  rintro rfl
  exact h hc

theorem mem_of_mem_cStr {s : Text} {c : Char} (h : c ∈ cStr s) : c ∈ s :=
  (List.takeWhile_prefix _).subset h

theorem null_notMem_cStr {s : Text} : '\x00' ∉ cStr s := by
  intro h
  simpa using List.mem_takeWhile_imp h

/-- A line is read as the setting it was written from. -/
theorem lineSetting_writeLine {e : Text × Text} (hkey : '\x00' ∉ e.1) (hvalue : '=' ∉ e.2) :
    lineSetting (writeLine e) = some e := by
  simp [lineSetting, writeLine, splitAtLast_append hvalue, cStr_eq_self hkey]

/-- The settings with a value are read from the lines they were written to. -/
theorem readLines_writeLines {data : JsonObject}
    (hkey : ∀ e ∈ data.entries, '\x00' ∉ e.1 ∧ '\n' ∉ e.1)
    (hvalue : ∀ e ∈ data.entries, '=' ∉ e.2 ∧ '\n' ∉ e.2) :
    readLines OrderedMap.empty (writeLines data) = data.filterValues (· ≠ []) := by
  have hlines : writeLines data = ((data.filterValues (· ≠ [])).entries.map writeLine).flatMap
      fun l => l ++ ['\n'] := by
    simp [writeLines, OrderedMap.filterValues, List.flatMap_map]
  have hmem (e : Text × Text) (he : e ∈ (data.filterValues (· ≠ [])).entries) :
      e ∈ data.entries := List.mem_of_mem_filter he
  rw [readLines_eq_setAll, hlines, splitOn_terminated]
  · have hread : ((data.filterValues (· ≠ [])).entries.map writeLine).filterMap lineSetting =
        (data.filterValues (· ≠ [])).entries := by
      rw [List.filterMap_map]
      refine (List.filterMap_congr fun e he => ?_).trans List.filterMap_some
      exact lineSetting_writeLine (hkey e (hmem e he)).1 (hvalue e (hmem e he)).1
    have hempty : [[]].filterMap lineSetting = [] := rfl
    rw [List.filterMap_append, hread, hempty, List.append_nil, OrderedMap.setAll_empty_entries]
  · intro l hl
    obtain ⟨e, he, rfl⟩ := List.mem_map.mp hl
    have hk := (hkey e (hmem e he)).2
    have hv := (hvalue e (hmem e he)).2
    simp [writeLine, hk, hv]

end CSettings

end SoftwareUpdate.Helpers
