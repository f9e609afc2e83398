import SoftwareUpdate.Helpers.CSettings

/-!
# What `cSettings` persists

A store that is constructed again on the file is to hold the settings the store had, apart from
those with an empty value. The line of a setting is split at its last `=`, so a setting comes
back as it was exactly when its value contains none.
-/

namespace SoftwareUpdate.Helpers

open Misc

/-- A change of the store. -/
inductive SettingOp where
  | setValue (key value : Text)
  | remove (key : Text)
  deriving DecidableEq, Repr

/-- Keys are not empty and contain no `=` and no newline; values contain no newline. -/
def SettingOp.WellFormed : SettingOp → Prop
  | .setValue key value => key ≠ [] ∧ '=' ∉ key ∧ '\n' ∉ key ∧ '\n' ∉ value
  | .remove key => key ≠ [] ∧ '=' ∉ key ∧ '\n' ∉ key

namespace CSettings

variable {s : CSettings} {f : File} {op : SettingOp} {ops : List SettingOp} {content : Text}

def apply (s : CSettings) : SettingOp → CSettings
  | .setValue key value => (s.setValue key value).1
  | .remove key => (s.remove key).1

/-- The store after the changes. -/
def applyAll (s : CSettings) (ops : List SettingOp) : CSettings := ops.foldl apply s

/-- A store constructed on the file has exactly the settings with a value. -/
def Persists (s : CSettings) : Prop :=
  (create s.file false).data = s.data.filterValues (· ≠ [])

/-- A setting whose label and value stay on their line. -/
def OnLine (e : Text × Text) : Prop := '\x00' ∉ e.1 ∧ '\n' ∉ e.1 ∧ '\n' ∉ e.2

theorem create_data (hf : s.file = some f) (hr : f.readable = true) :
    (create s.file false).data = readLines OrderedMap.empty f.content := by
  simp [create, readFromFile, hf, hr]

/-! ## Loaded settings -/

theorem lineSetting_onLine {l : Text} {e : Text × Text} (hl : '\n' ∉ l)
    (h : lineSetting l = some e) : OnLine e ∧ '=' ∉ e.2 := by
  obtain ⟨⟨key, value⟩, hsplit, rfl⟩ := Option.map_eq_some_iff.mp h
  obtain ⟨rfl, hvalue⟩ := splitAtLast_eq_some_iff.mp hsplit
  simp only [List.mem_append, List.mem_cons, not_or] at hl
  exact ⟨⟨null_notMem_cStr, fun hk => hl.1 (mem_of_mem_cStr hk), hl.2.2⟩, hvalue⟩

/-- The settings read from a file stay on their lines, and their values contain no `=`. -/
theorem readLines_onLine :
    ∀ e ∈ (readLines OrderedMap.empty content).entries, OnLine e ∧ '=' ∉ e.2 := by
  rw [readLines_eq_setAll]
  refine OrderedMap.forall_entries_setAll (fun e he => by cases he) fun e he => ?_
  obtain ⟨l, hl, hsetting⟩ := List.mem_filterMap.mp he
  exact lineSetting_onLine (notMem_of_mem_splitOn hl) hsetting

/-! ## The changes -/

theorem setValue_onLine {key value : Text} (h : ∀ e ∈ s.data.entries, OnLine e)
    (hkey : '\n' ∉ key) (hvalue : '\n' ∉ value) :
    ∀ e ∈ (s.data.set (cStr key) value).entries, OnLine e :=
  OrderedMap.forall_entries_set h ⟨null_notMem_cStr, fun hk => hkey (mem_of_mem_cStr hk), hvalue⟩

/-- A write leaves the data as they are. -/
@[simp] theorem writeToFile_data : s.writeToFile.1.data = s.data := by
  unfold writeToFile
  split
  · split <;> rfl
  · rfl

theorem writeToFile_file (hf : s.file = some f) (hw : f.writable = true) :
    s.writeToFile.1.file = some { f with content := writeLines s.data } := by
  simp [writeToFile, hf, hw]

@[simp] theorem setValue_data {key value : Text} :
    (s.setValue key value).1.data = s.data.set (cStr key) value := writeToFile_data

/-- A removed label is gone, so `remove` writes the file. -/
theorem remove_eq_writeToFile {key : Text} : s.remove key =
    writeToFile { s with data := s.data.erase (cStr key) } := by
  simp [remove, contains, OrderedMap.erase_set]

@[simp] theorem remove_data {key : Text} :
    (s.remove key).1.data = s.data.erase (cStr key) := by
  rw [remove_eq_writeToFile]
  exact writeToFile_data

/-- Every change writes all settings to the file. -/
theorem apply_file (hf : s.file = some f) (hw : f.writable = true) :
    (s.apply op).file = some { f with content := writeLines (s.apply op).data } := by
  cases op with
  | setValue key value =>
    rw [apply, setValue_data]
    exact writeToFile_file hf hw
  | remove key =>
    rw [apply, remove_data, remove_eq_writeToFile]
    exact writeToFile_file hf hw

theorem apply_onLine (h : ∀ e ∈ s.data.entries, OnLine e) (hop : op.WellFormed) :
    ∀ e ∈ (s.apply op).data.entries, OnLine e := by
  cases op with
  | setValue key value =>
    obtain ⟨-, -, hkey, hvalue⟩ := hop
    simpa [apply] using setValue_onLine h hkey hvalue
  | remove key =>
    rw [apply, remove_data]
    exact OrderedMap.forall_entries_erase h

theorem applyAll_onLine (h : ∀ e ∈ s.data.entries, OnLine e)
    (hops : ∀ op ∈ ops, op.WellFormed) : ∀ e ∈ (s.applyAll ops).data.entries, OnLine e := by
  induction ops generalizing s with
  | nil => exact h
  | cons op ops ih =>
    exact ih (apply_onLine h (hops op List.mem_cons_self))
      fun op hop => hops op (List.mem_cons_of_mem _ hop)

/-- After at least one change the file holds the lines of the settings. -/
theorem applyAll_file (hf : s.file = some f) (hw : f.writable = true) (hne : ops ≠ []) :
    (s.applyAll ops).file = some { f with content := writeLines (s.applyAll ops).data } := by
  induction ops generalizing s f with
  | nil => exact absurd rfl hne
  | cons op ops ih =>
    show ((s.apply op).applyAll ops).file = _
    have happly : (s.apply op).file = _ := apply_file hf hw
    by_cases hops : ops = []
    · subst hops
      exact happly
    · have hrest := ih happly hw hops
      exact hrest

/-! ## The round trip -/

/-- From a loaded store, the settings come back exactly when no value contains `=`, and, as long
as nothing has been written, no setting of the file is empty. -/
theorem persists_iff (f : File) (hr : f.readable = true) (hw : f.writable = true)
    (ops : List SettingOp) (hops : ∀ op ∈ ops, op.WellFormed) :
    ((create (some f) false).applyAll ops).Persists ↔
      (∀ e ∈ ((create (some f) false).applyAll ops).data.entries, '=' ∉ e.2) ∧
      (ops ≠ [] ∨ ∀ e ∈ ((create (some f) false).applyAll ops).data.entries, e.2 ≠ []) := by
  have hfile : (create (some f) false).file = some f := by simp [create, readFromFile, hr]
  have hdata : (create (some f) false).data = readLines OrderedMap.empty f.content := by
    simp [create, readFromFile, hr]
  have hload : ∀ e ∈ (create (some f) false).data.entries, OnLine e ∧ '=' ∉ e.2 := by
    rw [hdata]
    exact readLines_onLine
  by_cases hne : ops = []
  · -- nothing is written, and the file is read as before
    subst hne
    simp only [Persists, applyAll, List.foldl_nil, hfile, ne_eq, not_true_eq_false, false_or]
    constructor
    · intro h
      refine ⟨fun e he => (hload e he).2, fun e he => ?_⟩
      rw [h] at he
      simpa using (List.mem_filter.mp he).2
    · rintro ⟨-, hvalues⟩
      ext1
      exact (List.filter_eq_self.mpr (by simpa using hvalues)).symm
  · have hlines := applyAll_onLine (fun e he => (hload e he).1) hops
    have hwritten := applyAll_file hfile hw hne
    unfold Persists
    rw [create_data hwritten hr]
    constructor
    · intro h
      refine ⟨fun e he hmem => ?_, .inl hne⟩
      have hvalue : e.2 ≠ [] := by
        intro hnil
        rw [hnil] at hmem
        cases hmem
      have hkept : e ∈ (((create (some f) false).applyAll ops).data.filterValues (· ≠ [])).entries :=
        List.mem_filter.mpr ⟨he, by simpa using hvalue⟩
      rw [← h] at hkept
      exact (readLines_onLine e hkept).2 hmem
    · rintro ⟨hvalues, -⟩
      exact readLines_writeLines (fun e he => ⟨(hlines e he).1, (hlines e he).2.1⟩)
        fun e he => ⟨hvalues e he, (hlines e he).2.2⟩

/-- An empty file in which the opt-out mode is stored and the background flag removed. -/
theorem persists_iff_optOut :
    ((create (some ⟨[], true, true⟩) false).applyAll
      [.setValue "softwareoptout".toList "NONE".toList, .remove "background_flag".toList]).Persists :=
  (persists_iff ⟨[], true, true⟩ rfl rfl
    [.setValue "softwareoptout".toList "NONE".toList, .remove "background_flag".toList]
    (by simp [SettingOp.WellFormed])).mpr (by decide +kernel)

/-- A value with an `=` comes back under another key. -/
theorem not_persists_separator : ∃ op : SettingOp, op.WellFormed ∧
    ¬ ((create (some ⟨[], true, true⟩) false).applyAll [op]).Persists := by
  refine ⟨.setValue "key".toList "a=b".toList, by simp [SettingOp.WellFormed], fun h => ?_⟩
  have hentries := congrArg OrderedMap.entries h
  revert hentries
  decide +kernel

end CSettings

end SoftwareUpdate.Helpers
