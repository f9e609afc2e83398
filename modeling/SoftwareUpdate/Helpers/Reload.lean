import SoftwareUpdate.Helpers.RoundTrip

/-!
# Values that survive a restart

A setting has the same value in the store and in a store that is constructed again on its file,
from the loading of the file on, as long as only values without `=` and newlines are stored.
-/

namespace SoftwareUpdate.Helpers

open Misc

namespace CSettings

variable {s : CSettings} {f : File} {key key' value value' : Text} {data : JsonObject}

/-- Under `key` there is `value`, now and when the file is loaded again. -/
structure Stores (s : CSettings) (key value : Text) : Prop where
  lines : ∀ e ∈ s.data.entries, OnLine e ∧ '=' ∉ e.2
  file : ∃ f, s.file = some f ∧ f.readable = true ∧ f.writable = true
  now : s.getValue key = value
  reloaded : (create s.file false).getValue key = value

@[simp] theorem create_file (hr : f.readable = true) : (create (some f) false).file = some f := by
  simp [create, readFromFile, hr]

/-- A store that has been loaded stores what it has read. -/
theorem stores_create (key : Text) (hr : f.readable = true) (hw : f.writable = true) :
    (create (some f) false).Stores key ((create (some f) false).getValue key) := by
  refine ⟨?_, ⟨f, create_file hr, hr, hw⟩, rfl, by rw [create_file hr]⟩
  have hdata : (create (some f) false).data = readLines OrderedMap.empty f.content := by
    simp [create, readFromFile, hr]
  rw [hdata]
  exact readLines_onLine

theorem Stores.reload (h : s.Stores key value) : (create s.file false).Stores key value := by
  obtain ⟨f, hf, hr, hw⟩ := h.file
  have hvalue := h.reloaded
  rw [hf] at hvalue ⊢
  have hstores := stores_create key hr hw
  rwa [hvalue] at hstores

/-- A store that has just been written stores what its data are. -/
theorem stores_writeToFile (key : Text) (hlines : ∀ e ∈ data.entries, OnLine e ∧ '=' ∉ e.2)
    (hfile : ∃ f, s.file = some f ∧ f.readable = true ∧ f.writable = true) :
    (writeToFile { s with data := data }).1.Stores key ((data.get? (cStr key)).getD []) := by
  obtain ⟨f, hf, hr, hw⟩ := hfile
  have hwritten := writeToFile_file (s := { s with data := data }) hf hw
  refine ⟨by rwa [writeToFile_data], ⟨_, hwritten, hr, hw⟩, by rw [getValue, writeToFile_data], ?_⟩
  unfold getValue
  rw [create_data hwritten hr, readLines_writeLines, OrderedMap.get?_filterValues]
  · cases data.get? (cStr key) with
    | none => rfl
    | some v =>
      by_cases hv : v = []
      · simp [Option.filter, hv]
      · simp [Option.filter, hv]
  · intro e he
    exact ⟨(hlines e he).1.1, (hlines e he).1.2.1⟩
  · intro e he
    exact ⟨(hlines e he).2, (hlines e he).1.2.2⟩

/-! ## Changes -/

theorem Stores.setValue_lines (h : s.Stores key value) (hkey : '\n' ∉ key')
    (hvalue : '\n' ∉ value' ∧ '=' ∉ value') :
    ∀ e ∈ (s.data.set (cStr key') value').entries, OnLine e ∧ '=' ∉ e.2 :=
  OrderedMap.forall_entries_set h.lines
    ⟨⟨null_notMem_cStr, fun hk => hkey (mem_of_mem_cStr hk), hvalue.1⟩, hvalue.2⟩

theorem Stores.setValue_self (h : s.Stores key value) (hkey : '\n' ∉ key)
    (hvalue : '\n' ∉ value' ∧ '=' ∉ value') : (s.setValue key value').1.Stores key value' := by
  have hstores := stores_writeToFile key (h.setValue_lines hkey hvalue) h.file
  rwa [OrderedMap.get?_set_self] at hstores

theorem Stores.setValue_of_ne (h : s.Stores key value) (hkey : '\n' ∉ key')
    (hvalue : '\n' ∉ value' ∧ '=' ∉ value') (hne : cStr key ≠ cStr key') :
    (s.setValue key' value').1.Stores key value := by
  have hstores := stores_writeToFile key (h.setValue_lines hkey hvalue) h.file
  rw [OrderedMap.get?_set_of_ne hne] at hstores
  have hnow := h.now
  unfold getValue at hnow
  rwa [hnow] at hstores

theorem Stores.remove_self (h : s.Stores key value) : (s.remove key).1.Stores key [] := by
  have hstores := stores_writeToFile key
    (OrderedMap.forall_entries_erase (k := cStr key) h.lines) h.file
  rw [OrderedMap.get?_erase_self] at hstores
  rwa [remove_eq_writeToFile]

theorem Stores.remove_of_ne (h : s.Stores key value) (hne : cStr key ≠ cStr key') :
    (s.remove key').1.Stores key value := by
  have hstores := stores_writeToFile key
    (OrderedMap.forall_entries_erase (k := cStr key') h.lines) h.file
  rw [OrderedMap.get?_erase_of_ne hne] at hstores
  have hnow := h.now
  unfold getValue at hnow
  rw [hnow] at hstores
  rwa [remove_eq_writeToFile]

/-- A setting that is removed and stored again leaves the others alone. -/
theorem Stores.replace_of_ne (h : s.Stores key value) (hkey : '\n' ∉ key')
    (hvalue : '\n' ∉ value' ∧ '=' ∉ value') (hne : cStr key ≠ cStr key') :
    ((s.remove key').1.setValue key' value').1.Stores key value :=
  (h.remove_of_ne hne).setValue_of_ne hkey hvalue hne

end CSettings

end SoftwareUpdate.Helpers
