import Mathlib.Data.List.Flatten
import SoftwareUpdate.Helpers.RoundTrip

/-!
# What `cSettings` keeps of a file

Every change rewrites the file from the settings in memory. A line that no change is about is in
the rewritten file, and in its place among the others, when it is the line of a setting with a
value: it has a `=`, something behind the last one and no null character before it.
-/

namespace SoftwareUpdate.Helpers

open Misc

/-- The label that a change is about. -/
def SettingOp.key : SettingOp → Text
  | .setValue key _ => key
  | .remove key => key

namespace CSettings

variable {s : CSettings} {f : File} {op : SettingOp} {ops : List SettingOp} {content l : Text}
  {b : Text → Bool}

/-- The text before the last `=`. -/
def lineKey (l : Text) : Option Text := (splitAtLast '=' l).map Prod.fst

/-- The label under which the setting in a line is stored: its text as a C string. -/
def lineLabel (l : Text) : Option Text := (lineKey l).map cStr

/-- No change is about the label, and it is the label of one line of the file. -/
def untouchedLabel (content : Text) (ops : List SettingOp) (k : Text) : Bool :=
  (ops.all fun op => cStr op.key ≠ k) &&
    ((lines '\n' content).countP fun l => lineLabel l == some k) = 1

/-- The line has a label, which is untouched. -/
def untouched (content : Text) (ops : List SettingOp) (l : Text) : Bool :=
  (lineLabel l).any (untouchedLabel content ops)

/-- The line has a key without null characters, and a value. -/
def representable (l : Text) : Bool :=
  match splitAtLast '=' l with
  | some (key, value) => '\x00' ∉ key ∧ value ≠ []
  | none => false

/-- The lines in the file after `writeToFile`. -/
def writtenLines (s : CSettings) : List Text :=
  match s.writeToFile.1.file with
  | some f => lines '\n' f.content
  | none => []

theorem lineLabel_eq : lineLabel l = (lineSetting l).map Prod.fst := by
  simp [lineLabel, lineKey, lineSetting, Option.map_map, Function.comp_def]

/-- The setting in a representable line is written as that line. -/
theorem exists_lineSetting (h : representable l = true) :
    ∃ e, lineSetting l = some e ∧ e.2 ≠ [] ∧ writeLine e = l := by
  unfold representable at h
  split at h
  · next key value hl =>
    obtain ⟨hkey, hvalue⟩ : '\x00' ∉ key ∧ value ≠ [] := by simpa using h
    refine ⟨(key, value), ?_, hvalue, ?_⟩
    · simp [lineSetting, hl, cStr_eq_self hkey]
    · exact (splitAtLast_eq_some_iff.mp hl).1.symm
  · exact absurd h (by simp)

/-! ## Other labels -/

/-- The entries under labels that the changes are not about stay as they are. -/
theorem applyAll_filter (h : ∀ op ∈ ops, b (cStr op.key) = false) :
    ((s.applyAll ops).data.entries.filter fun e => b e.1) =
      s.data.entries.filter fun e => b e.1 := by
  induction ops generalizing s with
  | nil => rfl
  | cons op ops ih =>
    have hop : b (cStr op.key) = false := h op List.mem_cons_self
    show (((s.apply op).applyAll ops).data.entries.filter fun e => b e.1) = _
    rw [ih fun op hop => h op (List.mem_cons_of_mem _ hop)]
    cases op with
    | setValue key value =>
      rw [apply, setValue_data]
      exact OrderedMap.filter_putEntry hop
    | remove key =>
      rw [apply, remove_data]
      exact OrderedMap.filter_erase hop

/-- The file that the changes leave is the one that was loaded, with other text in it. -/
theorem applyAll_writable (hf : s.file = some f) (hw : f.writable = true)
    (ops : List SettingOp) :
    ∃ f', (s.applyAll ops).file = some f' ∧ f'.writable = true := by
  by_cases hops : ops = []
  · subst hops
    exact ⟨f, hf, hw⟩
  · exact ⟨_, applyAll_file hf hw hops, hw⟩

/-! ## Lines and settings -/

theorem map_fst_settings {ls : List Text} :
    (ls.filterMap lineSetting).map Prod.fst = ls.filterMap lineLabel := by
  rw [List.map_filterMap]
  exact List.filterMap_congr fun l _ => lineLabel_eq.symm

/-- The labels of single lines are distinct. -/
theorem nodup_single_labels {ls : List Text}
    (h : ∀ k, b k = true → (ls.countP fun l => lineLabel l == some k) = 1) :
    (((ls.filterMap lineSetting).filter fun e => b e.1).map Prod.fst).Nodup := by
  rw [List.nodup_iff_count_le_one]
  intro k
  by_cases hk : b k = true
  · calc (((ls.filterMap lineSetting).filter fun e => b e.1).map Prod.fst).count k
        ≤ ((ls.filterMap lineSetting).map Prod.fst).count k :=
          (List.filter_sublist.map _).count_le k
      _ = ls.countP fun l => lineLabel l == some k := by
          rw [map_fst_settings, List.count_filterMap]
      _ ≤ 1 := (h k hk).le
  · have hno : k ∉ ((ls.filterMap lineSetting).filter fun e => b e.1).map Prod.fst := by
      intro hmem
      obtain ⟨e, he, rfl⟩ := List.mem_map.mp hmem
      exact hk (List.mem_filter.mp he).2
    rw [List.count_eq_zero_of_not_mem hno]
    exact Nat.zero_le 1

/-- Lines that stand for settings are among the lines of these settings, in their order. -/
theorem sublist_writeLine {keep : Text → Bool} {p : Text × Text → Bool}
    (h : ∀ l, keep l = true → ∃ e, lineSetting l = some e ∧ p e = true ∧ writeLine e = l)
    (ls : List Text) :
    (ls.filter keep).Sublist (((ls.filterMap lineSetting).filter p).map writeLine) := by
  induction ls with
  | nil => exact List.Sublist.refl []
  | cons l ls ih =>
    by_cases hl : keep l = true
    · obtain ⟨e, hsetting, hp, rfl⟩ := h l hl
      rw [List.filter_cons_of_pos hl, List.filterMap_cons_some hsetting,
        List.filter_cons_of_pos hp, List.map_cons]
      exact ih.cons_cons _
    · rw [List.filter_cons_of_neg hl]
      refine ih.trans (List.Sublist.map _ (List.Sublist.filter _ ?_))
      exact (List.sublist_cons_self l ls).filterMap _

/-! ## The kept lines -/

theorem untouchedLabel_of_mem (hop : op ∈ ops) :
    untouchedLabel content ops (cStr op.key) = false := by
  have hall : (ops.all fun op' => cStr op'.key ≠ cStr op.key) = false := by
    rw [List.all_eq_false]
    exact ⟨op, hop, by simp⟩
  rw [untouchedLabel, hall, Bool.false_and]

theorem count_of_untouchedLabel {k : Text} (h : untouchedLabel content ops k = true) :
    ((lines '\n' content).countP fun l => lineLabel l == some k) = 1 := by
  simp only [untouchedLabel, Bool.and_eq_true, decide_eq_true_eq] at h
  exact h.2

/-- The settings under untouched labels are those of the file. -/
theorem applyAll_untouched (hr : f.readable = true) :
    (((create (some f) false).applyAll ops).data.entries.filter
        fun e => untouchedLabel f.content ops e.1) =
      ((lines '\n' f.content).filterMap lineSetting).filter
        fun e => untouchedLabel f.content ops e.1 := by
  have hdata : (create (some f) false).data =
      OrderedMap.empty.setAll ((lines '\n' f.content).filterMap lineSetting) := by
    rw [filterMap_lines rfl, ← readLines_eq_setAll]
    simp [create, readFromFile, hr]
  have hnodup := nodup_single_labels (b := untouchedLabel f.content ops)
    fun k hk => count_of_untouchedLabel hk
  rw [applyAll_filter fun op hop => untouchedLabel_of_mem hop, hdata]
  exact OrderedMap.filter_setAll hnodup

theorem writtenLines_eq (hf : s.file = some f) (hw : f.writable = true) :
    s.writtenLines =
      ((s.data.entries.filter fun e => e.2 ≠ []).map writeLine).flatMap (·.splitOn '\n') := by
  rw [writtenLines, writeToFile_file hf hw]
  show lines '\n' (writeLines s.data) = _
  rw [← lines_flatMap, List.flatMap_map]
  rfl

/-- The untouched lines that are settings with a value are in the file that is written after any
changes, and in their order. -/
theorem untouched_sublist_writtenLines (f : File) (hr : f.readable = true)
    (hw : f.writable = true) (ops : List SettingOp) :
    ((lines '\n' f.content).filter fun l => untouched f.content ops l && representable l).Sublist
      ((create (some f) false).applyAll ops).writtenLines := by
  have hloaded : (create (some f) false).file = some f := by simp [create, readFromFile, hr]
  obtain ⟨f', hfile, hw'⟩ := applyAll_writable hloaded hw ops
  rw [writtenLines_eq hfile hw']
  have hsettings : ∀ l, (untouched f.content ops l && representable l) = true →
      ∃ e, lineSetting l = some e ∧
        (decide (e.2 ≠ []) && untouchedLabel f.content ops e.1) = true ∧ writeLine e = l := by
    intro l hl
    obtain ⟨hlabel, hrep⟩ := Bool.and_eq_true_iff.mp hl
    obtain ⟨e, hsetting, hvalue, hline⟩ := exists_lineSetting hrep
    rw [untouched, lineLabel_eq, hsetting] at hlabel
    exact ⟨e, hsetting, by simpa [hvalue] using hlabel, hline⟩
  have hlines := sublist_writeLine hsettings (lines '\n' f.content)
  have hkept := (List.filter_sublist (p := fun e => untouchedLabel f.content ops e.1)
    (l := ((create (some f) false).applyAll ops).data.entries)).filter fun e => e.2 ≠ []
  rw [applyAll_untouched hr, List.filter_filter] at hkept
  have hsplit := (hlines.trans (hkept.map writeLine)).flatMap (·.splitOn '\n')
  rwa [flatMap_splitOn_eq_self fun l hl => notMem_of_mem_lines (List.mem_of_mem_filter hl)] at hsplit

/-- A setting is stored in a file with two others. -/
theorem untouched_sublist_writtenLines_pair :
    ["b=x=2".toList].Sublist ((create (some ⟨"a=1\nb=x=2\nc".toList, true, true⟩) false).applyAll
      [.setValue "a".toList "3".toList]).writtenLines :=
  untouched_sublist_writtenLines ⟨"a=1\nb=x=2\nc".toList, true, true⟩ rfl rfl
    [.setValue "a".toList "3".toList]

/-- The line is the only one with its key and no change is about that key, and it is not in the
file that is written. -/
def Lost (f : File) (ops : List SettingOp) (l : Text) : Prop :=
  l ∈ lines '\n' f.content ∧ (lineKey l).isSome ∧ (∀ op ∈ ops, lineKey l ≠ some op.key) ∧
    ((lines '\n' f.content).countP fun l' => lineKey l' == lineKey l) = 1 ∧
    l ∉ ((create (some f) false).applyAll ops).writtenLines

instance {f : File} {ops : List SettingOp} {l : Text} : Decidable (Lost f ops l) :=
  inferInstanceAs (Decidable (_ ∧ _))

/-- A line without a value is lost, and so is one whose key contains a null character. -/
theorem lost_lines :
    Lost ⟨"a=1\nb=\nc=2\n".toList, true, true⟩ [.setValue "a".toList "3".toList] "b=".toList ∧
      Lost ⟨"a=1\nb\x00c=2\n".toList, true, true⟩ [.remove "a".toList] "b\x00c=2".toList := by
  decide +kernel

end CSettings

end SoftwareUpdate.Helpers
