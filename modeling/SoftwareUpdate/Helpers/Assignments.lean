import SoftwareUpdate.Helpers.PropertyFile
import SoftwareUpdate.Misc.Readings

/-!
# Assignments in property files

An assignment of a property is a line with the name, blanks, a `=` and the value. The reader takes
more lines than these for a property, and it looks a referenced name up with the carriage return
behind it. It reads the assignments where the search meets neither.
-/

namespace SoftwareUpdate.Helpers

open Misc

/-- The value without one carriage return at its end. -/
def stripReturn (value : Text) : Text :=
  if value.getLast? = some '\r' then value.dropLast else value

/-- What a value stands for. -/
def valueTarget (value : Text) : Target Text Text :=
  match stripReturn value with
  | '$' :: name => .ref name
  | text => .value text

/-- The text is the name of the property and blanks. -/
def blankPadded (property text : Text) : Bool :=
  property.isPrefixOf text && (text.drop property.length).all (· = ' ')

/-- What a line assigns to a property. -/
def assignment (property line : Text) : Option (Target Text Text) :=
  if line.head? = some '#' then none
  else
    match splitAtFirst '=' line with
    | some (name, value) => if blankPadded property name then some (valueTarget value) else none
    | none => none

/-- The assignments of a property in a file, with their line numbers. -/
def assignments (content property : Text) : List (ℕ × Target Text Text) :=
  (lines '\n' content).zipIdx.filterMap fun l => (assignment property l.1).map fun c => (l.2, c)

/-- The lines that are taken for a property, as they are taken and as assignments. -/
def readings (content property : Text) : List (Reading Text ℕ Text) :=
  (lines '\n' content).zipIdx.filterMap fun l =>
    (lineTarget property l.1).map fun c => ⟨l.2, c, assignment property l.1⟩

variable {content property line name value : Text} {c : Target Text Text}

/-! ## Assignments are taken -/

theorem assignment_eq_some (h : assignment property line = some c) :
    line.head? ≠ some '#' ∧ ∃ blanks value, (∀ b ∈ blanks, b = ' ') ∧
      line = property ++ blanks ++ '=' :: value ∧ '=' ∉ property ∧ c = valueTarget value := by
  unfold assignment at h
  split at h
  · cases h
  · next hcomment =>
    split at h
    · next name value hsplit =>
      split at h
      · next hpadded =>
        cases h
        obtain ⟨rfl, hname⟩ := splitAtFirst_eq_some_iff.mp hsplit
        simp only [blankPadded, Bool.and_eq_true, List.isPrefixOf_iff_prefix] at hpadded
        obtain ⟨⟨blanks, rfl⟩, hblanks⟩ := hpadded
        rw [List.drop_left, List.all_eq_true] at hblanks
        exact ⟨hcomment, blanks, value, by simpa using hblanks, rfl,
          fun hmem => hname (List.mem_append_left _ hmem), rfl⟩
      · cases h
    · cases h

/-- The content of an assignment is its value. -/
theorem propertyContent_assignment {blanks : Text} (hblanks : ∀ b ∈ blanks, b = ' ')
    (hname : '=' ∉ property) :
    propertyContent (property ++ blanks ++ '=' :: value) = value := by
  have hno : '=' ∉ property ++ blanks := by
    intro hmem
    rcases List.mem_append.mp hmem with hmem | hmem
    · exact hname hmem
    · exact absurd (hblanks _ hmem) (by decide)
  rw [propertyContent, splitAtFirst_append hno]

theorem namesProperty_assignment {blanks : Text} (hblanks : ∀ b ∈ blanks, b = ' ') :
    namesProperty property (property ++ blanks ++ '=' :: value) = true := by
  simp only [namesProperty, Bool.or_eq_true, List.isPrefixOf_iff_prefix, List.append_assoc]
  cases blanks with
  | nil => exact .inr ⟨value, by simp⟩
  | cons b blanks =>
    obtain rfl := hblanks b List.mem_cons_self
    exact .inl ⟨blanks ++ '=' :: value, by simp⟩

theorem lineTarget_of_assignment (h : assignment property line = some c) :
    ∃ blanks value, line = property ++ blanks ++ '=' :: value ∧ c = valueTarget value ∧
      lineTarget property line = some (contentTarget value) := by
  obtain ⟨hcomment, blanks, value, hblanks, rfl, hname, rfl⟩ := assignment_eq_some h
  refine ⟨blanks, value, rfl, rfl, ?_⟩
  rw [lineTarget, if_neg hcomment, if_pos (namesProperty_assignment hblanks),
    propertyContent_assignment hblanks hname]

theorem takenTable_readings : Reading.takenTable (readings content) = takenLines content := by
  funext property
  simp only [Reading.takenTable, readings, takenLines, List.map_filterMap, Option.map_map]
  rfl

theorem meantTable_readings : Reading.meantTable (readings content) = assignments content := by
  funext property
  rw [Reading.meantTable, readings, List.filterMap_filterMap, assignments]
  refine List.filterMap_congr fun l _ => ?_
  cases h : assignment property l.1 with
  | none => cases lineTarget property l.1 <;> rfl
  | some c =>
    obtain ⟨_, _, -, -, htarget⟩ := lineTarget_of_assignment h
    simp [htarget]

/-! ## How the two readings differ -/

theorem mem_readings {d : Reading Text ℕ Text} (h : d ∈ readings content property) :
    ∃ line, (lines '\n' content)[d.tag]? = some line ∧ lineTarget property line = some d.taken ∧
      assignment property line = d.meant := by
  obtain ⟨⟨line, i⟩, hline, hmap⟩ := List.mem_filterMap.mp h
  obtain ⟨c, htarget, rfl⟩ := Option.map_eq_some_iff.mp hmap
  exact ⟨line, List.mem_zipIdx_iff_getElem?.mp hline, htarget, rfl⟩

theorem mem_assignments {i : ℕ} (h : (i, c) ∈ assignments content property) :
    ∃ line, (lines '\n' content)[i]? = some line ∧ assignment property line = some c := by
  obtain ⟨⟨line, j⟩, hline, hmap⟩ := List.mem_filterMap.mp h
  obtain ⟨c', hassign, heq⟩ := Option.map_eq_some_iff.mp hmap
  cases heq
  exact ⟨line, List.mem_zipIdx_iff_getElem?.mp hline, hassign⟩

theorem nodup_readings : ((readings content property).map Reading.tag).Nodup := by
  have hlines : (lines '\n' content).zipIdx.Pairwise fun l l' => l.2 ≠ l'.2 := by
    have hrange := List.nodup_range' (s := 0) (n := (lines '\n' content).length)
    rwa [← List.zipIdx_map_snd, List.Nodup, List.pairwise_map] at hrange
  rw [List.Nodup, List.pairwise_map, readings]
  refine List.Pairwise.filterMap _ (fun l l' hne d hd d' hd' => ?_) hlines
  obtain ⟨_, -, rfl⟩ := Option.map_eq_some_iff.mp hd
  obtain ⟨_, -, rfl⟩ := Option.map_eq_some_iff.mp hd'
  exact hne

theorem stripReturn_cons {x : Char} (hx : x ≠ '\r') :
    stripReturn (x :: value) = x :: stripReturn value := by
  cases value with
  | nil => simp [stripReturn, hx]
  | cons y value =>
    unfold stripReturn
    rw [List.getLast?_cons_cons]
    split <;> rfl

theorem stripReturn_eq (value : Text) :
    stripReturn value = value ∨ value = stripReturn value ++ ['\r'] := by
  unfold stripReturn
  split
  · next hlast => exact .inr (List.dropLast_append_getLast? _ hlast).symm
  · exact .inl rfl

theorem valueTarget_dollar : valueTarget ('$' :: value) = .ref (stripReturn value) := by
  simp [valueTarget, stripReturn_cons]

theorem valueTarget_of_ne {x : Char} (hx : x ≠ '$') :
    valueTarget (x :: value) = .value (stripReturn (x :: value)) := by
  unfold valueTarget
  split
  · next name hstrip =>
    rcases stripReturn_eq (x :: value) with heq | heq
    · rw [hstrip] at heq
      exact absurd (List.cons.inj heq).1.symm hx
    · rw [hstrip] at heq
      exact absurd (List.cons.inj heq).1 hx
  · rfl

/-- A value that is no reference is taken as it is meant. -/
theorem contentTarget_of_valueTarget (hline : '\n' ∉ value) {text : Text}
    (h : valueTarget value = .value text) : contentTarget value = .value text := by
  cases value with
  | nil =>
    cases h
    rfl
  | cons x value =>
    by_cases hx : x = '$'
    · subst hx
      rw [valueTarget_dollar] at h
      cases h
    · have hlast : (x :: value).getLast? ≠ some '\n' := fun hlast =>
        hline (List.mem_of_getLast? hlast)
      rw [valueTarget_of_ne hx] at h
      rw [contentTarget_of_ne hx, ← h]
      simp [popNewline, stripReturn, hlast]

/-- The name of a reference is taken with the carriage return behind it. -/
theorem eq_append_of_targets {m m' : Text} (h : valueTarget value = .ref m)
    (h' : contentTarget value = .ref m') : m' = m ∨ m' = m ++ ['\r'] := by
  obtain rfl := contentTarget_eq_ref_iff.mp h'
  rw [valueTarget_dollar] at h
  cases h
  exact (stripReturn_eq _).imp_left Eq.symm

/-- A line that begins with a name and a carriage return is no assignment of the name. -/
theorem not_namesProperty_return {m blanks : Text} (hblanks : ∀ b ∈ blanks, b = ' ') :
    namesProperty (m ++ ['\r']) (m ++ blanks ++ '=' :: value) = false := by
  have hhead (rest : Text) : ¬ m ++ ['\r'] ++ rest <+: m ++ blanks ++ '=' :: value := by
    rw [List.append_assoc, List.append_assoc, List.prefix_append_right_inj]
    cases blanks with
    | nil => simp
    | cons b blanks =>
      obtain rfl := hblanks b List.mem_cons_self
      simp
  rw [namesProperty, Bool.or_eq_false_iff]
  constructor
  · exact Bool.eq_false_iff.mpr fun h => hhead _ (List.isPrefixOf_iff_prefix.mp h)
  · exact Bool.eq_false_iff.mpr fun h => hhead _ (List.isPrefixOf_iff_prefix.mp h)

theorem faithful_readings : Reading.Faithful (readings content) where
  nodup := fun _ => nodup_readings
  value := by
    intro property d hd v hmeant
    obtain ⟨line, hline, htaken, hassign⟩ := mem_readings hd
    rw [hmeant] at hassign
    obtain ⟨blanks, value, rfl, hvalue, htarget⟩ := lineTarget_of_assignment hassign
    have hno : '\n' ∉ property ++ blanks ++ '=' :: value :=
      notMem_of_mem_lines (List.mem_of_getElem? hline)
    have hvalueLine : '\n' ∉ value := fun hmem =>
      hno (List.mem_append_right _ (List.mem_cons_of_mem _ hmem))
    rw [htarget, Option.some.injEq] at htaken
    rw [← htaken]
    exact contentTarget_of_valueTarget hvalueLine hvalue.symm
  apart := by
    intro property d hd m m' hmeant htaken hne i c c' hmem hmem'
    rw [meantTable_readings] at hmem
    rw [takenTable_readings] at hmem'
    obtain ⟨line, -, htarget, hassign⟩ := mem_readings hd
    rw [hmeant] at hassign
    obtain ⟨blanks, value, rfl, hvalue, hcontent⟩ := lineTarget_of_assignment hassign
    rw [hcontent, Option.some.injEq] at htarget
    have hreturn := (eq_append_of_targets hvalue.symm (htarget.trans htaken)).resolve_left hne.symm
    obtain ⟨line, hline, hassigned⟩ := mem_assignments hmem
    obtain ⟨line', hline', htarget'⟩ := mem_takenLines hmem'
    obtain rfl := Option.some.inj (hline.symm.trans hline')
    obtain ⟨-, blanks', value', hblanks', rfl, -⟩ := assignment_eq_some hassigned
    obtain ⟨-, hnames, -⟩ := lineTarget_eq_some htarget'
    rw [hreturn, not_namesProperty_return hblanks'] at hnames
    cases hnames

/-! ## Reading the assignments -/

/-- An assignment of the first name refers to the second one. -/
def Refers (content n m : Text) : Prop := ∃ i, (i, .ref m) ∈ assignments content n

/-- The references of the file do not run in a circle. -/
def AcyclicReferences (content : Text) : Prop := ∀ n, ¬ Relation.TransGen (Refers content) n n

/-- The call returns what the assignments of the file say: the value that the first one comes to
that is literal or can be resolved, and nothing when there is none. The lines that are taken on the
way to the value are these assignments. -/
def ReadsAssignments (content property : Text) : Prop :=
  ∀ r, Table.Reads (assignments content) property r →
    (∃ depth, readPropertyFromFile (some content) depth property = some (propertyResult r)) ∧
      Table.Reads (takenLines content) property r

theorem valueTarget_eq_ref {m : Text} (h : valueTarget value = .ref m) :
    stripReturn value.tail = m := by
  cases value with
  | nil => cases h
  | cons x value =>
    by_cases hx : x = '$'
    · subst hx
      rw [valueTarget_dollar] at h
      cases h
      rfl
    · rw [valueTarget_of_ne hx] at h
      cases h

/-- The names that are referred to stand in the lines. -/
theorem Refers.mem {n m : Text} (h : Refers content n m) :
    m ∈ (lines '\n' content).map fun l => stripReturn (propertyContent l).tail := by
  obtain ⟨i, hmem⟩ := h
  obtain ⟨line, hline, hassign⟩ := mem_assignments hmem
  obtain ⟨-, blanks, value, hblanks, rfl, hname, hvalue⟩ := assignment_eq_some hassign
  refine List.mem_map.mpr ⟨_, List.mem_of_getElem? hline, ?_⟩
  rw [propertyContent_assignment hblanks hname]
  exact valueTarget_eq_ref hvalue.symm

theorem finite_assignments : {m | ∃ n i, (i, .ref m) ∈ assignments content n}.Finite := by
  refine (List.finite_toSet
    ((lines '\n' content).map fun l => stripReturn (propertyContent l).tail)).subset ?_
  rintro m ⟨n, hrefers⟩
  exact Refers.mem hrefers

/-- References are acyclic when the names that are referred to are all literal. -/
theorem acyclicReferences_of_literal
    (h : ∀ l ∈ lines '\n' content,
      (assignments content (stripReturn (propertyContent l).tail)).all fun d => d.2.isValue) :
    AcyclicReferences content := by
  intro n hcycle
  obtain ⟨m, hfirst, -⟩ := Relation.TransGen.head'_iff.mp hcycle
  obtain ⟨m', -, hlast⟩ := Relation.TransGen.tail'_iff.mp hcycle
  obtain ⟨l, hl, rfl⟩ := List.mem_map.mp hlast.mem
  obtain ⟨i, hmem⟩ := hfirst
  exact absurd (List.all_eq_true.mp (h l hl) _ hmem) (by simp [Target.isValue])

/-- Acyclic references can all be followed to their end. -/
theorem exists_reads_assignments (h : AcyclicReferences content) :
    ∃ r, Table.Reads (assignments content) property r := by
  rw [← Table.terminates_iff_reads, Table.terminates_iff finite_assignments]
  rintro ⟨m, -, hcycle⟩
  refine h m (Relation.TransGen.mono ?_ m m hcycle)
  rintro n m ⟨pre, i, post, hsplit, -⟩
  exact ⟨i, Table.mem_of_split hsplit⟩

theorem exists_readPropertyFromFile {r : Option (List ℕ × Text)}
    (h : Table.Reads (takenLines content) property r) :
    ∃ depth, readPropertyFromFile (some content) depth property = some (propertyResult r) := by
  obtain ⟨depth, hlook⟩ := h.exists_lookup
  exact ⟨depth, by rw [readPropertyFromFile_eq, hlook]; rfl⟩

/-- The assignments are read exactly when the lines before the one that decides are references to
dead names, both as they are taken and, if they are assignments, as they are meant, and the line
that decides is taken for the assignment that it is, again and again along its reference. -/
theorem readsAssignments_iff (content property : Text) (hacyclic : AcyclicReferences content) :
    ReadsAssignments content property ↔ Reading.Agrees (readings content) property := by
  rw [Reading.agrees_iff faithful_readings, takenTable_readings, meantTable_readings]
  constructor
  · intro h
    obtain ⟨r, hmeant⟩ := exists_reads_assignments hacyclic
    exact ⟨r, (h r hmeant).2, hmeant⟩
  · rintro ⟨r, htaken, hmeant⟩ r' hmeant'
    obtain rfl := hmeant.unique hmeant'
    exact ⟨exists_readPropertyFromFile htaken, htaken⟩

/-- A property that refers to a literal one, behind a comment and a line of another property. -/
theorem readsAssignments_reference :
    ReadsAssignments "#A=1\nAB=2\nA =$B\nB=x\r".toList "A".toList := by
  have htaken : Table.lookup (Reading.takenTable (readings "#A=1\nAB=2\nA =$B\nB=x\r".toList)) 2
      "A".toList = some (some ([2, 3], "x".toList)) := by decide
  have hmeant : Table.lookup (Reading.meantTable (readings "#A=1\nAB=2\nA =$B\nB=x\r".toList)) 2
      "A".toList = some (some ([2, 3], "x".toList)) := by decide
  exact (readsAssignments_iff _ _ (acyclicReferences_of_literal (by decide))).mpr
    (Reading.agrees_of_reads faithful_readings (Table.reads_of_lookup htaken)
      (Table.reads_of_lookup hmeant))

/-- A line that begins with the name and a blank but assigns nothing is taken for the property. -/
theorem not_readsAssignments_line :
    AcyclicReferences "A foo\nA=x".toList ∧
      readPropertyFromFile (some "A foo\nA=x".toList) 1 "A".toList =
        some (true, "A foo".toList) ∧
      ¬ ReadsAssignments "A foo\nA=x".toList "A".toList := by
  refine ⟨acyclicReferences_of_literal (by decide), by decide, fun h => ?_⟩
  have hmeant : Table.lookup (assignments "A foo\nA=x".toList) 1 "A".toList =
      some (some ([1], "x".toList)) := by decide
  have htaken : Table.lookup (takenLines "A foo\nA=x".toList) 1 "A".toList =
      some (some ([0], "A foo".toList)) := by decide
  have hreads := (h _ (Table.reads_of_lookup hmeant)).2
  exact absurd (hreads.unique (Table.reads_of_lookup htaken)) (by decide)

end SoftwareUpdate.Helpers
