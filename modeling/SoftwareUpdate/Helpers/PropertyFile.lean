import SoftwareUpdate.Helpers.CSettings
import SoftwareUpdate.Misc.References

/-!
# `readPropertyFromFile`

The reader of property files in `UtilsgetFileContent.h`. A line is taken for a property when it
begins with the name and a blank or a `=`. A content that begins with `$` names another property
of the same file, which is read by the same function; when that fails, the search goes on with the
next line.
-/

namespace SoftwareUpdate.Helpers

open Misc

/-- `line.find(property + " ") == 0 || line.find(property + "=") == 0`. -/
def namesProperty (property line : Text) : Bool :=
  (property ++ [' ']).isPrefixOf line || (property ++ ['=']).isPrefixOf line

/-- `line.substr(line.find("=") + 1)`. In a line without `=` the position that is not found wraps
to 0, and the content is the line. -/
def propertyContent (line : Text) : Text :=
  match splitAtFirst '=' line with
  | some (_, content) => content
  | none => line

/-- The content without a carriage return or newline at its end. -/
def popNewline (content : Text) : Text :=
  if content.getLast? = some '\r' ∨ content.getLast? = some '\n' then content.dropLast else content

/-- The loop of `readPropertyFromFile`: whether the property is found, and `propertyValue`. The
recursive call is `read`, which is `none` when it does not return. -/
def readPropertyLoop (read : Text → Option (Bool × Text)) (property : Text) :
    List Text → Text → Option (Bool × Text)
  | [], propertyValue => some (false, propertyValue)
  | line :: rest, propertyValue =>
      if line.head? = some '#' then
        readPropertyLoop read property rest propertyValue
      else if namesProperty property line then
        match propertyContent line with
        | '$' :: expandedProperty =>
            match read expandedProperty with
            | none => none
            | some (true, propertyValue) => some (true, propertyValue)
            | some (false, propertyValue) => readPropertyLoop read property rest propertyValue
        | content => some (true, popNewline content)
      else
        readPropertyLoop read property rest propertyValue

/-- `readPropertyFromFile`, with a bound on the depth of its recursion; the file is `none` when it
cannot be opened. -/
def readPropertyFromFile (file : Option Text) : ℕ → Text → Option (Bool × Text)
  | 0, _ => none
  | depth + 1, property =>
      match file with
      | some content =>
          readPropertyLoop (readPropertyFromFile file depth) property (lines '\n' content) []
      | none => some (false, [])

/-! ## The lines as a table -/

/-- What a content stands for. -/
def contentTarget : Text → Target Text Text
  | '$' :: expandedProperty => .ref expandedProperty
  | content => .value (popNewline content)

/-- What a line stands for when it is taken for the property. -/
def lineTarget (property line : Text) : Option (Target Text Text) :=
  if line.head? = some '#' then none
  else if namesProperty property line then some (contentTarget (propertyContent line))
  else none

/-- The lines that are taken for a property, with their numbers. -/
def takenLines (content property : Text) : List (ℕ × Target Text Text) :=
  (lines '\n' content).zipIdx.filterMap fun l => (lineTarget property l.1).map fun c => (l.2, c)

/-- The result for what a lookup comes to. -/
def propertyResult : Option (List ℕ × Text) → Bool × Text
  | some (_, propertyValue) => (true, propertyValue)
  | none => (false, [])

variable {file : Option Text} {content property : Text} {depth : ℕ}

theorem contentTarget_of_ne {c : Char} {rest : Text} (h : c ≠ '$') :
    contentTarget (c :: rest) = .value (popNewline (c :: rest)) := by
  simp [contentTarget, h]

/-- The loop tries the lines that are taken for the property. -/
theorem readPropertyLoop_eq {look : Text → Option (Option (List ℕ × Text))}
    {read : Text → Option (Bool × Text)} (h : ∀ m, read m = (look m).map propertyResult)
    (property : Text) (ls : List (Text × ℕ)) :
    readPropertyLoop read property (ls.map Prod.fst) [] =
      (Table.scan look (ls.filterMap fun l => (lineTarget property l.1).map fun c => (l.2, c))).map
        propertyResult := by
  induction ls with
  | nil => rfl
  | cons l ls ih =>
    rw [List.map_cons, readPropertyLoop, List.filterMap_cons, lineTarget]
    by_cases hcomment : l.1.head? = some '#'
    · simpa [hcomment] using ih
    · by_cases hname : namesProperty property l.1 = true
      · simp only [hcomment, hname, if_true, if_false, Option.map_some]
        cases hcontent : propertyContent l.1 with
        | nil => rfl
        | cons c rest =>
          by_cases hc : c = '$'
          · subst hc
            simp only [contentTarget, Table.scan, h]
            cases hlook : look rest with
            | none => rfl
            | some o =>
              cases o with
              | none => exact ih
              | some q => rfl
          · rw [contentTarget_of_ne hc]
            split
            · next heq =>
              cases heq
              exact absurd rfl hc
            · rfl
      · simpa [hcomment, hname] using ih

theorem readPropertyFromFile_eq :
    readPropertyFromFile (some content) depth property =
      (Table.lookup (takenLines content) depth property).map propertyResult := by
  induction depth generalizing property with
  | zero => rfl
  | succ depth ih =>
    have hloop := readPropertyLoop_eq (fun m => @ih m) property (lines '\n' content).zipIdx
    rwa [List.zipIdx_map_fst] at hloop

/-- The call of `readPropertyFromFile` returns. -/
def ReadReturns (file : Option Text) (property : Text) : Prop :=
  ∃ depth result, readPropertyFromFile file depth property = some result

theorem readReturns_iff :
    ReadReturns (some content) property ↔ Table.Terminates (takenLines content) property := by
  simp only [ReadReturns, readPropertyFromFile_eq, Option.map_eq_some_iff, Table.Terminates]
  constructor
  · rintro ⟨depth, _, r, h, -⟩
    exact ⟨depth, r, h⟩
  · rintro ⟨depth, r, h⟩
    exact ⟨depth, propertyResult r, r, h, rfl⟩

/-! ## References that run in a circle -/

theorem contentTarget_eq_ref_iff {m : Text} :
    contentTarget content = .ref m ↔ content = '$' :: m := by
  cases content with
  | nil => simp [contentTarget]
  | cons c rest =>
    by_cases hc : c = '$'
    · subst hc
      simp [contentTarget]
    · simp [contentTarget_of_ne hc, hc]

/-- A taken line is a line of the file that begins with the name. -/
theorem mem_takenLines {i : ℕ} {c : Target Text Text} (h : (i, c) ∈ takenLines content property) :
    ∃ line, (lines '\n' content)[i]? = some line ∧ lineTarget property line = some c := by
  obtain ⟨⟨line, j⟩, hline, hmap⟩ := List.mem_filterMap.mp h
  obtain ⟨c', htarget, heq⟩ := Option.map_eq_some_iff.mp hmap
  cases heq
  exact ⟨line, List.mem_zipIdx_iff_getElem?.mp hline, htarget⟩

theorem lineTarget_eq_some {line : Text} {c : Target Text Text}
    (h : lineTarget property line = some c) :
    line.head? ≠ some '#' ∧ namesProperty property line = true ∧
      c = contentTarget (propertyContent line) := by
  unfold lineTarget at h
  split at h
  · cases h
  · next hcomment =>
    split at h
    · next hname =>
      cases h
      exact ⟨hcomment, hname, rfl⟩
    · cases h

/-- The names to which the lines of a file refer are finitely many. -/
theorem finite_takenLines : {m | ∃ n i, (i, .ref m) ∈ takenLines content n}.Finite := by
  refine (List.finite_toSet ((lines '\n' content).map fun l => (propertyContent l).tail)).subset ?_
  rintro m ⟨n, i, hmem⟩
  obtain ⟨line, hline, htarget⟩ := mem_takenLines hmem
  obtain ⟨-, -, hcontent⟩ := lineTarget_eq_some htarget
  refine List.mem_map.mpr ⟨line, List.mem_of_getElem? hline, ?_⟩
  rw [contentTarget_eq_ref_iff.mp hcontent.symm]
  rfl

/-- The search for a property returns exactly when no name that it follows refers back to itself
along names that are followed. -/
theorem readReturns_iff_acyclic (content property : Text) :
    ReadReturns (some content) property ↔
      ¬ ∃ name, Relation.ReflTransGen (Table.Follows (takenLines content)) property name ∧
        Relation.TransGen (Table.Follows (takenLines content)) name name :=
  readReturns_iff.trans (Table.terminates_iff finite_takenLines)

/-- A property that refers to itself is read forever. -/
theorem not_readReturns_self : ¬ ReadReturns (some "A=$A".toList) "A".toList := by
  rw [readReturns_iff, Table.terminates_iff_acc]
  intro hacc
  have hself : Table.Follows (takenLines "A=$A".toList) "A".toList "A".toList :=
    ⟨[], 0, [], by decide +kernel, by simp⟩
  exact Table.not_transGen_of_acc hacc (.single hself)

end SoftwareUpdate.Helpers
