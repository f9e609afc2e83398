import SoftwareUpdate.Helpers.PropertyFile

/-!
# `ExpandPropertiesInString`

The expansion of variables in `UtilsgetFileContent.h`. A variable is a `$` and a name that ends
before the next blank or slash. The loop builds the string anew at every variable, so what it has
expanded before is lost, and it leaves a name that ends with the string as it is.
-/

namespace SoftwareUpdate.Helpers

open Misc

/-- The characters of `strpbrk(variablePos, " /")`. -/
def isDelimiter (c : Char) : Bool := c = ' ' || c = '/'

/-- The loop of `ExpandPropertiesInString` at a `variablePos`: `passed` is the input before the
`$`, `rest` the input behind it. `fuel` bounds the number of turns. -/
def expandLoop (read : Text → Option (Bool × Text)) :
    ℕ → Text → Text → Text → Option (Bool × Text)
  | 0, _, _, _ => none
  | fuel + 1, passed, rest, _ =>
      -- the assignment drops what has been expanded so far
      let expandedString := passed
      let name := rest.takeWhile fun c => !isDelimiter c
      match rest.dropWhile fun c => !isDelimiter c with
      | [] =>
          -- no delimiter: `endPos` is behind the `$`
          match splitAtFirst '$' rest with
          | some (gap, next) =>
              expandLoop read fuel (passed ++ '$' :: gap) next (expandedString ++ gap)
          | none => some (true, expandedString ++ rest)
      | c :: behind =>
          match read name with
          | none => none
          | some (false, _) => some (false, expandedString)
          | some (true, propertyValue) =>
              -- `variablePos` moves by the length of the value, but is set again before its use
              match splitAtFirst '$' (c :: behind) with
              | some (gap, next) =>
                  expandLoop read fuel (passed ++ '$' :: name ++ gap) next
                    (expandedString ++ propertyValue ++ gap)
              | none => some (true, expandedString ++ propertyValue ++ c :: behind)

/-- `ExpandPropertiesInString`: the result, and `expandedString`. `depth` bounds the recursion of
the reader. -/
def expandPropertiesInString (file : Option Text) (depth : ℕ) (input expandedString : Text) :
    Option (Bool × Text) :=
  match splitAtFirst '$' input with
  | some (passed, rest) =>
      expandLoop (readPropertyFromFile file depth) (rest.length + 1) passed rest expandedString
  | none => some (true, expandedString)

/-! ## The variables of an input -/

/-- A variable, and the text behind it up to the next one. -/
structure Variable where
  name : Text
  gap : Text
  deriving DecidableEq, Repr

/-- A name ends before a delimiter or at the end of the string. -/
structure Variable.WellFormed (v : Variable) : Prop where
  name : ∀ c ∈ v.name, isDelimiter c = false
  gap : '$' ∉ v.gap
  ended : ∀ c ∈ v.gap.head?, isDelimiter c = true

def Variable.text (v : Variable) : Text := '$' :: v.name ++ v.gap

theorem Variable.text_eq {name gap : Text} :
    (Variable.mk name gap).text = '$' :: (name ++ gap) := rfl

/-- An input as its variables and the text around them. -/
structure Template where
  before : Text
  vars : List Variable
  plain : '$' ∉ before
  wellFormed : ∀ v ∈ vars, v.WellFormed
  terminated : ∀ v ∈ vars.dropLast, v.gap ≠ []

namespace Template

def text (t : Template) : Text := t.before ++ t.vars.flatMap Variable.text

/-- The text with values in the place of the variables. -/
def expansion (t : Template) (value : Text → Text) : Text :=
  t.before ++ t.vars.flatMap fun v => value v.name ++ v.gap

/-- The variables from a `$` on, in the text behind it. -/
def parse : ℕ → Text → List Variable
  | 0, _ => []
  | fuel + 1, rest =>
      let name := rest.takeWhile fun c => !isDelimiter c
      match splitAtFirst '$' (rest.dropWhile fun c => !isDelimiter c) with
      | some (gap, next) => ⟨name, gap⟩ :: parse fuel next
      | none => [⟨name, rest.dropWhile fun c => !isDelimiter c⟩]

variable {fuel : ℕ} {rest : Text} {v : Variable}

theorem name_of_takeWhile :
    ∀ c ∈ rest.takeWhile (fun c => !isDelimiter c), isDelimiter c = false := by
  intro c hc
  simpa using List.mem_takeWhile_imp hc

/-- The text behind a name is empty or begins with a delimiter. -/
theorem head_dropWhile (rest : Text) :
    ∀ c ∈ (rest.dropWhile fun c => !isDelimiter c).head?, isDelimiter c = true := by
  intro c hc
  have hhead := List.head?_dropWhile_not (fun c => !isDelimiter c) rest
  rw [Option.mem_def.mp hc] at hhead
  simpa using hhead

theorem wellFormed_parsed {name gap next : Text}
    (hname : name = rest.takeWhile fun c => !isDelimiter c)
    (hgap : (rest.dropWhile fun c => !isDelimiter c) = gap ++ '$' :: next) (hplain : '$' ∉ gap) :
    Variable.WellFormed ⟨name, gap⟩ ∧ gap ≠ [] := by
  have hhead := head_dropWhile rest
  rw [hgap] at hhead
  cases gap with
  | nil => exact absurd (hhead '$' rfl) (by decide)
  | cons x gap =>
    refine ⟨⟨?_, hplain, fun c hc => hhead c hc⟩, List.cons_ne_nil x gap⟩
    rw [hname]
    exact name_of_takeWhile

/-- The variables that are parsed make up the text. -/
theorem parse_spec (h : rest.length < fuel) :
    (parse fuel rest).flatMap Variable.text = '$' :: rest ∧
      (∀ v ∈ parse fuel rest, v.WellFormed) ∧ ∀ v ∈ (parse fuel rest).dropLast, v.gap ≠ [] := by
  induction fuel generalizing rest with
  | zero => exact absurd h (Nat.not_lt_zero _)
  | succ fuel ih =>
    have hrest := List.takeWhile_append_dropWhile (p := fun c => !isDelimiter c) (l := rest)
    unfold parse
    split
    · next gap next hsplit =>
      obtain ⟨hgap, hplain⟩ := splitAtFirst_eq_some_iff.mp hsplit
      obtain ⟨hv, hne⟩ := wellFormed_parsed rfl hgap hplain
      rw [hgap] at hrest
      have hlength : next.length < fuel := by
        have hsum := congrArg List.length hrest
        simp only [List.length_append, List.length_cons] at hsum
        omega
      obtain ⟨htext, hwf, hterm⟩ := ih hlength
      refine ⟨?_, ?_, ?_⟩
      · rw [List.flatMap_cons, htext, Variable.text_eq]
        simpa using hrest
      · intro v hmem
        rcases List.mem_cons.mp hmem with rfl | hmem
        · exact hv
        · exact hwf v hmem
      · intro v hmem
        cases hvars : parse fuel next with
        | nil => simp [hvars] at hmem
        | cons w ws =>
          rw [hvars] at hterm
          rw [hvars, List.dropLast_cons_of_ne_nil (List.cons_ne_nil w ws)] at hmem
          rcases List.mem_cons.mp hmem with rfl | hmem
          · exact hne
          · exact hterm v hmem
    · next hnone =>
      refine ⟨by simp [Variable.text_eq], ?_, by simp⟩
      intro v hmem
      obtain rfl := List.mem_singleton.mp hmem
      exact ⟨name_of_takeWhile, splitAtFirst_eq_none_iff.mp hnone, head_dropWhile rest⟩

/-- The variables of an input. -/
def varsOf (input : Text) : List Variable :=
  match splitAtFirst '$' input with
  | some (_, rest) => parse (rest.length + 1) rest
  | none => []

/-- An input as the text before its first `$` and its variables. -/
def ofInput (input : Text) : Template where
  before := input.takeWhile (· ≠ '$')
  vars := varsOf input
  plain := fun h => by simpa using List.mem_takeWhile_imp h
  wellFormed := by
    unfold varsOf
    split
    · exact (parse_spec (Nat.lt_succ_self _)).2.1
    · simp
  terminated := by
    unfold varsOf
    split
    · exact (parse_spec (Nat.lt_succ_self _)).2.2
    · simp

theorem takeWhile_plain {passed : Text} (h : '$' ∉ passed) (rest : Text) :
    (passed ++ '$' :: rest).takeWhile (· ≠ '$') = passed := by
  rw [List.takeWhile_append_of_pos]
  · simp
  · intro c hc
    simp only [ne_eq, decide_eq_true_eq]
    rintro rfl
    exact h hc

theorem vars_of_some {input : Text} {p : Text × Text} (h : splitAtFirst '$' input = some p) :
    (ofInput input).before = p.1 ∧ (ofInput input).vars = parse (p.2.length + 1) p.2 := by
  obtain ⟨rfl, hplain⟩ := splitAtFirst_eq_some_iff.mp h
  refine ⟨takeWhile_plain hplain p.2, ?_⟩
  show varsOf _ = _
  rw [varsOf, h]

theorem vars_of_none {input : Text} (h : splitAtFirst '$' input = none) :
    (ofInput input).before = input ∧ (ofInput input).vars = [] := by
  constructor
  · show input.takeWhile (· ≠ '$') = input
    rw [List.takeWhile_eq_self_iff]
    intro c hc
    simp only [ne_eq, decide_eq_true_eq]
    rintro rfl
    exact splitAtFirst_eq_none_iff.mp h hc
  · show varsOf input = []
    rw [varsOf, h]

/-- An input is the text of its template. -/
theorem text_ofInput (input : Text) : (ofInput input).text = input := by
  unfold text
  cases h : splitAtFirst '$' input with
  | none =>
    obtain ⟨hbefore, hvars⟩ := vars_of_none h
    rw [hbefore, hvars, List.flatMap_nil, List.append_nil]
  | some p =>
    obtain ⟨hbefore, hvars⟩ := vars_of_some h
    rw [hbefore, hvars, (parse_spec (Nat.lt_succ_self _)).1]
    exact (splitAtFirst_eq_some_iff.mp h).1.symm

end Template

end SoftwareUpdate.Helpers
