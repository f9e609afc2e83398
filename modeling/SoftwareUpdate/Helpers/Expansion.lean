import SoftwareUpdate.Helpers.Assignments
import SoftwareUpdate.Helpers.ExpandProperties

/-!
# What `ExpandPropertiesInString` expands

The string that is returned is the input with the last variable expanded, if a delimiter follows
it, and without the last `$` if none does. A variable is defined when the assignments of the file
give it a value. The string is the expansion of the input when there is one variable and the reader
finds its value; the call is right to fail when a variable is not defined and the reader misses
one before a delimiter.
-/

namespace SoftwareUpdate.Helpers

open Misc

variable {content input expandedString passed rest name s : Text} {fuel depth depth' : ℕ}
  {v : Variable} {vs : List Variable} {read : Text → Option (Bool × Text)}
  {result : Bool × Text} {b : Bool}

/-! ## What the loop comes to -/

/-- A name that ends with the string, as the loop leaves it: without the last `$`. -/
def lastName (name : Text) : Text :=
  match splitAtLast '$' ('$' :: name) with
  | some (before, behind) => before ++ behind
  | none => []

/-- What the loop comes to with a reader. -/
def outcome (read : Text → Option (Bool × Text)) : Text → List Variable → Option (Bool × Text)
  | passed, [] => some (true, passed)
  | passed, v :: vs =>
      if v.gap = [] then some (true, passed ++ lastName v.name)
      else
        match read v.name with
        | none => none
        | some (false, _) => some (false, passed)
        | some (true, value) =>
            if vs = [] then some (true, passed ++ value ++ v.gap)
            else outcome read (passed ++ v.text) vs

theorem lastName_of_notMem (h : '$' ∉ name) : lastName name = name := by
  have hlast : splitAtLast '$' ('$' :: name) = some ([], name) :=
    splitAtLast_append (a := []) h
  simp [lastName, hlast]

theorem lastName_append {gap next : Text} :
    lastName (gap ++ '$' :: next) = '$' :: gap ++ lastName next := by
  unfold lastName
  cases hnext : splitAtLast '$' ('$' :: next) with
  | none => exact absurd List.mem_cons_self (splitAtLast_eq_none_iff.mp hnext)
  | some p =>
    obtain ⟨before, behind⟩ := p
    obtain ⟨hsplit, hplain⟩ := splitAtLast_eq_some_iff.mp hnext
    have hwhole : splitAtLast '$' ('$' :: (gap ++ '$' :: next)) =
        some ('$' :: gap ++ before, behind) := by
      rw [hsplit]
      simpa using splitAtLast_append (a := '$' :: gap ++ before) hplain
    rw [hwhole]
    simp

/-- A name in which there is a `$` still begins with one. -/
theorem head_lastName (h : '$' ∈ name) : (lastName name).head? = some '$' := by
  obtain ⟨gap, next, rfl⟩ := List.append_of_mem h
  rw [lastName_append]
  rfl

/-- Without a delimiter the loop goes on from `$` to `$` and expands nothing. -/
theorem expandLoop_lastName (hname : ∀ c ∈ rest, isDelimiter c = false) (h : rest.length < fuel) :
    expandLoop read fuel passed rest expandedString = some (true, passed ++ lastName rest) := by
  induction fuel generalizing passed rest expandedString with
  | zero => exact absurd h (Nat.not_lt_zero _)
  | succ fuel ih =>
    have hbehind : (rest.dropWhile fun c => !isDelimiter c) = [] := by
      rw [List.dropWhile_eq_nil_iff]
      intro c hc
      simp [hname c hc]
    unfold expandLoop
    simp only [hbehind]
    split
    · next gap next hsplit =>
      obtain ⟨rfl, -⟩ := splitAtFirst_eq_some_iff.mp hsplit
      rw [ih]
      · simp [lastName_append]
      · exact fun c hc => hname c (by simp [hc])
      · simp only [List.length_append, List.length_cons] at h
        omega
    · next hnone => rw [lastName_of_notMem (splitAtFirst_eq_none_iff.mp hnone)]

theorem parse_of_nil (h : (rest.dropWhile fun c => !isDelimiter c) = []) :
    Template.parse (fuel + 1) rest = [⟨rest, []⟩] := by
  have hname := List.takeWhile_append_dropWhile (p := fun c => !isDelimiter c) (l := rest)
  rw [h, List.append_nil] at hname
  simp [Template.parse, h, hname, splitAtFirst]

theorem expandLoop_eq (h : rest.length < fuel) :
    expandLoop read fuel passed rest expandedString =
      outcome read passed (Template.parse fuel rest) := by
  induction fuel generalizing passed rest expandedString with
  | zero => exact absurd h (Nat.not_lt_zero _)
  | succ fuel ih =>
    cases hbehind : rest.dropWhile fun c => !isDelimiter c with
    | nil =>
      have hname : ∀ c ∈ rest, isDelimiter c = false := by
        simpa [List.dropWhile_eq_nil_iff] using hbehind
      rw [expandLoop_lastName hname h, parse_of_nil hbehind]
      rfl
    | cons c behind =>
      cases hsplit : splitAtFirst '$' (c :: behind) with
      | none =>
        have hparse : Template.parse (fuel + 1) rest =
            [⟨rest.takeWhile fun c => !isDelimiter c, c :: behind⟩] := by
          simp [Template.parse, hbehind, hsplit]
        rw [hparse]
        cases hread : read (rest.takeWhile fun c => !isDelimiter c) with
        | none => simp [expandLoop, hbehind, hread, outcome]
        | some r =>
          obtain ⟨found, value⟩ := r
          cases found with
          | false => simp [expandLoop, hbehind, hread, outcome]
          | true => simp [expandLoop, hbehind, hread, hsplit, outcome]
      | some p =>
        obtain ⟨gap, next⟩ := p
        obtain ⟨heq, hplain⟩ := splitAtFirst_eq_some_iff.mp hsplit
        obtain ⟨-, hne⟩ := Template.wellFormed_parsed rfl (hbehind.trans heq) hplain
        have hparse : Template.parse (fuel + 1) rest =
            ⟨rest.takeWhile fun c => !isDelimiter c, gap⟩ :: Template.parse fuel next := by
          simp [Template.parse, hbehind, hsplit]
        have hlength : next.length < fuel := by
          have hsum := congrArg List.length
            (List.takeWhile_append_dropWhile (p := fun c => !isDelimiter c) (l := rest))
          rw [hbehind, heq] at hsum
          simp only [List.length_append, List.length_cons] at hsum
          omega
        have hrest : Template.parse fuel next ≠ [] := by
          intro hnil
          have htext := (Template.parse_spec hlength).1
          rw [hnil] at htext
          cases htext
        rw [hparse]
        cases hread : read (rest.takeWhile fun c => !isDelimiter c) with
        | none => simp [expandLoop, hbehind, hread, outcome, hne]
        | some r =>
          obtain ⟨found, value⟩ := r
          cases found with
          | false => simp [expandLoop, hbehind, hread, outcome, hne]
          | true =>
            unfold expandLoop
            simp only [hbehind, hread, hsplit, outcome, hne, hrest, if_false]
            rw [ih hlength]
            simp [Variable.text_eq]

/-- The call comes to the outcome for the variables of the input. -/
theorem expand_eq (h : (Template.ofInput input).vars ≠ []) :
    expandPropertiesInString (some content) depth input expandedString =
      outcome (readPropertyFromFile (some content) depth) (Template.ofInput input).before
        (Template.ofInput input).vars := by
  unfold expandPropertiesInString
  cases hinput : splitAtFirst '$' input with
  | none => exact absurd (Template.vars_of_none hinput).2 h
  | some p =>
    obtain ⟨hbefore, hparse⟩ := Template.vars_of_some hinput
    rw [hparse, hbefore]
    exact expandLoop_eq (Nat.lt_succ_self _)

theorem expand_plain (h : (Template.ofInput input).vars = []) :
    expandPropertiesInString (some content) depth input expandedString =
      some (true, expandedString) := by
  unfold expandPropertiesInString
  cases hinput : splitAtFirst '$' input with
  | none => rfl
  | some p =>
    obtain ⟨-, hparse⟩ := Template.vars_of_some hinput
    have htext := (Template.parse_spec (Nat.lt_succ_self p.2.length)).1
    rw [← hparse, h] at htext
    cases htext

theorem outcome_mono {read' : Text → Option (Bool × Text)}
    (hread : ∀ name r, read name = some r → read' name = some r)
    (h : outcome read passed vs = some result) : outcome read' passed vs = some result := by
  induction vs generalizing passed with
  | nil => exact h
  | cons v vs ih =>
    unfold outcome at h ⊢
    split
    · next hgap => simpa [hgap] using h
    · next hgap =>
      rw [if_neg hgap] at h
      cases hname : read v.name with
      | none => simp [hname] at h
      | some r =>
        simp only [hname, hread _ _ hname] at h ⊢
        obtain ⟨found, value⟩ := r
        cases found with
        | false => exact h
        | true =>
          by_cases hvs : vs = []
          · simpa [hvs] using h
          · simp only [hvs, if_false] at h ⊢
            exact ih h

/-- The string begins with the input before the variables that are left. -/
theorem passed_prefix_outcome (h : outcome read passed vs = some (b, s)) : passed <+: s := by
  induction vs generalizing passed with
  | nil =>
    cases h
    exact List.prefix_rfl
  | cons v vs ih =>
    unfold outcome at h
    split at h
    · cases h
      exact List.prefix_append _ _
    · split at h
      · cases h
      · cases h
        exact List.prefix_rfl
      · split at h
        · cases h
          rw [List.append_assoc]
          exact List.prefix_append _ _
        · exact (List.prefix_append _ _).trans (ih h)

/-- Of two or more variables the first one is not expanded. -/
theorem outcome_ne_expansion {value : Text} (hv : v.WellFormed) (hgap : v.gap ≠ []) (hvs : vs ≠ [])
    (hvalue : value.head? ≠ some '$') (tail : Text) :
    outcome read passed (v :: vs) ≠ some (true, passed ++ (value ++ v.gap ++ tail)) := by
  intro h
  rw [outcome, if_neg hgap] at h
  have hpre : passed ++ v.text <+: passed ++ (value ++ v.gap ++ tail) := by
    split at h
    · cases h
    · cases h
    · rw [if_neg hvs] at h
      exact passed_prefix_outcome h
  rw [List.prefix_append_right_inj] at hpre
  have hhead : (value ++ v.gap ++ tail).head? = some '$' := by
    obtain ⟨behind, hbehind⟩ := hpre
    rw [← hbehind]
    rfl
  cases value with
  | nil =>
    cases hg : v.gap with
    | nil => exact hgap hg
    | cons c gap =>
      rw [hg] at hhead
      obtain rfl : c = '$' := by simpa using hhead
      exact absurd (hv.ended '$' (by rw [hg]; rfl)) (by decide)
  | cons c value => exact hvalue hhead

/-- The name at the end is its value exactly when it has no `$` and its own value. -/
theorem lastName_eq_iff {value : Text} (hvalue : value.head? ≠ some '$') :
    lastName name = value ↔ '$' ∉ name ∧ value = name := by
  by_cases hname : '$' ∈ name
  · simp only [hname, not_true_eq_false, false_and, iff_false]
    rintro rfl
    exact hvalue (head_lastName hname)
  · rw [lastName_of_notMem hname]
    simp [hname, eq_comm]

/-! ## What the reader finds -/

theorem readPropertyFromFile_mono (h : readPropertyFromFile (some content) depth name = some result)
    (hdepth : depth ≤ depth') :
    readPropertyFromFile (some content) depth' name = some result := by
  rw [readPropertyFromFile_eq] at h ⊢
  obtain ⟨r, hlook, rfl⟩ := Option.map_eq_some_iff.mp h
  rw [Table.lookup_mono hlook hdepth]
  rfl

/-- The reader returns with the value. -/
def Found (content name value : Text) : Prop :=
  ∃ depth, readPropertyFromFile (some content) depth name = some (true, value)

/-- The reader returns without a value. -/
def Missed (content name : Text) : Prop :=
  ∃ depth value, readPropertyFromFile (some content) depth name = some (false, value)

/-- The reader misses a variable before a delimiter, and it has found the variables before. -/
def MissesOne (content : Text) (vs : List Variable) : Prop :=
  ∃ pre v post, vs = pre ++ v :: post ∧ (∀ w ∈ pre, ∃ value, Found content w.name value) ∧
    v.gap ≠ [] ∧ Missed content v.name

/-- The call fails exactly when the reader misses a variable before a delimiter. -/
theorem exists_outcome_false_iff (hterm : ∀ v ∈ vs.dropLast, v.gap ≠ []) :
    (∃ depth s, outcome (readPropertyFromFile (some content) depth) passed vs = some (false, s)) ↔
      MissesOne content vs := by
  induction vs generalizing passed with
  | nil => simp [outcome, MissesOne]
  | cons v vs ih =>
    have hterm' : ∀ w ∈ vs.dropLast, w.gap ≠ [] := by
      intro w hw
      refine hterm w ?_
      rw [List.dropLast_cons_of_ne_nil (by rintro rfl; cases hw)]
      exact List.mem_cons_of_mem _ hw
    constructor
    · rintro ⟨depth, s, h⟩
      rw [outcome] at h
      split at h
      · cases h
      · next hgap =>
        split at h
        · cases h
        · next value hread => exact ⟨[], v, vs, rfl, by simp, hgap, depth, value, hread⟩
        · next value hread =>
          split at h
          · cases h
          · obtain ⟨pre, w, post, rfl, hpre, hw⟩ := (ih hterm').mp ⟨depth, s, h⟩
            have hfound := List.forall_mem_cons.mpr ⟨⟨value, depth, hread⟩, hpre⟩
            exact ⟨v :: pre, w, post, rfl, hfound, hw⟩
    · rintro ⟨pre, w, post, hsplit, hpre, hgap, hmissed⟩
      cases pre with
      | nil =>
        cases hsplit
        obtain ⟨depth, value, hread⟩ := hmissed
        exact ⟨depth, passed, by simp [outcome, hgap, hread]⟩
      | cons x pre =>
        obtain ⟨rfl, hrest⟩ := List.cons.inj hsplit
        have hvs : vs ≠ [] := by
          rw [hrest]
          simp
        have hfirst : v.gap ≠ [] := by
          refine hterm v ?_
          rw [List.dropLast_cons_of_ne_nil hvs]
          exact List.mem_cons_self
        obtain ⟨⟨value, depth, hread⟩, hpre⟩ := List.forall_mem_cons.mp hpre
        have hlater : ∃ depth s, outcome (readPropertyFromFile (some content) depth)
            (passed ++ v.text) vs = some (false, s) :=
          (ih hterm').mpr ⟨pre, w, post, hrest, hpre, hgap, hmissed⟩
        obtain ⟨depth', s, h⟩ := hlater
        refine ⟨max depth depth', s, ?_⟩
        rw [outcome, if_neg hfirst, readPropertyFromFile_mono hread (Nat.le_max_left depth depth')]
        simp only [hvs, if_false]
        exact outcome_mono
          (fun _ _ hx => readPropertyFromFile_mono hx (Nat.le_max_right depth depth')) h

/-! ## The expansion -/

/-- The assignments of the file give the property the value. -/
def Defined (content name value : Text) : Prop :=
  ∃ p, Table.Reads (assignments content) name (some (p, value))

/-- The call returns the result. -/
def Expands (content input expandedString : Text) (result : Bool × Text) : Prop :=
  ∃ depth, expandPropertiesInString (some content) depth input expandedString = some result

/-- With all variables defined the call gives the input with their values in their places, and it
fails exactly when one is not defined. -/
structure ExpandsVariables (content input expandedString : Text) : Prop where
  defined : ∀ value : Text → Text,
    (∀ v ∈ (Template.ofInput input).vars, Defined content v.name (value v.name)) →
      Expands content input expandedString (true, (Template.ofInput input).expansion value)
  undefined : (∃ s, Expands content input expandedString (false, s)) ↔
    ∃ v ∈ (Template.ofInput input).vars, ¬ ∃ value, Defined content v.name value

/-- There is no variable and the string is the input already; or a variable is not defined and the
reader misses one before a delimiter; or there is one variable, it is defined, and either it stands
before a delimiter and the reader finds its value, or it is a name without `$` that is its own
value. -/
def Expandable (content input expandedString : Text) : Prop :=
  (Template.ofInput input).vars = [] ∧ expandedString = input ∨
    (∃ v ∈ (Template.ofInput input).vars, ¬ ∃ value, Defined content v.name value) ∧
      MissesOne content (Template.ofInput input).vars ∨
    ∃ v value, (Template.ofInput input).vars = [v] ∧ Defined content v.name value ∧
      (v.gap ≠ [] ∧ Found content v.name value ∨ v.gap = [] ∧ '$' ∉ v.name ∧ value = v.name)

theorem Expands.unique {result' : Bool × Text} (h : Expands content input expandedString result)
    (h' : Expands content input expandedString result') : result = result' := by
  by_cases hvars : (Template.ofInput input).vars = []
  · obtain ⟨depth, hdepth⟩ := h
    obtain ⟨depth', hdepth'⟩ := h'
    rw [expand_plain hvars] at hdepth hdepth'
    exact (Option.some.inj hdepth).symm.trans (Option.some.inj hdepth')
  · obtain ⟨depth, hdepth⟩ := h
    obtain ⟨depth', hdepth'⟩ := h'
    rw [expand_eq hvars] at hdepth hdepth'
    have hleft := outcome_mono
      (fun _ _ hx => readPropertyFromFile_mono hx (Nat.le_max_left depth depth')) hdepth
    rw [outcome_mono
      (fun _ _ hx => readPropertyFromFile_mono hx (Nat.le_max_right depth depth')) hdepth'] at hleft
    exact (Option.some.inj hleft).symm

theorem head_of_valueTarget {value text : Text} (h : valueTarget value = .value text) :
    text.head? ≠ some '$' := by
  unfold valueTarget at h
  split at h
  · cases h
  · next hno =>
    cases h
    intro hhead
    obtain ⟨tail, htail⟩ := List.head?_eq_some_iff.mp hhead
    exact hno tail htail

/-- No value of a property begins with `$`. -/
theorem Defined.head {value : Text} (h : Defined content name value) : value.head? ≠ some '$' := by
  obtain ⟨p, h⟩ := h
  obtain ⟨n, i, hmem⟩ := h.exists_value
  obtain ⟨line, -, hassign⟩ := mem_assignments hmem
  obtain ⟨-, _, _, -, -, -, hvalue⟩ := assignment_eq_some hassign
  exact head_of_valueTarget hvalue.symm

theorem Defined.unique {value value' : Text} (h : Defined content name value)
    (h' : Defined content name value') : value = value' := by
  obtain ⟨p, h⟩ := h
  obtain ⟨p', h'⟩ := h'
  cases h.unique h'
  rfl

/-- The right string for one variable. -/
theorem expands_singleton_iff {value : Text} (hvars : (Template.ofInput input).vars = [v])
    (hvalue : value.head? ≠ some '$') :
    Expands content input expandedString
        (true, (Template.ofInput input).before ++ (value ++ v.gap)) ↔
      v.gap ≠ [] ∧ Found content v.name value ∨ v.gap = [] ∧ '$' ∉ v.name ∧ value = v.name := by
  have hne : (Template.ofInput input).vars ≠ [] := by simp [hvars]
  simp only [Expands, expand_eq hne, hvars, outcome]
  by_cases hgap : v.gap = []
  · simp [hgap, lastName_eq_iff hvalue]
  · simp only [hgap, if_false, if_true, not_false_eq_true, true_and, false_and, or_false, ne_eq]
    refine exists_congr fun depth => ?_
    cases hread : readPropertyFromFile (some content) depth v.name with
    | none => simp
    | some r =>
      obtain ⟨found, value'⟩ := r
      cases found <;> simp

theorem expansion_congr {t : Template} {value value' : Text → Text}
    (h : ∀ v ∈ t.vars, value v.name = value' v.name) : t.expansion value = t.expansion value' := by
  unfold Template.expansion
  rw [List.flatMap_congr fun v hv => by rw [h v hv]]

/-- With a variable that is not defined, the call is right when it fails. -/
theorem expandsVariables_iff_of_undefined
    (h : ∃ v ∈ (Template.ofInput input).vars, ¬ ∃ value, Defined content v.name value) :
    ExpandsVariables content input expandedString ↔
      MissesOne content (Template.ofInput input).vars := by
  have hne : (Template.ofInput input).vars ≠ [] := by
    obtain ⟨v, hv, -⟩ := h
    exact List.ne_nil_of_mem hv
  have hfails : (∃ s, Expands content input expandedString (false, s)) ↔
      MissesOne content (Template.ofInput input).vars := by
    simp only [Expands, expand_eq hne]
    rw [exists_comm]
    exact exists_outcome_false_iff (Template.ofInput input).terminated
  constructor
  · intro hexpands
    exact hfails.mp (hexpands.undefined.mpr h)
  · intro hmisses
    refine ⟨fun value hvalue => ?_, fun _ => h, fun _ => hfails.mpr hmisses⟩
    obtain ⟨v, hv, hno⟩ := h
    exact absurd ⟨_, hvalue v hv⟩ hno

/-- With values for all variables, the call is right when it puts them in their places. -/
theorem expandsVariables_iff_of_defined {value : Text → Text}
    (h : ∀ v ∈ (Template.ofInput input).vars, Defined content v.name (value v.name)) :
    ExpandsVariables content input expandedString ↔
      Expands content input expandedString (true, (Template.ofInput input).expansion value) := by
  constructor
  · intro hexpands
    exact hexpands.defined value h
  · intro hright
    refine ⟨fun value' h' => ?_, ?_, ?_⟩
    · rwa [expansion_congr fun v hv => (h' v hv).unique (h v hv)]
    · rintro ⟨s, hfails⟩
      cases hright.unique hfails
    · rintro ⟨v, hv, hno⟩
      exact absurd ⟨_, h v hv⟩ hno

/-- The expansion of two or more variables is never returned. -/
theorem not_expands_of_two {value : Text → Text} (hvars : (Template.ofInput input).vars = v :: vs)
    (hvs : vs ≠ []) (hvalue : (value v.name).head? ≠ some '$') :
    ¬ Expands content input expandedString (true, (Template.ofInput input).expansion value) := by
  have hwf := (Template.ofInput input).wellFormed v (by simp [hvars])
  have hgap : v.gap ≠ [] := by
    refine (Template.ofInput input).terminated v ?_
    rw [hvars, List.dropLast_cons_of_ne_nil hvs]
    exact List.mem_cons_self
  rintro ⟨depth, h⟩
  rw [expand_eq (by simp [hvars]), hvars, Template.expansion, hvars, List.flatMap_cons] at h
  exact outcome_ne_expansion hwf hgap hvs hvalue _ h

/-- The variables are expanded exactly when there is none to expand, or one that is defined and
that the reader finds or that is its own value; or when the call rightly fails. -/
theorem expandsVariables_iff (content input expandedString : Text) :
    ExpandsVariables content input expandedString ↔ Expandable content input expandedString := by
  unfold Expandable
  by_cases hundefined : ∃ v ∈ (Template.ofInput input).vars, ¬ ∃ value, Defined content v.name value
  · have hne : (Template.ofInput input).vars ≠ [] := by
      obtain ⟨v, hv, -⟩ := hundefined
      exact List.ne_nil_of_mem hv
    have hno : ¬ ∃ v value, (Template.ofInput input).vars = [v] ∧ Defined content v.name value ∧
        (v.gap ≠ [] ∧ Found content v.name value ∨ v.gap = [] ∧ '$' ∉ v.name ∧ value = v.name) := by
      rintro ⟨v, value, hvars, hdefined, -⟩
      obtain ⟨w, hw, hnone⟩ := hundefined
      rw [hvars, List.mem_singleton] at hw
      exact hnone ⟨value, hw ▸ hdefined⟩
    rw [expandsVariables_iff_of_undefined hundefined]
    simp only [hne, hundefined, hno, false_and, true_and, false_or, or_false]
  · have hdefined : ∃ value : Text → Text,
        ∀ v ∈ (Template.ofInput input).vars, Defined content v.name (value v.name) := by
      have hvalue (n : Text) : ∃ value, (∃ x, Defined content n x) → Defined content n value := by
        by_cases hx : ∃ x, Defined content n x
        · exact hx.imp fun _ hx _ => hx
        · exact ⟨[], fun h => absurd h hx⟩
      choose value hvalue using hvalue
      refine ⟨value, fun v hv => hvalue v.name ?_⟩
      by_contra hno
      exact hundefined ⟨v, hv, hno⟩
    obtain ⟨value, hvalue⟩ := hdefined
    rw [expandsVariables_iff_of_defined hvalue]
    simp only [hundefined, false_and, false_or]
    cases hvars : (Template.ofInput input).vars with
    | nil =>
      have htext := Template.text_ofInput input
      have hinput : (Template.ofInput input).before = input := by
        simpa [Template.text, hvars] using htext
      simp [Expands, expand_plain hvars, Template.expansion, hvars, hinput]
    | cons v vs =>
      have hv : Defined content v.name (value v.name) := hvalue v (by simp [hvars])
      by_cases hvs : vs = []
      · subst hvs
        rw [Template.expansion, hvars, List.flatMap_singleton, expands_singleton_iff hvars hv.head]
        constructor
        · intro h
          exact .inr ⟨v, _, rfl, hv, h⟩
        · rintro (⟨hnil, -⟩ | ⟨w, value', hw, hdefined, h⟩)
          · cases hnil
          · cases hw
            rwa [hv.unique hdefined]
      · simp [not_expands_of_two hvars hvs hv.head, hvs]

/-- Of two variables the first one is left in the string. -/
theorem not_expandsVariables_two :
    AcyclicReferences "A=x\nB=y".toList ∧
      expandPropertiesInString (some "A=x\nB=y".toList) 1 "$A/$B/".toList [] =
        some (true, "$A/y/".toList) ∧
      ¬ ExpandsVariables "A=x\nB=y".toList "$A/$B/".toList [] := by
  have hresult : expandPropertiesInString (some "A=x\nB=y".toList) 1 "$A/$B/".toList [] =
      some (true, "$A/y/".toList) := by decide
  have hvars : (Template.ofInput "$A/$B/".toList).vars =
      [⟨"A".toList, "/".toList⟩, ⟨"B".toList, "/".toList⟩] := by decide
  have hA : Table.lookup (assignments "A=x\nB=y".toList) 1 "A".toList =
      some (some ([0], "x".toList)) := by decide
  have hB : Table.lookup (assignments "A=x\nB=y".toList) 1 "B".toList =
      some (some ([1], "y".toList)) := by decide
  refine ⟨acyclicReferences_of_literal (by decide), hresult, fun h => ?_⟩
  have hexpands := h.defined (fun n => if n = "A".toList then "x".toList else "y".toList) (by
    rw [hvars]
    simp only [List.mem_cons, List.not_mem_nil, or_false, forall_eq_or_imp, forall_eq]
    exact ⟨⟨[0], Table.reads_of_lookup hA⟩, ⟨[1], Table.reads_of_lookup hB⟩⟩)
  exact absurd (hexpands.unique ⟨1, hresult⟩) (by decide)

/-! ## When the reader reads the assignments -/

theorem missed_of_readsAssignments (hacyclic : AcyclicReferences content)
    (h : ReadsAssignments content name) (hno : ¬ ∃ value, Defined content name value) :
    Missed content name := by
  obtain ⟨r, hreads⟩ : ∃ r, Table.Reads (assignments content) name r :=
    exists_reads_assignments hacyclic
  obtain ⟨depth, hread⟩ := (h r hreads).1
  cases r with
  | none => exact ⟨depth, [], hread⟩
  | some q => exact absurd ⟨q.2, q.1, hreads⟩ hno

theorem found_of_readsAssignments {value : Text} (h : ReadsAssignments content name)
    (hdefined : Defined content name value) : Found content name value := by
  obtain ⟨p, hreads⟩ := hdefined
  exact (h _ hreads).1

/-- With a reader that reads the assignments, what counts is where a variable is not defined. -/
theorem missesOne_of_readsAssignments (hacyclic : AcyclicReferences content)
    (hterm : ∀ v ∈ vs.dropLast, v.gap ≠ [])
    (h : ∀ v ∈ vs, v.gap ≠ [] → ReadsAssignments content v.name)
    (hno : ∃ v ∈ vs, v.gap ≠ [] ∧ ¬ ∃ value, Defined content v.name value) :
    MissesOne content vs := by
  induction vs with
  | nil =>
    obtain ⟨v, hv, -⟩ := hno
    cases hv
  | cons v vs ih =>
    by_cases hfirst : v.gap ≠ [] ∧ ¬ ∃ value, Defined content v.name value
    · exact ⟨[], v, vs, rfl, by simp, hfirst.1,
        missed_of_readsAssignments hacyclic (h v List.mem_cons_self hfirst.1) hfirst.2⟩
    · obtain ⟨w, hw, hgap, hundefined⟩ := hno
      have hin : w ∈ vs := by
        rcases List.mem_cons.mp hw with rfl | hin
        · exact absurd ⟨hgap, hundefined⟩ hfirst
        · exact hin
      have hvs : vs ≠ [] := List.ne_nil_of_mem hin
      rw [List.dropLast_cons_of_ne_nil hvs] at hterm
      have hv : v.gap ≠ [] := hterm v List.mem_cons_self
      obtain ⟨value, hdefined⟩ := not_not.mp (not_and.mp hfirst hv)
      obtain ⟨pre, x, post, rfl, hpre, hx⟩ := ih (fun w hw => hterm w (List.mem_cons_of_mem _ hw))
        (fun w hw => h w (List.mem_cons_of_mem _ hw)) ⟨w, hin, hgap, hundefined⟩
      refine ⟨v :: pre, x, post, rfl, List.forall_mem_cons.mpr ⟨⟨value, ?_⟩, hpre⟩, hx⟩
      exact found_of_readsAssignments (h v List.mem_cons_self hv) hdefined

/-- Where the reader reads the assignments of the variables before a delimiter, the condition is
that there is none, one of them is not defined, or there is one variable only. -/
theorem expandable_iff_of_readsAssignments (hacyclic : AcyclicReferences content)
    (h : ∀ v ∈ (Template.ofInput input).vars, v.gap ≠ [] → ReadsAssignments content v.name) :
    Expandable content input expandedString ↔
      (Template.ofInput input).vars = [] ∧ expandedString = input ∨
      (∃ v ∈ (Template.ofInput input).vars, v.gap ≠ [] ∧
        ¬ ∃ value, Defined content v.name value) ∨
      ∃ v, (Template.ofInput input).vars = [v] ∧
        (v.gap ≠ [] ∨ '$' ∉ v.name ∧ Defined content v.name v.name) := by
  have hterm := (Template.ofInput input).terminated
  constructor
  · rintro (hplain | ⟨-, pre, v, post, hsplit, -, hgap, depth, value, hread⟩ |
      ⟨v, value, hvars, hdefined, ⟨hgap, -⟩ | ⟨-, hname, rfl⟩⟩)
    · exact .inl hplain
    · have hv : v ∈ (Template.ofInput input).vars := by simp [hsplit]
      refine .inr (.inl ⟨v, hv, hgap, ?_⟩)
      rintro ⟨value', hdefined⟩
      obtain ⟨depth', hread'⟩ := found_of_readsAssignments (h v hv hgap) hdefined
      have hleft := readPropertyFromFile_mono hread (Nat.le_max_left depth depth')
      rw [readPropertyFromFile_mono hread' (Nat.le_max_right depth depth')] at hleft
      cases hleft
    · exact .inr (.inr ⟨v, hvars, .inl hgap⟩)
    · exact .inr (.inr ⟨v, hvars, .inr ⟨hname, hdefined⟩⟩)
  · have hmisses (hno : ∃ v ∈ (Template.ofInput input).vars, v.gap ≠ [] ∧
        ¬ ∃ value, Defined content v.name value) : Expandable content input expandedString := by
      refine .inr (.inl ⟨?_, missesOne_of_readsAssignments hacyclic hterm h hno⟩)
      obtain ⟨v, hv, -, hundefined⟩ := hno
      exact ⟨v, hv, hundefined⟩
    rintro (hplain | hno | ⟨v, hvars, hv⟩)
    · exact .inl hplain
    · exact hmisses hno
    · by_cases hgap : v.gap = []
      · obtain ⟨hname, hdefined⟩ := hv.resolve_left fun hne => hne hgap
        exact .inr (.inr ⟨v, _, hvars, hdefined, .inr ⟨hgap, hname, rfl⟩⟩)
      · have hmem : v ∈ (Template.ofInput input).vars := by simp [hvars]
        by_cases hdefined : ∃ value, Defined content v.name value
        · obtain ⟨value, hdefined⟩ := hdefined
          exact .inr (.inr ⟨v, value, hvars, hdefined,
            .inl ⟨hgap, found_of_readsAssignments (h v hmem hgap) hdefined⟩⟩)
        · exact hmisses ⟨v, hmem, hgap, hdefined⟩

end SoftwareUpdate.Helpers
