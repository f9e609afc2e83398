import Mathlib.Data.List.Induction
import SoftwareUpdate.Helpers.SearchFiles

/-!
# What `searchFilesRec` finds

A path matches when each of its components is the one of the pattern or is accepted by it. All
matching paths are found when, in every directory that the search comes to, the components that
are left match what the pattern matches below the directory, and no directory in which the last
component is looked up has two names that match.
-/

namespace SoftwareUpdate.Helpers

namespace FileSearch

variable {S : FileSearch} {dir dir' below below' components pre post names path : List Text}
  {component name : Text} {M : List Text → Prop}

/-- The name is the component, or the name of an entry that the wildcards accept. -/
def Fits (S : FileSearch) (component name : Text) : Prop :=
  if isWildcard component then name ≠ [] ∧ S.accepts component name = true else name = component

/-- The path is an entry of a directory. -/
def Existing (S : FileSearch) (path : List Text) : Prop :=
  ∃ dir name, path = dir ++ [name] ∧ S.access dir name = true

/-- An existing path below the directory whose components fit. -/
def MatchesBelow (S : FileSearch) (dir components path : List Text) : Prop :=
  S.Existing path ∧ ∃ rest, path = dir ++ rest ∧ List.Forall₂ S.Fits components rest

/-- The components as they are left when the directories have been searched. -/
def leftBelow (S : FileSearch) (dir names below : List Text) : List Text :=
  (walkEntries (S.walk below.length) dir names below).2

/-- The search of a directory with its components comes to a directory, with the components as
they are then. -/
inductive Visits (S : FileSearch) : List Text → List Text → List Text → List Text → Prop
  | here {dir components : List Text} : Visits S dir components dir components
  | literal {dir below dir' components : List Text} {component : Text}
      (hwild : isWildcard component = false) (hbelow : below ≠ [])
      (h : Visits S (dir ++ [component]) below dir' components) :
      Visits S dir (component :: below) dir' components
  | entry {dir below dir' components pre post : List Text} {component name : Text}
      (hwild : isWildcard component = true) (hbelow : below ≠ [])
      (hnames : S.acceptedNames dir component = pre ++ name :: post)
      (h : Visits S (dir ++ [name]) (S.leftBelow dir pre below) dir' components) :
      Visits S dir (component :: below) dir' components

/-- Below the directory the components match the paths that they should, and at most one name when
they are a last component with wildcards. -/
structure Unspoilt (S : FileSearch) (M : List Text → Prop) (dir components : List Text) : Prop where
  below : ∀ path, dir <+: path → (M path ↔ S.MatchesBelow dir components path)
  last : ∀ component, components = [component] → isWildcard component = true →
    (S.acceptedNames dir component).length ≤ 1

/-! ## Existing paths -/

theorem existing_append : S.Existing (dir ++ [name]) ↔ S.access dir name = true := by
  constructor
  · rintro ⟨dir', name', heq, haccess⟩
    obtain ⟨rfl, hname⟩ := List.append_inj' heq rfl
    cases hname
    exact haccess
  · exact fun h => ⟨dir, name, rfl, h⟩

theorem isSome_of_access (h : S.access dir name = true) : (S.tree.readdir dir).isSome := by
  unfold access at h
  split at h
  · exact h
  · by_contra hno
    simp [Option.not_isSome_iff_eq_none.mp hno] at h

theorem access_of_isSome (h : (S.tree.readdir (dir ++ [name])).isSome) :
    S.access dir name = true := by
  unfold access
  split
  · next hname =>
    subst hname
    rwa [S.tree.slash] at h
  · next hname => simpa using S.tree.closed dir name hname h

theorem ne_nil_of_accepted (h : name ∈ S.acceptedNames dir component) : name ≠ [] := by
  rintro rfl
  have hentry := List.mem_of_mem_filter h
  cases hread : S.tree.readdir dir with
  | none => simp [hread] at hentry
  | some names =>
    rw [hread] at hentry
    exact S.tree.nonempty dir names hread hentry

theorem access_of_accepted (h : name ∈ S.acceptedNames dir component) :
    S.access dir name = true := by
  simpa [access, ne_nil_of_accepted h] using List.mem_of_mem_filter h

/-- The components of an existing path are entries. -/
theorem access_of_existing (h : S.Existing (dir ++ name :: below)) : S.access dir name = true := by
  induction below using List.reverseRecOn with
  | nil => exact existing_append.mp h
  | append_singleton below x ih =>
    have hsplit : dir ++ name :: (below ++ [x]) = (dir ++ name :: below) ++ [x] := by simp
    rw [hsplit, existing_append] at h
    have hopen := isSome_of_access h
    rcases List.eq_nil_or_concat below with rfl | ⟨below', y, rfl⟩
    · exact access_of_isSome hopen
    · rw [List.concat_eq_append] at ih hopen
      refine ih ?_
      have hsplit' : dir ++ name :: (below' ++ [y]) = (dir ++ name :: below') ++ [y] := by simp
      rw [hsplit'] at hopen ⊢
      exact existing_append.mpr (access_of_isSome hopen)

theorem MatchesBelow.of_fits (hfits : S.Fits component name)
    (h : S.MatchesBelow (dir ++ [name]) below path) :
    S.MatchesBelow dir (component :: below) path := by
  obtain ⟨hexists, rest, rfl, hrest⟩ := h
  exact ⟨hexists, name :: rest, by simp, .cons hfits hrest⟩

/-- The first component behind a directory of a matching path. -/
theorem matchesBelow_cons : S.MatchesBelow dir (component :: below) path ↔
    ∃ name, S.Fits component name ∧ S.access dir name = true ∧
      S.MatchesBelow (dir ++ [name]) below path := by
  constructor
  · rintro ⟨hexists, rest, rfl, hfits⟩
    cases hfits with
    | cons hname hrest =>
      exact ⟨_, hname, access_of_existing hexists, hexists, _, by simp, hrest⟩
  · rintro ⟨name, hname, -, hmatch⟩
    exact .of_fits hname hmatch

theorem prefix_of_matchesBelow (h : S.MatchesBelow dir components path) : dir <+: path := by
  obtain ⟨-, rest, rfl, -⟩ := h
  exact List.prefix_append dir rest

theorem fits_of_wildcard (h : isWildcard component = true) :
    S.Fits component name ∧ S.access dir name = true ↔ name ∈ S.acceptedNames dir component := by
  constructor
  · rintro ⟨hfits, haccess⟩
    simp only [Fits, h, if_true] at hfits
    simp only [access, hfits.1, if_false, decide_eq_true_eq] at haccess
    exact List.mem_filter.mpr ⟨haccess, hfits.2⟩
  · intro hname
    refine ⟨?_, access_of_accepted hname⟩
    simp only [Fits, h, if_true]
    exact ⟨ne_nil_of_accepted hname, (List.mem_filter.mp hname).2⟩

theorem fits_of_literal (h : isWildcard component = false) :
    S.Fits component name ↔ name = component := by
  simp [Fits, h]

/-- At the last component, the matching paths are entries of the directory. -/
theorem matchesBelow_singleton : S.MatchesBelow dir [component] path ↔
    ∃ name, S.Fits component name ∧ S.access dir name = true ∧ path = dir ++ [name] := by
  rw [matchesBelow_cons]
  constructor
  · rintro ⟨name, hname, haccess, hexists, rest, rfl, hrest⟩
    cases hrest
    exact ⟨name, hname, haccess, by simp⟩
  · rintro ⟨name, hname, haccess, rfl⟩
    exact ⟨name, hname, haccess, existing_append.mpr haccess, [], by simp, .nil⟩

theorem nodup_acceptedNames : (S.acceptedNames dir component).Nodup := by
  unfold acceptedNames
  cases h : S.tree.readdir dir with
  | none => simp
  | some names => exact (S.tree.nodup dir names h).filter _

/-! ## The directories one after the other -/

variable {f : List Text → List Text → List (List Text) × List Text}

theorem walkEntries_append : walkEntries f dir (pre ++ post) below =
    ((walkEntries f dir pre below).1 ++ (walkEntries f dir post (walkEntries f dir pre below).2).1,
      (walkEntries f dir post (walkEntries f dir pre below).2).2) := by
  induction pre generalizing below with
  | nil => simp [walkEntries]
  | cons name pre ih => simp [walkEntries, ih]

theorem length_leftBelow (S : FileSearch) (dir names below : List Text) :
    (S.leftBelow dir names below).length = below.length :=
  length_walkEntries fun _ _ => length_walk

theorem leftBelow_concat : S.leftBelow dir (names ++ [name]) below =
    (S.walk below.length (dir ++ [name]) (S.leftBelow dir names below)).2 := by
  unfold leftBelow
  rw [walkEntries_append]
  rfl

/-- Paths below different entries are different. -/
theorem prefix_unique {name' : Text} (h : dir ++ [name] <+: path) (h' : dir ++ [name'] <+: path) :
    name = name' := by
  obtain ⟨rest, rfl⟩ := h
  rw [List.append_assoc, List.prefix_append_right_inj] at h'
  obtain ⟨rest', hrest⟩ := h'
  exact (List.cons.inj hrest).1.symm

/-- What the searches of the entries find together, when each finds what it should. -/
theorem walkEntries_spec (hnodup : (pre ++ names).Nodup)
    (h : ∀ pre' name post, pre ++ names = pre' ++ name :: post →
      (S.walk below.length (dir ++ [name]) (S.leftBelow dir pre' below)).1.Nodup ∧
      ∀ path, path ∈ (S.walk below.length (dir ++ [name]) (S.leftBelow dir pre' below)).1 ↔
        dir ++ [name] <+: path ∧ M path) :
    (walkEntries (S.walk below.length) dir names (S.leftBelow dir pre below)).1.Nodup ∧
    ∀ path, path ∈ (walkEntries (S.walk below.length) dir names (S.leftBelow dir pre below)).1 ↔
      (∃ name ∈ names, dir ++ [name] <+: path) ∧ M path := by
  induction names generalizing pre with
  | nil => simp [walkEntries]
  | cons name names ih =>
    obtain ⟨hfirst, hmem⟩ := h pre name names rfl
    have hnew : name ∉ names := by
      rw [List.nodup_append] at hnodup
      exact (List.nodup_cons.mp hnodup.2.1).1
    have hnext : pre ++ name :: names = (pre ++ [name]) ++ names := by simp
    rw [hnext] at hnodup h
    have hrest := ih hnodup h
    rw [leftBelow_concat] at hrest
    obtain ⟨hrestNodup, hrestMem⟩ := hrest
    simp only [walkEntries]
    constructor
    · refine hfirst.append hrestNodup fun path hpath hpath' => ?_
      obtain ⟨⟨name', hname', hpre'⟩, -⟩ := (hrestMem path).mp hpath'
      obtain rfl := prefix_unique ((hmem path).mp hpath).1 hpre'
      exact hnew hname'
    · intro path
      rw [List.mem_append, hmem, hrestMem, ← or_and_right]
      simp

/-- At most one accepted name of a last component is found. -/
theorem lastFound_of_length_le (h : names.length ≤ 1)
    (haccess : ∀ name ∈ names, S.access dir name = true) :
    S.lastFound dir names [] 0 = names.map fun name => dir ++ [name] := by
  cases names with
  | nil => rfl
  | cons name names =>
    obtain rfl : names = [] := by simpa using h
    simp [lastFound, haccess name List.mem_cons_self]

theorem leftBelow_ne_nil (h : below ≠ []) : S.leftBelow dir names below ≠ [] := by
  intro hnil
  have hlength := S.length_leftBelow dir names below
  rw [hnil] at hlength
  exact h (List.length_eq_zero_iff.mp hlength.symm)

/-- When nothing is spoilt, the walk finds the paths that it should, each once. -/
theorem walk_spec {n : ℕ} (hlength : components.length = n) (hne : components ≠ [])
    (h : ∀ dir' components', S.Visits dir components dir' components' →
      S.Unspoilt M dir' components') :
    (S.walk n dir components).1.Nodup ∧
      ∀ path, path ∈ (S.walk n dir components).1 ↔ dir <+: path ∧ M path := by
  induction n generalizing dir components with
  | zero => exact absurd (List.length_eq_zero_iff.mp hlength) hne
  | succ n ih =>
    cases components with
    | nil => exact absurd rfl hne
    | cons component below =>
      have hhere := h dir (component :: below) .here
      have hsplit (path : List Text) : dir <+: path ∧ M path ↔
          S.MatchesBelow dir (component :: below) path := by
        constructor
        · rintro ⟨hpre, hM⟩
          exact (hhere.below path hpre).mp hM
        · intro hmatch
          have hpre := prefix_of_matchesBelow hmatch
          exact ⟨hpre, (hhere.below path hpre).mpr hmatch⟩
      obtain rfl : below.length = n := by simpa using hlength
      by_cases hbelow : below = []
      · subst hbelow
        simp only [hsplit, matchesBelow_singleton]
        by_cases hwild : isWildcard component = true
        · have hfound := lastFound_of_length_le (hhere.last component rfl hwild)
            fun name hname => access_of_accepted hname
          simp only [walk, hwild, if_true, hfound]
          constructor
          · exact nodup_acceptedNames.map fun name name' heq => by simpa using heq
          · intro path
            simp only [← and_assoc, fits_of_wildcard hwild, List.mem_map, eq_comm (a := path)]
        · by_cases haccess : S.access dir component = true
          · simp [walk, hwild, haccess, Fits]
          · simp [walk, hwild, haccess, Fits]
      · by_cases hwild : isWildcard component = true
        · have hentries :
              (walkEntries (S.walk below.length) dir (S.acceptedNames dir component)
                (S.leftBelow dir [] below)).1.Nodup ∧ _ :=
            walkEntries_spec nodup_acceptedNames fun pre name post hnames =>
              ih (S.length_leftBelow dir pre below) (leftBelow_ne_nil hbelow)
                fun dir' components' hvisits =>
                  h dir' components' (.entry hwild hbelow hnames hvisits)
          simp only [walk, hwild, if_true, hbelow, if_false]
          refine ⟨hentries.1, fun path => (hentries.2 path).trans ?_⟩
          constructor
          · rintro ⟨⟨name, -, hpre⟩, hM⟩
            exact ⟨(List.prefix_append dir [name]).trans hpre, hM⟩
          · intro hpath
            obtain ⟨name, hfits, haccess, hmatch⟩ := matchesBelow_cons.mp ((hsplit path).mp hpath)
            exact ⟨⟨name, (fits_of_wildcard hwild).mp ⟨hfits, haccess⟩,
              prefix_of_matchesBelow hmatch⟩, hpath.2⟩
        · have hliteral : isWildcard component = false := by simpa using hwild
          obtain ⟨hnodup, hmem⟩ := ih rfl hbelow fun dir' components' hvisits =>
            h dir' components' (.literal hliteral hbelow hvisits)
          simp only [walk, hwild, Bool.false_eq_true, if_false, hbelow]
          refine ⟨hnodup, fun path => (hmem path).trans ?_⟩
          constructor
          · rintro ⟨hpre, hM⟩
            exact ⟨(List.prefix_append dir [component]).trans hpre, hM⟩
          · intro hpath
            obtain ⟨name, hfits, -, hmatch⟩ := matchesBelow_cons.mp ((hsplit path).mp hpath)
            obtain rfl := (fits_of_literal hliteral).mp hfits
            exact ⟨prefix_of_matchesBelow hmatch, hpath.2⟩

/-! ## Plain names -/

/-- No entry has a wildcard in its name. -/
def PlainNames (S : FileSearch) : Prop :=
  ∀ dir names, S.tree.readdir dir = some names → ∀ name ∈ names, isWildcard name = false

/-- Components some of which are replaced by names that they accept. -/
def Refines (S : FileSearch) (components' components : List Text) : Prop :=
  List.Forall₂ (fun c' c => c' = c ∨
    isWildcard c = true ∧ isWildcard c' = false ∧ c' ≠ [] ∧ S.accepts c c' = true)
    components' components

theorem Refines.refl : S.Refines components components :=
  List.forall₂_same.mpr fun _ _ => .inl rfl

theorem Refines.trans (h : S.Refines below' below) (h' : S.Refines below components) :
    S.Refines below' components := by
  induction h generalizing components with
  | nil => exact h'
  | cons hc _ ih =>
    cases h' with
    | cons hc' hrest =>
      refine .cons ?_ (ih hrest)
      rcases hc with rfl | ⟨hwild, hplain, haccepts⟩
      · exact hc'
      · rcases hc' with rfl | ⟨-, hplain', -⟩
        · exact .inr ⟨hwild, hplain, haccepts⟩
        · rw [hwild] at hplain'
          cases hplain'

/-- Replaced components match fewer paths. -/
theorem Refines.matchesBelow (h : S.Refines components below)
    (hm : S.MatchesBelow dir components path) :
    S.MatchesBelow dir below path := by
  obtain ⟨hexists, rest, rfl, hfits⟩ := hm
  refine ⟨hexists, rest, rfl, ?_⟩
  clear hexists
  induction h generalizing rest with
  | nil => exact hfits
  | cons hc _ ih =>
    cases hfits with
    | cons hname hrest =>
      refine .cons ?_ (ih _ hrest)
      rcases hc with rfl | ⟨hwild, hplain, haccepts⟩
      · exact hname
      · obtain rfl := (fits_of_literal hplain).mp hname
        simpa [Fits, hwild] using haccepts

theorem mem_walkEntries : path ∈ (walkEntries f dir names below).1 ↔
    ∃ pre name post, names = pre ++ name :: post ∧
      path ∈ (f (dir ++ [name]) (walkEntries f dir pre below).2).1 := by
  induction names generalizing below with
  | nil => simp [walkEntries]
  | cons name names ih =>
    simp only [walkEntries, List.mem_append, ih]
    constructor
    · rintro (hfirst | ⟨pre, name', post, rfl, hrest⟩)
      · exact ⟨[], name, names, rfl, hfirst⟩
      · exact ⟨name :: pre, name', post, rfl, hrest⟩
    · rintro ⟨pre, name', post, hsplit, hpath⟩
      cases pre with
      | nil =>
        obtain ⟨rfl, rfl⟩ := List.cons.inj hsplit
        exact .inl hpath
      | cons x pre =>
        obtain ⟨rfl, rfl⟩ := List.cons.inj hsplit
        exact .inr ⟨pre, name', post, rfl, hpath⟩

theorem refines_walkEntries (hf : ∀ dir below, S.Refines (f dir below).2 below) :
    S.Refines (walkEntries f dir names below).2 below := by
  induction names generalizing below with
  | nil => exact .refl
  | cons name names ih => exact ih.trans (hf _ _)

theorem refines_walk (hplain : S.PlainNames) {n : ℕ} :
    S.Refines (S.walk n dir components).2 components := by
  induction n generalizing dir components with
  | zero => cases components <;> exact .refl
  | succ n ih =>
    cases components with
    | nil => exact .refl
    | cons component below =>
      unfold walk
      split
      · next hwild =>
        split
        · next hbelow =>
          rw [hbelow]
          exact .refl
        · refine .cons ?_ (refines_walkEntries fun _ _ => ih)
          cases hlast : (S.acceptedNames dir component).getLast? with
          | none => exact .inl rfl
          | some name =>
            have hname := List.mem_of_getLast? hlast
            have haccepts := (List.mem_filter.mp hname).2
            refine .inr ⟨hwild, ?_, ne_nil_of_accepted hname, haccepts⟩
            cases hread : S.tree.readdir dir with
            | none => simp [acceptedNames, hread] at hname
            | some names =>
              have hentry := List.mem_of_mem_filter hname
              rw [hread] at hentry
              exact hplain dir names hread name hentry
      · split
        · next hbelow =>
          rw [hbelow]
          exact .refl
        · exact .cons (.inl rfl) ih

/-! ## What is found when nothing is missed -/

theorem mem_lastFound_cons {suffix : Text} {count : ℕ}
    (h : path ∈ S.lastFound dir (name :: names) suffix count) :
    path = dir ++ [suffix ++ name] ∨
      ∃ count', path ∈ S.lastFound dir names (suffix ++ name) count' := by
  simp only [lastFound] at h
  split at h
  · split at h
    · exact .inl (List.mem_singleton.mp h)
    · exact (List.mem_cons.mp h).imp_right fun hrest => ⟨count + 1, hrest⟩
  · exact .inr ⟨count, h⟩

/-- The names of a last component are put together. -/
theorem mem_lastFound {suffix : Text} {count : ℕ} (h : path ∈ S.lastFound dir names suffix count) :
    ∃ rest, path = dir ++ [suffix ++ rest] := by
  induction names generalizing suffix count with
  | nil => cases h
  | cons name names ih =>
    rcases mem_lastFound_cons h with rfl | ⟨count', hrest⟩
    · exact ⟨name, rfl⟩
    · obtain ⟨rest, rfl⟩ := ih hrest
      exact ⟨name ++ rest, by simp⟩

theorem prefix_of_mem_walk {n : ℕ} (h : path ∈ (S.walk n dir components).1) : dir <+: path := by
  induction n generalizing dir components with
  | zero => cases components <;> cases h
  | succ n ih =>
    cases components with
    | nil => cases h
    | cons component below =>
      unfold walk at h
      split at h
      · split at h
        · obtain ⟨rest, rfl⟩ := mem_lastFound h
          exact List.prefix_append dir _
        · obtain ⟨pre, name, post, -, hpath⟩ := mem_walkEntries.mp h
          exact (List.prefix_append dir [name]).trans (ih hpath)
      · split at h
        · split at h
          · obtain rfl := List.mem_singleton.mp h
            exact List.prefix_append dir _
          · cases h
        · exact (List.prefix_append dir [component]).trans (ih h)

/-- At most one name of a last component is accepted when all that are accepted are found. -/
theorem length_acceptedNames_le
    (h : ∀ name ∈ S.acceptedNames dir component,
      dir ++ [name] ∈ S.lastFound dir (S.acceptedNames dir component) [] 0) :
    (S.acceptedNames dir component).length ≤ 1 := by
  have hnodup : (S.acceptedNames dir component).Nodup := nodup_acceptedNames
  have hnonempty (name : Text) (hname : name ∈ S.acceptedNames dir component) : name ≠ [] :=
    ne_nil_of_accepted hname
  cases hnames : S.acceptedNames dir component with
  | nil => simp
  | cons first names =>
    cases names with
    | nil => simp
    | cons second names =>
      rw [hnames] at h hnodup hnonempty
      -- the second name is found behind the first one only
      have hfirst : first ≠ [] := hnonempty first List.mem_cons_self
      rcases mem_lastFound_cons (h second (by simp)) with heq | ⟨count, hrest⟩
      · obtain rfl : second = first := by simpa using heq
        simp at hnodup
      · rcases mem_lastFound_cons hrest with heq | ⟨count', hrest'⟩
        · exact absurd (by simpa using heq) hfirst
        · obtain ⟨rest, heq⟩ := mem_lastFound hrest'
          have hsecond : second = first ++ second ++ rest := by simpa using heq
          have hsum := congrArg List.length hsecond
          simp only [List.length_append] at hsum
          exact absurd (List.length_eq_zero_iff.mp (by omega)) hfirst

theorem Unspoilt.of_found {n : ℕ}
    (hfound : ∀ path, path ∈ (S.walk n dir components).1 ↔ dir <+: path ∧ M path)
    (hsound : ∀ path, S.MatchesBelow dir components path → M path)
    (hmatch : ∀ path ∈ (S.walk n dir components).1, S.MatchesBelow dir components path)
    (hlast : ∀ component, components = [component] → isWildcard component = true →
      (S.acceptedNames dir component).length ≤ 1) : S.Unspoilt M dir components where
  below := fun path hpre =>
    ⟨fun hM => hmatch path ((hfound path).mpr ⟨hpre, hM⟩), hsound path⟩
  last := hlast

/-- The search of one entry finds what is found below that entry. -/
theorem found_entry {n : ℕ}
    (hfound : ∀ path, path ∈ (walkEntries (S.walk n) dir names below).1 ↔ dir <+: path ∧ M path)
    (hnodup : names.Nodup) (hsplit : names = pre ++ name :: post) (path : List Text) :
    path ∈ (S.walk n (dir ++ [name]) (walkEntries (S.walk n) dir pre below).2).1 ↔
      dir ++ [name] <+: path ∧ M path := by
  constructor
  · intro hpath
    exact ⟨prefix_of_mem_walk hpath,
      ((hfound path).mp (mem_walkEntries.mpr ⟨pre, name, post, hsplit, hpath⟩)).2⟩
  · rintro ⟨hpre, hM⟩
    have hall := (hfound path).mpr ⟨(List.prefix_append dir [name]).trans hpre, hM⟩
    obtain ⟨pre', name', post', hsplit', hpath⟩ := mem_walkEntries.mp hall
    obtain rfl := prefix_unique hpre (prefix_of_mem_walk hpath)
    rw [hsplit] at hsplit' hnodup
    have hnew := (List.nodup_append.mp hnodup).2.2
    have hnew' := List.nodup_cons.mp (List.nodup_append.mp hnodup).2.1
    have hpre : name ∉ pre := fun hmem => hnew name hmem name List.mem_cons_self rfl
    obtain ⟨rfl, -, -⟩ := (List.append_cons_inj_of_notMem hpre hnew'.1).mp hsplit'
    exact hpath

/-- When the walk finds the paths that it should, nothing is spoilt on its way, as long as names
are plain. -/
theorem unspoilt_of_walk (hplain : S.PlainNames) {n : ℕ} (hlength : components.length = n)
    (hne : components ≠ [])
    (hfound : ∀ path, path ∈ (S.walk n dir components).1 ↔ dir <+: path ∧ M path)
    (hsound : ∀ path, S.MatchesBelow dir components path → M path) :
    (∀ path ∈ (S.walk n dir components).1, S.MatchesBelow dir components path) ∧
      ∀ dir' components', S.Visits dir components dir' components' →
        S.Unspoilt M dir' components' := by
  induction n generalizing dir components with
  | zero => exact absurd (List.length_eq_zero_iff.mp hlength) hne
  | succ n ih =>
    cases components with
    | nil => exact absurd rfl hne
    | cons component below =>
      obtain rfl : below.length = n := by simpa using hlength
      by_cases hbelow : below = []
      · subst hbelow
        have hlast (c : Text) (hc : [component] = [c]) (hwild : isWildcard c = true) :
            (S.acceptedNames dir c).length ≤ 1 := by
          obtain rfl := List.singleton_inj.mp hc
          refine length_acceptedNames_le fun name hname => ?_
          obtain ⟨hfits, haccess⟩ := (fits_of_wildcard hwild).mpr hname
          have hpath := (hfound (dir ++ [name])).mpr ⟨List.prefix_append dir [name],
            hsound _ (matchesBelow_singleton.mpr ⟨name, hfits, haccess, rfl⟩)⟩
          simpa [walk, hwild] using hpath
        have hmatch : ∀ path ∈ (S.walk 1 dir [component]).1,
            S.MatchesBelow dir [component] path := by
          intro path hpath
          rw [matchesBelow_singleton]
          by_cases hwild : isWildcard component = true
          · simp only [walk, hwild, if_true, lastFound_of_length_le (hlast component rfl hwild)
              fun name hname => access_of_accepted hname] at hpath
            obtain ⟨name, hname, rfl⟩ := List.mem_map.mp hpath
            obtain ⟨hfits, haccess⟩ := (fits_of_wildcard hwild).mpr hname
            exact ⟨name, hfits, haccess, rfl⟩
          · by_cases haccess : S.access dir component = true
            · simp only [walk, hwild, Bool.false_eq_true, if_false, haccess, if_true] at hpath
              exact ⟨component, by simp [Fits, hwild], haccess, List.mem_singleton.mp hpath⟩
            · simp [walk, hwild, haccess] at hpath
        refine ⟨hmatch, fun dir' components' hvisits => ?_⟩
        cases hvisits with
        | here => exact .of_found hfound hsound hmatch hlast
        | literal _ hne' _ => exact absurd rfl hne'
        | entry _ hne' _ _ => exact absurd rfl hne'
      · have hlast (c : Text) (hc : component :: below = [c]) :
            isWildcard c = true → (S.acceptedNames dir c).length ≤ 1 :=
          absurd (List.cons.inj hc).2 hbelow
        by_cases hwild : isWildcard component = true
        · have hentries := hfound
          simp only [walk, hwild, if_true, hbelow, if_false] at hentries
          have hrefines (pre : List Text) : S.Refines (S.leftBelow dir pre below) below :=
            refines_walkEntries fun _ _ => refines_walk hplain
          have hstep (name : Text) (hname : name ∈ S.acceptedNames dir component)
              (path : List Text) (hm : S.MatchesBelow (dir ++ [name]) below path) :
              S.MatchesBelow dir (component :: below) path := by
            exact .of_fits ((fits_of_wildcard hwild).mpr hname).1 hm
          have hentry (pre : List Text) (name : Text) (post : List Text)
              (hnames : S.acceptedNames dir component = pre ++ name :: post) :=
            ih (S.length_leftBelow dir pre below) (leftBelow_ne_nil hbelow)
              (found_entry hentries nodup_acceptedNames hnames) fun path hm =>
                hsound path (hstep name (by simp [hnames]) path ((hrefines pre).matchesBelow hm))
          have hmatch : ∀ path ∈ (S.walk (below.length + 1) dir (component :: below)).1,
              S.MatchesBelow dir (component :: below) path := by
            intro path hpath
            simp only [walk, hwild, if_true, hbelow, if_false] at hpath
            obtain ⟨pre, name, post, hnames, hsub⟩ := mem_walkEntries.mp hpath
            have hm := (hentry pre name post hnames).1 path hsub
            exact hstep name (by simp [hnames]) path ((hrefines pre).matchesBelow hm)
          refine ⟨hmatch, fun dir' components' hvisits => ?_⟩
          cases hvisits with
          | here => exact .of_found hfound hsound hmatch hlast
          | literal hwild' _ _ =>
            rw [hwild] at hwild'
            cases hwild'
          | entry _ _ hnames hsub => exact (hentry _ _ _ hnames).2 dir' components' hsub
        · have hliteral : isWildcard component = false := by simpa using hwild
          have hfits : S.Fits component component := (fits_of_literal hliteral).mpr rfl
          have hdescend := hfound
          simp only [walk, hwild, Bool.false_eq_true, if_false, hbelow] at hdescend
          have hfound' (path : List Text) :
              path ∈ (S.walk below.length (dir ++ [component]) below).1 ↔
                dir ++ [component] <+: path ∧ M path := by
            constructor
            · intro hpath
              exact ⟨prefix_of_mem_walk hpath, ((hdescend path).mp hpath).2⟩
            · rintro ⟨hpre, hM⟩
              exact (hdescend path).mpr ⟨(List.prefix_append dir [component]).trans hpre, hM⟩
          obtain ⟨hsub, hvisited⟩ := ih rfl hbelow hfound' fun path hm =>
            hsound path (.of_fits hfits hm)
          have hmatch : ∀ path ∈ (S.walk (below.length + 1) dir (component :: below)).1,
              S.MatchesBelow dir (component :: below) path := by
            intro path hpath
            simp only [walk, hwild, Bool.false_eq_true, if_false, hbelow] at hpath
            exact .of_fits hfits (hsub path hpath)
          refine ⟨hmatch, fun dir' components' hvisits => ?_⟩
          cases hvisits with
          | here => exact .of_found hfound hsound hmatch hlast
          | literal _ _ h => exact hvisited dir' components' h
          | entry hwild' _ _ _ => exact absurd hwild' hwild

/-! ## All matches -/

/-- An existing path whose components fit those of the pattern. -/
def Matches (S : FileSearch) (pattern path : List Text) : Prop := S.MatchesBelow [] pattern path

/-- The search adds the matching paths to the result, each once, whatever was in it. -/
def FindsAll (S : FileSearch) (pattern : List Text) : Prop :=
  ∀ result, ∃ found, (S.searchFilesRec pattern.length 0 ⟨pattern, result⟩).2.result =
      result ++ found ∧
    found.Nodup ∧ ∀ path, path ∈ found ↔ S.Matches pattern path

/-- In every directory that the search comes to, the components that are left match what the
pattern matches below it, and a last component with wildcards accepts at most one name. -/
def Undisturbed (S : FileSearch) (pattern : List Text) : Prop :=
  ∀ dir components, S.Visits [] pattern dir components →
    S.Unspoilt (S.Matches pattern) dir components

theorem FindsAll.searchFiles {inputPath : Text} {result : List (List Text)}
    (h : S.FindsAll (componentsOf inputPath)) :
    ∃ found, (S.searchFiles inputPath result).2.result = result ++ found ∧ found.Nodup ∧
      ∀ path, path ∈ found ↔ S.Matches (componentsOf inputPath) path := h result

theorem findsAll_iff_walk {pattern : List Text} (hne : pattern ≠ []) :
    S.FindsAll pattern ↔ (S.walk pattern.length [] pattern).1.Nodup ∧
      ∀ path, path ∈ (S.walk pattern.length [] pattern).1 ↔
        [] <+: path ∧ S.Matches pattern path := by
  have hsearch (result : List (List Text)) :
      (S.searchFilesRec pattern.length 0 ⟨pattern, result⟩).2.result =
        result ++ (S.walk pattern.length [] pattern).1 := by
    have heq : (S.searchFilesRec pattern.length [].length ⟨[] ++ pattern, result⟩).2 = _ :=
      searchFilesRec_eq hne (Nat.le_refl _)
    exact congrArg SearchState.result heq
  simp only [List.nil_prefix, true_and]
  constructor
  · intro h
    obtain ⟨found, heq, hspec⟩ := h []
    rw [hsearch, List.nil_append, List.nil_append] at heq
    rw [heq]
    exact hspec
  · intro h result
    exact ⟨_, hsearch result, h⟩

theorem not_matches_nil : ¬ S.Matches [] path := by
  rintro ⟨⟨dir, name, rfl, -⟩, rest, heq, hrest⟩
  cases hrest
  simp at heq

/-- Without components nothing is looked for. -/
theorem findsAll_nil : S.FindsAll [] := by
  intro result
  exact ⟨[], by simp [searchFilesRec], List.nodup_nil, fun path => by simp [not_matches_nil]⟩

theorem undisturbed_nil : S.Undisturbed [] := by
  intro dir components hvisits
  cases hvisits with
  | here => exact ⟨fun path _ => Iff.rfl, fun component hc => by cases hc⟩

/-- The search finds all matches when nothing is spoilt on its way; and only then, when no entry
has a wildcard in its name. -/
theorem findsAll_undisturbed (S : FileSearch) (pattern : List Text) :
    (S.Undisturbed pattern → S.FindsAll pattern) ∧
      (S.PlainNames → S.FindsAll pattern → S.Undisturbed pattern) := by
  by_cases hne : pattern = []
  · subst hne
    exact ⟨fun _ => findsAll_nil, fun _ _ => undisturbed_nil⟩
  · constructor
    · intro h
      exact (findsAll_iff_walk hne).mpr (walk_spec rfl hne h)
    · intro hplain h
      exact (unspoilt_of_walk hplain rfl hne ((findsAll_iff_walk hne).mp h).2 fun _ hm => hm).2

/-- Below a name that the first component accepts, the rest of the components matches. -/
theorem matchesBelow_of_fits (hfits : S.Fits component name) (hpre : dir ++ [name] <+: path) :
    S.MatchesBelow dir (component :: below) path ↔ S.MatchesBelow (dir ++ [name]) below path := by
  constructor
  · intro h
    obtain ⟨name', -, -, hmatch⟩ := matchesBelow_cons.mp h
    obtain rfl := prefix_unique hpre (prefix_of_matchesBelow hmatch)
    exact hmatch
  · exact MatchesBelow.of_fits hfits

/-! ## Two siblings -/

/-- The entries of a tree with the files `/a/x/f` and `/b/y/f`. -/
def siblingEntries : List Text → Option (List Text)
  | [] => some [['a'], ['b']]
  | [dir] => if dir = ['a'] then some [['x']] else if dir = ['b'] then some [['y']] else none
  | [dir, dir'] =>
      if dir = ['a'] ∧ dir' = ['x'] ∨ dir = ['b'] ∧ dir' = ['y'] then some [['f']] else none
  | _ => none

theorem siblingEntries_nodup (h : siblingEntries dir = some names) : names.Nodup := by
  unfold siblingEntries at h
  grind

theorem siblingEntries_nonempty (h : siblingEntries dir = some names) : [] ∉ names := by
  unfold siblingEntries at h
  grind

theorem siblingEntries_closed (h : (siblingEntries (dir ++ [name])).isSome) :
    name ∈ (siblingEntries dir).getD [] := by
  cases dir with
  | nil =>
    simp only [List.nil_append, siblingEntries] at h ⊢
    grind
  | cons d rest =>
    cases rest with
    | nil =>
      simp only [List.cons_append, List.nil_append, siblingEntries] at h ⊢
      grind
    | cons d' rest => simp [siblingEntries] at h

def siblingTree : DirectoryTree where
  readdir := fun dir => siblingEntries (dir.filter fun name => !name.isEmpty)
  nodup := fun _ _ => siblingEntries_nodup
  nonempty := fun _ _ => siblingEntries_nonempty
  slash := by
    intro dir
    simp
  closed := by
    intro dir name hname h
    have hfilter : (dir ++ [name]).filter (fun name => !name.isEmpty) =
        (dir.filter fun name => !name.isEmpty) ++ [name] := by
      simp [hname]
    rw [hfilter] at h
    exact siblingEntries_closed h

/-- A search for the files `f` two directories below the root. -/
def siblingSearch : FileSearch := ⟨siblingTree, fun _ _ => true, []⟩

/-- Below the first sibling there is one directory, and nothing is spoilt. -/
theorem undisturbed_firstSibling : siblingSearch.Undisturbed [['a'], ['*'], ['f']] := by
  have hfirst : siblingSearch.Fits ['a'] ['a'] := by
    unfold Fits
    decide
  have hsecond : siblingSearch.Fits ['*'] ['x'] := by
    unfold Fits
    decide
  have hentries : siblingSearch.acceptedNames [['a']] ['*'] = [['x']] := by decide
  intro dir components hvisits
  cases hvisits with
  | here => exact ⟨fun path _ => Iff.rfl, fun component hc => by cases hc⟩
  | entry hwild => exact absurd hwild (by decide)
  | literal _ _ hvisits =>
    cases hvisits with
    | here =>
      exact ⟨fun path hpre => matchesBelow_of_fits hfirst hpre, fun component hc => by cases hc⟩
    | literal hwild => exact absurd hwild (by decide)
    | @entry _ _ _ _ pre post _ name _ _ hnames hvisits =>
      obtain ⟨rfl, rfl, rfl⟩ : pre = [] ∧ name = ['x'] ∧ post = [] := by
        have hone := hentries.symm.trans hnames
        cases pre with
        | nil => simpa [eq_comm] using hone
        | cons _ pre => simp at hone
      cases hvisits with
      | here =>
        constructor
        · intro path hpre
          have hpre' : [['a']] <+: path := (List.prefix_append [['a']] [['x']]).trans hpre
          exact (matchesBelow_of_fits hfirst hpre').trans (matchesBelow_of_fits hsecond hpre)
        · intro component hc hwild
          cases hc
          exact absurd hwild (by decide)
      | literal _ hbelow => exact absurd rfl hbelow
      | entry hwild => exact absurd hwild (by decide)

theorem findsAll_undisturbed_firstSibling : siblingSearch.FindsAll [['a'], ['*'], ['f']] :=
  (findsAll_undisturbed siblingSearch [['a'], ['*'], ['f']]).1 undisturbed_firstSibling

/-- The directory that the first sibling is searched with is not put back. -/
theorem not_findsAll_siblings :
    (siblingSearch.searchFilesRec 3 0 ⟨[['*'], ['*'], ['f']], []⟩).2.result =
        [[['a'], ['x'], ['f']]] ∧
      siblingSearch.Matches [['*'], ['*'], ['f']] [['b'], ['y'], ['f']] ∧
      ¬ siblingSearch.FindsAll [['*'], ['*'], ['f']] := by
  have hresult : (siblingSearch.searchFilesRec 3 0 ⟨[['*'], ['*'], ['f']], []⟩).2.result =
      [[['a'], ['x'], ['f']]] := by decide
  have hmatches : siblingSearch.Matches [['*'], ['*'], ['f']] [['b'], ['y'], ['f']] := by
    refine ⟨⟨[['b'], ['y']], ['f'], rfl, by decide⟩, [['b'], ['y'], ['f']], rfl, ?_⟩
    refine .cons ?_ (.cons ?_ (.cons ?_ .nil))
    · unfold Fits
      decide
    · unfold Fits
      decide
    · unfold Fits
      decide
  refine ⟨hresult, hmatches, fun h => ?_⟩
  obtain ⟨found, heq, -, hmem⟩ := h []
  have hfound := (hmem _).mpr hmatches
  rw [List.nil_append] at heq
  rw [← heq] at hfound
  revert hfound
  show [['b'], ['y'], ['f']] ∉
    (siblingSearch.searchFilesRec 3 0 ⟨[['*'], ['*'], ['f']], []⟩).2.result
  rw [hresult]
  decide

end FileSearch

end SoftwareUpdate.Helpers
