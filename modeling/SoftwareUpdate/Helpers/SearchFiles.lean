import Mathlib.Data.List.Nodup
import SoftwareUpdate.Helpers.CSettings

/-!
# `searchFilesRec`

The search for files in `UtilsgetFileContent.h`. A path pattern is a list of components, and a
component with `*` or `?` stands for the entries of a directory that match it. The list is shared
by all calls: a call overwrites its component with the name it descends into, and nothing puts the
pattern back.
-/

namespace SoftwareUpdate.Helpers

/-- The directories of a file system: the names that `readdir` gives, or `none` where `opendir`
fails. A directory is an entry of the one above it; an empty component, between or behind slashes,
stays in the directory. -/
structure DirectoryTree where
  readdir : List Text → Option (List Text)
  nodup : ∀ dir names, readdir dir = some names → names.Nodup
  nonempty : ∀ dir names, readdir dir = some names → [] ∉ names
  closed : ∀ dir name, name ≠ [] → (readdir (dir ++ [name])).isSome →
    name ∈ (readdir dir).getD []
  slash : ∀ dir, readdir (dir ++ [[]]) = readdir dir

/-- What a search is about; `regexSearch name pattern` is `std::regex_search` with the compiled
pattern. -/
structure FileSearch where
  tree : DirectoryTree
  regexSearch : Text → Text → Bool
  exclusions : List Text

/-- The list of components and the paths in `result`, one on a line. -/
structure SearchState where
  pathList : List Text
  result : List (List Text)

/-- A component with wildcards. -/
def isWildcard (component : Text) : Bool := '*' ∈ component ∨ '?' ∈ component

/-- The regular expression of a component. Neither replacement inserts a wildcard that the other
one replaces. -/
def patternOf (component : Text) : Text :=
  component.flatMap fun c =>
    if c = '*' then "[^\\n]*".toList
    else if c = '?' then "[^\\n]\x7b1\x7d".toList
    else [c]

namespace FileSearch

/-- `access(path, F_OK) == 0`: the path is an entry of its directory, or the directory itself. -/
def access (S : FileSearch) (dir : List Text) (name : Text) : Bool :=
  if name = [] then (S.tree.readdir dir).isSome else name ∈ (S.tree.readdir dir).getD []

/-- An entry that matches the component and is not excluded. -/
def accepts (S : FileSearch) (component fileName : Text) : Bool :=
  fileName ≠ ['.'] && fileName ≠ ['.', '.'] && S.regexSearch fileName (patternOf component) &&
    fileName ∉ S.exclusions

/-- The loop over the entries of a directory. Behind the directory, `inputPath` is `suffix`, which
grows with every name that is accepted at the last component. -/
def searchEntries (S : FileSearch) (dir : List Text) (currentDepth : ℕ) (last : Bool)
    (component : Text) (descend : SearchState → SearchState) :
    List Text → Text → ℕ → SearchState → SearchState
  | [], _, _, s => s
  | fileName :: entries, suffix, count, s =>
      if S.accepts component fileName then
        if last then
          let suffix := suffix ++ fileName
          if S.access dir suffix then
            let s := { s with result := s.result ++ [dir ++ [suffix]] }
            -- the search of this directory stops when the count reaches 10
            if count + 1 ≥ 10 then s
            else
              S.searchEntries dir currentDepth last component descend entries suffix (count + 1) s
          else S.searchEntries dir currentDepth last component descend entries suffix count s
        else
          let s := descend { s with pathList := s.pathList.set currentDepth fileName }
          S.searchEntries dir currentDepth last component descend entries suffix count s
      else S.searchEntries dir currentDepth last component descend entries suffix count s

/-- `searchFilesRec`. The recursion ends at the last component, so the number of components bounds
its depth. -/
def searchFilesRec (S : FileSearch) : ℕ → ℕ → SearchState → Bool × SearchState
  | 0, _, s => (false, s)
  | fuel + 1, currentDepth, s =>
      if s.pathList = [] then (false, s)
      else
        let dir := s.pathList.take currentDepth
        let currentPath := s.pathList.getD currentDepth []
        let last := decide (s.pathList.length - 1 ≤ currentDepth)
        if isWildcard currentPath then
          match S.tree.readdir dir with
          | none => (false, s)
          | some entries =>
              (true, S.searchEntries dir currentDepth last currentPath
                (fun s => (S.searchFilesRec fuel (currentDepth + 1) s).2) entries [] 0 s)
        else if last then
          if S.access dir currentPath then
            (true, { s with result := s.result ++ [dir ++ [currentPath]] })
          else (true, s)
        else (true, (S.searchFilesRec fuel (currentDepth + 1) s).2)

/-- The components of a path behind its first slash. -/
def componentsOf (inputPath : Text) : List Text := (inputPath.splitOn '/').tail

/-- `searchFiles`. -/
def searchFiles (S : FileSearch) (inputPath : Text) (result : List (List Text)) :
    Bool × SearchState :=
  S.searchFilesRec (componentsOf inputPath).length 0 ⟨componentsOf inputPath, result⟩

/-! ## The search as a walk -/

/-- The paths found among the accepted entries of the last component. -/
def lastFound (S : FileSearch) (dir : List Text) : List Text → Text → ℕ → List (List Text)
  | [], _, _ => []
  | name :: names, suffix, count =>
      let suffix := suffix ++ name
      if S.access dir suffix then
        if count + 1 ≥ 10 then [dir ++ [suffix]]
        else (dir ++ [suffix]) :: S.lastFound dir names suffix (count + 1)
      else S.lastFound dir names suffix count

/-- Directories that are searched one after the other, each with the components that the one before
it has left. -/
def walkEntries (descend : List Text → List Text → List (List Text) × List Text)
    (dir : List Text) : List Text → List Text → List (List Text) × List Text
  | [], below => ([], below)
  | name :: names, below =>
      let (found, below) := descend (dir ++ [name]) below
      let (found', below) := walkEntries descend dir names below
      (found ++ found', below)

/-- The names in a directory that a component accepts. -/
def acceptedNames (S : FileSearch) (dir : List Text) (component : Text) : List Text :=
  ((S.tree.readdir dir).getD []).filter (S.accepts component)

/-- The paths found below a directory with the components, and the components as they are left. -/
def walk (S : FileSearch) : ℕ → List Text → List Text → List (List Text) × List Text
  | _, _, [] => ([], [])
  | 0, _, components => ([], components)
  | fuel + 1, dir, component :: below =>
      if isWildcard component then
        let names := S.acceptedNames dir component
        if below = [] then (S.lastFound dir names [] 0, [component])
        else
          let (found, below) := walkEntries (S.walk fuel) dir names below
          (found, names.getLast?.getD component :: below)
      else if below = [] then
        (if S.access dir component then [dir ++ [component]] else [], [component])
      else
        let (found, below) := S.walk fuel (dir ++ [component]) below
        (found, component :: below)

variable {S : FileSearch} {dir dir' below : List Text} {component component' suffix : Text}
  {entries names pathList : List Text} {result : List (List Text)} {count fuel currentDepth : ℕ}
  {descend : SearchState → SearchState}

theorem length_walkEntries {f : List Text → List Text → List (List Text) × List Text}
    (hf : ∀ dir below, (f dir below).2.length = below.length) :
    (walkEntries f dir names below).2.length = below.length := by
  induction names generalizing below with
  | nil => rfl
  | cons name names ih => exact ih.trans (hf _ _)

/-- The walk keeps the number of components. -/
theorem length_walk {components : List Text} :
    (S.walk fuel dir components).2.length = components.length := by
  induction fuel generalizing dir components with
  | zero => cases components <;> rfl
  | succ fuel ih =>
    cases components with
    | nil => rfl
    | cons component below =>
      unfold walk
      split
      · split
        · next hbelow => rw [hbelow]
        · exact congrArg (· + 1) (length_walkEntries fun _ _ => ih)
      · split
        · next hbelow => rw [hbelow]
        · exact congrArg (· + 1) ih

theorem searchEntries_last :
    S.searchEntries dir currentDepth true component descend entries suffix count
        ⟨pathList, result⟩ =
      ⟨pathList,
        result ++ S.lastFound dir (entries.filter (S.accepts component)) suffix count⟩ := by
  induction entries generalizing suffix count result with
  | nil => simp [searchEntries, lastFound]
  | cons fileName entries ih =>
    unfold searchEntries
    by_cases hname : S.accepts component fileName = true
    · rw [List.filter_cons_of_pos hname, lastFound]
      simp only [hname, if_true]
      split
      · split
        · rfl
        · rw [ih]
          simp
      · exact ih
    · rw [List.filter_cons_of_neg hname]
      simp only [hname, if_false, Bool.false_eq_true]
      exact ih

theorem searchEntries_descend
    {f : List Text → List Text → List (List Text) × List Text} {length : ℕ}
    (hf : ∀ dir below, (f dir below).2.length = below.length)
    (hdescend : ∀ name below result, below.length = length →
      descend ⟨dir ++ name :: below, result⟩ =
        ⟨dir ++ name :: (f (dir ++ [name]) below).2, result ++ (f (dir ++ [name]) below).1⟩)
    (hbelow : below.length = length) :
    S.searchEntries dir dir.length false component descend entries suffix count
        ⟨dir ++ component' :: below, result⟩ =
      ⟨dir ++ (entries.filter (S.accepts component)).getLast?.getD component' ::
          (walkEntries f dir (entries.filter (S.accepts component)) below).2,
        result ++ (walkEntries f dir (entries.filter (S.accepts component)) below).1⟩ := by
  induction entries generalizing component' below result with
  | nil => simp [searchEntries, walkEntries]
  | cons fileName entries ih =>
    unfold searchEntries
    by_cases hname : S.accepts component fileName = true
    · have hset :
          (dir ++ component' :: below).set dir.length fileName = dir ++ fileName :: below := by
        simp
      rw [List.filter_cons_of_pos hname]
      simp only [hname, if_true, Bool.false_eq_true, if_false, hset]
      rw [hdescend _ _ _ hbelow, ih ((hf _ _).trans hbelow)]
      simp [List.getLast?_cons, walkEntries]
    · rw [List.filter_cons_of_neg hname]
      simp only [hname, if_false, Bool.false_eq_true]
      exact ih hbelow

/-- The search is the walk: it appends what the walk finds, and leaves the components as the walk
leaves them. -/
theorem searchFilesRec_eq {components : List Text} (hne : components ≠ [])
    (h : components.length ≤ fuel) :
    (S.searchFilesRec fuel dir.length ⟨dir ++ components, result⟩).2 =
      ⟨dir ++ (S.walk fuel dir components).2, result ++ (S.walk fuel dir components).1⟩ := by
  induction fuel generalizing dir components result with
  | zero => exact absurd (List.length_eq_zero_iff.mp (Nat.le_zero.mp h)) hne
  | succ fuel ih =>
    cases components with
    | nil => exact absurd rfl hne
    | cons component below =>
      have hpath : dir ++ component :: below ≠ [] := by simp
      have htake : (dir ++ component :: below).take dir.length = dir := by simp
      have hget : (dir ++ component :: below).getD dir.length [] = component := by simp
      have hlast : decide ((dir ++ component :: below).length - 1 ≤ dir.length) =
          decide (below = []) := by
        cases below <;> simp
      unfold searchFilesRec walk
      simp only [hpath, if_false, htake, hget, hlast]
      by_cases hbelow : below = []
      · subst hbelow
        by_cases hwild : isWildcard component = true
        · cases hread : S.tree.readdir dir with
          | none => simp [hwild, acceptedNames, hread, lastFound]
          | some entries => simp [hwild, acceptedNames, hread, searchEntries_last]
        · by_cases haccess : S.access dir component = true
          · simp [hwild, haccess]
          · simp [hwild, haccess]
      · have hlength : below.length ≤ fuel := Nat.le_of_succ_le_succ h
        by_cases hwild : isWildcard component = true
        · cases hread : S.tree.readdir dir with
          | none => simp [hwild, hbelow, acceptedNames, hread, walkEntries]
          | some entries =>
            have hdescend (name : Text) (below' : List Text) (result : List (List Text))
                (hbelow' : below'.length = below.length) :
                (S.searchFilesRec fuel (dir.length + 1) ⟨dir ++ name :: below', result⟩).2 =
                  ⟨dir ++ name :: (S.walk fuel (dir ++ [name]) below').2,
                    result ++ (S.walk fuel (dir ++ [name]) below').1⟩ := by
              have hne' : below' ≠ [] := by
                rintro rfl
                exact hbelow (List.length_eq_zero_iff.mp hbelow'.symm)
              simpa using @ih (dir ++ [name]) result below' hne' (hbelow' ▸ hlength)
            have hentries : S.searchEntries dir dir.length false component
                (fun s => (S.searchFilesRec fuel (dir.length + 1) s).2) entries [] 0
                ⟨dir ++ component :: below, result⟩ = _ :=
              searchEntries_descend (f := S.walk fuel) (fun _ _ => length_walk) hdescend rfl
            simpa [hwild, hbelow, acceptedNames, hread] using hentries
        · have hrec := @ih (dir ++ [component]) result below hbelow hlength
          simpa [hwild, hbelow] using hrec

end FileSearch

end SoftwareUpdate.Helpers
