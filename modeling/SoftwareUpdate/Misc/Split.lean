import Mathlib.Data.List.Basic

/-!
# Splitting lists at a separator

A list is split at the first or at the last occurrence of an element, and text that ends every
line with a separator is split into its lines again.
-/

namespace SoftwareUpdate.Misc

variable {α : Type*} [DecidableEq α] {c : α} {l a b : List α}

/-- What is before and what is behind the first `c`. -/
def splitAtFirst (c : α) : List α → Option (List α × List α)
  | [] => none
  | x :: l => if x = c then some ([], l) else (splitAtFirst c l).map fun p => (x :: p.1, p.2)

/-- What is before and what is behind the last `c`. -/
def splitAtLast (c : α) : List α → Option (List α × List α)
  | [] => none
  | x :: l =>
      match splitAtLast c l with
      | some p => some (x :: p.1, p.2)
      | none => if x = c then some ([], l) else none

theorem splitAtFirst_eq_none_iff : splitAtFirst c l = none ↔ c ∉ l := by
  induction l with
  | nil => simp [splitAtFirst]
  | cons x l ih =>
    unfold splitAtFirst
    by_cases hx : x = c
    · simp [hx]
    · simp [hx, Ne.symm hx, ih]

theorem splitAtLast_eq_none_iff : splitAtLast c l = none ↔ c ∉ l := by
  induction l with
  | nil => simp [splitAtLast]
  | cons x l ih =>
    unfold splitAtLast
    cases hl : splitAtLast c l with
    | some p =>
      have hmem : c ∈ l := by
        by_contra hno
        rw [ih.mpr hno] at hl
        cases hl
      simp [hmem]
    | none =>
      have hno : c ∉ l := ih.mp hl
      by_cases hx : x = c
      · simp [hx]
      · simp [hx, Ne.symm hx, hno]

theorem splitAtFirst_append (h : c ∉ a) : splitAtFirst c (a ++ c :: b) = some (a, b) := by
  induction a with
  | nil => simp [splitAtFirst]
  | cons x a ih =>
    simp only [List.mem_cons, not_or] at h
    simp [splitAtFirst, Ne.symm h.1, ih h.2]

theorem splitAtLast_append (h : c ∉ b) : splitAtLast c (a ++ c :: b) = some (a, b) := by
  induction a with
  | nil => simp [splitAtLast, splitAtLast_eq_none_iff.mpr h]
  | cons x a ih => simp [splitAtLast, ih]

theorem splitAtFirst_eq_some_iff : splitAtFirst c l = some (a, b) ↔ l = a ++ c :: b ∧ c ∉ a := by
  constructor
  · intro h
    induction l generalizing a with
    | nil => cases h
    | cons x l ih =>
      unfold splitAtFirst at h
      split at h
      · next hx =>
        cases h
        simp [hx]
      · next hx =>
        obtain ⟨⟨a', b'⟩, hl, heq⟩ := Option.map_eq_some_iff.mp h
        cases heq
        obtain ⟨rfl, hno⟩ := ih hl
        exact ⟨rfl, by simp [hno, Ne.symm hx]⟩
  · rintro ⟨rfl, h⟩
    exact splitAtFirst_append h

theorem splitAtLast_eq_some_iff : splitAtLast c l = some (a, b) ↔ l = a ++ c :: b ∧ c ∉ b := by
  constructor
  · intro h
    induction l generalizing a with
    | nil => cases h
    | cons x l ih =>
      unfold splitAtLast at h
      split at h
      · next p hl =>
        cases h
        obtain ⟨rfl, hno⟩ := ih hl
        exact ⟨rfl, hno⟩
      · next hl =>
        split at h
        · next hx =>
          cases h
          exact ⟨by rw [hx]; rfl, splitAtLast_eq_none_iff.mp hl⟩
        · cases h
  · rintro ⟨rfl, h⟩
    exact splitAtLast_append h

/-! ## Lines -/

/-- Text that may contain the separator itself, ended by one more. -/
theorem splitOn_flatMap {ls : List (List α)} :
    (ls.flatMap fun l => l ++ [c]).splitOn c = ls.flatMap (·.splitOn c) ++ [[]] := by
  induction ls with
  | nil => rfl
  | cons l ls ih =>
    rw [List.flatMap_cons, List.append_assoc, List.singleton_append,
      List.splitOn_append_cons_self, ih, List.flatMap_cons, List.append_assoc]

/-- Texts without the separator stay as they are. -/
theorem flatMap_splitOn_eq_self {ls : List (List α)} (h : ∀ l ∈ ls, c ∉ l) :
    ls.flatMap (·.splitOn c) = ls := by
  calc ls.flatMap (·.splitOn c)
      = ls.flatMap fun l => [l] :=
        List.flatMap_congr fun l hl => List.splitOn_eq_singleton (h l hl)
    _ = ls := List.flatMap_singleton' ls

/-- Lines that are all ended by the separator are read back, and the text behind the last
separator is empty. -/
theorem splitOn_terminated {ls : List (List α)} (h : ∀ l ∈ ls, c ∉ l) :
    (ls.flatMap fun l => l ++ [c]).splitOn c = ls ++ [[]] := by
  rw [splitOn_flatMap, flatMap_splitOn_eq_self h]

/-- No line contains the separator. -/
theorem notMem_of_mem_splitOn (h : a ∈ l.splitOn c) : c ∉ a := by
  induction l generalizing a with
  | nil =>
    obtain rfl : a = [] := by simpa using h
    simp
  | cons x l ih =>
    rw [List.splitOn_cons_eq_if_modifyHead] at h
    split at h
    · rcases List.mem_cons.mp h with rfl | hmem
      · simp
      · exact ih hmem
    · next hx =>
      cases hl : l.splitOn c with
      | nil => exact absurd hl (List.splitOn_ne_nil c l)
      | cons b ls =>
        rw [hl, List.modifyHead_cons] at h
        rcases List.mem_cons.mp h with rfl | hmem
        · have hb : c ∉ b := ih (by simp [hl])
          have hx : x ≠ c := by simpa using hx
          simp [hb, Ne.symm hx]
        · exact ih (by simp [hl, hmem])

/-- The lines of a text: what is behind the last separator is one when it is not empty. -/
def lines (c : α) (l : List α) : List (List α) :=
  if (l.splitOn c).getLast? = some [] then (l.splitOn c).dropLast else l.splitOn c

theorem lines_flatMap {ls : List (List α)} :
    lines c (ls.flatMap fun l => l ++ [c]) = ls.flatMap (·.splitOn c) := by
  simp [lines, splitOn_flatMap]

/-- The text behind the last separator adds nothing when it is empty. -/
theorem filterMap_lines {β : Type*} {f : List α → Option β} (h : f [] = none) :
    (lines c l).filterMap f = (l.splitOn c).filterMap f := by
  unfold lines
  split
  · next hlast =>
    have hsplit := List.dropLast_append_getLast? [] hlast
    conv_rhs => rw [← hsplit, List.filterMap_append]
    simp [h]
  · rfl

omit [DecidableEq α] in
/-- A text without the separator does not reach across one. -/
theorem infix_append_cons_iff (h : c ∉ l) : l <:+: a ++ c :: b ↔ l <:+: a ∨ l <:+: b := by
  constructor
  · rintro ⟨before, behind, heq⟩
    rw [List.append_assoc] at heq
    rcases List.append_eq_append_iff.mp heq with ⟨d, rfl, hd⟩ | ⟨d, rfl, hd⟩
    · rcases List.append_eq_append_iff.mp hd with ⟨d', rfl, -⟩ | ⟨d', rfl, hd'⟩
      · exact .inl ⟨before, d', by simp⟩
      · cases d' with
        | nil => exact .inl ⟨before, [], by simp⟩
        | cons x d' =>
          cases hd'
          simp at h
    · cases d with
      | nil =>
        cases l with
        | nil => exact .inr (List.nil_infix)
        | cons x l =>
          cases hd
          simp at h
      | cons x d =>
        cases hd
        exact .inr ⟨d, behind, by simp⟩
  · rintro (⟨before, behind, rfl⟩ | ⟨before, behind, rfl⟩)
    · exact ⟨before, behind ++ c :: b, by simp⟩
    · exact ⟨a ++ c :: before, behind, by simp⟩

/-- Such a text is found in the lines of a text exactly when it is found in the text. -/
theorem exists_infix_lines_iff (hne : l ≠ []) (h : c ∉ l) :
    (∃ a ∈ lines c b, l <:+: a) ↔ l <:+: b := by
  have hpieces (ls : List (List α)) : (∃ a ∈ ls, l <:+: a) ↔ l <:+: [c].intercalate ls := by
    induction ls with
    | nil => simp [hne]
    | cons x ls ih =>
      cases ls with
      | nil => simp
      | cons y ls =>
        rw [List.intercalate_cons_cons, List.append_assoc, List.singleton_append,
          infix_append_cons_iff h, ← ih]
        simp
  have hlines : (∃ a ∈ lines c b, l <:+: a) ↔ ∃ a ∈ b.splitOn c, l <:+: a := by
    unfold lines
    split
    · next hlast =>
      have hsplit := List.dropLast_append_getLast? [] hlast
      conv_rhs => rw [← hsplit]
      simp [hne]
    · rfl
  rw [hlines, hpieces, List.intercalate_splitOn]

theorem notMem_of_mem_lines (h : a ∈ lines c l) : c ∉ a := by
  refine notMem_of_mem_splitOn (l := l) ?_
  unfold lines at h
  split at h
  · exact List.dropLast_subset _ h
  · exact h

end SoftwareUpdate.Misc
