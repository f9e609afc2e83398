import Mathlib.Data.List.GetD

/-!
# Words and their bits

A list of words of one width, written as the string of its bits, can be read as a list of words
of another width. What is left over at the end is filled up with zeros, and nothing is lost.
-/

namespace SoftwareUpdate.Misc

variable {w n : ℕ} {x : BitVec w} {bits rest : List Bool} {ws : List (BitVec w)}

/-- The bits of a word, the most significant one first. -/
def bitsOf (x : BitVec w) : List Bool := List.ofFn fun i : Fin w => x.getMsbD i

@[simp] theorem length_bitsOf : (bitsOf x).length = w := List.length_ofFn

/-- The first bits as a word; zeros stand for bits that are missing. -/
def wordOf (w : ℕ) (bits : List Bool) : BitVec w :=
  (BitVec.ofBoolListBE (List.ofFn fun i : Fin w => bits.getD i false)).cast List.length_ofFn

/-- The first `n` words of width `w`. -/
def wordsOf (w : ℕ) : ℕ → List Bool → List (BitVec w)
  | 0, _ => []
  | n + 1, bits => wordOf w bits :: wordsOf w n (bits.drop w)

theorem getMsbD_wordOf {i : ℕ} (hi : i < w) : (wordOf w bits).getMsbD i = bits.getD i false := by
  rw [wordOf, BitVec.getMsbD_cast, BitVec.getMsbD_ofBoolListBE,
    List.getD_eq_getElem _ _ (by rwa [List.length_ofFn]), List.getElem_ofFn]

theorem wordOf_bitsOf_append : wordOf w (bitsOf x ++ rest) = x := by
  refine BitVec.eq_of_getMsbD_eq fun i hi => ?_
  have hlen : i < (bitsOf x).length := by rwa [length_bitsOf]
  rw [getMsbD_wordOf hi, List.getD_append _ _ _ _ hlen, List.getD_eq_getElem _ _ hlen]
  exact List.getElem_ofFn hlen

/-- The words can be read back from their bits. -/
theorem wordsOf_flatMap_bitsOf : wordsOf w ws.length (ws.flatMap bitsOf ++ rest) = ws := by
  induction ws with
  | nil => rfl
  | cons x ws ih =>
    rw [List.flatMap_cons, List.append_assoc, List.length_cons, wordsOf, wordOf_bitsOf_append,
      List.drop_left' length_bitsOf, ih]

/-- Zeros at the end do not matter. -/
theorem wordsOf_append_replicate {k : ℕ} :
    wordsOf w n (bits ++ List.replicate k false) = wordsOf w n bits := by
  induction n generalizing bits k with
  | zero => rfl
  | succ n ih =>
    have hword : wordOf w (bits ++ List.replicate k false) = wordOf w bits := by
      refine BitVec.eq_of_getMsbD_eq fun i hi => ?_
      rw [getMsbD_wordOf hi, getMsbD_wordOf hi]
      rcases Nat.lt_or_ge i bits.length with hlt | hge
      · rw [List.getD_append _ _ _ _ hlt]
      · rw [List.getD_append_right _ _ _ _ hge, List.getD_eq_getElem?_getD,
          List.getElem?_getD_replicate_default_eq, List.getD_eq_default _ _ hge]
    rw [wordsOf, wordsOf, hword, List.drop_append, List.drop_replicate, ih]

theorem bitsOf_wordOf :
    bitsOf (wordOf w bits) = bits.take w ++ List.replicate (w - bits.length) false := by
  refine List.ext_getElem (by simp; omega) fun i hi _ => ?_
  have hw : i < w := by rwa [length_bitsOf] at hi
  have hbit : (bitsOf (wordOf w bits))[i] = bits.getD i false :=
    (List.getElem_ofFn hi).trans (getMsbD_wordOf hw)
  rw [hbit]
  by_cases hshort : i < bits.length
  · rw [List.getElem_append_left (by simp; omega), List.getElem_take,
      List.getD_eq_getElem _ _ hshort]
  · rw [List.getElem_append_right (by simp; omega), List.getElem_replicate,
      List.getD_eq_default _ _ (Nat.le_of_not_lt hshort)]

/-- A word and the bits behind it. -/
theorem bitsOf_wordOf_append_drop (h : w ≤ bits.length) :
    bitsOf (wordOf w bits) ++ bits.drop w = bits := by
  rw [bitsOf_wordOf, Nat.sub_eq_zero_of_le h, List.replicate_zero, List.append_nil,
    List.take_append_drop]

end SoftwareUpdate.Misc
