import Mathlib.Data.Nat.Notation

/-!
# Bit fields

A machine word used as a set of numbered flags: a flag is raised with `|= 1 << n`, and a
group of flags is tested against a mask with `(v & mask) == mask`. A word is read through
its bits (`getLsbD`); the lemmas say which bits an update raises and that a mask test is a
test of each bit of the mask.
-/

namespace SoftwareUpdate.Misc.BitField

variable {w : ℕ}

/-- `v |= 1 << n`. -/
def raise (v : BitVec w) (n : ℕ) : BitVec w := v ||| (1#w <<< n)

/-- `(v & mask) == mask`. -/
def covers (v mask : BitVec w) : Bool := v &&& mask == mask

theorem getLsbD_raise {v : BitVec w} {n i : ℕ} (hi : i < w) :
    (raise v n).getLsbD i = (v.getLsbD i || decide (i = n)) := by
  have hw : 0 < w := by omega
  simp only [raise, BitVec.getLsbD_or, BitVec.getLsbD_shiftLeft, hi, BitVec.getLsbD_one]
  by_cases h : i = n
  · subst h
    simp [hw]
  · have : ¬ (¬ i < n ∧ i - n = 0) := by omega
    grind

theorem getLsbD_raise_self {v : BitVec w} {n : ℕ} (hn : n < w) : (raise v n).getLsbD n = true := by
  simp [getLsbD_raise hn]

/-- Raising one flag leaves the others as they are. -/
theorem getLsbD_raise_of_ne {v : BitVec w} {n i : ℕ} (h : i ≠ n) :
    (raise v n).getLsbD i = v.getLsbD i := by
  by_cases hi : i < w
  · simp [getLsbD_raise hi, h]
  · rw [BitVec.getLsbD_of_ge _ _ (by omega), BitVec.getLsbD_of_ge _ _ (by omega)]

/-- A raised flag stays raised. -/
theorem getLsbD_raise_of_getLsbD {v : BitVec w} {n i : ℕ} (h : v.getLsbD i = true) :
    (raise v n).getLsbD i = true := by
  have hi : i < w := BitVec.lt_of_getLsbD h
  simp [getLsbD_raise hi, h]

/-- Raising a flag that is up changes nothing. -/
theorem raise_eq_self {v : BitVec w} {n : ℕ} (h : v.getLsbD n = true) : raise v n = v := by
  apply BitVec.eq_of_getLsbD_eq
  intro i hi
  rw [getLsbD_raise hi]
  by_cases hn : i = n
  · simp [hn, h]
  · simp [hn]

/-- A mask test is a test of every bit of the mask. -/
theorem covers_iff {v mask : BitVec w} :
    covers v mask = true ↔ ∀ i, mask.getLsbD i = true → v.getLsbD i = true := by
  simp only [covers, beq_iff_eq]
  constructor
  · intro h i hi
    have := congrArg (fun u => u.getLsbD i) h
    simpa [BitVec.getLsbD_and, hi] using this
  · intro h
    apply BitVec.eq_of_getLsbD_eq
    intro i _
    rw [BitVec.getLsbD_and]
    cases hm : mask.getLsbD i
    · simp
    · simp [h i hm]

/-- A word that covers a mask still covers it after a flag is raised. -/
theorem covers_raise {v mask : BitVec w} {n : ℕ} (h : covers v mask = true) :
    covers (raise v n) mask = true :=
  covers_iff.mpr fun i hi => getLsbD_raise_of_getLsbD (covers_iff.mp h i hi)

end SoftwareUpdate.Misc.BitField
