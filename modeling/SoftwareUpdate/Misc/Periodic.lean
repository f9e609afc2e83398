import Mathlib.Data.Int.ModEq
import Mathlib.Order.Bounds.Basic

/-!
# Periodic times

The times that differ from a phase by periods, and the first of them from a given time on.
-/

namespace SoftwareUpdate.Misc.Periodic

variable {period phase t e r : ℤ}

/-- The first time with the phase that is not before `t`. -/
def next (period phase t : ℤ) : ℤ := t + (phase - t) % period

theorem next_modEq : next period phase t ≡ phase [ZMOD period] := by
  have hadd : t + (phase - t) % period ≡ t + (phase - t) [ZMOD period] :=
    (Int.mod_modEq _ _).add_left t
  rwa [add_sub_cancel] at hadd

theorem next_le (hperiod : 0 < period) (h : e ≡ phase [ZMOD period]) (ht : t ≤ e) :
    next period phase t ≤ e := by
  have hmod : (phase - t) % period = (e - t) % period := (h.symm.sub_right t)
  have hquotient : 0 ≤ period * ((e - t) / period) :=
    Int.mul_nonneg hperiod.le (Int.ediv_nonneg (by omega) hperiod.le)
  have hsplit := Int.emod_add_mul_ediv (e - t) period
  unfold next
  omega

theorem isLeast_next (hperiod : 0 < period) :
    IsLeast {e | e ≡ phase [ZMOD period] ∧ t ≤ e} (next period phase t) := by
  refine ⟨⟨next_modEq, ?_⟩, fun e he => next_le hperiod he.1 he.2⟩
  have hnonneg := Int.emod_nonneg (phase - t) hperiod.ne'
  unfold next
  omega

/-- A time with the phase is the first one when it is less than a period late. -/
theorem isLeast_iff (hperiod : 0 < period) (h : r ≡ phase [ZMOD period]) :
    IsLeast {e | e ≡ phase [ZMOD period] ∧ t ≤ e} r ↔ t ≤ r ∧ r < t + period := by
  have hnext : IsLeast {e | e ≡ phase [ZMOD period] ∧ t ≤ e} (next period phase t) :=
    isLeast_next hperiod
  constructor
  · rintro ⟨⟨-, hle⟩, hleast⟩
    refine ⟨hle, ?_⟩
    by_contra hlate
    have hearlier : r - period ≡ phase [ZMOD period] := Int.sub_modulus_modEq_iff.mpr h
    have hfirst := hleast ⟨hearlier, by omega⟩
    omega
  · rintro ⟨hle, hlt⟩
    have hsame : (r - next period phase t) % period = 0 :=
      Int.emod_eq_emod_iff_emod_sub_eq_zero.mp (h.trans next_modEq.symm)
    have hfirst : next period phase t ≤ r := hnext.2 ⟨h, hle⟩
    have hstart : t ≤ next period phase t := hnext.1.2
    rw [Int.emod_eq_of_lt (by omega) (by omega)] at hsame
    obtain rfl : r = next period phase t := by omega
    exact hnext

end SoftwareUpdate.Misc.Periodic
