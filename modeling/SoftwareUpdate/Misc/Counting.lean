import Mathlib.Algebra.BigOperators.Group.Finset.Piecewise
import Mathlib.Algebra.Order.BigOperators.Group.Finset

/-!
# Counting by keys

The elements of a list are counted key by key, so that a bound for every key is a bound for the
whole list.
-/

namespace SoftwareUpdate.Misc

variable {α κ : Type*} [DecidableEq κ] {key : α → κ} {p q : α → Bool} {xs : List α}

theorem countP_eq_sum {keys : Finset κ} (hkeys : ∀ x ∈ xs, key x ∈ keys) :
    xs.countP p = ∑ k ∈ keys, xs.countP fun x => key x = k && p x := by
  induction xs with
  | nil => simp
  | cons x xs ih =>
    have hx : key x ∈ keys := hkeys x (List.mem_cons_self ..)
    simp only [List.countP_cons, Finset.sum_add_distrib,
      ih fun y hy => hkeys y (List.mem_cons_of_mem x hy)]
    cases p x <;> simp [hx]

/-- When under every key no more elements have `p` than have `q`, no more have it altogether. -/
theorem countP_le_of_keys (key : α → κ) (h : ∀ k, (xs.countP fun x => key x = k && p x) ≤
    xs.countP fun x => key x = k && q x) : xs.countP p ≤ xs.countP q := by
  have hkeys : ∀ x ∈ xs, key x ∈ (xs.map key).toFinset := by
    intro x hx
    simpa using ⟨x, hx, rfl⟩
  rw [countP_eq_sum hkeys, countP_eq_sum hkeys]
  exact Finset.sum_le_sum fun k _ => h k

end SoftwareUpdate.Misc
