import Mathlib.Data.Nat.Notation
import Mathlib.Tactic.TypeStar

/-!
# Attempts

A loop that repeats an attempt until one gives a value, up to a limit, so that it can end without
a value. Every attempt changes the state, whether or not it gives a value.
-/

namespace SoftwareUpdate.Misc

variable {σ β : Type*} {attempt : σ → σ × Option β} {n : ℕ} {s : σ}

/-- Up to `n` attempts, until one gives a value. -/
def tryUpTo (attempt : σ → σ × Option β) : ℕ → σ → σ × Option β
  | 0, s => (s, none)
  | n + 1, s => if (attempt s).2.isSome then attempt s else tryUpTo attempt n (attempt s).1

theorem tryUpTo_of_isSome (h : (attempt s).2.isSome = true) :
    tryUpTo attempt (n + 1) s = attempt s :=
  if_pos h

theorem tryUpTo_of_not_isSome (h : ¬ (attempt s).2.isSome = true) :
    tryUpTo attempt (n + 1) s = tryUpTo attempt n (attempt s).1 :=
  if_neg h

/-- A property that holds before the first attempt and is kept by each that gives no value
holds before each; what it says of the last attempt holds at the end. -/
theorem tryUpTo_induct {I : ℕ → σ → Prop} {Q : σ → Option β → Prop} (start : I 0 s)
    (keep : ∀ k s, k < n → I k s → (attempt s).2 = none → I (k + 1) (attempt s).1)
    (done : ∀ k s, k < n → I k s → (attempt s).2.isSome = true → Q (attempt s).1 (attempt s).2)
    (exhausted : ∀ s, I n s → Q s none) :
    Q (tryUpTo attempt n s).1 (tryUpTo attempt n s).2 := by
  induction n generalizing s I with
  | zero => exact exhausted s start
  | succ n ih =>
    by_cases hsome : (attempt s).2.isSome = true
    · rw [tryUpTo_of_isSome hsome]
      exact done 0 s (Nat.succ_pos n) start hsome
    · rw [tryUpTo_of_not_isSome hsome]
      have hnone : (attempt s).2 = none := by simpa using hsome
      refine ih (I := fun k => I (k + 1)) (keep 0 s (Nat.succ_pos n) start hnone) ?_ ?_ exhausted
      · intro k s hk hi
        exact keep (k + 1) s (Nat.succ_lt_succ hk) hi
      · intro k s hk hi
        exact done (k + 1) s (Nat.succ_lt_succ hk) hi

end SoftwareUpdate.Misc
