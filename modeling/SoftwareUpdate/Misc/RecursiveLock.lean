import Mathlib.Tactic.TypeStar
import Mathlib.Data.Nat.Notation
import Mathlib.Logic.Function.Basic

/-!
# Recursive locks

A recursive lock is free, or held by one thread that has locked it once or more and can lock
it again. Which thread holds the lock, and how often, is determined by the program points of
the threads: `Agrees` says that the lock and these numbers agree. Two threads do not hold one
lock, and a lock that agrees is free exactly when no thread holds it.
-/

namespace SoftwareUpdate.Misc

variable {τ : Type*} [DecidableEq τ]

/-- A lock that its owner can lock again; `again` counts the times after the first. -/
inductive RecursiveLock (τ : Type*)
  | free
  | held (owner : τ) (again : ℕ)
  deriving DecidableEq, Repr

namespace RecursiveLock

/-- How many times `t` has locked. -/
def level : RecursiveLock τ → τ → ℕ
  | free, _ => 0
  | held owner again, t => if t = owner then again + 1 else 0

/-- Locking blocks while another thread holds the lock. -/
def lock (t : τ) : RecursiveLock τ → Option (RecursiveLock τ)
  | free => some (held t 0)
  | held owner again => if t = owner then some (held owner (again + 1)) else none

/-- Only the owner unlocks. -/
def unlock (t : τ) : RecursiveLock τ → Option (RecursiveLock τ)
  | free => none
  | held owner again =>
    if t = owner then some (if again = 0 then free else held owner (again - 1)) else none

variable {l l' : RecursiveLock τ} {t u : τ} {n : τ → ℕ}

@[simp] theorem level_free : (free : RecursiveLock τ).level t = 0 := rfl

theorem lock_level (h : l.lock t = some l') :
    l'.level = Function.update l.level t (l.level t + 1) := by
  funext u
  cases l with
  | free =>
    obtain rfl : held t 0 = l' := by simpa [lock] using h
    by_cases hu : u = t <;> simp [level, Function.update, hu]
  | held owner again =>
    simp only [lock] at h
    split at h
    case isTrue ht =>
      subst ht
      obtain rfl := Option.some.inj h
      by_cases hu : u = t <;> simp [level, Function.update, hu]
    case isFalse => cases h

theorem unlock_level (h : l.unlock t = some l') :
    l'.level = Function.update l.level t (l.level t - 1) := by
  funext u
  cases l with
  | free => cases h
  | held owner again =>
    simp only [unlock] at h
    split at h
    case isTrue ht =>
      subst ht
      obtain rfl := Option.some.inj h
      by_cases hu : u = t
      · subst hu
        cases again <;> simp [level]
      · cases again <;> simp [level, Function.update, hu]
    case isFalse => cases h

/-- The lock and the number of times each thread holds it agree. -/
def Agrees (l : RecursiveLock τ) (n : τ → ℕ) : Prop := ∀ t, l.level t = n t

namespace Agrees

theorem lock (h : l.Agrees n) (hlock : l.lock t = some l') :
    l'.Agrees (Function.update n t (n t + 1)) := by
  intro u
  rw [lock_level hlock, ← h t, funext h]

theorem unlock (h : l.Agrees n) (hunlock : l.unlock t = some l') :
    l'.Agrees (Function.update n t (n t - 1)) := by
  intro u
  rw [unlock_level hunlock, ← h t, funext h]

/-- Two threads do not hold one lock. -/
theorem unique (h : l.Agrees n) (ht : 0 < n t) (hu : 0 < n u) : t = u := by
  rw [← h t] at ht
  rw [← h u] at hu
  cases l with
  | free => exact absurd ht (Nat.lt_irrefl 0)
  | held owner again =>
    have howner : ∀ {v}, 0 < (held owner again).level v → v = owner := by
      intro v hv
      by_contra hne
      simp [level, hne] at hv
    exact (howner ht).trans (howner hu).symm

theorem eq_zero_of_free (h : l.Agrees n) (hfree : l = free) (t : τ) : n t = 0 := by
  rw [← h t, hfree, level_free]

end Agrees

end RecursiveLock

end SoftwareUpdate.Misc
