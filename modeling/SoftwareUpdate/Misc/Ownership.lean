import Mathlib.Logic.Function.Basic
import Mathlib.Data.Nat.Notation
import Mathlib.Logic.Relation

/-!
# Ownership of mutexes and circular waits

A mutex has at most one owner. The program point of a thread determines which mutexes it
holds; `Owned` says that the recorded owners and the program points agree. An acquisition of
a free mutex and a release by the holder keep the agreement, and so does a step that changes
neither, so mutual exclusion is a consequence of `Owned` alone. Threads that wait for each
other in a circle are deadlocked; there is no circle when every wait goes down a rank.
-/

namespace SoftwareUpdate.Misc

variable {μ τ : Type*}

/-- The owner of a mutex is the thread whose program point holds it. -/
def Owned (owner : μ → Option τ) (holds : τ → μ → Prop) : Prop :=
  ∀ m t, owner m = some t ↔ holds t m

namespace Owned

variable {owner : μ → Option τ} {holds holds' : τ → μ → Prop}

/-- Two threads do not hold one mutex. -/
theorem unique (h : Owned owner holds) {m : μ} {t u : τ} (ht : holds t m) (hu : holds u m) :
    t = u :=
  Option.some.inj (((h m t).mpr ht).symm.trans ((h m u).mpr hu))

theorem not_holds_of_free (h : Owned owner holds) {m : μ} (hm : owner m = none) (t : τ) :
    ¬ holds t m := by
  intro ht
  rw [(h m t).mpr ht] at hm
  cases hm

theorem congr (h : Owned owner holds) (heq : ∀ t m, holds' t m ↔ holds t m) :
    Owned owner holds' :=
  fun m t => (h m t).trans (heq t m).symm

variable [DecidableEq μ]

/-- Acquiring a free mutex. -/
theorem acquire (h : Owned owner holds) {m : μ} {t : τ} (hfree : owner m = none)
    (hself : ∀ k, holds' t k ↔ k = m ∨ holds t k)
    (hother : ∀ u, u ≠ t → ∀ k, holds' u k ↔ holds u k) :
    Owned (Function.update owner m (some t)) holds' := by
  intro k u
  by_cases hk : k = m
  · subst hk
    rw [Function.update_self]
    by_cases hu : u = t
    · subst hu
      simp [hself]
    · have hno : ¬ holds u k := h.not_holds_of_free hfree u
      rw [hother u hu]
      simp [hno, Ne.symm hu]
  · rw [Function.update_of_ne hk]
    by_cases hu : u = t
    · subst hu
      simp [hself, hk, h k u]
    · rw [hother u hu, h k u]

/-- Releasing a mutex one holds. -/
theorem release (h : Owned owner holds) {m : μ} {t : τ} (hheld : holds t m)
    (hself : ∀ k, holds' t k ↔ k ≠ m ∧ holds t k)
    (hother : ∀ u, u ≠ t → ∀ k, holds' u k ↔ holds u k) :
    Owned (Function.update owner m none) holds' := by
  intro k u
  by_cases hk : k = m
  · subst hk
    rw [Function.update_self]
    by_cases hu : u = t
    · subst hu
      simp [hself]
    · have hno : ¬ holds u k := fun hc => hu (h.unique hc hheld)
      rw [hother u hu]
      simp [hno]
  · rw [Function.update_of_ne hk]
    by_cases hu : u = t
    · subst hu
      simp [hself, hk, h k u]
    · rw [hother u hu, h k u]

end Owned

/-- A thread waits for itself through other threads. -/
def Circular (waits : τ → τ → Prop) : Prop := ∃ t, Relation.TransGen waits t t

theorem not_circular_of_rank {waits : τ → τ → Prop} {rank : τ → ℕ}
    (h : ∀ t u, waits t u → rank u < rank t) : ¬ Circular waits := by
  rintro ⟨t, hcycle⟩
  have hlt : ∀ {u}, Relation.TransGen waits t u → rank u < rank t := by
    intro u hu
    induction hu with
    | single hwait => exact h _ _ hwait
    | tail _ hwait ih => exact Nat.lt_trans (h _ _ hwait) ih
  exact Nat.lt_irrefl _ (hlt hcycle)

/-- When every wait goes down a rank, the waits of a thread lead to one that waits for nobody. -/
theorem exists_last_of_rank {waits : τ → τ → Prop} (rank : τ → ℕ)
    (h : ∀ t u, waits t u → rank u < rank t) (t : τ) :
    ∃ u, Relation.ReflTransGen waits t u ∧ ∀ v, ¬ waits u v := by
  induction hr : rank t using Nat.strongRecOn generalizing t with
  | ind n ih =>
    by_cases hwait : ∃ v, waits t v
    · obtain ⟨v, hv⟩ := hwait
      obtain ⟨u, hvu, hlast⟩ := ih (rank v) (hr ▸ h t v hv) v rfl
      exact ⟨u, .head hv hvu, hlast⟩
    · exact ⟨t, .refl, fun v hv => hwait ⟨v, hv⟩⟩

end SoftwareUpdate.Misc
