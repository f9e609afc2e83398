import SoftwareUpdate.MaintenanceManager.Proofs.Runs

/-!
# What `m_statusMutex` protects

Some of the shared state is changed only by the thread that holds `m_statusMutex`. What is known
of it then depends on where that thread stands: an assertion that holds while the mutex is free
may be broken and made good again in between, and no other thread can tell.
-/

namespace SoftwareUpdate.MaintenanceManager

open Misc

variable {cfg : Config} {s : Sys} {t u : Tid} {l : Thread} {e : Effect}
  {C : Sys → Tid → Thread → Effect → Prop}

/-- The thread that holds `m_statusMutex`; `idle` when none does. -/
def Sys.holder (s : Sys) : Thread := (s.owner .status).elim .idle s.thread

theorem holder_eq (ho : OwnersAgree s) (h : (s.thread t).holds .status = true) :
    s.holder = s.thread t := by
  rw [Sys.holder, (ho .status t).mpr h]
  rfl

theorem holder_of_free (h : s.owner .status = none) : s.holder = .idle := by
  rw [Sys.holder, h]
  rfl

theorem holder_of_none (ho : OwnersAgree s) (h : ∀ u, (s.thread u).holds .status ≠ true) :
    s.holder = .idle :=
  holder_of_free (Option.eq_none_iff_forall_ne_some.mpr fun u hu => h u ((ho .status u).mp hu))

/-! ## The holder after a move -/

/-- Nobody but the moving thread is inside. -/
theorem Move.holder_of_inside (h : Move cfg s t l e) (hen : e.enabled s t = true)
    (hok : SysOk cfg s) (ht : (s.thread t).holds .status = true) :
    (s.commit cfg t l e).holder = if l.holds .status then l else .idle := by
  have ho' := h.ownersAgree hen hok.owners
  split
  case isTrue hl => exact (holder_eq (t := t) ho' (by simpa using hl)).trans commit_thread_self
  case isFalse hl =>
    refine holder_of_none ho' fun u hheld => ?_
    by_cases hu : u = t
    · subst hu
      exact hl (by simpa using hheld)
    · rw [commit_holds_other hen hu] at hheld
      exact hu (hok.owners.unique hheld ht)

/-- A thread that gets inside finds nobody there. -/
theorem Move.holder_of_enters (h : Move cfg s t l e) (hen : e.enabled s t = true)
    (hok : SysOk cfg s) (ht : (s.thread t).holds .status = false) (hl : l.holds .status = true) :
    s.holder = .idle ∧ (s.commit cfg t l e).holder = l := by
  have ho' := h.ownersAgree hen hok.owners
  have hl' : ((s.commit cfg t l e).thread t).holds .status = true := by simpa using hl
  constructor
  · refine holder_of_none hok.owners fun u hheld => ?_
    by_cases hu : u = t
    · rw [hu, ht] at hheld
      cases hheld
    · have hheld' : ((s.commit cfg t l e).thread u).holds .status = true :=
        (commit_holds_other hen hu .status).trans hheld
      exact hu (ho'.unique hheld' hl')
  · exact (holder_eq ho' hl').trans commit_thread_self

/-- The moves of the others do not concern the holder. -/
theorem Move.holder_of_outside (h : Move cfg s t l e) (hen : e.enabled s t = true)
    (hok : SysOk cfg s) (ht : (s.thread t).holds .status = false) (hl : l.holds .status = false) :
    (s.commit cfg t l e).holder = s.holder := by
  have ho' := h.ownersAgree hen hok.owners
  by_cases hheld : ∃ u, (s.thread u).holds .status = true
  · obtain ⟨u, hheld⟩ := hheld
    have hu : u ≠ t := by
      rintro rfl
      rw [ht] at hheld
      cases hheld
    have hidle : s.thread u ≠ .idle := by
      intro hidle
      rw [hidle] at hheld
      cases hheld
    have hheld' : ((s.commit cfg t l e).thread u).holds .status = true :=
      (commit_holds_other hen hu _).trans hheld
    rw [holder_eq hok.owners hheld, holder_eq ho' hheld', commit_thread_of_not_idle hen hu hidle]
  · rw [holder_of_none hok.owners fun u hu => hheld ⟨u, hu⟩]
    refine holder_of_none ho' fun u hu => ?_
    by_cases hut : u = t
    · subst hut
      rw [commit_thread_self, hl] at hu
      cases hu
    · rw [commit_holds_other hen hut] at hu
      exact hheld ⟨u, hu⟩

/-! ## The rule -/

/-- An assertion `A s l` about what the mutex protects, at the program point `l` of its holder.
It is the same for all threads that are not inside (`free`), a thread takes it along on its own
way (`own`), and the threads that stay outside leave it alone (`outside`). -/
theorem ReachedWhere.guarded {A : Sys → Thread → Prop}
    (free : ∀ {s l}, l.holds .status = false → (A s l ↔ A s .idle))
    (boot : ∀ threadCreated, A (maintenanceManagerOnBootup cfg threadCreated) .idle)
    (own : ∀ {s t l e}, ReachedWhere cfg C s → Move cfg s t l e → C s t l e →
      A s (s.thread t) → A (s.commit cfg t l e) l)
    (outside : ∀ {s t l e l'}, Move cfg s t l e → (s.thread t).holds .status = false →
      l.holds .status = false → A s l' → A (s.commit cfg t l e) l')
    (h : ReachedWhere cfg C s) : A s s.holder := by
  refine h.induct (I := fun s => A s s.holder) ?_ ?_
  · intro threadCreated
    rw [holder_of_free rfl]
    exact boot threadCreated
  · intro s t l e hreach hok hi hmove hen hcond
    cases ht : (s.thread t).holds .status with
    | true =>
      rw [holder_eq hok.owners ht] at hi
      rw [hmove.holder_of_inside hen hok ht]
      split
      case isTrue => exact own hreach hmove hcond hi
      case isFalse hl => exact (free (Bool.not_eq_true _ ▸ hl)).mp (own hreach hmove hcond hi)
    | false =>
      cases hl : l.holds .status with
      | true =>
        obtain ⟨hidle, hheld⟩ := hmove.holder_of_enters hen hok ht hl
        rw [hidle] at hi
        rw [hheld]
        exact own hreach hmove hcond ((free ht).mpr hi)
      | false =>
        rw [hmove.holder_of_outside hen hok ht hl]
        exact outside hmove ht hl hi

end SoftwareUpdate.MaintenanceManager
