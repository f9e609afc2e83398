import SoftwareUpdate.Misc.Counting
import SoftwareUpdate.MaintenanceManager.History
import SoftwareUpdate.MaintenanceManager.Proofs.Runs

/-!
# What the task timer can do

The handler of SIGALRM sets a COMPLETE bit on behalf of a task that has not reported. It runs
once for each signal, there is at most one signal for each expiry, and the timer expires at most
once after it has been armed; so over a whole run there are no more timeouts than there were
arms of the timer.
-/

namespace SoftwareUpdate.MaintenanceManager

open Misc

variable {cfg : Config} {s s' : Sys} {t u : Tid} {l : Thread} {e : Effect} {p : Effect → Bool}

/-- `task_startTimer` has armed the timer. -/
def Effect.arms : Effect → Bool
  | .startTimer _ armed => armed
  | _ => false

/-- `timer_handler` records a timeout. -/
def Effect.timesOut : Effect → Bool
  | .setStatus _ .timeout => true
  | _ => false

/-- How often an effect with `p` has occurred in the run. -/
def Sys.count (s : Sys) (p : Effect → Bool) : ℕ := s.log.countP fun x => p x.2

/-- How often thread `t` has had an effect with `p`. -/
def Sys.countOf (s : Sys) (t : Tid) (p : Effect → Bool) : ℕ :=
  s.log.countP fun x => x.1 = t && p x.2

theorem count_commit : (s.commit cfg t l e).count p = s.count p + (p e).toNat := by
  cases hp : p e <;> simp [Sys.count, hp]

theorem countOf_commit_self : (s.commit cfg t l e).countOf t p = s.countOf t p + (p e).toNat := by
  cases hp : p e <;> simp [Sys.countOf, hp]

theorem countOf_commit_of_ne (hu : u ≠ t) : (s.commit cfg t l e).countOf u p = s.countOf u p := by
  simp [Sys.countOf, Ne.symm hu]

/-- The handler of the thread has still to record its timeout. -/
def Thread.owesTimeout : Thread → Bool
  | .timer (.readTask) | .timer (.testMap _) | .timer (.clearMap _) | .timer (.setComplete _) =>
      true
  | _ => false

/-! ## The expiries -/

/-- The timer expires only when it has been armed since. -/
theorem expiries_le (h : (plugin cfg).Reachable s) :
    s.count (· == .timerExpires) + s.taskTimerArmed.toNat ≤ s.count Effect.arms := by
  refine (reachedWhere_of_reachable h).induct (I := fun s =>
    s.count (· == .timerExpires) + s.taskTimerArmed.toNat ≤ s.count Effect.arms) ?_ ?_
  · rintro (_ | _) <;> exact Nat.zero_le _
  · intro s t l e _ _ hi _ hen _
    rw [count_commit, count_commit]
    cases e with
    | startTimer created armed =>
      have hle : (s.taskTimerArmed || ((s.taskTimerCreated || created) && armed)).toNat ≤
          s.taskTimerArmed.toNat + armed.toNat := by
        cases s.taskTimerArmed <;> cases armed <;> simp [Bool.toNat_le]
      show s.count (· == .timerExpires) + 0 + (s.taskTimerArmed ||
        ((s.taskTimerCreated || created) && armed)).toNat ≤ s.count Effect.arms + armed.toNat
      omega
    | timerExpires =>
      have harmed : s.taskTimerArmed = true := hen
      simpa [Sys.commit, Effect.apply, Effect.arms, harmed] using hi
    | stopTimer stopped | deleteTimer stopped =>
      have hle : (s.taskTimerArmed && !(s.taskTimerCreated && stopped)).toNat ≤
          s.taskTimerArmed.toNat := by
        cases s.taskTimerArmed <;> simp [Bool.toNat_le]
      exact (Nat.add_le_add_left hle _).trans hi
    | _ => exact hi

/-- A signal is handled at most once for each expiry; one that is pending takes in the next. -/
theorem signals_add_pending_le (h : (plugin cfg).Reachable s) :
    s.count (· == .signal) + s.signalPending.toNat ≤ s.count (· == .timerExpires) := by
  refine (reachedWhere_of_reachable h).induct (I := fun s =>
    s.count (· == .signal) + s.signalPending.toNat ≤ s.count (· == .timerExpires)) ?_ ?_
  · rintro (_ | _) <;> exact Nat.le_refl _
  · intro s t l e _ _ hi _ hen _
    rw [count_commit, count_commit]
    cases e with
    | timerExpires =>
      exact Nat.add_le_add_right ((Nat.le_add_right _ _).trans hi) 1
    | signal =>
      have hpending : s.signalPending = true := hen
      rw [hpending] at hi
      exact hi
    | _ => exact hi

/-! ## The timeouts -/

/-- A thread owes a timeout from the signal on, and records it at the end. -/
theorem Move.owesTimeout (h : Move cfg s t l e) :
    e.timesOut.toNat + l.owesTimeout.toNat ≤
      (s.thread t).owesTimeout.toNat + (e == .signal).toNat := by
  cases h with
  | run c _ hst =>
    by_cases htimer : (s.thread t).activity = .timer
    · cases hthread : s.thread t with
      | timer pc =>
        rw [hthread] at hst
        obtain rfl : (timerHandler s pc c).1 = l := congrArg Prod.fst (Option.some.inj hst)
        obtain rfl : (timerHandler s pc c).2 = e := congrArg Prod.snd (Option.some.inj hst)
        clear hst
        fun_cases timerHandler s pc c <;> simp [Thread.owesTimeout, Effect.timesOut]
      | _ =>
        rw [hthread] at htimer
        cases htimer
    · have hl : l.owesTimeout = false := by
        rcases statement_activity hst with hl | hl <;> cases l <;> first | rfl | skip
        · exact absurd hl.symm htimer
        · cases hl
      have he : e.timesOut = false := by
        have horigin := statement_origin hst
        cases e with
        | setStatus n cause =>
          rcases horigin with ⟨status, rest, -, rfl⟩ | ⟨v, hp, -⟩ | ⟨w, v, -, -, -, -, rfl⟩ |
            ⟨w, -, rfl, -⟩
          · rfl
          · rw [hp] at htimer
            exact absurd rfl htimer
          · rfl
          · rfl
        | _ => rfl
      rw [hl, he]
      exact Nat.zero_le _
  | call r hidle => cases r <;> exact Nat.zero_le _
  | wakeUp | timerExpires => exact (Nat.zero_add _).le
  | signal hidle => exact Nat.le_add_left _ _

theorem owesTimeout_commit_of_ne (hu : u ≠ t) :
    ((s.commit cfg t l e).thread u).owesTimeout.toNat ≤ (s.thread u).owesTimeout.toNat := by
  rw [commit_thread_of_ne hu]
  cases e with
  | create w =>
    by_cases huw : u = w
    · simp [Effect.apply, huw, Thread.owesTimeout]
    · simp [Effect.apply, huw]
  | _ => exact Nat.le_refl _

/-- Every thread records a timeout for each signal it handles, and at most one. -/
theorem timeoutsOf_le (h : (plugin cfg).Reachable s) (t : Tid) :
    s.countOf t Effect.timesOut + (s.thread t).owesTimeout.toNat ≤ s.countOf t (· == .signal) := by
  refine (reachedWhere_of_reachable h).induct (I := fun s => ∀ t,
    s.countOf t Effect.timesOut + (s.thread t).owesTimeout.toNat ≤ s.countOf t (· == .signal))
    ?_ ?_ t
  · intro threadCreated u
    rcases boot_thread threadCreated u with hu | hu <;> rw [hu] <;> cases threadCreated <;>
      simp [Sys.countOf, maintenanceManagerOnBootup, Thread.owesTimeout, Effect.timesOut]
  · intro s t l e _ _ hi hmove _ _ u
    by_cases hu : u = t
    · subst hu
      have howes := hmove.owesTimeout
      have hbefore := hi u
      rw [countOf_commit_self, countOf_commit_self, commit_thread_self]
      omega
    · rw [countOf_commit_of_ne hu, countOf_commit_of_ne hu]
      exact (Nat.add_le_add_left (owesTimeout_commit_of_ne hu) _).trans (hi u)

/-- In every run there are no more timeouts than signals handled, no more signals handled and
pending than expiries of the timer, and no more expiries than arms of the timer. -/
theorem timeouts_le_arms (h : (plugin cfg).Reachable s) :
    s.count Effect.timesOut ≤ s.count (· == .signal) ∧
      s.count (· == .signal) + s.signalPending.toNat ≤ s.count (· == .timerExpires) ∧
      s.count (· == .timerExpires) + s.taskTimerArmed.toNat ≤ s.count Effect.arms := by
  refine ⟨countP_le_of_keys Prod.fst fun t => ?_, signals_add_pending_le h, expiries_le h⟩
  exact (Nat.le_add_right _ _).trans (timeoutsOf_le h t)

/-- RFC times out, and the timer is armed for the next task. -/
theorem timeouts_le_arms_launched : ∃ s, (plugin (device false false)).Reachable s ∧
    s.count Effect.timesOut = 1 ∧ s.count Effect.arms = 2 ∧
      s.count Effect.timesOut ≤ s.count (· == .signal) ∧
      s.count (· == .signal) + s.signalPending.toNat ≤ s.count (· == .timerExpires) ∧
      s.count (· == .timerExpires) + s.taskTimerArmed.toNat ≤ s.count Effect.arms := by
  obtain ⟨s, hs, htest⟩ := TransitionSystem.exists_reachable_of_run (plugin (device false false))
    (maintenanceManagerOnBootup (device false false) true)
    (startsUp 0 ++ launches 0 ++ timesOut 0 1 ++ launches 0)
    (fun s => s.count Effect.timesOut == 1 && s.count Effect.arms == 2) ⟨true, rfl⟩
    (by decide +kernel)
  simp only [Bool.and_eq_true, beq_iff_eq] at htest
  exact ⟨s, hs, htest.1, htest.2, timeouts_le_arms hs⟩

end SoftwareUpdate.MaintenanceManager
