import SoftwareUpdate.MaintenanceManager.Proofs.Running

/-!
# Tasks one after another

The worker goes on to the next task when it is notified, and the condition variable has no
predicate: every handled event notifies it, whichever task the event is about. The worker
keeps the order of the tasks exactly as long as nobody wakes it before its task is resolved.
-/

namespace SoftwareUpdate.MaintenanceManager

open Misc Misc.BitField

variable {cfg : Config} {s s' : Sys} {t u : Tid} {l : Thread} {e : Effect} {w : Worker}

/-- Every task before the `i`-th is resolved. -/
def Sys.resolvedBefore (s : Sys) (i : ℕ) : Prop :=
  ∀ j < i, ∀ v, s.tasks[j]? = some v → s.completed v = true

/-- The worker may leave its `i`-th task: it is resolved, or the cycle is aborted. -/
def Sys.mayLeave (s : Sys) (i : ℕ) : Prop :=
  (∀ v, s.tasks[i]? = some v → s.completed v = true) ∨ s.abortFlag = true

/-- A worker that launches a task has all earlier tasks of its list behind it, and it goes past
a task, the last one included, only when it may leave it. -/
structure LaunchesInOrder (cfg : Config) (s : Sys) : Prop where
  launches : ∀ a t l v launched w, offer cfg s a = some (t, l, .system v launched) →
    s.thread t = .worker w → s.resolvedBefore w.i
  advances : ∀ a t e w w', offer cfg s a = some (t, .worker w', e) → s.thread t = .worker w →
    w'.i = w.i + 1 → s.mayLeave w.i

/-- There are no spurious wake-ups, and a notification finds the worker inside `wait` only
when its task is resolved or the cycle is aborted. -/
structure NotifiedWhenResolved (s : Sys) (_ : Tid) (_ : Thread) (e : Effect) : Prop where
  notified : ∀ u w, e = .notifyOne (some u) → s.thread u = .worker w → w.pc = .wakeTask →
    s.mayLeave w.i
  noSpurious : e ≠ .spuriousWakeUp

/-- What the worker knows about its list at each program point of the loop. -/
def Sys.ordered (s : Sys) (u : Tid) (w : Worker) : Prop :=
  match w.pc with
  | .loopTest => s.resolvedBefore w.i ∨ s.abortFlag = true
  | .setCurrent | .abortTest | .startTimer | .setMap | .launch | .clearMap | .failComplete
  | .waitTask => s.resolvedBefore w.i
  | .wakeTask => s.resolvedBefore w.i ∧ (u ∈ s.waiters ∨ s.mayLeave w.i)
  | .stopTimer => s.resolvedBefore w.i ∧ s.mayLeave w.i
  | _ => True

theorem Sys.resolvedBefore_succ {i : ℕ} (h : s.resolvedBefore i)
    (hi : ∀ v, s.tasks[i]? = some v → s.completed v = true) : s.resolvedBefore (i + 1) := by
  intro j hj v hv
  rcases Nat.lt_succ_iff_lt_or_eq.mp hj with hlt | rfl
  · exact h j hlt v hv
  · exact hi v hv

theorem Sys.resolvedBefore_zero : s.resolvedBefore 0 := fun _ hj => absurd hj (Nat.not_lt_zero _)

/-- After a task the loop test finds what it needs. -/
theorem Sys.ordered_next {i : ℕ} (h : s.resolvedBefore i) (hleave : s.mayLeave i) :
    s.resolvedBefore (i + 1) ∨ s.abortFlag = true :=
  hleave.imp_left (resolvedBefore_succ h)

theorem Sys.resolvedBefore_of_tasks {i : ℕ} (h : s.resolvedBefore i) (htasks : s'.tasks = s.tasks)
    (hbits : ∀ v, s.completed v = true → s'.completed v = true) : s'.resolvedBefore i := by
  intro j hj v hv
  rw [htasks] at hv
  exact hbits v (h j hj v hv)

theorem Undisturbed.mayLeave {i : ℕ} (h : Undisturbed s s') (hi : s.mayLeave i) :
    s'.mayLeave i := by
  rcases hi with hdone | habort
  · refine .inl fun v hv => h.completed (hdone v ?_)
    rwa [h.tasks] at hv
  · exact .inr (h.abort habort)

theorem WorkerStep.ordered {w' : Worker} (h : WorkerStep cfg s w (.worker w') e)
    (hok : s.ordered t w) (hwoken : w.pc = .wakeTask → s.mayLeave w.i) :
    (s.commit cfg t (.worker w') e).ordered t w' := by
  cases h
  case lockCall => exact .inl Sys.resolvedBefore_zero
  case enterLoop hpc hi habort =>
    simp only [Sys.ordered, hpc] at hok
    rcases hok with hbefore | hab
    · exact hbefore
    · rw [habort] at hab
      cases hab
  case aborted hpc habort => exact .inr habort
  case clearThenRetry hpc v hv _ _ =>
    simp only [Sys.ordered, hpc] at hok
    exact .inl hok
  case failComplete hpc v hv =>
    simp only [Sys.ordered, hpc] at hok
    refine ⟨Sys.resolvedBefore_of_tasks hok rfl fun x hx => getLsbD_raise_of_getLsbD hx,
      .inl ?_⟩
    intro x hx
    have hx' : s.tasks[w.i]? = some x := hx
    rw [hv] at hx'
    cases hx'
    exact getLsbD_raise_self (completeBit_lt v)
  case waitTask hpc =>
    simp only [Sys.ordered, hpc] at hok
    exact ⟨hok, .inl (List.mem_cons_self ..)⟩
  case wakeTask hpc =>
    simp only [Sys.ordered, hpc] at hok
    exact ⟨hok.1, hwoken hpc⟩
  case stopTimer hpc disarmed =>
    simp only [Sys.ordered, hpc] at hok
    exact Sys.ordered_next hok.1 hok.2
  all_goals first
    | trivial
    | simp only [Sys.ordered, *] at hok
      exact hok

/-- The other threads take no resolved task back and do not wake the worker too early. -/
theorem ordered_other (hok : SysOk cfg s) (hw : s.thread u = .worker w) (hord : s.ordered u w)
    (h : Move cfg s t l e) (hu : u ≠ t) (hphase : w.phase = .running)
    (hc : NotifiedWhenResolved s t l e) : (s.commit cfg t l e).ordered u w := by
  have hsame := hok.undisturbed hw hphase h hu
  have hbefore : s.resolvedBefore w.i → (s.commit cfg t l e).resolvedBefore w.i :=
    fun hb => Sys.resolvedBefore_of_tasks hb hsame.tasks fun v hv => hsame.completed hv
  cases hpc : w.pc <;> simp only [Sys.ordered, hpc] at hord ⊢ <;> try exact hbefore hord
  case loopTest =>
    rcases hord with hb | habort
    · exact .inl (hbefore hb)
    · exact .inr (hsame.abort habort)
  case stopTimer => exact ⟨hbefore hord.1, hsame.mayLeave hord.2⟩
  case wakeTask =>
    refine ⟨hbefore hord.1, ?_⟩
    rcases hord.2 with hwait | hleave
    · by_cases hstill : u ∈ (s.commit cfg t l e).waiters
      · exact .inl hstill
      · -- somebody has woken the worker: only a notification does
        right
        cases e with
        | notifyOne woken =>
          cases woken with
          | none => exact absurd hwait hstill
          | some v =>
            have hvu : v = u := by
              by_contra hne
              exact hstill ((List.mem_erase_of_ne (Ne.symm hne)).mpr hwait)
            subst hvu
            exact hsame.mayLeave (hc.notified v w rfl hw hpc)
        | spuriousWakeUp => exact absurd rfl hc.noSpurious
        | wait m => exact absurd (List.mem_cons_of_mem _ hwait) hstill
        | _ => exact absurd hwait hstill
    · exact .inr (hsame.mayLeave hleave)

theorem Sys.ordered_of_not_running (h : w.phase ≠ .running) : s.ordered u w := by
  cases hpc : w.pc <;> simp_all [Worker.phase, Sys.ordered]

theorem ordered_of_reached (h : ReachedWhere cfg NotifiedWhenResolved s)
    (hw : s.thread u = .worker w) : s.ordered u w := by
  refine h.forall_threads (A := fun s u l => ∀ w, l = .worker w → s.ordered u w) ?_ ?_ ?_ ?_ u w hw
  · intro threadCreated u w hw
    rcases boot_thread threadCreated u with hu | hu <;> cases hu.symm.trans hw
    exact trivial
  · intro s t l e _ hok hord hmove _ hc w hl
    subst hl
    rcases hmove.worker with ⟨w₀, hwait, hthread, hstep⟩ | ⟨hthread, rfl | rfl⟩
    · refine hstep.ordered (hord w₀ hthread) fun hpc => ?_
      have hwoken := hord w₀ hthread
      simp only [Sys.ordered, hpc] at hwoken
      exact hwoken.2.resolve_left hwait
    · exact absurd rfl hc.noSpurious
    · exact hord w hthread
  · intro s t l e u _ hok hord hmove _ hc hu w hw
    by_cases hphase : w.phase = .running
    · exact ordered_other hok hw (hord w hw) hmove hu hphase hc
    · exact Sys.ordered_of_not_running hphase
  · intro s t l v _ _ _ w hw
    cases hw
    exact trivial

/-- The worker goes past a task only where it has waited for it, has given it up, or sees the
abort. -/
theorem WorkerStep.mayLeave_of_advances {w' : Worker} (h : WorkerStep cfg s w (.worker w') e)
    (hord : s.ordered t w) (hi : w'.i = w.i + 1) : s.mayLeave w.i := by
  cases h
  case aborted hpc habort => exact .inr habort
  case stopTimer hpc disarmed =>
    simp only [Sys.ordered, hpc] at hord
    exact hord.2
  case lockCall hpc => cases hi
  all_goals exact absurd hi (Nat.ne_of_lt (Nat.lt_succ_self w.i))

/-- In every run in which the worker is woken only when its task is resolved or the cycle is
aborted, the tasks run one after another. -/
theorem launchesInOrder_of_reached (h : ReachedWhere cfg NotifiedWhenResolved s) :
    LaunchesInOrder cfg s := by
  constructor
  · intro a t l v launched w hoffer hthread
    obtain ⟨w', hw', hpc, -⟩ := (offer_move hoffer).origin
    rw [hthread] at hw'
    cases hw'
    have hord := ordered_of_reached h hthread
    simp only [Sys.ordered, hpc] at hord
    exact hord
  · intro a t e w w' hoffer hthread hi
    have hord := ordered_of_reached h hthread
    rcases (offer_move hoffer).worker with ⟨w₀, -, hw₀, hstep⟩ | ⟨hstay, -⟩
    · rw [hthread] at hw₀
      cases hw₀
      exact hstep.mayLeave_of_advances hord hi
    · rw [hthread] at hstay
      cases hstay
      omega

/-- RFC completes, and the worker is about to launch the firmware task. -/
def secondLaunchSchedule : List Action :=
  startsUp 0 ++ launches 0 ++ deliversOutcome 1 (.complete .rfc) 0 ++ runs 0 5 ++ succeeds 0 ++
    runs 0 1

/-- A test of the condition for the worker that is notified. -/
def notifiedResolved (s : Sys) : Effect → Bool
  | .notifyOne (some u) =>
      match s.thread u with
      | .worker w => w.pc != .wakeTask || (s.tasks[w.i]?).all s.completed
      | _ => true
  | .spuriousWakeUp => false
  | _ => true

theorem notifiedWhenResolved_of_test (h : notifiedResolved s e = true) :
    NotifiedWhenResolved s t l e := by
  refine ⟨fun u w he hw hpc => ?_, fun he => ?_⟩
  · subst he
    refine .inl fun v hv => ?_
    simpa [notifiedResolved, hw, hpc, hv] using h
  · subst he
    cases h

/-- The second task is launched when the first is resolved. -/
theorem launchesInOrder_of_reached_second : ∃ s,
    ReachedWhere (device false false) NotifiedWhenResolved s ∧
      (∃ l, offer (device false false) s (.run 0 { answer := true }) =
        some (0, l, .system .swupdate true)) ∧ LaunchesInOrder (device false false) s := by
  obtain ⟨s, hs, htest⟩ := exists_reachedWhere_of_run (device false false) NotifiedWhenResolved
    true secondLaunchSchedule
    (fun s => (offer (device false false) s (.run 0 { answer := true })).any
      fun p => p.2.2 == .system .swupdate true)
    (fun s _ _ e => notifiedResolved s e)
    (fun _ _ _ _ _ h => notifiedWhenResolved_of_test h) (by decide +kernel)
  exact ⟨s, hs, offer_of_any htest, launchesInOrder_of_reached hs⟩

/-- While the worker waits for the firmware task, RFC reports an error for the second time. -/
def duplicateErrorSchedule : List Action :=
  startsUp 0 ++ launches 0 ++ deliversOutcome 1 (.error .rfc) 0 ++ runs 0 2 ++
    launches 0 ++ deliversOutcome 1 (.error .rfc) 0 ++ runs 0 5 ++ succeeds 0 ++ runs 0 1

/-- The log upload is launched although the firmware task is outstanding. -/
theorem launchedOutOfOrder : ∃ s, (plugin (device false false)).Reachable s ∧
    ¬ LaunchesInOrder (device false false) s := by
  obtain ⟨s, hs, htest⟩ := TransitionSystem.exists_reachable_of_run (plugin (device false false))
    (maintenanceManagerOnBootup (device false false) true) duplicateErrorSchedule
    (fun s => (offer (device false false) s (.run 0 { answer := true })).any
        (fun p => p.2.2 == .system .logupload true) &&
      s.tasks == [.rfc, .swupdate, .logupload] && !s.completed .swupdate &&
      (s.thread 0).isWorker (·.i == 2))
    ⟨true, rfl⟩ (by decide +kernel)
  simp only [Bool.and_eq_true, beq_iff_eq, Bool.not_eq_true'] at htest
  obtain ⟨⟨⟨hoffer, htasks⟩, hopen⟩, hworker⟩ := htest
  obtain ⟨l, hoffer⟩ := offer_of_any hoffer
  refine ⟨s, hs, fun hinOrder => ?_⟩
  obtain ⟨w, hthread, hi⟩ := Thread.isWorker_iff.mp hworker
  have hi : w.i = 2 := beq_iff_eq.mp hi
  have hdone := hinOrder.launches _ _ _ _ _ w hoffer hthread 1 (by omega) .swupdate
    (by rw [htasks]; rfl)
  rw [hopen] at hdone
  cases hdone

end SoftwareUpdate.MaintenanceManager
