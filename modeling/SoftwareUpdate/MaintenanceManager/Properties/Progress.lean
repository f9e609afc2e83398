import SoftwareUpdate.MaintenanceManager.Proofs.LoopRuns
import SoftwareUpdate.MaintenanceManager.Properties.CircularWait

/-!
# Who can go on

A thread that is inside the plugin can execute its next statement unless it stands before a
mutex somebody owns, joins a thread that has not returned, or is inside the wait of the
condition variable. `m_callMutex` is never held by such a thread. The other waits end, in the
runs without the circle through `m_statusMutex`, at a thread that can go on or at the worker
that waits to be notified.
-/

namespace SoftwareUpdate.MaintenanceManager

open Misc

variable {cfg : Config} {s s' : Sys} {t u : Tid} {l : Thread} {e : Effect} {w : Worker}

/-- The thread can execute its next statement. -/
def GoesOn (cfg : Config) (s : Sys) (t : Tid) : Prop :=
  ∃ c l e, offer cfg s (.run t c) = some (t, l, e) ∧ e.enabled s t = true

/-- The thread is inside a function of the plugin. -/
def Thread.active (l : Thread) : Prop := l ≠ .idle ∧ l ≠ .finished

/-! ## The index of the loop -/

/-- A worker in the middle of an iteration is at a task of the list. -/
theorem index_lt_of_reachable (h : (plugin cfg).Reachable s) (hw : s.thread t = .worker w)
    (hpc : w.pc.iterating = true) : w.i < s.tasks.length := by
  refine (reachedWhere_of_reachable h).forall_threads
    (A := fun s _ l => ∀ w, l = .worker w → w.pc.iterating = true → w.i < s.tasks.length)
    ?_ ?_ ?_ ?_ t w hw hpc
  · intro threadCreated u w hw hpc
    rcases boot_thread threadCreated u with hu | hu <;> rw [hu] at hw <;> cases hw
    cases hpc
  · intro s t l e _ _ ha hmove _ _ w' hl hpc
    subst hl
    rcases hmove.worker with ⟨w, -, hw, hstep⟩ | ⟨hw, rfl | rfl⟩
    · cases hstep with
      | enterLoop _ hi _ => exact hi
      | _ hp => first | cases hpc; done | exact ha w hw (by rw [hp]; rfl)
    · exact ha w' hw hpc
    · exact ha w' hw hpc
  · intro s t l e u _ hok ha hmove _ _ hu w hw hpc
    have horigin := hmove.origin
    cases e with
    | setTasks ts =>
      obtain ⟨v, hv, -⟩ := horigin
      exact absurd (hok.worker_unique hw hv) hu
    | _ => exact ha w hw hpc
  · intro s t l w _ _ _ w' hl hpc
    cases hl
    cases hpc

/-! ## The next statement -/

/-- The choice that lets every call fail and `notify_one` wake the first of the waiters. -/
def Sys.anyChoice (s : Sys) : Choice := { woken := s.waiters.head? }

/-- The effect can be executed at once, unless it is the acquisition of a mutex or a `join`. -/
def Effect.ready (s : Sys) (t : Tid) (e : Effect) : Prop :=
  e.enabled s t = true ∨ (∃ m, e = .lock m) ∨ ∃ u, e = .join u

theorem ready_notifyOne : (Effect.notifyOne s.waiters.head?).ready s t := by
  left
  cases hs : s.waiters with
  | nil => simp [Effect.enabled, hs]
  | cons v vs => simp [Effect.enabled, hs]

theorem WorkerStep.ready (h : WorkerStep cfg s w l e) : e.ready s t := by
  cases h with
  | lockWai | lockStarted | wakeContext | lockError | lockCall | wakeTask =>
    exact .inr (.inl ⟨_, rfl⟩)
  | _ => exact .inl rfl

theorem CaseStmt.ready (x : CaseStmt) (status : ModuleStatus) :
    (x.effect status s.anyChoice).ready s t := by
  cases x with
  | notifyOne => exact ready_notifyOne
  | _ => exact .inl rfl

/-- The next statement of a worker. -/
theorem taskExecutionThread_ready (hindex : w.pc.iterating = true → w.i < s.tasks.length) :
    ∃ l e, taskExecutionThread cfg s w s.anyChoice = some (l, e) ∧ e.ready s t := by
  suffices hsome : (taskExecutionThread cfg s w s.anyChoice).isSome = true by
    obtain ⟨⟨l, e⟩, h⟩ := Option.isSome_iff_exists.mp hsome
    exact ⟨l, e, h, (taskExecutionThread_step h).ready⟩
  have htask (hiter : w.pc.iterating = true) : ∃ v, s.tasks[w.i]? = some v :=
    ⟨_, List.getElem?_eq_getElem (hindex hiter)⟩
  cases hpc : w.pc with
  | setCurrent | setMap | launch | clearMap | failComplete =>
    obtain ⟨v, hv⟩ := htask (by rw [hpc]; rfl)
    simp [taskExecutionThread, hpc, hv]
  | branchExit =>
    simp only [taskExecutionThread, hpc]
    split
    · rfl
    · split <;> rfl
  | _ =>
    simp only [taskExecutionThread, hpc]
    first | rfl | (split <;> rfl)

/-- The next statement of a thread that is inside the plugin. -/
theorem statement_ready (hl : l.active)
    (hindex : ∀ w, l = .worker w → w.pc.iterating = true → w.i < s.tasks.length) :
    ∃ l' e, statement cfg s s.anyChoice l = some (l', e) ∧ e.ready s t := by
  have of_ready {p : Thread × Effect} (hp : p.2.ready s t) :
      ∃ l' e, some p = some (l', e) ∧ e.ready s t := ⟨p.1, p.2, rfl, hp⟩
  cases l with
  | idle => exact absurd rfl hl.1
  | finished => exact absurd rfl hl.2
  | worker w => exact taskExecutionThread_ready (hindex w rfl)
  | start pc =>
    refine of_ready ?_
    fun_cases startMaintenance s pc s.anyChoice
    case case14 w hthread => cases hthread
    all_goals first
      | exact .inl rfl
      | exact .inr (.inl ⟨_, rfl⟩)
      | exact .inr (.inr ⟨_, rfl⟩)
  | stop deinit pc =>
    refine of_ready ?_
    fun_cases stopMaintenanceTasks s deinit pc s.anyChoice
    all_goals first
      | exact .inl rfl
      | exact .inr (.inl ⟨_, rfl⟩)
      | exact .inr (.inr ⟨_, rfl⟩)
      | exact ready_notifyOne
  | event pc =>
    refine of_ready ?_
    fun_cases iarmEventHandler cfg s pc s.anyChoice
    case case9 status x rest => exact x.ready status
    all_goals first
      | exact .inl rfl
      | exact .inr (.inl ⟨_, rfl⟩)
      | exact .inr (.inr ⟨_, rfl⟩)
  | timer pc =>
    refine of_ready ?_
    fun_cases timerHandler s pc s.anyChoice <;> first | exact .inl rfl | exact ready_notifyOne
  | context pc =>
    refine of_ready ?_
    fun_cases deviceInitializationContextEventHandler s pc s.anyChoice <;>
      first | exact .inl rfl | exact ready_notifyOne
  | internet pc =>
    refine of_ready ?_
    fun_cases internetStatusChangeEventHandler s pc <;> exact .inl rfl
  | mode pc =>
    refine of_ready ?_
    fun_cases maintenanceMode pc <;> first | exact .inl rfl | exact .inr (.inl ⟨_, rfl⟩)

/-! ## Blocked threads -/

/-- A thread inside the plugin can go on, waits for another thread, or waits to be notified. -/
theorem goesOn_or_waits (h : (plugin cfg).Reachable s) (ht : (s.thread t).active) :
    GoesOn cfg s t ∨ (∃ u, WaitsFor cfg s t u) ∨ t ∈ s.waiters := by
  by_cases hwait : t ∈ s.waiters
  · exact .inr (.inr hwait)
  · obtain ⟨l, e, hst, hready⟩ : ∃ l e, statement cfg s s.anyChoice (s.thread t) = some (l, e) ∧
        e.ready s t :=
      statement_ready ht fun w hw hiter => index_lt_of_reachable h hw hiter
    have hoffer : offer cfg s (.run t s.anyChoice) = some (t, l, e) := by
      simp [offer, hwait, hst]
    rcases hready with hen | ⟨m, rfl⟩ | ⟨u, rfl⟩
    · exact .inl ⟨_, _, _, hoffer, hen⟩
    · cases howner : s.owner m with
      | none => exact .inl ⟨_, _, _, hoffer, by simp [Effect.enabled, howner]⟩
      | some u => exact .inr (.inl ⟨u, .inl ⟨_, _, _, hoffer, howner⟩⟩)
    · by_cases hu : s.thread u = .finished
      · exact .inl ⟨_, _, _, hoffer, by simp [Effect.enabled, hu, Thread.isFinished]⟩
      · exact .inr (.inl ⟨u, .inr ⟨_, _, hoffer, hu⟩⟩)

theorem Thread.active_of_holds {m : Mutex} (h : l.holds m = true) : l.active := by
  constructor <;> rintro rfl <;> cases h

/-- What a thread waits for is inside the plugin. -/
theorem active_of_waitsFor (hok : SysOk cfg s) (h : WaitsFor cfg s t u) : (s.thread u).active := by
  rcases h with ⟨c, l, m, -, howner⟩ | ⟨c, l, hoffer, hrunning⟩
  · exact Thread.active_of_holds ((hok.owners m u).mp howner)
  · have hjoins : (s.thread t).joins = some u := by
      rcases (offer_move hoffer).origin with ⟨prev, hp⟩ | ⟨d, hp⟩ | ⟨v, hp⟩ <;> rw [hp] <;> rfl
    refine ⟨fun hidle => ?_, hrunning⟩
    rcases hok.joinable u ((hok.threads t).joins u hjoins) with ⟨w, hw⟩ | hfinished
    · rw [hidle] at hw
      cases hw
    · exact hrunning hfinished

/-- Whoever holds `m_callMutex` stands before no mutex and no `join`. -/
theorem not_waitsFor_of_holds_call (h : (s.thread t).holds .call = true) :
    ¬ WaitsFor cfg s t u := by
  have hrank := Thread.rank_of_holds_call h
  rintro (⟨c, l, m, hoffer, -⟩ | ⟨c, l, hoffer, -⟩)
  · have hwants : (s.thread t).wants = some m := (offer_move hoffer).origin
    cases m with
    | status => exact absurd (Thread.rank_of_wants_status hwants) (by omega)
    | call => exact absurd (Thread.rank_of_wants_call hwants) (by omega)
    | wai =>
      obtain ⟨w, hw⟩ := Thread.worker_of_wai (.inl hwants)
      rw [hw] at hwants h
      cases hpc : w.pc <;> simp_all [Thread.wants, Thread.holds, WorkerPc.holds]
  · rcases (offer_move hoffer).origin with ⟨prev, hp⟩ | ⟨d, hp⟩ | ⟨v, hp⟩ <;>
      rw [hp] at h <;> cases h

/-- In every run, whoever holds `m_callMutex` can execute its next statement. -/
theorem goesOn_of_owner_call (h : (plugin cfg).Reachable s) (howner : s.owner .call = some t) :
    GoesOn cfg s t := by
  have hok := sysOk_of_reachable h
  have hholds : (s.thread t).holds .call = true := (hok.owners .call t).mp howner
  rcases goesOn_or_waits h (Thread.active_of_holds hholds) with hgo | ⟨u, hu⟩ | hwait
  · exact hgo
  · exact absurd hu (not_waitsFor_of_holds_call hholds)
  · obtain ⟨w, hw, hpc⟩ := hok.waiting t hwait
    rw [hw] at hholds
    rcases hpc with hpc | hpc <;> simp [Thread.holds, hpc, WorkerPc.holds] at hholds

/-- The worker is in its loop. -/
theorem goesOn_of_owner_call_loop : ∃ s, (plugin (device false false)).Reachable s ∧
    s.owner .call = some 0 ∧ GoesOn (device false false) s 0 := by
  obtain ⟨s, hs, htest⟩ := TransitionSystem.exists_reachable_of_run (plugin (device false false))
    (maintenanceManagerOnBootup (device false false) true) (startsUp 0)
    (fun s => s.owner .call == some 0) ⟨true, rfl⟩ (by decide +kernel)
  have howner := beq_iff_eq.mp htest
  exact ⟨s, hs, howner, goesOn_of_owner_call hs howner⟩

/-- In every run in which no call joins a worker that still needs `m_statusMutex`, the waits of
a thread inside the plugin end at one that can go on or that waits to be notified. -/
theorem goesOn_of_reached (h : ReachedWhere cfg JoinsReturningWorker s)
    (ht : (s.thread t).active) :
    ∃ u, Relation.ReflTransGen (WaitsFor cfg s) t u ∧ (GoesOn cfg s u ∨ u ∈ s.waiters) := by
  obtain ⟨u, hpath, hlast⟩ := exists_last_of_rank
    (fun t => (s.thread t).rank) (fun t u hwait => rank_lt_of_waitsFor h hwait) t
  have hu : (s.thread u).active := by
    cases hpath with
    | refl => exact ht
    | tail _ hlast' => exact active_of_waitsFor h.ok hlast'
  rcases goesOn_or_waits h.reachable hu with hgo | ⟨v, hv⟩ | hwait
  · exact ⟨u, hpath, .inl hgo⟩
  · exact absurd hv (hlast v)
  · exact ⟨u, hpath, .inr hwait⟩

/-- The thread is at the first statement of `startMaintenance`. -/
def Thread.beginsStart : Thread → Bool
  | .start .lock => true
  | _ => false

/-- `stopMaintenance` holds `m_statusMutex` and joins the worker it has notified, while another
call stands before the mutex. -/
theorem goesOn_of_reached_stopped : ∃ s, ReachedWhere (device false false) JoinsReturningWorker s ∧
    (s.thread 2).beginsStart = true ∧ s.owner .status = some 1 ∧ (s.thread 1).joins = some 0 ∧
      ∃ u, Relation.ReflTransGen (WaitsFor (device false false) s) 2 u ∧
        (GoesOn (device false false) s u ∨ u ∈ s.waiters) := by
  obtain ⟨s, hs, htest⟩ := exists_reachedWhere_of_run (device false false) JoinsReturningWorker
    true (stopSchedule ++ [.call 2 .startMaintenance])
    (fun s => s.owner .status == some 1 && (s.thread 1).joins == some 0 &&
      (s.thread 2).beginsStart)
    (fun s t l _ => joinsReturning s t l)
    (fun _ _ _ _ hok h => joinsReturningWorker_of_test hok h) (by decide +kernel)
  simp only [Bool.and_eq_true, beq_iff_eq] at htest
  obtain ⟨⟨howner, hjoins⟩, hcaller⟩ := htest
  refine ⟨s, hs, hcaller, howner, hjoins, goesOn_of_reached hs ?_⟩
  constructor
  all_goals
    intro hidle
    rw [hidle] at hcaller
    cases hcaller

end SoftwareUpdate.MaintenanceManager
