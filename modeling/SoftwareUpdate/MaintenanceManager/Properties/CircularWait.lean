import SoftwareUpdate.MaintenanceManager.Proofs.Runs

/-!
# Circular waits

Three calls join the worker while they hold `m_statusMutex`, and the worker needs that mutex
to post STARTED and to post ERROR when there is no network. A call that joins a worker which
still has to post closes a circle; the joins of all other workers, and all waits for the
other two mutexes, go down a rank.
-/

namespace SoftwareUpdate.MaintenanceManager

open Misc

variable {cfg : Config} {s s' : Sys} {t u : Tid} {l : Thread} {e : Effect} {w : Worker}

/-- Thread `t` stands before a mutex that `u` owns, or joins `u` while `u` has not returned. -/
def WaitsFor (cfg : Config) (s : Sys) (t u : Tid) : Prop :=
  (∃ c l m, offer cfg s (.run t c) = some (t, l, .lock m) ∧ s.owner m = some u) ∨
  (∃ c l, offer cfg s (.run t c) = some (t, l, .join u) ∧ s.thread u ≠ .finished)

/-- The worker cannot return without acquiring `m_statusMutex`: it has still to post STARTED,
or it has found the device offline. -/
def Worker.mustLockStatus (w : Worker) : Bool :=
  match w.pc with
  | .lockWai | .decideDelay | .lockStarted | .lockError => true
  | .eraseTasks | .checkActivation | .checkNetwork | .checkActivated | .knowWhoAmI
  | .branchContext | .listenContext | .testContext | .waitContext | .wakeContext =>
      w.delayMaintenanceStarted
  | .branchWhoAmI => w.delayMaintenanceStarted || !w.internetConnectStatus
  | .branchExit => w.delayMaintenanceStarted || w.exitOnNoNetwork
  | _ => false

/-- The call holds `m_statusMutex` and is to join `m_thread`: `startMaintenance` and
`stopMaintenanceTasks` once accepted, the handler once it has found `TASKS_COMPLETED`. -/
def Thread.willJoin : Thread → Bool
  | .start .lock | .start .guard | .start (.create _) | .start (.rollback _)
  | .start (.unlock _) => false
  | .start _ => true
  | .stop _ .setAbort | .stop _ (.readMap _ _) | .stop _ (.abortTask _)
  | .stop _ (.clearMap _) | .stop _ .stopTimer | .stop _ .notify | .stop _ .testJoinable
  | .stop _ (.join _) => true
  | .event .testSuccess | .event .testNotSuccess | .event .testSkipped | .event .storeTime
  | .event (.testJoinable _) | .event (.join _ _) => true
  | _ => false

/-- A thread joins the worker, holding `m_statusMutex`, while the worker still needs it. -/
def JoinsLockingWorker (s : Sys) : Prop :=
  ∃ t u w, (s.thread t).joins = some u ∧ s.owner .status = some t ∧ s.thread u = .worker w ∧
    w.mustLockStatus = true

/-- No call that joins the worker is accepted while the worker has still to post, and the
worker does not find the device offline while such a call is under way. -/
structure JoinsReturningWorker (s : Sys) (t : Tid) (l : Thread) (_ : Effect) : Prop where
  accept : (s.thread t).willJoin = false → l.willJoin = true →
    ∀ u w, s.thread u = .worker w → w.mustLockStatus = false
  offline : ∀ w w', s.thread t = .worker w → (w.pc = .checkNetwork ∨ w.pc = .checkActivation) →
    l = .worker w' → w'.pc = .branchWhoAmI → w'.internetConnectStatus = false →
      ∀ u, (s.thread u).willJoin = false

/-! ## The joined worker returns -/

theorem Thread.holds_of_willJoin (h : l.willJoin = true) : l.holds .status = true := by
  cases l with
  | start pc => cases pc <;> simp_all [willJoin, holds, StartPc.holds]
  | stop d pc => cases pc <;> simp_all [willJoin, holds, StopPc.holds]
  | event pc => cases pc <;> simp_all [willJoin, holds, EventPc.holds]
  | _ => cases h

theorem Thread.willJoin_of_joins {v : Tid} (h : l.joins = some v) : l.willJoin = true := by
  cases l with
  | start pc => cases pc <;> first | rfl | cases h
  | stop d pc => cases pc <;> first | rfl | cases h
  | event pc => cases pc <;> first | rfl | cases h
  | _ => cases h

/-- Only the answer to the network check makes the worker need the mutex again. -/
theorem WorkerStep.mustLockStatus {w' : Worker} (h : WorkerStep cfg s w (.worker w') e)
    (hok : WorkerOk cfg s t w) (hmust : w.mustLockStatus = false) :
    w'.mustLockStatus = false ∨
      ((w.pc = .checkNetwork ∨ w.pc = .checkActivation) ∧ w'.pc = .branchWhoAmI ∧
        w'.internetConnectStatus = false) := by
  have hnot := hok.notDelayed
  have hdecided := hok.exiting.decided
  have hasks := hok.asks
  cases h <;> simp_all [Worker.mustLockStatus, Worker.nextTask, WorkerPc.exits, WorkerPc.asks]

theorem joinsReturningWorker_invariant (h : ReachedWhere cfg JoinsReturningWorker s)
    (hjoin : (s.thread t).willJoin = true) (hw : s.thread u = .worker w) :
    w.mustLockStatus = false := by
  refine h.induct (I := fun s => ∀ t u w, (s.thread t).willJoin = true → s.thread u = .worker w →
    w.mustLockStatus = false) ?_ ?_ t u w hjoin hw
  · intro threadCreated t u w hjoin _
    exfalso
    by_cases ht : t = 0 <;> cases threadCreated <;>
      simp [maintenanceManagerOnBootup, ht, Thread.willJoin] at hjoin
  · intro s t l e _ hok ih hmove hen hc v u w hjoin hw
    -- the joining call, before the move
    by_cases hcreate : ∃ x, e = .create x
    · obtain ⟨x, rfl⟩ := hcreate
      obtain ⟨prev, hp⟩ := hmove.origin
      have hheld : (s.thread t).holds .status = true := by rw [hp]; rfl
      have hvt : v ≠ t := by
        rintro rfl
        rw [commit_thread_self] at hjoin
        cases hmove with
        | run c _ hst =>
          rw [hp] at hst
          simp only [statement, startMaintenance] at hst
          split at hst <;> cases hst
          cases hjoin
      have hheld' := Thread.holds_of_willJoin hjoin
      rw [commit_holds_other hen hvt] at hheld'
      exact absurd (hok.owners.unique hheld' hheld) hvt
    · have hsame : ∀ x, x ≠ t → (s.commit cfg t l e).thread x = s.thread x :=
        fun x hx => commit_thread_other hx fun y hy => hcreate ⟨y, hy⟩
      by_cases hut : u = t
      · -- the worker moves, or is the thread that the timer leaves where it is
        subst hut
        rw [commit_thread_self] at hw
        subst hw
        have hvu : v ≠ u := by
          rintro rfl
          rw [commit_thread_self] at hjoin
          cases hjoin
        rw [hsame v hvu] at hjoin
        rcases hmove.worker with ⟨w₀, -, hthread, hstep⟩ | ⟨hthread, -⟩
        · rcases hstep.mustLockStatus (hok.worker hthread) (ih v u w₀ hjoin hthread) with
            hmust | ⟨hpc, hpc', hoffline⟩
          · exact hmust
          · rw [hc.offline w₀ w hthread hpc rfl hpc' hoffline v] at hjoin
            cases hjoin
        · exact ih v u w hjoin hthread
      · rw [hsame u hut] at hw
        by_cases hvt : v = t
        · subst hvt
          rw [commit_thread_self] at hjoin
          cases hbefore : (s.thread v).willJoin with
          | true => exact ih v u w hbefore hw
          | false => exact hc.accept hbefore hjoin u w hw
        · rw [hsame v hvt] at hjoin
          exact ih v u w hjoin hw

/-! ## Every wait goes down a rank -/

/-- Before `m_statusMutex` stands a call (4) or the worker (3), which waits for a call that
holds it (2), which waits for the worker or for `m_callMutex` (1), which is held by a thread
that waits for nobody (0). -/
def Thread.rank : Thread → ℕ
  | .start .lock | .stop _ .lock | .event (.lock _) => 4
  | .start .lockCall | .start (.join _ _) | .stop _ (.join _) | .event (.join _ _) => 2
  | .mode .lockCall => 1
  | .worker w =>
      match w.pc with
      | .lockStarted | .lockError => 3
      | .lockWai | .wakeContext | .lockCall | .wakeTask => 1
      | _ => 0
  | _ => 0

theorem Thread.rank_of_holds_status (h : l.holds .status = true) : l.rank ≤ 2 := by
  cases l with
  | start pc => cases pc <;> simp_all [rank, holds, StartPc.holds]
  | stop d pc => cases pc <;> simp_all [rank, holds, StopPc.holds]
  | event pc => cases pc <;> simp_all [rank, holds, EventPc.holds]
  | worker w => cases hpc : w.pc <;> simp_all [rank, holds, WorkerPc.holds]
  | _ => cases h

theorem Thread.rank_of_holds_call (h : l.holds .call = true) : l.rank = 0 := by
  cases l with
  | start pc => cases pc <;> simp_all [rank, holds, StartPc.holds]
  | mode pc => cases pc <;> simp_all [rank, holds, ModePc.holds]
  | worker w => cases hpc : w.pc <;> simp_all [rank, holds, WorkerPc.holds]
  | stop d pc => cases pc <;> cases h
  | event pc => cases pc <;> cases h
  | _ => cases h

theorem Thread.rank_of_wants_status (h : l.wants = some .status) : 3 ≤ l.rank := by
  cases l with
  | worker w => cases hpc : w.pc <;> simp_all [rank, wants]
  | start pc => cases pc <;> simp_all [rank, wants]
  | stop d pc => cases pc <;> simp_all [rank, wants]
  | event pc => cases pc <;> simp_all [rank, wants]
  | mode pc => cases pc <;> cases h
  | _ => cases h

theorem Thread.rank_of_wants_call (h : l.wants = some .call) : 0 < l.rank := by
  cases l with
  | worker w => cases hpc : w.pc <;> simp_all [rank, wants]
  | start pc => cases pc <;> simp_all [rank, wants]
  | mode pc => cases pc <;> simp_all [rank, wants]
  | stop d pc => cases pc <;> cases h
  | event pc => cases pc <;> cases h
  | _ => cases h

/-- Only workers use `m_waiMutex`. -/
theorem Thread.worker_of_wai (h : l.wants = some .wai ∨ l.holds .wai = true) :
    ∃ w, l = .worker w := by
  cases l with
  | worker w => exact ⟨w, rfl⟩
  | start pc => cases pc <;> simp [wants, holds, StartPc.holds] at h
  | stop d pc => cases pc <;> simp [wants, holds, StopPc.holds] at h
  | event pc => cases pc <;> simp [wants, holds, EventPc.holds] at h
  | mode pc => cases pc <;> simp [wants, holds, ModePc.holds] at h
  | _ => simp [wants, holds] at h

theorem Thread.not_holds_wanted {m : Mutex} (h : l.wants = some m) : l.holds m = false := by
  cases l with
  | worker w => cases hpc : w.pc <;> simp_all [wants, holds] <;> subst h <;> rfl
  | start pc => cases pc <;> simp_all [wants, holds] <;> subst h <;> rfl
  | stop d pc => cases pc <;> cases h; rfl
  | event pc => cases pc <;> cases h; rfl
  | mode pc => cases pc <;> cases h; rfl
  | _ => cases h

theorem rank_lt_of_waitsFor (h : ReachedWhere cfg JoinsReturningWorker s)
    (hwait : WaitsFor cfg s t u) : (s.thread u).rank < (s.thread t).rank := by
  have hok := h.ok
  rcases hwait with ⟨c, l, m, hoffer, howner⟩ | ⟨c, l, hoffer, hrunning⟩
  · have hwants : (s.thread t).wants = some m := (offer_move hoffer).origin
    have hholds : (s.thread u).holds m = true := (hok.owners m u).mp howner
    cases m with
    | status =>
      have := Thread.rank_of_holds_status hholds
      have := Thread.rank_of_wants_status hwants
      omega
    | call =>
      rw [Thread.rank_of_holds_call hholds]
      exact Thread.rank_of_wants_call hwants
    | wai =>
      obtain ⟨w, hw⟩ := Thread.worker_of_wai (.inl hwants)
      obtain ⟨w', hw'⟩ := Thread.worker_of_wai (.inr hholds)
      rw [hok.worker_unique hw' hw, Thread.not_holds_wanted hwants] at hholds
      cases hholds
  · have hmove := offer_move hoffer
    have hjoins : (s.thread t).joins = some u := by
      rcases hmove.origin with ⟨prev, hp⟩ | ⟨d, hp⟩ | ⟨v, hp⟩ <;> rw [hp] <;> rfl
    have hrank : (s.thread t).rank = 2 := by
      rcases hmove.origin with ⟨prev, hp⟩ | ⟨d, hp⟩ | ⟨v, hp⟩ <;> rw [hp] <;> rfl
    rcases hok.joinable u ((hok.threads t).joins u hjoins) with ⟨w, hw⟩ | hfinished
    · have hmust := joinsReturningWorker_invariant h (Thread.willJoin_of_joins hjoins) hw
      rw [hrank, hw]
      cases hpc : w.pc <;> simp_all [Thread.rank, Worker.mustLockStatus]
    · exact absurd hfinished hrunning

/-- In every run in which no call joins a worker that still needs `m_statusMutex`, no reachable
state has a circular wait. -/
theorem noCircularWait_of_reached (h : ReachedWhere cfg JoinsReturningWorker s) :
    ¬ Circular (WaitsFor cfg s) ∧ ¬ JoinsLockingWorker s := by
  constructor
  · exact not_circular_of_rank fun t u hwait => rank_lt_of_waitsFor h hwait
  · rintro ⟨t, u, w, hjoins, -, hw, hmust⟩
    rw [joinsReturningWorker_invariant h (Thread.willJoin_of_joins hjoins) hw] at hmust
    cases hmust

/-- `stopMaintenance` aborts the task and joins the worker. -/
def stopSchedule : List Action :=
  startsUp 0 ++ launches 0 ++ .call 1 .stopMaintenance :: runs 1 6 ++ succeeds 1 ++ runs 1 1 ++ succeeds 1 ++
    [.run 1 { woken := some 0 }] ++ runs 1 1

/-- A test of the condition for the thread in `m_thread`, which is the only worker. -/
def joinsReturning (s : Sys) (t : Tid) (l : Thread) : Bool :=
  ((s.thread t).willJoin || !l.willJoin ||
      !(s.mThread.map s.thread).any (Thread.isWorker Worker.mustLockStatus)) &&
    match s.thread t, l with
    | .worker w, .worker w' =>
        !(w'.pc == .branchWhoAmI && !w'.internetConnectStatus) || w.pc == .branchWhoAmI
    | _, _ => true

theorem joinsReturningWorker_of_test (hok : SysOk cfg s) (h : joinsReturning s t l = true) :
    JoinsReturningWorker s t l e := by
  simp only [joinsReturning, Bool.and_eq_true, Bool.or_eq_true, Bool.not_eq_true'] at h
  refine ⟨fun hbefore hafter u w hw => ?_, fun w w' hw hpc hl hpc' hoffline => ?_⟩
  · simpa [hbefore, hafter, (hok.worker hw).joinable, hw, Thread.isWorker] using h.1
  · have htest := h.2
    rcases hpc with hpc | hpc <;> simp [hw, hl, hpc, hpc', hoffline] at htest

/-- `stopMaintenance` stands at its join and the worker it joins returns. -/
theorem noCircularWait_of_reached_stopped : ∃ s,
    ReachedWhere (device false false) JoinsReturningWorker s ∧ (s.thread 1).joins = some 0 ∧
      ¬ Circular (WaitsFor (device false false) s) ∧ ¬ JoinsLockingWorker s := by
  obtain ⟨s, hs, htest⟩ := exists_reachedWhere_of_run (device false false) JoinsReturningWorker
    true stopSchedule (fun s => (s.thread 1).joins == some 0)
    (fun s t l _ => joinsReturning s t l)
    (fun _ _ _ _ hok h => joinsReturningWorker_of_test hok h) (by decide +kernel)
  exact ⟨s, hs, by simpa using htest, noCircularWait_of_reached hs⟩

/-- `stopMaintenance` is accepted and joins the worker during the network check, and the
answer is that the device is offline. -/
def offlineSchedule : List Action :=
  runs 0 6 ++ .call 1 .stopMaintenance :: runs 1 9 ++ runs 0 3

/-- The call waits for the worker to return, the worker for the mutex the call holds. -/
theorem circularWait_offline : ∃ s, (plugin (device false false)).Reachable s ∧
    Circular (WaitsFor (device false false) s) ∧ JoinsLockingWorker s := by
  obtain ⟨s, hs, htest⟩ := TransitionSystem.exists_reachable_of_run (plugin (device false false))
    (maintenanceManagerOnBootup (device false false) true) offlineSchedule
    (fun s => s.owner .status == some 1 && (s.thread 1).joins == some 0 &&
      (s.thread 0).isWorker Worker.mustLockStatus &&
      (offer (device false false) s (.run 1 {})).any (fun p => p.2.2 == .join 0) &&
      (offer (device false false) s (.run 0 {})).any (fun p => p.2.2 == .lock .status))
    ⟨true, rfl⟩ (by decide +kernel)
  simp only [Bool.and_eq_true, beq_iff_eq] at htest
  obtain ⟨⟨⟨⟨howner, hjoins⟩, hlocking⟩, hcall⟩, hworker⟩ := htest
  obtain ⟨l₁, hcall⟩ := offer_of_any hcall
  obtain ⟨l₀, hworker⟩ := offer_of_any hworker
  obtain ⟨w, hthread, hlocking⟩ := Thread.isWorker_iff.mp hlocking
  have hjoin : WaitsFor (device false false) s 1 0 := .inr ⟨_, _, hcall, by rw [hthread]; simp⟩
  have hlock : WaitsFor (device false false) s 0 1 := .inl ⟨_, _, _, hworker, howner⟩
  exact ⟨s, hs, ⟨1, .tail (.single hjoin) hlock⟩, 1, 0, w, hjoins, howner, hthread, hlocking⟩

end SoftwareUpdate.MaintenanceManager
