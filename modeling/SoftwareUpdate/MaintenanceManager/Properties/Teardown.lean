import SoftwareUpdate.MaintenanceManager.Proofs.Quiet

/-!
# Deinitialization

When `Deinitialize` has returned, no worker is to be left, `m_thread` is not to be joinable, no
timer is to exist, and nothing is to use `_instance` or `m_service` any more. The worker is
joined only by a stop that is accepted, that is, in status STARTED. A worker that waits for
the device context, checks the network before STARTED or has left without network is not
joined, and the timer that was deleted first can be created again until the worker has
been joined.
-/

namespace SoftwareUpdate.MaintenanceManager

open Misc

variable {cfg : Config} {s s' : Sys} {t u : Tid} {l : Thread} {e : Effect} {pc : StopPc}

/-- The next statement of a worker, of an event handler or of `timer_handler` goes through
`_instance`. -/
def Thread.usesInstance : Thread → Bool
  | .worker w => match w.pc with | .notifyStarted | .notifyError => true | _ => false
  | .event (.enter _) | .event (.notify _) => true
  | .timer (.testMap _) | .timer (.clearMap _) | .timer (.setComplete _) | .timer (.notify _) =>
      true
  | _ => false

/-- The next statement of a worker goes through `m_service`. -/
def Thread.usesService : Thread → Bool
  | .worker w =>
      match w.pc with
      | .checkActivation | .checkNetwork | .checkActivated | .knowWhoAmI => true
      | _ => false
  | _ => false

/-- After a `Deinitialize`, which clears `m_service` last, and after `_instance` has been
cleared. -/
structure TornDown (s : Sys) : Prop where
  noWorker : s.serviceSet = false → ∀ t w, s.thread t ≠ .worker w
  notJoinable : s.serviceSet = false → s.mThread = none
  noTimer : s.serviceSet = false → s.taskTimerCreated = false
  instanceUnused : s.instanceSet = false → ∀ t, (s.thread t).usesInstance = false
  serviceUnused : s.serviceSet = false → ∀ t, (s.thread t).usesService = false

/-- What follows `stopMaintenanceTasks` in `Deinitialize`. -/
def StopPc.releasing : StopPc → Bool
  | .removeEventHandler | .clearInstance | .clearService => true
  | _ => false

/-- A `Deinitialize` has given up `m_statusMutex`. -/
def Sys.released (s : Sys) : Prop :=
  (∃ u pc, s.thread u = .stop true pc ∧ pc.releasing = true) ∨ s.instanceSet = false ∨
    s.serviceSet = false

/-- A `Deinitialize` is past the deletion of the timer. -/
def Sys.deinitializing (s : Sys) : Prop :=
  ∃ u pc, s.thread u = .stop true pc ∧ pc ≠ .deleteTimer

/-- A `Deinitialize` whose stop is refused finds no joinable thread, it deletes the timer if
there is one, none is created after that, no worker is created once the mutex has been given
up, and when `_instance` is cleared nothing is about to use it. -/
structure DeinitializedAtRest (s : Sys) (t : Tid) (l : Thread) (e : Effect) : Prop where
  refused : s.thread t = .stop true .testStarted → l = .stop true (.unlock false) →
    s.mThread = none
  deleted : ∀ deleted, e = .deleteTimer deleted → s.taskTimerCreated = true → deleted = true
  notRecreated : ∀ created armed, e = .startTimer created armed → s.deinitializing →
    created = false
  notRestarted : ∀ w, e = .create w → ¬ s.released
  atRest : e = .clearInstance → (∀ u, (s.thread u).usesInstance = false) ∧
    (s.currentTask = none ∨ s.signalPending = false ∧ ∀ u, s.thread u ≠ .timer .readTask)

/-! ## The worker -/

/-- `stopMaintenance` ends with giving up the mutex. -/
theorem stopMaintenanceTasks_not_releasing {pc₀ : StopPc} {c : Choice}
    (h : stopMaintenanceTasks s false pc₀ c = (.stop false pc, e)) (hpc : pc₀.releasing = false) :
    pc.releasing = false := by
  revert h
  fun_cases stopMaintenanceTasks s false pc₀ c <;> intro heq <;> cases heq
  all_goals first
    | rfl
    | contradiction

theorem not_releasing_of_stop (h : (plugin cfg).Reachable s) (hthread : s.thread u = .stop false pc) :
    pc.releasing = false := by
  refine (reachedWhere_of_reachable h).forall_stops
    (A := fun _ d pc => d = false → pc.releasing = false) ?_ ?_ ?_ ?_ hthread rfl
  · intro s
    exact ⟨fun _ => rfl, fun _ => rfl⟩
  · rintro s t d pc pc' c e _ _ hs _ hst _ _ _ rfl
    exact stopMaintenanceTasks_not_releasing hst (hs rfl)
  · intro s t d pc e _ _ hs _ _ _ _ _
    exact hs
  · intro s t l e u d pc _ _ hs _ _ _ _ _
    exact hs

/-- A `Deinitialize` that is about to give up the mutex, or has given it up. -/
def StopPc.leaving : StopPc → Bool
  | .unlock _ | .removeEventHandler | .clearInstance | .clearService => true
  | _ => false

theorem StopPc.leaving_cases (h : pc.leaving = true) :
    pc.releasing = true ∨ (Thread.stop true pc).holds .status = true := by
  cases pc <;> first | exact .inl rfl | exact .inr rfl | cases h

/-- How a `Deinitialize` comes to leave: its stop is refused, or it has joined the worker and
posts ERROR, or it was leaving before. -/
theorem stopMaintenanceTasks_leaving {pc₀ : StopPc} {c : Choice}
    (h : stopMaintenanceTasks s true pc₀ c = (.stop true pc, e)) (hpc : pc.leaving = true) :
    (pc₀ = .testStarted ∧ pc = .unlock false ∧ s.notifyStatus ≠ .started ∧ e = .tau) ∨
    (pc₀ = .notifyError ∧ e = .onMaintenanceStatusChange .error) ∨
    (pc₀.leaving = true ∧ ∀ w, e ≠ .create w) := by
  revert h
  fun_cases stopMaintenanceTasks s true pc₀ c <;> intro heq <;> cases heq
  case case4 hstatus => exact .inl ⟨rfl, rfl, hstatus, rfl⟩
  case case21 => exact .inr (.inl ⟨rfl, rfl⟩)
  all_goals first
    | exact .inr (.inr ⟨rfl, fun w hw => by cases hw⟩)
    | cases hpc

/-- A `Deinitialize` that leaves has left the plugin quiet. -/
theorem quiet_of_leaving (h : ReachedWhere cfg DeinitializedAtRest s)
    (hthread : s.thread u = .stop true pc) (hpc : pc.leaving = true) : s.quiet := by
  refine h.forall_stops (A := fun s d pc => d = true → pc.leaving = true → s.quiet) ?_ ?_ ?_ ?_
    hthread rfl hpc
  · intro s
    exact ⟨fun _ hpc => (by cases hpc), fun _ hpc => (by cases hpc)⟩
  · rintro s t d pc₀ pc c e _ hok hs hthread hst hmove _ hcond rfl hpc
    rcases stopMaintenanceTasks_leaving hst hpc with ⟨rfl, rfl, hstatus, rfl⟩ | ⟨rfl, rfl⟩ |
      ⟨hleaving, hcreate⟩
    · exact ⟨hcond.refused hthread rfl, hstatus⟩
    · exact ⟨(hok.threads t).joined (by rw [hthread]; rfl), by simp [Effect.apply]⟩
    · exact quiet_commit hok (hs rfl hleaving) hmove hcreate
  · rintro s t d pc e _ _ hs _ _ _ _ (rfl | rfl)
    · exact hs
    · exact hs
  · rintro s t l e u d pc _ hok hs hthread hmove _ hcond hu rfl hpc
    refine quiet_commit hok (hs rfl hpc) hmove ?_
    rintro w rfl
    rcases StopPc.leaving_cases hpc with hreleasing | hheld
    · exact hcond.notRestarted w rfl (.inl ⟨u, pc, hthread, hreleasing⟩)
    · have hnot := hmove.not_cyclic_of_other hok.owners hu (by rw [hthread]; exact hheld)
      cases hnot

/-- The members are cleared at the end of `Deinitialize`. -/
theorem released_commit (hreach : (plugin cfg).Reachable s) (hmove : Move cfg s t l e)
    (h : (s.commit cfg t l e).instanceSet = false ∨ (s.commit cfg t l e).serviceSet = false) :
    (s.instanceSet = false ∨ s.serviceSet = false) ∨
      ∃ pc, s.thread t = .stop true pc ∧ pc.releasing = true := by
  have horigin := hmove.origin
  have deinit {d : Bool} {pc : StopPc} (hp : s.thread t = .stop d pc) (hpc : pc.releasing = true) :
      ∃ pc, s.thread t = .stop true pc ∧ pc.releasing = true := by
    cases d with
    | true => exact ⟨pc, hp, hpc⟩
    | false =>
      rw [not_releasing_of_stop hreach hp] at hpc
      cases hpc
  cases e with
  | clearInstance =>
    obtain ⟨d, hp⟩ := horigin
    exact .inr (deinit hp rfl)
  | clearService =>
    obtain ⟨d, hp⟩ := horigin
    exact .inr (deinit hp rfl)
  | _ => exact .inl h

/-- Once the members are being cleared, the plugin is quiet. -/
theorem quiet_of_released (h : ReachedWhere cfg DeinitializedAtRest s) (hreleased : s.released) :
    s.quiet := by
  have hleaving {s : Sys} (h : ReachedWhere cfg DeinitializedAtRest s) {u : Tid} {pc : StopPc}
      (hp : s.thread u = .stop true pc) (hpc : pc.releasing = true) : s.quiet :=
    quiet_of_leaving h hp (by cases pc <;> first | rfl | cases hpc)
  rcases hreleased with ⟨u, pc, hp, hpc⟩ | hflags
  · exact hleaving h hp hpc
  · refine h.induct (I := fun s => s.instanceSet = false ∨ s.serviceSet = false → s.quiet) ?_ ?_
      hflags
    · rintro threadCreated (hx | hx) <;> cases hx
    · intro s t l e hreach hok hi hmove _ hcond hflags
      rcases released_commit hreach.reachable hmove hflags with hold | ⟨pc, hp, hpc⟩
      · exact quiet_commit hok (hi hold) hmove fun w hw => hcond.notRestarted w hw (.inr hold)
      · exact quiet_commit hok (hleaving hreach hp hpc) hmove fun w hw =>
          hcond.notRestarted w hw (.inl ⟨t, pc, hp, hpc⟩)

/-! ## The timer -/

/-- A timer that does not exist is created by `task_startTimer` only. -/
theorem noTimer_commit (hno : s.taskTimerCreated = false)
    (hcreated : ∀ created armed, e = .startTimer created armed → created = false) :
    (s.commit cfg t l e).taskTimerCreated = false := by
  cases e with
  | startTimer created armed =>
    obtain rfl := hcreated created armed rfl
    simpa [Sys.commit, Effect.apply] using hno
  | deleteTimer deleted => simp [Sys.commit, Effect.apply, hno]
  | _ => exact hno

/-- A `Deinitialize` that has deleted the timer goes on without one. -/
theorem stopMaintenanceTasks_noTimer {pc₀ : StopPc} {c : Choice}
    (h : stopMaintenanceTasks s true pc₀ c = (.stop true pc, e)) :
    (pc₀ = .deleteTimer ∧ ∃ deleted, e = .deleteTimer deleted) ∨
    (pc₀ ≠ .deleteTimer ∧ ∀ created armed, e ≠ .startTimer created armed) := by
  revert h
  fun_cases stopMaintenanceTasks s true pc₀ c <;> intro heq <;> cases heq
  all_goals first
    | exact .inl ⟨rfl, _, rfl⟩
    | exact .inr ⟨by simp, by simp⟩

theorem noTimer_of_deinitializing (h : ReachedWhere cfg DeinitializedAtRest s)
    (hthread : s.thread u = .stop true pc) (hpc : pc ≠ .deleteTimer) :
    s.taskTimerCreated = false := by
  refine h.forall_stops (A := fun s d pc => d = true → pc ≠ .deleteTimer →
    s.taskTimerCreated = false) ?_ ?_ ?_ ?_ hthread rfl hpc
  · intro s
    exact ⟨fun hd => (by cases hd), fun _ hpc => absurd rfl hpc⟩
  · rintro s t d pc₀ pc c e _ _ hs _ hst _ _ hcond rfl hpc
    rcases stopMaintenanceTasks_noTimer hst with ⟨-, deleted, rfl⟩ | ⟨hpc₀, hstart⟩
    · cases hcreated : s.taskTimerCreated with
      | true => simp [Sys.commit, Effect.apply, hcond.deleted deleted rfl hcreated]
      | false => simp [Sys.commit, Effect.apply, hcreated]
    · exact noTimer_commit (hs rfl hpc₀) fun c a he => absurd he (hstart c a)
  · rintro s t d pc e _ _ hs _ _ _ _ (rfl | rfl)
    · exact hs
    · exact hs
  · rintro s t l e u d pc _ _ hs hthread _ _ hcond _ rfl hpc
    exact noTimer_commit (hs rfl hpc) fun c a he =>
      hcond.notRecreated c a he ⟨u, pc, hthread, hpc⟩

/-- Without a worker no timer is created. -/
theorem noTimer_of_released (h : ReachedWhere cfg DeinitializedAtRest s)
    (hflags : s.instanceSet = false ∨ s.serviceSet = false) : s.taskTimerCreated = false := by
  revert hflags
  refine h.induct (I := fun s => s.instanceSet = false ∨ s.serviceSet = false →
    s.taskTimerCreated = false) ?_ ?_
  · rintro threadCreated (hx | hx) <;> cases hx
  · intro s t l e hreach hok hi hmove _ _ hflags
    obtain ⟨hreleased, hno⟩ : s.released ∧ s.taskTimerCreated = false := by
      rcases released_commit hreach.reachable hmove hflags with hold | ⟨pc, hp, hpc⟩
      · exact ⟨.inr hold, hi hold⟩
      · exact ⟨.inl ⟨t, pc, hp, hpc⟩, noTimer_of_deinitializing hreach hp (by rintro rfl; cases hpc)⟩
    refine noTimer_commit hno ?_
    rintro created armed rfl
    obtain ⟨w, hw, -⟩ := hmove.origin
    exact absurd hw (hok.no_worker (quiet_of_released hreach hreleased).1 w)

/-! ## `_instance` -/

/-- A handler that goes on to use `_instance` has just tested it, or has accepted its event. -/
theorem iarmEventHandler_usesInstance {pc : EventPc} {c : Choice}
    (h : (iarmEventHandler cfg s pc c).1.usesInstance = true) :
    (∃ ev, pc = .testInstance ev ∧ s.instanceSet = true) ∨ (Thread.event pc).handling = true := by
  revert h
  fun_cases iarmEventHandler cfg s pc c <;> simp [Thread.usesInstance, Thread.handling, *]

/-- `timer_handler` uses `_instance` once it has found the current task. -/
theorem timerHandler_usesInstance {pc : TimerPc} {c : Choice}
    (h : (timerHandler s pc c).1.usesInstance = true) :
    (Thread.timer pc).usesInstance = true ∨ pc = .readTask ∧ s.currentTask ≠ none := by
  revert h
  fun_cases timerHandler s pc c <;> simp [Thread.usesInstance, *]

theorem Thread.activity_of_usesInstance (h : l.usesInstance = true) :
    l.activity = .worker ∨ l.activity = .event ∨ l.activity = .timer := by
  cases l <;> first | cases h | simp [Thread.activity]

/-- How a thread comes to use `_instance`. -/
theorem Move.usesInstance (h : Move cfg s t l e) (hl : l.usesInstance = true) :
    (s.thread t).usesInstance = true ∨ (∃ w, s.thread t = .worker w) ∨
      (∃ ev, s.thread t = .event (.testInstance ev) ∧ s.instanceSet = true) ∨
      (s.thread t).handling = true ∨ s.thread t = .timer .readTask ∧ s.currentTask ≠ none := by
  cases h with
  | run c _ hst =>
    have hkind := Thread.activity_of_usesInstance hl
    have hact : l.activity = (s.thread t).activity := by
      rcases statement_activity hst with hsame | hnothing
      · exact hsame
      · rw [hnothing] at hkind
        simp at hkind
    cases hthread : s.thread t with
    | worker w => exact .inr (.inl ⟨w, rfl⟩)
    | event pc =>
      rw [hthread] at hst
      obtain rfl : (iarmEventHandler cfg s pc c).1 = l := congrArg Prod.fst (Option.some.inj hst)
      rcases iarmEventHandler_usesInstance hl with ⟨ev, rfl, hset⟩ | hhandling
      · exact .inr (.inr (.inl ⟨ev, rfl, hset⟩))
      · exact .inr (.inr (.inr (.inl hhandling)))
    | timer pc =>
      rw [hthread] at hst
      obtain rfl : (timerHandler s pc c).1 = l := congrArg Prod.fst (Option.some.inj hst)
      rcases timerHandler_usesInstance hl with huses | ⟨rfl, hcurrent⟩
      · exact .inl huses
      · exact .inr (.inr (.inr (.inr ⟨rfl, hcurrent⟩)))
    | _ =>
      rw [hact, hthread] at hkind
      simp [Thread.activity] at hkind
  | call r _ => cases r <;> cases hl
  | wakeUp | timerExpires => exact .inl hl
  | signal _ => cases hl

/-- Nothing uses `_instance`, and no SIGALRM can come to use it. -/
structure AtRest (s : Sys) : Prop where
  unused : ∀ u, (s.thread u).usesInstance = false
  signals : s.currentTask = none ∨ s.signalPending = false ∧ ∀ u, s.thread u ≠ .timer .readTask

/-- `timer_handler` is entered by SIGALRM. -/
theorem Move.readTask (h : Move cfg s t l e) (hl : l = .timer .readTask) :
    e = .signal ∨ s.thread t = .timer .readTask := by
  cases h with
  | run c _ hst =>
    subst hl
    have hact := statement_activity hst
    cases hthread : s.thread t with
    | timer pc =>
      rw [hthread] at hst
      revert hst
      simp only [statement]
      fun_cases timerHandler s pc c <;> simp
    | _ => simp [hthread, Thread.activity] at hact
  | call r _ => cases r <;> cases hl
  | wakeUp | timerExpires => exact .inr hl
  | signal _ => exact .inl rfl

theorem AtRest.unused_commit (h : AtRest s) (hok : SysOk cfg s) (hq : s.quiet)
    (hinstance : ∀ ev, s.thread t = .event (.testInstance ev) → s.instanceSet = false)
    (hmove : Move cfg s t l e) (u : Tid) :
    ((s.commit cfg t l e).thread u).usesInstance = false := by
  refine forall_threads_commit (A := fun _ l => l.usesInstance = false)
    (B := fun _ l => l.usesInstance = false) h.unused ?_ (fun _ _ => id) (fun _ _ => rfl) u
  by_contra hl
  rcases hmove.usesInstance (by simpa using hl) with huses | ⟨w, hw⟩ | ⟨ev, hp, hset⟩ | hhandling |
    ⟨hp, hcurrent⟩
  · rw [h.unused t] at huses
    cases huses
  · exact hok.no_worker hq.1 w hw
  · rw [hinstance ev hp] at hset
    cases hset
  · exact hq.2 ((hok.threads t).handling hhandling).1
  · rcases h.signals with hnone | ⟨-, hno⟩
    · exact hcurrent hnone
    · exact hno t hp

theorem AtRest.signals_commit (h : AtRest s) (hreach : (plugin cfg).Reachable s)
    (hok : SysOk cfg s) (hq : s.quiet) (hno : s.taskTimerCreated = false)
    (hmove : Move cfg s t l e) (hen : e.enabled s t = true) :
    (s.commit cfg t l e).currentTask = none ∨ (s.commit cfg t l e).signalPending = false ∧
      ∀ u, (s.commit cfg t l e).thread u ≠ .timer .readTask := by
  rcases h.signals with hnone | ⟨hpending, hreading⟩
  · left
    cases e with
    | setCurrentTask v =>
      obtain ⟨w, hw, -⟩ := hmove.origin
      exact absurd hw (hok.no_worker hq.1 w)
    | _ => exact hnone
  · have hsignal : e ≠ .signal := by
      rintro rfl
      simp [Effect.enabled, hpending] at hen
    refine .inr ⟨?_, forall_threads_commit (A := fun _ l => l ≠ .timer .readTask)
      (B := fun _ l => l ≠ .timer .readTask) hreading ?_ (fun _ _ => id) (fun _ _ hx => by cases hx)⟩
    · cases e with
      | timerExpires =>
        have hcreated := created_of_armed hreach hen
        rw [hno] at hcreated
        cases hcreated
      | signal => exact absurd rfl hsignal
      | _ => exact hpending
    · intro hl
      rcases hmove.readTask hl with he | hp
      · exact hsignal he
      · exact hreading t hp

/-- Once `_instance` has been cleared nothing comes to use it. -/
theorem atRest_of_reached (h : ReachedWhere cfg DeinitializedAtRest s)
    (hinstance : s.instanceSet = false) : AtRest s := by
  revert hinstance
  refine h.induct (I := fun s => s.instanceSet = false → AtRest s) ?_ ?_
  · intro threadCreated hx
    cases hx
  · intro s t l e hreach hok hi hmove hen hcond hinstance
    obtain ⟨hreleased, hno⟩ : s.released ∧ s.taskTimerCreated = false := by
      rcases released_commit hreach.reachable hmove (.inl hinstance) with hold | ⟨pc, hp, hpc⟩
      · exact ⟨.inr hold, noTimer_of_released hreach hold⟩
      · exact ⟨.inl ⟨t, pc, hp, hpc⟩, noTimer_of_deinitializing hreach hp (by rintro rfl; cases hpc)⟩
    have hq := quiet_of_released hreach hreleased
    obtain ⟨hrest, htest⟩ : AtRest s ∧
        ∀ ev, s.thread t = .event (.testInstance ev) → s.instanceSet = false := by
      by_cases he : e = .clearInstance
      · subst he
        obtain ⟨hunused, hsignals⟩ := hcond.atRest rfl
        obtain ⟨d, hp⟩ := hmove.origin
        exact ⟨⟨hunused, hsignals⟩, fun ev hx => by cases hp.symm.trans hx⟩
      · have hold : s.instanceSet = false := by
          cases e with
          | clearInstance => exact absurd rfl he
          | _ => exact hinstance
        exact ⟨hi hold, fun _ _ => hold⟩
    exact ⟨hrest.unused_commit hok hq htest hmove,
      hrest.signals_commit hreach.reachable hok hq hno hmove hen⟩

/-- In every run in which `Deinitialize` finds the plugin at rest, it tears it down. -/
theorem tornDown_of_reached (h : ReachedWhere cfg DeinitializedAtRest s) : TornDown s := by
  have hquiet (hs : s.serviceSet = false) : s.quiet := quiet_of_released h (.inr (.inr hs))
  refine ⟨fun hs t w => h.ok.no_worker (hquiet hs).1 w, fun hs => (hquiet hs).1,
    fun hs => noTimer_of_released h (.inr hs), fun hs => (atRest_of_reached h hs).unused,
    fun hs t => ?_⟩
  cases hthread : s.thread t with
  | worker w => exact absurd hthread (h.ok.no_worker (hquiet hs).1 w)
  | _ => rfl

/-- A test of the condition, when only the threads 0 and 1 do anything: the stop is accepted,
the timer is deleted and not created again, and no handler runs at the end. -/
def deinitializedAtRest (s : Sys) (t : Tid) (l : Thread) (e : Effect) : Bool :=
  (match s.thread t, l with
    | .stop true .testStarted, .stop true (.unlock false) => s.mThread.isNone
    | _, _ => true) &&
  match e with
  | .deleteTimer deleted => deleted
  | .startTimer _ _ => [0, 1].all fun u => (s.thread u).activity != .stop
  | .create _ => false
  | .clearInstance => !s.signalPending && [0, 1].all fun u =>
      !(s.thread u).usesInstance && (s.thread u).activity != .timer
  | _ => true

theorem deinitializedAtRest_of_test (hidle : ∀ u, 2 ≤ u → s.thread u = .idle)
    (h : deinitializedAtRest s t l e = true) : DeinitializedAtRest s t l e := by
  obtain ⟨hrefused, htest⟩ := Bool.and_eq_true_iff.mp h
  have hmem {u : ℕ} (hu : ¬ 2 ≤ u) : u ∈ [0, 1] := by
    simp only [List.mem_cons, List.not_mem_nil, or_false]
    omega
  have hthreads {p : Thread → Bool} (hall : [0, 1].all (fun u => p (s.thread u)) = true)
      (hp : p .idle = true) (u : Tid) : p (s.thread u) = true := by
    by_cases hu : 2 ≤ u
    · rw [hidle u hu]
      exact hp
    · exact List.all_eq_true.mp hall u (hmem hu)
  constructor
  · intro hthread hl
    simpa [hthread, hl] using hrefused
  · rintro deleted rfl -
    exact htest
  · rintro created armed rfl ⟨u, pc, hu, -⟩
    have hno := hthreads (p := fun l => l.activity != .stop) htest rfl u
    simp [hu, Thread.activity] at hno
  · rintro w rfl
    cases htest
  · rintro rfl
    obtain ⟨hpending, hall⟩ := Bool.and_eq_true_iff.mp htest
    have hno := hthreads (p := fun l => !l.usesInstance && l.activity != .timer) hall rfl
    refine ⟨fun u => by simpa using (Bool.and_eq_true_iff.mp (hno u)).1,
      .inr ⟨by simpa using hpending, fun u hu => ?_⟩⟩
    have htimer := hno u
    simp [hu, Thread.activity] at htimer

/-- `Deinitialize` returns after the RFC task has been stopped. -/
def deinitializeSchedule : List Action :=
  startsUp 0 ++ launches 0 ++ .call 1 .deinitializePlugin :: succeeds 1 ++ runs 1 6 ++ succeeds 1 ++
    runs 1 2 ++ .run 1 { woken := some 0 } :: runs 1 1 ++ runs 0 8 ++ runs 1 5 ++ succeeds 1 ++
    runs 1 2

theorem tornDown_of_reached_running : ∃ s, ReachedWhere (device false false) DeinitializedAtRest s ∧
    s.instanceSet = false ∧ s.serviceSet = false ∧ TornDown s := by
  obtain ⟨s, hs, htest, -⟩ := exists_reachedWhere_idle_of_run (device false false)
    DeinitializedAtRest 2 deinitializeSchedule (fun s => !s.instanceSet && !s.serviceSet)
    deinitializedAtRest (fun _ _ _ _ _ hidle h => deinitializedAtRest_of_test hidle h)
    (by decide) (by decide +kernel) (by decide +kernel)
  simp only [Bool.and_eq_true, Bool.not_eq_true'] at htest
  exact ⟨s, hs, htest.1, htest.2, tornDown_of_reached hs⟩

/-- The worker of a WhoAmI device waits for the device context when the plugin is
deinitialized. -/
def whoAmISchedule : List Action :=
  runs 0 3 ++ succeeds 0 ++ runs 0 7 ++ .call 1 .deinitializePlugin :: runs 1 4 ++ succeeds 1 ++ runs 1 2

/-- `Deinitialize` returns and leaves the worker behind. -/
theorem worker_outlives : ∃ s, (plugin (device true false)).Reachable s ∧ ¬ TornDown s := by
  obtain ⟨s, hs, htest⟩ := TransitionSystem.exists_reachable_of_run (plugin (device true false))
    (maintenanceManagerOnBootup (device true false) true) whoAmISchedule
    (fun s => !s.serviceSet && (s.thread 0).isWorker (·.pc == .wakeContext))
    ⟨true, rfl⟩ (by decide +kernel)
  simp only [Bool.and_eq_true, Bool.not_eq_true'] at htest
  obtain ⟨hservice, hworker⟩ := htest
  obtain ⟨w, hthread, -⟩ := Thread.isWorker_iff.mp hworker
  exact ⟨s, hs, fun htorn => htorn.noWorker hservice 0 w hthread⟩

end SoftwareUpdate.MaintenanceManager
