import SoftwareUpdate.MaintenanceManager.Properties.OneCycle

/-!
# The tasks of a reconnection

An unsolicited cycle that ends without network leaves `g_listen_to_nwevents` set, and the next
event that reports a connection starts the critical tasks. The handler asks neither for the type
of the maintenance, as the handler of the device context does, nor for the status, and it clears
the flag only when the tasks have been started. So an event during a later cycle launches the RFC
task beside the cycle's own, and two handlers can start the tasks twice.
-/

namespace SoftwareUpdate.MaintenanceManager

open Misc Misc.History

variable {cfg : Config} {s : Sys} {t u : Tid} {l : Thread} {e : Effect}
  {log : List (Tid × Effect)}

/-- Since the last start of the critical tasks a cycle has ended without network. -/
def reconnectDue (log : List (Tid × Effect)) : Bool :=
  since (fun x => x.2 == .startCriticalTasks) (fun x => x.2 == .setListenNetwork true) log

/-- The status posted last. -/
def lastPosted (log : List (Tid × Effect)) : Option NotifyStatus :=
  (log.filterMap fun x => x.2.posted).head?

/-- The critical tasks are started only after an exit without network, once for each, and never
while a cycle is running. -/
def ReconnectsOnce (log : List (Tid × Effect)) : Prop :=
  ∀ newer t older, log = newer ++ (t, .startCriticalTasks) :: older →
    reconnectDue older = true ∧ lastPosted older ≠ some .started

/-- The thread has passed the test of the handler and has not cleared the flag. -/
def Thread.reconnecting : Thread → Bool
  | .internet .criticalTasks | .internet .clearListen => true
  | _ => false

/-- A handler passes its test only when no cycle is running and no other handler is past it, and
no cycle is started while a handler is about to start the tasks. -/
structure ReconnectsInTime (s : Sys) (t : Tid) (l : Thread) (e : Effect) : Prop where
  passes : l = .internet .criticalTasks → s.thread t ≠ l →
    s.notifyStatus ≠ .started ∧ ∀ u, (s.thread u).reconnecting = false
  starts : e = .onMaintenanceStatusChange .started → ∀ u, s.thread u ≠ .internet .criticalTasks

/-! ## The handler's statements -/

theorem statement_startCriticalTasks {c : Choice} {l₀ : Thread}
    (h : statement cfg s c l₀ = some (l, .startCriticalTasks)) : l₀ = .internet .criticalTasks := by
  cases l₀ with
  | idle | finished => cases h
  | worker w => cases taskExecutionThread_step h
  | start pc =>
    have heq := congrArg Prod.snd (Option.some.inj h)
    revert heq
    fun_cases startMaintenance s pc c <;> intro heq <;> cases heq
  | stop deinit pc =>
    have heq := congrArg Prod.snd (Option.some.inj h)
    revert heq
    fun_cases stopMaintenanceTasks s deinit pc c <;> intro heq <;> cases heq
  | event pc =>
    have heq := congrArg Prod.snd (Option.some.inj h)
    revert heq
    fun_cases iarmEventHandler cfg s pc c <;> intro heq
    case case9 status x rest => cases x <;> cases heq
    all_goals cases heq
  | timer pc =>
    have heq := congrArg Prod.snd (Option.some.inj h)
    revert heq
    fun_cases timerHandler s pc c <;> intro heq <;> cases heq
  | context pc =>
    have heq := congrArg Prod.snd (Option.some.inj h)
    revert heq
    fun_cases deviceInitializationContextEventHandler s pc c <;> intro heq <;> cases heq
  | internet pc =>
    have heq := congrArg Prod.snd (Option.some.inj h)
    cases pc with
    | test state =>
      simp only [internetStatusChangeEventHandler] at heq
      split at heq <;> cases heq
    | criticalTasks => rfl
    | clearListen => cases heq
  | mode pc =>
    have heq := congrArg Prod.snd (Option.some.inj h)
    cases pc <;> cases heq

/-- What the moves of a thread have to do with a reconnection. -/
inductive Reconnection (s : Sys) (t : Tid) : Thread → Effect → Prop
  | listens {l : Thread} (hl : l.reconnecting = false) :
      Reconnection s t l (.setListenNetwork true)
  | passes (hthread : s.thread t ≠ .internet .criticalTasks) (hflag : s.listenToNwevents = true) :
      Reconnection s t (.internet .criticalTasks) .tau
  | starts (hthread : s.thread t = .internet .criticalTasks) :
      Reconnection s t (.internet .clearListen) .startCriticalTasks
  | clears (hthread : s.thread t = .internet .clearListen) :
      Reconnection s t .idle (.setListenNetwork false)
  | none {l : Thread} {e : Effect}
      (hl : l.reconnecting = true ∨ (s.thread t).reconnecting = true → l = s.thread t)
      (hlisten : ∀ b, e ≠ .setListenNetwork b) (hstart : e ≠ .startCriticalTasks) :
      Reconnection s t l e

theorem reconnecting_of_activity (h : l.activity ≠ .internet) : l.reconnecting = false := by
  cases l with
  | internet pc => exact absurd rfl h
  | _ => rfl

/-- A thread that is in no handler of the network, before and after the move. -/
theorem Reconnection.of_not_reconnecting (hl : l.reconnecting = false)
    (ht : (s.thread t).reconnecting = false) (hlisten : ∀ b, e ≠ .setListenNetwork b)
    (hstart : e ≠ .startCriticalTasks) : Reconnection s t l e := by
  refine .none ?_ hlisten hstart
  simp [hl, ht]

theorem Move.reconnection (h : Move cfg s t l e) : Reconnection s t l e := by
  have horigin := h.origin
  cases h with
  | call r hidle =>
    refine .of_not_reconnecting ?_ (by rw [hidle]; rfl) (fun b hb => by cases hb)
      (fun hs => by cases hs)
    cases r <;> rfl
  | wakeUp => exact .none (fun _ => rfl) (fun b hb => by cases hb) (fun hs => by cases hs)
  | timerExpires => exact .none (fun _ => rfl) (fun b hb => by cases hb) (fun hs => by cases hs)
  | signal hidle =>
    exact .of_not_reconnecting rfl (by rw [hidle]; rfl) (fun b hb => by cases hb)
      (fun hs => by cases hs)
  | run c _ hst =>
    by_cases hinternet : (s.thread t).activity = .internet
    · cases hthread : s.thread t with
      | internet pc =>
        rw [hthread] at hst
        have heq := Option.some.inj hst
        cases pc with
        | test state =>
          simp only [internetStatusChangeEventHandler] at heq
          split at heq
          · next hpass =>
            cases heq
            refine .passes (fun hx => ?_) hpass.1
            rw [hthread] at hx
            cases hx
          · cases heq
            exact .of_not_reconnecting rfl (by rw [hthread]; rfl) (fun b hb => by cases hb)
              (fun hs => by cases hs)
        | criticalTasks =>
          cases heq
          exact .starts hthread
        | clearListen =>
          cases heq
          exact .clears hthread
      | _ =>
        rw [hthread] at hinternet
        cases hinternet
    · have hl : l.reconnecting = false := by
        refine reconnecting_of_activity ?_
        rcases statement_activity hst with hact | hact
        · rwa [hact]
        · rw [hact]
          decide
      by_cases hlistens : e = .setListenNetwork true
      · subst hlistens
        exact .listens hl
      · refine .of_not_reconnecting hl (reconnecting_of_activity hinternet) ?_ ?_
        · rintro b rfl
          rcases horigin with ⟨w, hw⟩ | hthread
          · rw [hw] at hst
            cases taskExecutionThread_step hst
            exact hlistens rfl
          · rw [hthread] at hinternet
            exact hinternet rfl
        · rintro rfl
          have hthread := statement_startCriticalTasks hst
          rw [hthread] at hinternet
          exact hinternet rfl

/-! ## The history -/

theorem reconnectDue_cons : reconnectDue ((t, e) :: log) =
    (!(e == .startCriticalTasks) && (e == .setListenNetwork true || reconnectDue log)) :=
  rfl

theorem ReconnectsOnce.cons (h : ReconnectsOnce log)
    (hstart : e = .startCriticalTasks →
      reconnectDue log = true ∧ lastPosted log ≠ some .started) :
    ReconnectsOnce ((t, e) :: log) := by
  intro newer t' older heq
  cases newer with
  | nil =>
    cases heq
    exact hstart rfl
  | cons x newer =>
    cases heq
    exact h newer t' older rfl

theorem lastPosted_commit (h : lastPosted s.log = some s.notifyStatus) :
    lastPosted (s.commit cfg t l e).log = some (s.commit cfg t l e).notifyStatus := by
  cases e with
  | onMaintenanceStatusChange v => rfl
  | _ => exact h

/-! ## Every run -/

/-- What holds in a run that reconnects in time: a flag that is set is due unless a handler is
about to clear it, and a handler that is about to start the tasks is alone. -/
structure Reconnects (s : Sys) : Prop where
  posted : lastPosted s.log = some s.notifyStatus
  once : ReconnectsOnce s.log
  flag : s.listenToNwevents = true → reconnectDue s.log = true ∨
    ∃ u, s.thread u = .internet .clearListen
  starting : ∀ u, s.thread u = .internet .criticalTasks → reconnectDue s.log = true ∧
    s.notifyStatus ≠ .started ∧ ∀ v, (s.thread v).reconnecting = true → v = u

theorem reconnects_boot (threadCreated : Bool) :
    Reconnects (maintenanceManagerOnBootup cfg threadCreated) := by
  constructor
  · cases threadCreated <;> rfl
  · intro newer t older heq
    have hmem : (t, Effect.startCriticalTasks) ∈
        (maintenanceManagerOnBootup cfg threadCreated).log := by simp [heq]
    cases threadCreated <;> simp [maintenanceManagerOnBootup] at hmem
  · intro hflag
    cases hflag
  · intro u hu
    rcases boot_thread threadCreated u with hidle | hworker
    · cases hidle.symm.trans hu
    · cases hworker.symm.trans hu

/-- A handler that is past its test after the move of another thread was there before. -/
theorem thread_of_reconnecting_commit (hut : u ≠ t)
    (hrec : ((s.commit cfg t l e).thread u).reconnecting = true) :
    (s.commit cfg t l e).thread u = s.thread u := by
  rw [commit_thread_of_ne hut] at hrec ⊢
  cases e with
  | create w =>
    by_cases hw : u = w
    · subst hw
      simp [Effect.apply, Thread.reconnecting] at hrec
    · simp [Effect.apply, hw]
  | _ => rfl

theorem thread_of_criticalTasks_commit (hut : u ≠ t)
    (hu : (s.commit cfg t l e).thread u = .internet .criticalTasks) :
    s.thread u = .internet .criticalTasks :=
  (thread_of_reconnecting_commit hut (by rw [hu]; rfl)).symm.trans hu

theorem apply_listenToNwevents (h : ∀ b, e ≠ .setListenNetwork b) :
    (s.commit cfg t l e).listenToNwevents = s.listenToNwevents := by
  cases e with
  | setListenNetwork b => exact absurd rfl (h b)
  | _ => rfl

theorem Reconnects.step (h : Reconnects s) (hmove : Move cfg s t l e)
    (hen : e.enabled s t = true) (hcond : ReconnectsInTime s t l e) :
    Reconnects (s.commit cfg t l e) := by
  cases hmove.reconnection with
  | listens hl =>
    refine ⟨lastPosted_commit h.posted, h.once.cons (fun hx => by cases hx), fun _ => .inl rfl, ?_⟩
    intro u hu
    have hut : u ≠ t := by
      rintro rfl
      rw [commit_thread_self] at hu
      rw [hu] at hl
      cases hl
    obtain ⟨-, hstatus, honly⟩ := h.starting u (thread_of_criticalTasks_commit hut hu)
    refine ⟨rfl, hstatus, fun v hv => ?_⟩
    by_cases hvt : v = t
    · subst hvt
      rw [commit_thread_self, hl] at hv
      cases hv
    · rw [thread_of_reconnecting_commit hvt hv] at hv
      exact honly v hv
  | passes hthread hflag =>
    obtain ⟨hstatus, halone⟩ := hcond.passes rfl hthread
    have hdue : reconnectDue s.log = true := by
      refine (h.flag hflag).resolve_right ?_
      rintro ⟨u, hu⟩
      have hno := halone u
      rw [hu] at hno
      cases hno
    have honly (v : Tid)
        (hv : ((s.commit cfg t (.internet .criticalTasks) .tau).thread v).reconnecting = true) :
        v = t := by
      by_contra hvt
      rw [thread_of_reconnecting_commit hvt hv, halone v] at hv
      cases hv
    refine ⟨lastPosted_commit h.posted, h.once.cons (fun hx => by cases hx), fun _ => .inl hdue, ?_⟩
    intro u hu
    obtain rfl : u = t := honly u (by rw [hu]; rfl)
    exact ⟨hdue, hstatus, honly⟩
  | starts hthread =>
    obtain ⟨hdue, hstatus, honly⟩ := h.starting t hthread
    have hposted : lastPosted s.log ≠ some .started := by
      rw [h.posted]
      simpa using hstatus
    refine ⟨lastPosted_commit h.posted, h.once.cons fun _ => ⟨hdue, hposted⟩,
      fun _ => .inr ⟨t, commit_thread_self⟩, ?_⟩
    intro u hu
    have hut : u ≠ t := by
      rintro rfl
      rw [commit_thread_self] at hu
      cases hu
    exact absurd (honly u (by rw [thread_of_criticalTasks_commit hut hu]; rfl)) hut
  | clears hthread =>
    refine ⟨lastPosted_commit h.posted, h.once.cons (fun hx => by cases hx), ?_, ?_⟩
    · intro hflag
      cases hflag
    · intro u hu
      have hut : u ≠ t := by
        rintro rfl
        rw [commit_thread_self] at hu
        cases hu
      have hthread_u := thread_of_criticalTasks_commit hut hu
      exact absurd ((h.starting u hthread_u).2.2 t (by rw [hthread]; rfl)).symm hut
  | none hl hlisten hstart =>
    have hdue : reconnectDue (s.commit cfg t l e).log = reconnectDue s.log := by
      rw [commit_log, reconnectDue_cons, beq_eq_false_iff_ne.mpr hstart,
        beq_eq_false_iff_ne.mpr (hlisten true)]
      rfl
    have hback (v : Tid) (hv : ((s.commit cfg t l e).thread v).reconnecting = true) :
        (s.commit cfg t l e).thread v = s.thread v := by
      by_cases hvt : v = t
      · subst hvt
        rw [commit_thread_self] at hv ⊢
        exact hl (.inl hv)
      · exact thread_of_reconnecting_commit hvt hv
    refine ⟨lastPosted_commit h.posted, h.once.cons (fun hx => absurd hx hstart), ?_, ?_⟩
    · intro hflag
      rw [apply_listenToNwevents hlisten] at hflag
      rw [hdue]
      refine (h.flag hflag).imp_right ?_
      rintro ⟨u, hu⟩
      refine ⟨u, ?_⟩
      by_cases hut : u = t
      · subst hut
        rw [commit_thread_self, hl (.inr (by rw [hu]; rfl)), hu]
      · exact commit_thread_stays hen hut hu (fun hx => by cases hx)
    · intro u hu
      have hthread := (hback u (by rw [hu]; rfl)).symm.trans hu
      obtain ⟨hlog, hstatus, honly⟩ := h.starting u hthread
      refine ⟨hdue.trans hlog, ?_, ?_⟩
      · rw [commit_notifyStatus]
        cases e with
        | onMaintenanceStatusChange v =>
          rintro rfl
          exact hcond.starts rfl u hthread
        | _ => exact hstatus
      · intro v hv
        rw [hback v hv] at hv
        exact honly v hv

/-- In every run that reconnects in time, the critical tasks are started at most once for each
exit without network, never without one and never while a cycle is running. -/
theorem reconnectsOnce_of_reached (h : ReachedWhere cfg ReconnectsInTime s) :
    ReconnectsOnce s.log := by
  have hinv : Reconnects s := by
    refine h.induct reconnects_boot ?_
    intro s t l e _ _ hs hmove hen hcond
    exact hs.step hmove hen hcond
  exact hinv.once

def Thread.isCriticalTasks : Thread → Bool
  | .internet .criticalTasks => true
  | _ => false

/-- A test of the condition, when only the threads 0 and 1 do anything. -/
def reconnectsInTime (s : Sys) (l : Thread) (e : Effect) : Bool :=
  let alone := !(s.thread 0).reconnecting && !(s.thread 1).reconnecting
  (!l.isCriticalTasks || s.notifyStatus != .started && alone) &&
    (e != .onMaintenanceStatusChange .started || alone)

theorem reconnectsInTime_of_test (hidle : ∀ u, 2 ≤ u → s.thread u = .idle)
    (h : reconnectsInTime s l e = true) : ReconnectsInTime s t l e := by
  have halone (h0 : (s.thread 0).reconnecting = false) (h1 : (s.thread 1).reconnecting = false)
      (u : Tid) : (s.thread u).reconnecting = false := by
    by_cases hu : 2 ≤ u
    · rw [hidle u hu]
      rfl
    · have hle : u ≤ 1 := Nat.lt_succ_iff.mp (Nat.lt_of_not_le hu)
      rcases Nat.le_one_iff_eq_zero_or_eq_one.mp hle with rfl | rfl
      · exact h0
      · exact h1
  simp only [reconnectsInTime, Bool.and_eq_true, Bool.or_eq_true, Bool.not_eq_true',
    bne_iff_ne] at h
  constructor
  · rintro rfl -
    obtain ⟨hstatus, h0, h1⟩ := h.1.resolve_left Bool.noConfusion
    exact ⟨hstatus, halone h0 h1⟩
  · rintro rfl u hu
    obtain ⟨h0, h1⟩ := h.2.resolve_left fun hne => hne rfl
    have hno := halone h0 h1 u
    rw [hu] at hno
    cases hno

/-- The boot cycle ends without network, and a connection is reported. -/
def reconnectSchedule : List Action := runs 0 16 ++ .call 1 (.internetStatus 3) :: runs 1 2

/-- The critical tasks are started once. -/
theorem reconnectsOnce_of_reached_boot : ∃ s,
    ReachedWhere (device false false) ReconnectsInTime s ∧
      (1, .startCriticalTasks) ∈ s.log ∧ ReconnectsOnce s.log := by
  obtain ⟨s, hs, htest, -⟩ := exists_reachedWhere_idle_of_run (device false false) ReconnectsInTime
    2 reconnectSchedule (fun s => s.log.contains (1, .startCriticalTasks))
    (fun s _ l e => reconnectsInTime s l e)
    (fun _ _ _ _ _ hidle h => reconnectsInTime_of_test hidle h) (by decide) (by decide)
    (by decide +kernel)
  exact ⟨s, hs, by simpa using htest, reconnectsOnce_of_reached hs⟩

/-- The connection is reported when `startMaintenance` has started the next cycle. -/
def reconnectDuringCycle : List Action :=
  restartSchedule ++ .call 3 (.internetStatus 3) :: runs 3 2

/-- The critical tasks are started while a cycle is running. -/
theorem not_reconnectsOnce_duringCycle : ∃ s, (plugin (device false false)).Reachable s ∧
    s.notifyStatus = .started ∧ ¬ ReconnectsOnce s.log := by
  obtain ⟨s, hs, htest⟩ := TransitionSystem.exists_reachable_of_run (plugin (device false false))
    (maintenanceManagerOnBootup (device false false) true) reconnectDuringCycle
    (fun s => s.notifyStatus == .started && s.log.head? == some (3, .startCriticalTasks) &&
      lastPosted s.log.tail == some .started) ⟨true, rfl⟩ (by decide +kernel)
  simp only [Bool.and_eq_true, beq_iff_eq] at htest
  obtain ⟨⟨hstarted, hhead⟩, hposted⟩ := htest
  obtain ⟨older, hlog⟩ := List.head?_eq_some_iff.mp hhead
  refine ⟨s, hs, hstarted, fun honce => ?_⟩
  rw [hlog] at hposted
  exact (honce [] 3 older hlog).2 hposted

end SoftwareUpdate.MaintenanceManager
