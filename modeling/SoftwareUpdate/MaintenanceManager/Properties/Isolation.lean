import SoftwareUpdate.MaintenanceManager.Proofs.Handlers

/-!
# Events of earlier cycles

An event for a task is to count only when the task has been launched, or has reported that it
is in progress, in the current cycle, and an event that a process of an earlier cycle has sent
is to be ignored. What the handler tests is the task's entry of the map: `startMaintenance`
leaves the entries as the last cycle left them, the worker sets an entry before it launches the
task, an abort is not tested at all, and an event does not say which process has sent it. The
cycles are isolated in the runs in which no event is accepted on such an entry.
-/

namespace SoftwareUpdate.MaintenanceManager

open Misc Misc.BitField

variable {cfg : Config} {s s' : Sys} {t u : Tid} {l : Thread} {e : Effect} {v : Task}
  {status : ModuleStatus} {rest : List CaseStmt} {n : ℕ}

/-- The task has been launched or has reported INPROGRESS in the current cycle. -/
def Sys.active (s : Sys) (v : Task) : Bool :=
  s.inCycle fun e => e == .system v true || e == .handle (.inprogress v)

/-- The number of the current cycle, 0 for the one at boot-up. -/
def Sys.cycle (s : Sys) : ℕ := s.log.countP fun x => x.2.beginsCycle

/-- The event that a call has brought to thread `t`. -/
def receivedBy (t : Tid) : Tid × Effect → Option IarmEvent
  | (u, .call (.iarmEvent ev)) => if u = t then some ev else none
  | _ => none

/-- The last event that thread `t` has received. -/
def Sys.received (s : Sys) (t : Tid) : Option IarmEvent := s.log.findSome? (receivedBy t)

/-- The event that thread `t` handles was sent by a process of an earlier cycle. -/
def Sys.leftOver (s : Sys) (t : Tid) : Bool := (s.received t).any fun ev => ev.cycle < s.cycle

/-- Only the events of tasks that are active in the current cycle change `g_task_status`, and for
an event left over from an earlier cycle no statement of the `switch` is executed. -/
structure Isolated (cfg : Config) (s : Sys) : Prop where
  counted : ∀ a t l n status v, offer cfg s a = some (t, l, .setStatus n (.event status)) →
    status.about v = true → raise s.taskStatus n ≠ s.taskStatus → s.active v = true
  ignored : ∀ t status x rest, s.thread t = .event (.body status (x :: rest)) →
    s.leftOver t = false

/-- The entry of the task has been set to true in the current cycle. -/
def Sys.entrySet (s : Sys) (v : Task) : Bool := s.inCycle (· == .setTaskMap v true)

/-- The worker is between setting the entry of the task and launching it, or is about to clear
the entry again. -/
def Sys.launching (s : Sys) (v : Task) : Prop :=
  ∃ u w, s.thread u = .worker w ∧ (w.pc = .launch ∨ w.pc = .clearMap) ∧ s.tasks[w.i]? = some v

/-- The events of the kind have no bit left to set. -/
def ModuleStatus.spent (status : ModuleStatus) (bits : BitVec 16) : Prop :=
  match status with
  | .complete v | .error v =>
      bits.getLsbD (successBit v) = true ∧ bits.getLsbD (completeBit v) = true
  | .fwdownloadAborted =>
      bits.getLsbD taskSkippedBit = true ∧ bits.getLsbD (completeBit .swupdate) = true
  | _ => False

/-- The event finds nothing to do: it is an outcome of a task whose entry is false, or of no
concern to the plugin. -/
def ModuleStatus.refused (taskMap : Task → Bool) : ModuleStatus → Bool
  | .complete v | .error v => !taskMap v
  | .other => true
  | _ => false

/-- An outcome is handled on an entry that the current cycle has set, and not while the worker
has still to launch the task; an abort of the firmware download is only handled while that
task is active. Events with no bit left to set are exempt. An event left over from an earlier
cycle comes only when it is refused. -/
structure HandlesOwnEvents (s : Sys) (t : Tid) (_ : Thread) (e : Effect) : Prop where
  entry : ∀ status v, e = .handle status → status = .complete v ∨ status = .error v →
    s.taskMap v = true → ¬ status.spent s.taskStatus →
      s.entrySet v = true ∧ (s.launching v → s.active v = true)
  aborted : e = .handle .fwdownloadAborted → ¬ ModuleStatus.fwdownloadAborted.spent s.taskStatus →
    s.active .swupdate = true
  leftOver : ∀ status, e = .handle status → s.leftOver t = true → status.refused s.taskMap = true

/-! ## Where an event comes from -/

theorem eventCase_of_refused {taskMap : Task → Bool} (h : status.refused taskMap = true) :
    eventCase taskMap status = [] := by
  cases status <;> simp_all [ModuleStatus.refused, eventCase, completeCase, errorCase]

theorem cycle_commit (hb : e.beginsCycle = false) : (s.commit cfg t l e).cycle = s.cycle := by
  simp [Sys.cycle, hb]

theorem received_commit (h : u ≠ t ∨ ∀ r, e ≠ .call r) :
    (s.commit cfg t l e).received u = s.received u := by
  have hnone : receivedBy u (t, e) = none := by
    cases e with
    | call r =>
      cases r with
      | iarmEvent ev => exact if_neg (h.resolve_right fun hno => hno _ rfl).symm
      | _ => rfl
    | _ => rfl
  simp [Sys.received, hnone]

/-- Only a new cycle makes an event a left-over one, and only a new call brings another event. -/
theorem leftOver_commit (hb : e.beginsCycle = false) (h : u ≠ t ∨ ∀ r, e ≠ .call r) :
    (s.commit cfg t l e).leftOver u = s.leftOver u := by
  rw [Sys.leftOver, Sys.leftOver, received_commit h, cycle_commit hb]

/-! ## Steps within a cycle -/

theorem ModuleStatus.spent_mono {bits bits' : BitVec 16}
    (hbits : ∀ n, bits.getLsbD n = true → bits'.getLsbD n = true) (h : status.spent bits) :
    status.spent bits' := by
  cases status with
  | complete v | error v | fwdownloadAborted => exact ⟨hbits _ h.1, hbits _ h.2⟩
  | _ => exact h.elim

/-- A spent event sets no new bit. -/
theorem ModuleStatus.spent_sets {bits : BitVec 16} (h : status.spent bits)
    (hn : status.sets n = true) : bits.getLsbD n = true := by
  cases status with
  | complete v =>
    rcases Bool.or_eq_true_iff.mp hn with hs | hc
    · rw [beq_iff_eq.mp hs]; exact h.1
    · rw [beq_iff_eq.mp hc]; exact h.2
  | error v => rw [beq_iff_eq.mp hn]; exact h.2
  | fwdownloadAborted =>
    rcases Bool.or_eq_true_iff.mp hn with hs | hc
    · rw [beq_iff_eq.mp hs]; exact h.1
    · rw [beq_iff_eq.mp hc]; exact h.2
  | _ => exact h.elim

/-- The task is active, or the events of the kind are spent. -/
def Harmless (s : Sys) (status : ModuleStatus) (v : Task) : Prop :=
  s.active v = true ∨ status.spent s.taskStatus

theorem Harmless.commit (h : Harmless s status v) (hb : e.beginsCycle = false) :
    Harmless (s.commit cfg t l e) status v :=
  h.imp (inCycle_commit_mono hb) (ModuleStatus.spent_mono fun _ hn => getLsbD_commit hb hn)

/-- Why an entry of the map is true: an earlier cycle has left it so, the worker is about to
launch the task, or an event on it does no harm. -/
def EntryOk (s : Sys) (v : Task) : Prop :=
  s.taskMap v = true → s.entrySet v = false ∨ s.launching v ∨ Harmless s (.complete v) v

/-- A handler that is in the middle of a case does no harm. -/
def HandlerOk (s : Sys) (l : Thread) : Prop :=
  ∀ status rest v, l = .event (.body status rest) → status.about v = true → rest ≠ [] →
    Harmless s status v

/-- An entry that is true after a step was true before, or the step has set it. -/
theorem taskMap_of_commit (h : (s.commit cfg t l e).taskMap v = true) :
    e = .setTaskMap v true ∨ s.taskMap v = true ∧ ∀ b, e ≠ .setTaskMap v b := by
  rw [commit_taskMap] at h
  by_cases he : ∃ b, e = .setTaskMap v b
  · obtain ⟨b, rfl⟩ := he
    obtain rfl : b = true := by simpa [Effect.apply] using h
    exact .inl rfl
  · refine .inr ⟨?_, fun b hb => he ⟨b, hb⟩⟩
    cases e with
    | setTaskMap x b =>
      have hx : v ≠ x := by
        rintro rfl
        exact he ⟨b, rfl⟩
      simpa [Effect.apply, hx] using h
    | _ => exact h

/-- The worker launches the task, or clears its entry, or goes on towards that. -/
theorem launching_commit (hok : SysOk cfg s) (h : s.launching v) (hmove : Move cfg s t l e)
    (hen : e.enabled s t = true) (hclear : e ≠ .setTaskMap v false) :
    (s.commit cfg t l e).launching v ∨ (s.commit cfg t l e).active v = true := by
  obtain ⟨u, w, hw, hpc, hv⟩ := h
  have same {x : Task} (hx : s.tasks[w.i]? = some x) : x = v := Option.some.inj (hx.symm.trans hv)
  by_cases hu : u = t
  · subst hu
    rcases hmove.of_worker hw with hstep | ⟨rfl, rfl | rfl⟩
    · cases hstep
      case launched x _ hx =>
        obtain rfl := same hx
        right
        simp [Sys.active, Effect.beginsCycle]
      case launchFailed x _ hx => exact .inl ⟨u, _, commit_thread_self, .inr rfl, hv⟩
      case clearThenRetry x _ hx _ _ => exact absurd (by rw [same hx]) hclear
      case clearThenFail x _ hx _ => exact absurd (by rw [same hx]) hclear
      all_goals simp_all
    · exact .inl ⟨u, w, commit_thread_self, hpc, hv⟩
    · exact .inl ⟨u, w, commit_thread_self, hpc, hv⟩
  · refine .inl ⟨u, w, ?_, hpc, ?_⟩
    · exact commit_thread_stays hen hu hw (by simp)
    · have horigin := hmove.origin
      cases e with
      | setTasks ts =>
        obtain ⟨w', hw', -⟩ := horigin
        exact absurd (hok.worker_unique hw hw') hu
      | _ => exact hv

theorem setTaskMap_true_of_mem {taskMap : Task → Bool}
    (h : .setTaskMap v true ∈ eventCase taskMap status) :
    status = .error v ∨ status = .inprogress v := by
  cases status <;> simp only [eventCase, completeCase, errorCase] at h <;> (try split at h) <;>
    simp_all

theorem Move.beginsCycle_of_body (h : Move cfg s t (.event (.body status rest)) e) :
    e.beginsCycle = false := by
  rcases h.body with ⟨-, rfl, -⟩ | ⟨x, c, -, rfl⟩ | ⟨-, rfl | rfl⟩
  · rfl
  · cases x <;> rfl
  · rfl
  · rfl

/-! ## The entries and the handlers -/

theorem entryOk_commit (hreach : (plugin cfg).Reachable s) (hok : SysOk cfg s)
    (hentry : EntryOk s v) (hhandler : HandlerOk s (s.thread t)) (hmove : Move cfg s t l e)
    (hen : e.enabled s t = true) : EntryOk (s.commit cfg t l e) v := by
  intro hv
  cases hb : e.beginsCycle with
  | true => simp [Sys.entrySet, hb]
  | false =>
    rcases taskMap_of_commit hv with rfl | ⟨hold, hne⟩
    · rcases hmove.origin with ⟨status, rest, hp⟩ | ⟨-, hfalse⟩ | ⟨d, -, hfalse⟩ |
        ⟨w, hw, hx, ⟨hpc, -⟩ | ⟨-, hfalse⟩⟩
      · have hcase := inCase_of_reachable hreach hp
        obtain ⟨taskMap, hsuffix⟩ := hcase.suffix
        refine .inr (.inr ?_)
        rcases setTaskMap_true_of_mem (hsuffix.subset (List.mem_cons_self ..)) with rfl | rfl
        · have hharm := hhandler _ _ v hp (by simp [ModuleStatus.about]) (by simp)
          exact hharm.commit rfl
        · refine .inl (inCycle_commit_mono rfl (inCycle_imp (fun e he => ?_) hcase.handled))
          simp [he]
      · cases hfalse
      · cases hfalse
      · rcases hmove.of_worker hw with hstep | ⟨-, he | he⟩
        · cases hstep with
          | setMap => exact .inr (.inl ⟨t, _, commit_thread_self, .inl rfl, hx⟩)
        · cases he
        · cases he
      · cases hfalse
    · rcases hentry hold with hleft | hlaunching | hharm
      · left
        simpa [Sys.entrySet, hb, hne] using hleft
      · rcases launching_commit hok hlaunching hmove hen (hne false) with hl | hactive
        · exact .inr (.inl hl)
        · exact .inr (.inr (.inl hactive))
      · exact .inr (.inr (hharm.commit hb))

/-- A handler that enters its case does no harm. -/
theorem harmless_of_dispatch (hentry : EntryOk s v)
    (hcond : HandlesOwnEvents s t l (.handle status)) (hv : status.about v = true)
    (hrest : eventCase s.taskMap status ≠ []) :
    Harmless s status v := by
  by_cases hspent : status.spent s.taskStatus
  · exact .inr hspent
  · left
    have own (hst : status = .complete v ∨ status = .error v) (hmap : s.taskMap v = true)
        (hsp : (ModuleStatus.complete v).spent s.taskStatus → status.spent s.taskStatus) :
        s.active v = true := by
      obtain ⟨hset, hlaunch⟩ := hcond.entry status v rfl hst hmap hspent
      rcases hentry hmap with hleft | hlaunching | hactive | hx
      · rw [hset] at hleft
        cases hleft
      · exact hlaunch hlaunching
      · exact hactive
      · exact absurd (hsp hx) hspent
    cases status with
    | complete x =>
      obtain rfl : x = v := by simpa [ModuleStatus.about] using hv
      exact own (.inl rfl) (by simpa [eventCase, completeCase] using hrest) id
    | error x =>
      obtain rfl : x = v := by simpa [ModuleStatus.about] using hv
      exact own (.inr rfl) (by simpa [eventCase, errorCase] using hrest) id
    | fwdownloadAborted =>
      obtain rfl : v = .swupdate := by simpa [ModuleStatus.about] using hv
      exact hcond.aborted rfl hspent
    | _ => cases hv

theorem handlerOk_own (hentry : ∀ v, EntryOk s v) (hhandler : HandlerOk s (s.thread t))
    (hmove : Move cfg s t l e) (hcond : HandlesOwnEvents s t l e) :
    HandlerOk (s.commit cfg t l e) l := by
  intro status rest v hl hv hrest
  subst hl
  refine Harmless.commit ?_ hmove.beginsCycle_of_body
  rcases hmove.body with ⟨-, rfl, rfl⟩ | ⟨x, c, hp, -⟩ | ⟨hp, -⟩
  · exact harmless_of_dispatch (hentry v) hcond hv hrest
  · exact hhandler status _ v hp hv (by simp)
  · exact hhandler status rest v hp hv hrest

/-- A handler that has something to do for its event handles no left-over one. -/
theorem notLeftOver_own (hold : ∀ status x rest, s.thread t = .event (.body status (x :: rest)) →
      s.leftOver t = false)
    (hmove : Move cfg s t l e) (hcond : HandlesOwnEvents s t l e) {x : CaseStmt}
    (hl : l = .event (.body status (x :: rest))) : (s.commit cfg t l e).leftOver t = false := by
  subst hl
  have hcall (r : Request) : e ≠ .call r := by
    rintro rfl
    rcases hmove.body with ⟨-, he, -⟩ | ⟨y, c, -, he⟩ | ⟨-, he | he⟩
    · cases he
    · cases y <;> cases he
    · cases he
    · cases he
  rw [leftOver_commit hmove.beginsCycle_of_body (.inr hcall)]
  rcases hmove.body with ⟨-, rfl, hrest⟩ | ⟨y, c, hp, -⟩ | ⟨hp, -⟩
  · by_contra hleft
    rw [eventCase_of_refused (hcond.leftOver _ rfl (by simpa using hleft))] at hrest
    cases hrest
  · exact hold _ _ _ hp
  · exact hold _ _ _ hp

/-- In every run in which the left-over events are refused, none of them is being handled. -/
theorem notLeftOver_of_reached (h : ReachedWhere cfg HandlesOwnEvents s) {x : CaseStmt}
    (hthread : s.thread u = .event (.body status (x :: rest))) : s.leftOver u = false := by
  refine h.forall_threads (A := fun s u l => ∀ status x rest,
    l = .event (.body status (x :: rest)) → s.leftOver u = false) ?_ ?_ ?_ ?_ u status x rest hthread
  · intro threadCreated u status x rest hl
    rcases boot_thread threadCreated u with hu | hu <;> cases hu.symm.trans hl
  · intro s t l e _ _ hi hmove _ hcond status x rest hl
    exact notLeftOver_own hi hmove hcond hl
  · intro s t l e u _ hok hi hmove _ _ hu status x rest hp
    rw [leftOver_commit (hmove.beginsCycle_of_other hok hu (by rw [hp]; rfl)) (.inl hu)]
    exact hi status x rest hp
  · intro s t l w _ _ _ status x rest hl
    cases hl

theorem ok_of_reached (h : ReachedWhere cfg HandlesOwnEvents s) :
    (∀ v, EntryOk s v) ∧ ∀ u, HandlerOk s (s.thread u) := by
  refine h.induct (I := fun s => (∀ v, EntryOk s v) ∧ ∀ u, HandlerOk s (s.thread u)) ?_ ?_
  · intro threadCreated
    refine ⟨fun v hv => (by cases hv), fun u status rest v hthread => ?_⟩
    rcases boot_thread threadCreated u with hu | hu <;> cases hu.symm.trans hthread
  · intro s t l e hreach hok hi hmove hen hcond
    obtain ⟨hentry, hhandler⟩ := hi
    refine ⟨fun v => entryOk_commit hreach.reachable hok (hentry v) (hhandler t) hmove hen,
      forall_threads_commit hhandler (handlerOk_own hentry (hhandler t) hmove hcond) ?_ ?_⟩
    · intro u hu hold status rest v hthread hv hrest
      exact (hold status rest v hthread hv hrest).commit
        (hmove.beginsCycle_of_other hok hu (by rw [hthread]; rfl))
    · intro w _ status rest v hthread
      cases hthread

/-- In every run in which only events of the current cycle are handled, the cycles are
isolated from each other. -/
theorem isolated_of_reached (h : ReachedWhere cfg HandlesOwnEvents s) : Isolated cfg s := by
  refine ⟨?_, fun t status x rest hthread => notLeftOver_of_reached h hthread⟩
  intro a t l n status v hoffer hv hnew
  have hmove := offer_move hoffer
  rcases hmove.origin with ⟨status', rest, hp, hst⟩ | ⟨x, -, -, hst⟩ |
    ⟨w, x, -, -, -, -, hst⟩ | ⟨w, -, hst, -⟩
  · cases hst
    rcases (ok_of_reached h).2 t status _ v hp hv (by simp) with hactive | hspent
    · exact hactive
    · have hsets := (inCase_of_reachable h.reachable hp).sets (List.mem_cons_self ..)
      exact absurd (raise_eq_self (ModuleStatus.spent_sets hspent hsets)) hnew
  all_goals cases hst

/-- A test of the condition: outcomes are handled for active tasks only, and no event is left
over. -/
def handlesOwnEvents (s : Sys) (t : Tid) (e : Effect) : Bool :=
  match e with
  | .handle status =>
      !s.leftOver t &&
        match status with
        | .complete v | .error v => !s.taskMap v || s.entrySet v && s.active v
        | .fwdownloadAborted => s.active .swupdate
        | _ => true
  | _ => true

theorem handlesOwnEvents_of_test (h : handlesOwnEvents s t e = true) :
    HandlesOwnEvents s t l e := by
  constructor
  · rintro status v rfl hst hmap -
    have htest := (Bool.and_eq_true_iff.mp h).2
    obtain ⟨hset, hactive⟩ : s.entrySet v = true ∧ s.active v = true := by
      rcases hst with rfl | rfl <;> simpa [hmap] using htest
    exact ⟨hset, fun _ => hactive⟩
  · rintro rfl -
    exact (Bool.and_eq_true_iff.mp h).2
  · rintro status rfl hleft
    have hown := (Bool.and_eq_true_iff.mp h).1
    rw [hleft] at hown
    cases hown

/-- Thread `t` calls `startMaintenance` when `m_thread` is not joinable, and the new worker
`w` goes up to the network check. -/
def restarts (t w : Tid) : List Action :=
  .call t .startMaintenance :: runs t 10 ++ [.run t { thread := some w }] ++ runs t 1 ++ runs w 6

/-- After a complete cycle, RFC completes in the next one. -/
theorem isolated_of_reached_second : ∃ s, ReachedWhere (device false false) HandlesOwnEvents s ∧
    (∃ l, offer (device false false) s (.run 1 {}) =
      some (1, l, .setStatus (successBit .rfc) (.event (.complete .rfc)))) ∧
    Isolated (device false false) s := by
  obtain ⟨s, hs, htest⟩ := exists_reachedWhere_of_run (device false false) HandlesOwnEvents true
    (allComplete ++ runs 1 5 ++ restarts 1 2 ++ succeeds 2 ++ runs 2 5 ++ launches 2 ++
      delivers 1 (.complete .rfc) 5 1)
    (fun s => (offer (device false false) s (.run 1 {})).any
      fun p => p.2.2 == .setStatus (successBit .rfc) (.event (.complete .rfc)))
    (fun s t _ e => handlesOwnEvents s t e)
    (fun _ _ _ _ _ h => handlesOwnEvents_of_test h) (by decide +kernel)
  exact ⟨s, hs, offer_of_any htest, isolated_of_reached hs⟩

/-- The RFC task of the first cycle reports an error and, when the second cycle has started,
its completion. -/
def leftOverSchedule : List Action :=
  startsUp 0 ++ launches 0 ++ deliversOutcome 1 (.error .rfc) 0 ++ runs 0 2 ++
    launches 0 ++ deliversOutcome 1 (.complete .swupdate) 0 ++ runs 0 2 ++
    launches 0 ++ deliversOutcome 1 (.complete .logupload) 0 ++ runs 1 3 ++ runs 0 6 ++
    runs 1 5 ++ restarts 1 2 ++ delivers 1 (.complete .rfc) 5

/-- The completion counts in the second cycle, which has launched nothing. -/
theorem leftOver_counted : ∃ s, (plugin (device false false)).Reachable s ∧
    ¬ Isolated (device false false) s := by
  obtain ⟨s, hs, htest⟩ := TransitionSystem.exists_reachable_of_run (plugin (device false false))
    (maintenanceManagerOnBootup (device false false) true) leftOverSchedule
    (fun s => (offer (device false false) s (.run 1 {})).any
        (fun p => p.2.2 == .setStatus (successBit .rfc) (.event (.complete .rfc))) &&
      raise s.taskStatus (successBit .rfc) != s.taskStatus && !s.active .rfc)
    ⟨true, rfl⟩ (by decide +kernel)
  simp only [Bool.and_eq_true, bne_iff_ne, ne_eq, Bool.not_eq_true'] at htest
  obtain ⟨⟨hoffer, hnew⟩, hinactive⟩ := htest
  obtain ⟨l, hoffer⟩ := offer_of_any hoffer
  refine ⟨s, hs, fun hisolated => ?_⟩
  have hactive := hisolated.counted _ _ _ _ _ .rfc hoffer rfl hnew
  rw [hinactive] at hactive
  cases hactive

end SoftwareUpdate.MaintenanceManager
