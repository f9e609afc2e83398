import SoftwareUpdate.MaintenanceManager.Proofs.Runs

/-!
# A start that fails

`startMaintenance` answers false when its guard refuses the call and when the worker cannot be
created. By then it has overwritten the fields of the previous cycle, and of these it restores
`g_is_critical_maintenance` only: the bit field, the maintenance type and the pending reboot
stay as the failed start has left them.
-/

namespace SoftwareUpdate.MaintenanceManager

open Misc

variable {cfg : Config} {s s' : Sys} {t u : Tid} {l : Thread} {e : Effect} {pc pc' : StartPc}

/-- The guard of `startMaintenance`. -/
def Sys.acceptsStart (s : Sys) : Bool := s.notifyStatus != .started && s.unsolicitedComplete

/-- What a failed start must leave as it is. -/
structure Observation where
  activity : ActivityStatus
  taskStatus : BitVec 16
  maintenanceType : MaintenanceType
  acceptsStart : Bool
  deriving DecidableEq

def Sys.observed (s : Sys) : Observation where
  activity := getMaintenanceActivityStatus s
  taskStatus := s.taskStatus
  maintenanceType := s.maintenanceType
  acceptsStart := s.acceptsStart

/-- The moves while thread `t` executes `startMaintenance`: its own statements, and moves of other
threads that change nothing of what is observed. -/
def DuringStart (cfg : Config) (t : Tid) (s : Sys) (u : Tid) (l : Thread) (e : Effect) : Prop :=
  (u = t → ∃ pc, s.thread t = .start pc) ∧ (u ≠ t → (s.commit cfg u l e).observed = s.observed)

/-- A call of `startMaintenance` on thread `t`, entered in `s`, is about to return false in `s'`. -/
structure FailedStart (cfg : Config) (t : Tid) (s s' : Sys) : Prop where
  entered : s.thread t = .start .lock
  runs : LeadsWhere cfg (DuringStart cfg t) s s'
  fails : s'.thread t = .start (.unlock false)

/-- The fields that a start overwrites and does not restore. -/
def Observation.overwritten (o : Observation) : Observation :=
  { o with
    taskStatus := 0
    maintenanceType := .solicited
    activity := { o.activity with isRebootPending := true } }

/-- What is observed at each statement of a start that was entered when `o` was observed. -/
def StartPc.observes (o : Observation) (pc : StartPc) (o' : Observation) : Prop :=
  match pc with
  | .lock | .guard => o' = o
  | .lockCall | .unlockCall | .clearTaskStatus => o.acceptsStart = true ∧ o' = o
  | .setType => o.acceptsStart = true ∧ o' = { o with taskStatus := 0 }
  | .clearAbort | .setReboot =>
      o.acceptsStart = true ∧ o' = { o with taskStatus := 0, maintenanceType := .solicited }
  | .clearCritical => o.acceptsStart = true ∧ o' = o.overwritten
  | .testJoinable prev | .join _ prev | .create prev | .rollback prev =>
      o.acceptsStart = true ∧ readFlag prev = o.activity.isCriticalMaintenance ∧
        o' = { o.overwritten with
          activity := { o.overwritten.activity with isCriticalMaintenance := false } }
  | .unlock false =>
      o.acceptsStart = false ∧ o' = o ∨ o.acceptsStart = true ∧ o' = o.overwritten
  | .unlock true => True

theorem acceptsStart_iff :
    s.acceptsStart = true ↔ s.notifyStatus ≠ .started ∧ s.unsolicitedComplete = true := by
  simp [Sys.acceptsStart]

/-- The statements of `startMaintenance`. -/
theorem startMaintenance_observes {o : Observation} {c : Choice}
    (h : startMaintenance s pc c = (.start pc', e)) (ho : pc.observes o s.observed) :
    pc'.observes o (s.commit cfg t (.start pc') e).observed := by
  revert h
  fun_cases startMaintenance s pc c <;> intro heq <;> cases heq
  case case2 hguard =>
    obtain rfl : s.observed = o := ho
    exact ⟨acceptsStart_iff.mpr hguard, rfl⟩
  case case3 hguard =>
    obtain rfl : s.observed = o := ho
    exact .inl ⟨Bool.eq_false_iff.mpr fun haccepts => hguard (acceptsStart_iff.mp haccepts), rfl⟩
  case case6 =>
    obtain ⟨haccepts, rfl⟩ := ho
    exact ⟨haccepts, rfl⟩
  case case7 =>
    obtain ⟨haccepts, ho⟩ := ho
    refine ⟨haccepts, ?_⟩
    show { s.observed with maintenanceType := .solicited } = _
    rw [ho]
  case case9 =>
    obtain ⟨haccepts, ho⟩ := ho
    refine ⟨haccepts, ?_⟩
    show { s.observed with activity := { s.observed.activity with isRebootPending := true } } = _
    rw [ho]
    rfl
  case case10 =>
    obtain ⟨haccepts, ho⟩ := ho
    refine ⟨haccepts, congrArg (fun o => o.activity.isCriticalMaintenance) ho, ?_⟩
    show { s.observed with activity := { s.observed.activity with isCriticalMaintenance := false } }
      = _
    rw [ho]
  case case16 prev =>
    obtain ⟨haccepts, hprev, ho⟩ := ho
    refine .inr ⟨haccepts, ?_⟩
    show { s.observed with
      activity := { s.observed.activity with isCriticalMaintenance := readFlag prev } } = _
    rw [ho, hprev]
    rfl
  case case14 => trivial
  all_goals exact ho

/-- The state while thread `t` executes the call that it has entered in `s₀`. -/
theorem observes_step {o : Observation} (hmove : Move cfg s u l e) (hen : e.enabled s u = true)
    (hduring : DuringStart cfg t s u l e)
    (ho : ∀ pc, s.thread t = .start pc → pc.observes o s.observed)
    (hpc : (s.commit cfg u l e).thread t = .start pc) :
    pc.observes o (s.commit cfg u l e).observed := by
  by_cases hut : u = t
  · subst hut
    obtain ⟨pc₀, hp⟩ := hduring.1 rfl
    rw [commit_thread_self] at hpc
    subst hpc
    rcases hmove.of_start hp with ⟨c, hst⟩ | ⟨hstay, he⟩
    · exact startMaintenance_observes hst (ho pc₀ hp)
    · cases hstay
      rcases he with rfl | rfl <;> exact ho pc hp
  · have hp : s.thread t = .start pc :=
      commit_thread_of_not_worker (Ne.symm hut) hpc fun w hw => by cases hw
    rw [hduring.2 hut]
    exact ho pc hp

/-- What a failed start leaves behind. -/
theorem FailedStart.observes (hok : SysOk cfg s) (h : FailedStart cfg t s s') :
    s.acceptsStart = false ∧ s'.observed = s.observed ∨
      s.acceptsStart = true ∧ s'.observed = s.observed.overwritten := by
  have hrun : ∀ pc, s'.thread t = .start pc → pc.observes s.observed s'.observed := by
    refine h.runs.induct
      (I := fun s₁ => ∀ pc, s₁.thread t = .start pc → pc.observes s.observed s₁.observed) hok ?_ ?_
    · intro pc hpc
      cases h.entered.symm.trans hpc
      rfl
    · intro s₁ u l e _ ho hmove hen hduring pc hpc
      exact observes_step hmove hen hduring ho hpc
  exact hrun _ h.fails

theorem overwritten_eq_self_iff {o : Observation} : o.overwritten = o ↔
    o.taskStatus = 0 ∧ o.maintenanceType = .solicited ∧ o.activity.isRebootPending = true := by
  constructor
  · intro h
    exact ⟨(congrArg (·.taskStatus) h).symm, (congrArg (·.maintenanceType) h).symm,
      (congrArg (·.activity.isRebootPending) h).symm⟩
  · rintro ⟨hstatus, htype, hreboot⟩
    unfold Observation.overwritten
    rw [← hstatus, ← htype, ← hreboot]

/-- A start that returns false has no observable effect exactly when its guard refuses it, or when
the fields it overwrites have the values of a new cycle already. -/
theorem failedStart_noEffect_iff (hreach : (plugin cfg).Reachable s) (h : FailedStart cfg t s s') :
    s'.observed = s.observed ↔ s.acceptsStart = false ∨
      s.taskStatus = 0 ∧ s.maintenanceType = .solicited ∧ readFlag s.isRebootPending = true := by
  rcases h.observes (sysOk_of_reachable hreach) with ⟨hrefused, hsame⟩ | ⟨haccepted, hover⟩
  · exact ⟨fun _ => .inl hrefused, fun _ => hsame⟩
  · rw [hover, overwritten_eq_self_iff, haccepted]
    exact ⟨.inr, fun hcond => hcond.resolve_left nofun⟩

/-- A test of `DuringStart`: no other thread moves. -/
def duringStart (t : Tid) (s : Sys) (u : Tid) (_ : Thread) (_ : Effect) : Bool :=
  u == t && (s.thread t).activity == .start

theorem duringStart_sound (h : duringStart t s u l e = true) : DuringStart cfg t s u l e := by
  obtain ⟨hu, hact⟩ := Bool.and_eq_true_iff.mp h
  have hut : u = t := beq_iff_eq.mp hu
  refine ⟨fun _ => ?_, fun hne => absurd hut hne⟩
  cases hthread : s.thread t with
  | start pc => exact ⟨pc, rfl⟩
  | _ => simp [hthread, Thread.activity] at hact

/-- A test of a thread: it is about to execute the statement `pc` of `startMaintenance`. -/
def Thread.startsAt (pc : StartPc) : Thread → Bool
  | .start pc' => pc' == pc
  | _ => false

theorem Thread.startsAt_iff : l.startsAt pc = true ↔ l = .start pc := by
  cases l <;> simp [startsAt]

/-- A computed run up to a call of `startMaintenance` on thread 1, and the statements of the call
up to its failure. -/
theorem exists_failedStart (cfg : Config) (threadCreated : Bool) (as : List Action) (n : ℕ)
    (test : Sys → Sys → Bool)
    (h : ((plugin cfg).run (maintenanceManagerOnBootup cfg threadCreated) as).any (fun s =>
      (s.thread 1).startsAt .lock && ((plugin cfg).runWhere
        (fun s a => (offer cfg s a).all fun p => duringStart 1 s p.1 p.2.1 p.2.2) s (runs 1 n)).any
          fun s' => (s'.thread 1).startsAt (.unlock false) && test s s') = true) :
    ∃ s s', (plugin cfg).Reachable s ∧ FailedStart cfg 1 s s' ∧ test s s' = true := by
  obtain ⟨s, hreach, hs⟩ := TransitionSystem.exists_reachable_of_run (plugin cfg) _ as _
    ⟨threadCreated, rfl⟩ h
  obtain ⟨hentered, hs⟩ := Bool.and_eq_true_iff.mp hs
  obtain ⟨s', hrun, hs'⟩ := (Option.any_eq_true _ _).mp hs
  obtain ⟨hfails, htest⟩ := Bool.and_eq_true_iff.mp hs'
  exact ⟨s, s', hreach, ⟨Thread.startsAt_iff.mp hentered,
    leadsWhere_of_run (fun _ _ _ _ => duringStart_sound) hrun, Thread.startsAt_iff.mp hfails⟩, htest⟩

/-- A second start that cannot create its worker finds the fields as the first has left them. -/
theorem failedStart_noEffect_again : ∃ s s', (plugin (device false false)).Reachable s ∧
    FailedStart (device false false) 1 s s' ∧ s.acceptsStart = true ∧ s'.observed = s.observed := by
  obtain ⟨s, s', hreach, hfailed, htest⟩ := exists_failedStart (device false false) false
    (.call 1 .startMaintenance :: runs 1 13 ++ [.call 1 .startMaintenance]) 12
    (fun s _ => s.acceptsStart && s.taskStatus == 0 && s.maintenanceType == .solicited &&
      readFlag s.isRebootPending) (by decide +kernel)
  simp only [Bool.and_eq_true, beq_iff_eq] at htest
  obtain ⟨⟨⟨haccepts, hstatus⟩, htype⟩, hreboot⟩ := htest
  exact ⟨s, s', hreach, hfailed, haccepts,
    (failedStart_noEffect_iff hreach hfailed).mpr (.inr ⟨hstatus, htype, hreboot⟩)⟩

/-- After a cycle that is complete, a start that cannot create its worker clears the bit field and
answers that a reboot is pending. -/
theorem failedStart_overwrites : ∃ s s', (plugin (device false false)).Reachable s ∧
    FailedStart (device false false) 1 s s' ∧ s'.observed ≠ s.observed := by
  obtain ⟨s, s', hreach, hfailed, htest⟩ := exists_failedStart (device false false) true
    (allComplete ++ runs 1 5 ++ [.call 1 .startMaintenance]) 12
    (fun s s' => !s.observed.activity.isRebootPending && s'.observed.activity.isRebootPending)
    (by decide +kernel)
  simp only [Bool.and_eq_true, Bool.not_eq_true'] at htest
  refine ⟨s, s', hreach, hfailed, fun hsame => ?_⟩
  rw [hsame, htest.1] at htest
  cases htest.2

end SoftwareUpdate.MaintenanceManager
