import SoftwareUpdate.MaintenanceManager.Proofs.Locks
import SoftwareUpdate.MaintenanceManager.Proofs.Origins

/-!
# The life of a cycle

What the program point of a thread says about `m_notify_status`, `m_thread`,
`g_maintenance_type`, `g_unsolicited_complete` and `m_abort_flag`. A worker that has not
returned is the thread in `m_thread`, so there is at most one; the calls that opened or
close a cycle know its status because they hold `m_statusMutex`.
-/

namespace SoftwareUpdate.MaintenanceManager

open Misc

variable {cfg : Config} {s s' : Sys} {t u : Tid} {l : Thread} {e : Effect} {w : Worker}

/-! ## Phases of the worker -/

/-- Whether the worker has posted STARTED, and whether it has posted ERROR since. -/
inductive Phase where
  | starting
  | running
  | reported
  deriving DecidableEq

/-- With a delayed STARTED the network check comes first. -/
def Worker.phase (w : Worker) : Phase :=
  match w.pc with
  | .lockWai | .decideDelay | .lockStarted | .notifyStarted => .starting
  | .eraseTasks | .checkActivation | .checkNetwork | .branchWhoAmI | .checkActivated
  | .knowWhoAmI | .branchContext | .listenContext | .testContext | .waitContext | .wakeContext
  | .branchExit | .lockError | .notifyError =>
      if w.delayMaintenanceStarted then .starting else .running
  | .unlockError | .branchUnsolicited | .setUnsolicited | .listenNetwork => .reported
  | .unlockWai => if w.exitOnNoNetwork then .reported else .running
  | _ => .running

def Phase.agrees : Phase → NotifyStatus → Prop
  | .starting, v => v ≠ .started
  | .running, v => v = .started
  | .reported, v => v = .error

/-- The program points of the no-network exit. -/
def WorkerPc.exits : WorkerPc → Bool
  | .lockError | .notifyError | .unlockError | .branchUnsolicited | .setUnsolicited
  | .listenNetwork => true
  | _ => false

/-- The program points of an unsolicited cycle with WhoAmI support after the network check. -/
def WorkerPc.asks : WorkerPc → Bool
  | .checkActivated | .knowWhoAmI | .branchContext | .listenContext | .testContext
  | .waitContext | .wakeContext => true
  | _ => false

/-- `exitOnNoNetwork` is set on the way out, and nowhere before the decision. -/
structure Worker.Exiting (w : Worker) : Prop where
  exits : w.pc.exits = true → w.exitOnNoNetwork = true
  decided : w.exitOnNoNetwork = true →
    w.pc.exits = true ∨ w.pc = .branchExit ∨ w.pc = .unlockWai

/-- What holds of a worker that has not returned. -/
structure WorkerOk (cfg : Config) (s : Sys) (u : Tid) (w : Worker) : Prop where
  joinable : s.mThread = some u
  exiting : w.Exiting
  status : w.phase.agrees s.notifyStatus
  boot : w.phase = .starting → s.maintenanceType = .unsolicited → s.notifyStatus = .idle
  delayed : w.phase = .starting → w.delayMaintenanceStarted = true →
    s.maintenanceType = .unsolicited
  notDelayed : w.pc ≠ .lockWai → w.pc ≠ .decideDelay → w.delayMaintenanceStarted = false →
    ¬ (s.maintenanceType = .unsolicited ∧ cfg.whoamiSupportEnabled = true)
  asks : w.pc.asks = true → w.delayMaintenanceStarted = true
  incomplete : s.maintenanceType = .unsolicited → w.pc ≠ .listenNetwork → w.pc ≠ .unlockWai →
    s.unsolicitedComplete = false

theorem WorkerOk.congr (h : WorkerOk cfg s u w) (hm : s'.mThread = s.mThread)
    (hn : s'.notifyStatus = s.notifyStatus) (ht : s'.maintenanceType = s.maintenanceType)
    (hu : s'.unsolicitedComplete = s.unsolicitedComplete) : WorkerOk cfg s' u w where
  joinable := by rw [hm]; exact h.joinable
  exiting := h.exiting
  status := by rw [hn]; exact h.status
  boot := by rw [hn, ht]; exact h.boot
  delayed := by rw [ht]; exact h.delayed
  notDelayed := by rw [ht]; exact h.notDelayed
  asks := h.asks
  incomplete := by rw [ht, hu]; exact h.incomplete

/-! ### The worker's own steps -/

section WorkerStep

variable {w' : Worker}

theorem WorkerStep.mThread (h : WorkerStep cfg s w l e) :
    (e.apply cfg t s).mThread = s.mThread := by
  cases h <;> rfl

theorem WorkerStep.maintenanceType (h : WorkerStep cfg s w l e) :
    (e.apply cfg t s).maintenanceType = s.maintenanceType := by
  cases h <;> rfl

theorem WorkerStep.exiting (h : WorkerStep cfg s w (.worker w') e) (hok : w.Exiting) :
    w'.Exiting := by
  obtain ⟨hexits, hdecided⟩ := hok
  constructor
  · intro hpc'
    cases h with
    | exit hpc hexit => exact hexit
    | _ hpc => first | cases hpc'; done | exact hexits (by rw [hpc]; rfl)
  · intro hexit
    cases h with
    | startDelayed hpc hno hdelay => exact absurd (hno.symm.trans hexit) Bool.false_ne_true
    | goOn hpc hno hdelay => exact absurd (hno.symm.trans hexit) Bool.false_ne_true
    | _ hpc =>
      first
      | exact .inl rfl
      | exact .inr (.inl rfl)
      | exact .inr (.inr rfl)
      | rcases hdecided hexit with hx | hx | hx <;> rw [hpc] at hx <;> cases hx

/-- A step leaves the phase as it is, or posts the status of the next one. -/
theorem WorkerStep.phase (h : WorkerStep cfg s w (.worker w') e) (hok : w.Exiting) :
    (w'.phase = w.phase ∧ ∀ v, e ≠ .onMaintenanceStatusChange v) ∨
    (w.phase = .starting ∧ w'.phase = .running ∧ e = .onMaintenanceStatusChange .started) ∨
    (w'.phase = .reported ∧ e = .onMaintenanceStatusChange .error) := by
  cases h with
  | notifyStarted hpc => exact .inr (.inl ⟨by simp only [Worker.phase, hpc], rfl, rfl⟩)
  | notifyError hpc => exact .inr (.inr ⟨rfl, rfl⟩)
  | notUnsolicited hpc =>
    have hexit : w.exitOnNoNetwork = true := hok.exits (by rw [hpc]; rfl)
    exact .inl ⟨by simp [Worker.phase, hpc, hexit], fun v hv => by cases hv⟩
  | listenNetwork hpc =>
    have hexit : w.exitOnNoNetwork = true := hok.exits (by rw [hpc]; rfl)
    exact .inl ⟨by simp [Worker.phase, hpc, hexit], fun v hv => by cases hv⟩
  | unlockCall hpc =>
    have hexit : w.exitOnNoNetwork = false := by
      by_contra hx
      rcases hok.decided (Bool.not_eq_false _ ▸ hx) with hx | hx | hx <;>
        rw [hpc] at hx <;> cases hx
    exact .inl ⟨by simp [Worker.phase, hpc, hexit], fun v hv => by cases hv⟩
  | _ hpc => exact .inl ⟨by simp_all [Worker.phase, Worker.nextTask], fun v hv => by cases hv⟩

theorem WorkerStep.delayed (h : WorkerStep cfg s w (.worker w') e) :
    w'.delayMaintenanceStarted = w.delayMaintenanceStarted ∨
      (w'.delayMaintenanceStarted = true ∧ s.maintenanceType = .unsolicited) := by
  cases h <;> simp_all [Worker.nextTask]

theorem WorkerStep.notDelayed (h : WorkerStep cfg s w (.worker w') e)
    (hok : w.pc ≠ .lockWai → w.pc ≠ .decideDelay → w.delayMaintenanceStarted = false →
      ¬ (s.maintenanceType = .unsolicited ∧ cfg.whoamiSupportEnabled = true)) :
    w'.pc ≠ .lockWai → w'.pc ≠ .decideDelay → w'.delayMaintenanceStarted = false →
      ¬ (s.maintenanceType = .unsolicited ∧ cfg.whoamiSupportEnabled = true) := by
  intro hl hd hdelay
  cases h with
  | lockWai hpc => exact absurd rfl hd
  | delay hpc htype => cases hdelay
  | noDelay hpc hno => exact hno
  | _ hpc => exact hok (by simp [hpc]) (by simp [hpc]) hdelay

theorem WorkerStep.asks (h : WorkerStep cfg s w (.worker w') e)
    (hok : w.pc ≠ .lockWai → w.pc ≠ .decideDelay → w.delayMaintenanceStarted = false →
      ¬ (s.maintenanceType = .unsolicited ∧ cfg.whoamiSupportEnabled = true))
    (hasks : w.pc.asks = true → w.delayMaintenanceStarted = true) :
    w'.pc.asks = true → w'.delayMaintenanceStarted = true := by
  intro hpc'
  cases h with
  | whoAmI hpc htype hwhoami =>
    by_contra hdelay
    exact hok (by simp [hpc]) (by simp [hpc]) (Bool.eq_false_iff.mpr hdelay) ⟨htype, hwhoami⟩
  | _ hpc => first | cases hpc'; done | exact hasks (by rw [hpc]; rfl)

theorem WorkerStep.incomplete (h : WorkerStep cfg s w (.worker w') e)
    (hok : w.pc ≠ .listenNetwork → w.pc ≠ .unlockWai → s.unsolicitedComplete = false) :
    w'.pc ≠ .listenNetwork → w'.pc ≠ .unlockWai →
      (e.apply cfg t s).unsolicitedComplete = false := by
  cases h <;> simp_all [Worker.nextTask, Effect.apply]

theorem WorkerOk.step (hok : WorkerOk cfg s t w) (h : WorkerStep cfg s w (.worker w') e) :
    WorkerOk cfg (s.commit cfg t (.worker w') e) t w' := by
  have htype := h.maintenanceType (t := t)
  have hphase := h.phase hok.exiting
  refine ⟨?_, h.exiting hok.exiting, ?_, ?_, ?_, ?_, h.asks hok.notDelayed hok.asks, ?_⟩
  · rw [commit_mThread, h.mThread]
    exact hok.joinable
  · rw [commit_notifyStatus]
    rcases hphase with ⟨hp, hv⟩ | ⟨-, hp, rfl⟩ | ⟨hp, rfl⟩
    · rw [hp, apply_notifyStatus hv]
      exact hok.status
    · rw [hp]
      rfl
    · rw [hp]
      rfl
  · intro hstart hunsol
    rw [commit_maintenanceType, htype] at hunsol
    rcases hphase with ⟨hp, hv⟩ | ⟨-, hp, -⟩ | ⟨hp, -⟩
    · rw [commit_notifyStatus, apply_notifyStatus hv]
      exact hok.boot (hp ▸ hstart) hunsol
    · rw [hp] at hstart
      cases hstart
    · rw [hp] at hstart
      cases hstart
  · intro hstart hdelay
    rw [commit_maintenanceType, htype]
    rcases h.delayed with hd | ⟨-, hd⟩
    · rcases hphase with ⟨hp, -⟩ | ⟨-, hp, -⟩ | ⟨hp, -⟩
      · exact hok.delayed (hp ▸ hstart) (hd ▸ hdelay)
      · rw [hp] at hstart
        cases hstart
      · rw [hp] at hstart
        cases hstart
    · exact hd
  · rw [commit_maintenanceType, htype]
    exact h.notDelayed hok.notDelayed
  · intro hunsol
    rw [commit_maintenanceType, htype] at hunsol
    rw [commit_unsolicitedComplete]
    exact h.incomplete (hok.incomplete hunsol)

end WorkerStep

/-! ## The calls under `m_statusMutex` -/

/-- `startMaintenance` has been accepted and has not yet given up the mutex. -/
def Thread.opening : Thread → Bool
  | .start .lock | .start .guard | .start (.unlock _) => false
  | .start _ => true
  | _ => false

/-- `startMaintenance` has set `g_maintenance_type`. -/
def Thread.solicits : Thread → Bool
  | .start .clearAbort | .start .setReboot | .start .clearCritical
  | .start (.testJoinable _) | .start (.join _ _) | .start (.create _) => true
  | _ => false

/-- `stopMaintenanceTasks` has been accepted and has not yet posted ERROR. -/
def Thread.stopping : Thread → Bool
  | .stop _ .setAbort | .stop _ (.readMap _ _) | .stop _ (.abortTask _)
  | .stop _ (.clearMap _) | .stop _ .stopTimer | .stop _ .notify | .stop _ .testJoinable
  | .stop _ (.join _) | .stop _ .branchUnsolicited | .stop _ .setUnsolicited
  | .stop _ .notifyError => true
  | _ => false

/-- An event has been accepted and its handler has not yet given up the mutex. -/
def Thread.handling : Thread → Bool
  | .event (.testInstance _) | .event (.enter _) | .event (.lock _) | .event (.testAbort _)
  | .event .unlock => false
  | .event _ => true
  | _ => false

/-- The thread at whose `m_thread.join()` the call stands. -/
def Thread.joins : Thread → Option Tid
  | .start (.join w _) | .stop _ (.join w) | .event (.join w _) => some w
  | _ => none

/-- The call has joined `m_thread` or found it not joinable. -/
def Thread.joined : Thread → Bool
  | .start (.create _) | .start (.rollback _) | .stop _ .branchUnsolicited
  | .stop _ .setUnsolicited | .stop _ .notifyError | .event (.branchUnsolicited _)
  | .event (.setUnsolicited _) | .event (.notify _) => true
  | _ => false

/-- What the program point of thread `t` says about the state. -/
structure ThreadOk (cfg : Config) (s : Sys) (t : Tid) (l : Thread) : Prop where
  worker : ∀ w, l = .worker w → WorkerOk cfg s t w
  opening : l.opening = true → s.notifyStatus ≠ .started ∧ s.unsolicitedComplete = true
  solicits : l.solicits = true → s.maintenanceType = .solicited
  stopping : l.stopping = true → s.notifyStatus = .started
  handling : l.handling = true → s.notifyStatus = .started ∧ s.abortFlag = false
  joins : ∀ w, l.joins = some w → s.mThread = some w
  joined : l.joined = true → s.mThread = none

/-- The calls say something about the state only while they hold `m_statusMutex`. -/
theorem Thread.holds_status (h : l.opening = true ∨ l.solicits = true ∨ l.stopping = true ∨
    l.handling = true ∨ l.joins.isSome = true ∨ l.joined = true) : l.holds .status = true := by
  cases l with
  | start pc => cases pc <;> simp_all [opening, solicits, stopping, handling, joins, joined, holds,
      StartPc.holds]
  | stop deinit pc => cases pc <;> simp_all [opening, solicits, stopping, handling, joins, joined,
      holds, StopPc.holds]
  | event pc => cases pc <;> simp_all [opening, solicits, stopping, handling, joins, joined, holds,
      EventPc.holds]
  | _ => simp [opening, solicits, stopping, handling, joins, joined] at h

/-! ### The calls' own steps -/

theorem startMaintenance_ok {pc : StartPc} (c : Choice) (hok : ThreadOk cfg s t (.start pc)) :
    ThreadOk cfg (s.commit cfg t (startMaintenance s pc c).1 (startMaintenance s pc c).2) t
      (startMaintenance s pc c).1 := by
  obtain ⟨-, hopening, hsolicits, -, -, hjoins, hjoined⟩ := hok
  fun_cases startMaintenance s pc c <;> constructor <;> intro hl
  -- few program points say anything about the state
  all_goals first
    | cases hl; done
    | intro hl'; cases hl'; done
    | simp_all [Thread.opening, Thread.solicits, Thread.joins, Thread.joined, Effect.apply]

theorem stopMaintenanceTasks_ok {deinit : Bool} {pc : StopPc} (c : Choice)
    (hok : ThreadOk cfg s t (.stop deinit pc)) :
    ThreadOk cfg (s.commit cfg t (stopMaintenanceTasks s deinit pc c).1
      (stopMaintenanceTasks s deinit pc c).2) t (stopMaintenanceTasks s deinit pc c).1 := by
  obtain ⟨-, -, -, hstopping, -, hjoins, hjoined⟩ := hok
  fun_cases stopMaintenanceTasks s deinit pc c <;> constructor <;> intro hl
  all_goals first
    | cases hl; done
    | intro hl'; cases hl'; done
    | simp_all [Thread.stopping, Thread.joins, Thread.joined, Effect.apply]

theorem iarmEventHandler_ok {pc : EventPc} (c : Choice) (hok : ThreadOk cfg s t (.event pc)) :
    ThreadOk cfg (s.commit cfg t (iarmEventHandler cfg s pc c).1 (iarmEventHandler cfg s pc c).2)
      t (iarmEventHandler cfg s pc c).1 := by
  obtain ⟨-, -, -, -, hhandling, hjoins, hjoined⟩ := hok
  fun_cases iarmEventHandler cfg s pc c <;> constructor <;> intro hl
  -- the statements of the event's case leave the status alone
  case case9.handling status x rest =>
    cases x <;> simp_all [Thread.handling, Effect.apply, CaseStmt.effect]
  all_goals first
    | cases hl; done
    | intro hl'; cases hl'; done
    | simp_all [Thread.handling, Thread.joins, Thread.joined, Effect.apply, acceptsEvent]

/-! ### The steps of the other threads -/

theorem ThreadOk.not_worker (hok : ThreadOk cfg s t l) (hu : u ≠ t) (hw : WorkerOk cfg s u w)
    (hl : l.joined = true ∨ ∃ v, l = .worker v) : False := by
  rcases hl with hj | ⟨v, hv⟩
  · have hnone := hok.joined hj
    rw [hw.joinable] at hnone
    cases hnone
  · have hsome := (hok.worker v hv).joinable
    rw [hw.joinable] at hsome
    exact hu (Option.some.inj hsome)

/-- No other thread posts a status, joins the worker or replaces it while it runs. -/
theorem WorkerOk.other (hw : WorkerOk cfg s u w) (hthread : s.thread u = .worker w) (hu : u ≠ t)
    (h : Move cfg s t l e) (hen : e.enabled s t = true) (hok : ThreadOk cfg s t (s.thread t)) :
    WorkerOk cfg (s.commit cfg t l e) u w := by
  have hno := hok.not_worker hu hw
  have horigin := h.origin
  cases e with
  | onMaintenanceStatusChange v =>
    exfalso
    rcases horigin with ⟨w', hw', -⟩ | ⟨d, hd, -⟩ | hv
    · exact hno (.inr ⟨w', hw'⟩)
    · exact hno (.inl (by rw [hd]; rfl))
    · exact hno (.inl (by rw [hv]; rfl))
  | join w' =>
    exfalso
    have hjoins : (s.thread t).joins = some w' := by
      rcases horigin with ⟨prev, hp⟩ | ⟨d, hp⟩ | ⟨v, hp⟩ <;> rw [hp] <;> rfl
    have heq : s.mThread = some w' := hok.joins w' hjoins
    rw [hw.joinable, Option.some.injEq] at heq
    rw [← heq] at hen
    have hfin := Thread.isFinished_iff.mp hen
    rw [hthread] at hfin
    cases hfin
  | create w' =>
    obtain ⟨prev, hp⟩ := horigin
    exact (hno (.inl (by rw [hp]; rfl))).elim
  | setMaintenanceType type =>
    obtain ⟨hp, rfl⟩ := horigin
    have hcomplete := (hok.opening (by rw [hp]; rfl)).2
    -- the worker of a delayed STARTED has not completed the boot cycle, so no start is accepted
    refine ⟨hw.joinable, hw.exiting, hw.status, fun _ hunsol => ?_, fun hstart hdelay => ?_,
      fun _ _ _ hunsol => ?_, hw.asks, fun hunsol => ?_⟩
    · cases hunsol
    · have hunsol := hw.delayed hstart hdelay
      have hopen := hw.incomplete hunsol (by rintro hpc; simp [Worker.phase, hpc] at hstart)
        (by rintro hpc; simp [Worker.phase, hpc] at hstart; split at hstart <;> cases hstart)
      rw [hopen] at hcomplete
      cases hcomplete
    · cases hunsol.1
    · cases hunsol
  | setUnsolicitedComplete =>
    exfalso
    rcases horigin with ⟨w', hw', -⟩ | ⟨d, hd⟩ | ⟨v, hv⟩
    · exact hno (.inr ⟨w', hw'⟩)
    · exact hno (.inl (by rw [hd]; rfl))
    · exact hno (.inl (by rw [hv]; rfl))
  | _ => exact hw.congr rfl rfl rfl rfl

theorem apply_of_not_cyclic (he : e.cyclic = false) :
    (e.apply cfg t s).notifyStatus = s.notifyStatus ∧ (e.apply cfg t s).mThread = s.mThread ∧
    (e.apply cfg t s).maintenanceType = s.maintenanceType ∧
    (s.abortFlag = false → (e.apply cfg t s).abortFlag = false) := by
  cases e with
  | setAbortFlag b => cases b <;> simp_all [Effect.cyclic, Effect.apply]
  | _ => simp_all [Effect.cyclic, Effect.apply]

theorem ThreadOk.other {l₀ : Thread} (hok : ThreadOk cfg s u l₀) (hthread : s.thread u = l₀)
    (hu : u ≠ t) (h : Move cfg s t l e) (hen : e.enabled s t = true) (ho : OwnersAgree s)
    (hself : ThreadOk cfg s t (s.thread t)) : ThreadOk cfg (s.commit cfg t l e) u l₀ := by
  have hkeep (hl : l₀.opening = true ∨ l₀.solicits = true ∨ l₀.stopping = true ∨
      l₀.handling = true ∨ l₀.joins.isSome = true ∨ l₀.joined = true) :=
    @apply_of_not_cyclic cfg s t e
      (h.not_cyclic_of_other ho hu (by rw [hthread]; exact Thread.holds_status hl))
  refine ⟨fun w hw => ?_, fun hl => ?_, fun hl => ?_, fun hl => ?_, fun hl => ?_, fun w hl => ?_,
    fun hl => ?_⟩
  · subst hw
    exact (hok.worker w rfl).other hthread hu h hen hself
  · rw [commit_notifyStatus, (hkeep (.inl hl)).1]
    exact ⟨(hok.opening hl).1, apply_unsolicitedComplete_mono (hok.opening hl).2⟩
  · rw [commit_maintenanceType, (hkeep (.inr (.inl hl))).2.2.1]
    exact hok.solicits hl
  · rw [commit_notifyStatus, (hkeep (.inr (.inr (.inl hl)))).1]
    exact hok.stopping hl
  · have hk := hkeep (.inr (.inr (.inr (.inl hl))))
    rw [commit_notifyStatus, hk.1]
    exact ⟨(hok.handling hl).1, hk.2.2.2 (hok.handling hl).2⟩
  · rw [commit_mThread, (hkeep (.inr (.inr (.inr (.inr (.inl (by simp [hl]))))))).2.1]
    exact hok.joins w hl
  · rw [commit_mThread, (hkeep (.inr (.inr (.inr (.inr (.inr hl)))))).2.1]
    exact hok.joined hl

/-- A thread outside `m_statusMutex` that is not a worker promises nothing. -/
theorem ThreadOk.of_not_holds (hw : ∀ w, l ≠ .worker w) (hh : l.holds .status = false) :
    ThreadOk cfg s t l := by
  have hno {p : Prop} (hl : l.opening = true ∨ l.solicits = true ∨ l.stopping = true ∨
      l.handling = true ∨ l.joins.isSome = true ∨ l.joined = true) : p :=
    absurd (Thread.holds_status hl) (by simp [hh])
  exact ⟨fun w hl => absurd hl (hw w), fun hl => hno (.inl hl), fun hl => hno (.inr (.inl hl)),
    fun hl => hno (.inr (.inr (.inl hl))), fun hl => hno (.inr (.inr (.inr (.inl hl)))),
    fun w hl => hno (.inr (.inr (.inr (.inr (.inl (by simp [hl])))))),
    fun hl => hno (.inr (.inr (.inr (.inr (.inr hl)))))⟩

theorem statement_ok {c : Choice} (hok : ThreadOk cfg s t (s.thread t))
    (h : statement cfg s c (s.thread t) = some (l, e)) :
    ThreadOk cfg (s.commit cfg t l e) t l := by
  have of_eq {p : Thread × Effect} (hp : some p = some (l, e))
      (hq : ThreadOk cfg (s.commit cfg t p.1 p.2) t p.1) : ThreadOk cfg (s.commit cfg t l e) t l := by
    rwa [Option.some.inj hp] at hq
  cases hthread : s.thread t with
  | idle | finished => rw [hthread] at h; cases h
  | worker w =>
    rw [hthread] at h
    have hstep := taskExecutionThread_step h
    cases hl : l with
    | worker w' =>
      subst hl
      refine ⟨fun w'' hw => ?_, ?_, ?_, ?_, ?_, ?_, ?_⟩
      · cases hw
        exact (hok.worker w hthread).step hstep
      all_goals simp [Thread.opening, Thread.solicits, Thread.stopping, Thread.handling,
        Thread.joins, Thread.joined]
    | finished => exact ThreadOk.of_not_holds (fun _ hw => by cases hw) rfl
    | _ => subst hl; cases hstep
  | start pc =>
    rw [hthread] at h hok
    exact of_eq h (startMaintenance_ok c hok)
  | stop deinit pc =>
    rw [hthread] at h hok
    exact of_eq h (stopMaintenanceTasks_ok c hok)
  | event pc =>
    rw [hthread] at h hok
    exact of_eq h (iarmEventHandler_ok c hok)
  | timer pc =>
    rw [hthread] at h
    refine of_eq h (ThreadOk.of_not_holds ?_ ?_)
    · fun_cases timerHandler s pc c <;> simp
    · fun_cases timerHandler s pc c <;> simp [Thread.holds]
  | context pc =>
    rw [hthread] at h
    refine of_eq h (ThreadOk.of_not_holds ?_ ?_)
    · fun_cases deviceInitializationContextEventHandler s pc c <;> simp
    · fun_cases deviceInitializationContextEventHandler s pc c <;> simp [Thread.holds]
  | internet pc =>
    rw [hthread] at h
    refine of_eq h (ThreadOk.of_not_holds ?_ ?_)
    · fun_cases internetStatusChangeEventHandler s pc <;> simp
    · fun_cases internetStatusChangeEventHandler s pc <;> simp [Thread.holds]
  | mode pc =>
    rw [hthread] at h
    refine of_eq h (ThreadOk.of_not_holds ?_ ?_)
    · fun_cases maintenanceMode pc <;> simp
    · fun_cases maintenanceMode pc <;> simp [Thread.holds, ModePc.holds]

theorem ThreadOk.congr (h : ThreadOk cfg s u l) (hm : s'.mThread = s.mThread)
    (hn : s'.notifyStatus = s.notifyStatus) (ht : s'.maintenanceType = s.maintenanceType)
    (hu : s'.unsolicitedComplete = s.unsolicitedComplete) (ha : s'.abortFlag = s.abortFlag) :
    ThreadOk cfg s' u l where
  worker w hw := (h.worker w hw).congr hm hn ht hu
  opening := by rw [hn, hu]; exact h.opening
  solicits := by rw [ht]; exact h.solicits
  stopping := by rw [hn]; exact h.stopping
  handling := by rw [hn, ha]; exact h.handling
  joins := by rw [hm]; exact h.joins
  joined := by rw [hm]; exact h.joined

/-- A move keeps what its own program point says. -/
theorem Move.ok (h : Move cfg s t l e) (hok : ThreadOk cfg s t (s.thread t)) :
    ThreadOk cfg (s.commit cfg t l e) t l := by
  cases h with
  | run c _ h => exact statement_ok hok h
  | call r _ =>
    refine ThreadOk.of_not_holds (fun w hw => ?_) ?_
    · cases r <;> cases hw
    · cases r <;> rfl
  | wakeUp | timerExpires => exact hok.congr rfl rfl rfl rfl rfl
  | signal _ => exact ThreadOk.of_not_holds (fun w hw => by cases hw) rfl

/-! ## The invariant -/

/-- The owners of the mutexes, the program points and the waiters agree with the state. -/
structure SysOk (cfg : Config) (s : Sys) : Prop where
  owners : OwnersAgree s
  threads : ∀ t, ThreadOk cfg s t (s.thread t)
  waiting : ∀ t ∈ s.waiters, ∃ w, s.thread t = .worker w ∧ (w.pc = .wakeContext ∨ w.pc = .wakeTask)
  nodup : s.waiters.Nodup
  joinable : ∀ t, s.mThread = some t → (∃ w, s.thread t = .worker w) ∨ s.thread t = .finished

theorem SysOk.worker (h : SysOk cfg s) (hw : s.thread t = .worker w) : WorkerOk cfg s t w :=
  (h.threads t).worker w hw

/-- At most one worker has not returned. -/
theorem SysOk.worker_unique (h : SysOk cfg s) {v : Worker} (ht : s.thread t = .worker w)
    (hu : s.thread u = .worker v) : t = u :=
  Option.some.inj ((h.worker ht).joinable.symm.trans (h.worker hu).joinable)

/-- The worker that `startMaintenance` creates. -/
theorem ThreadOk.create {v : Tid} {prev : String} (hok : ThreadOk cfg s t (.start (.create prev))) :
    WorkerOk cfg (s.commit cfg t l (.create v)) v (Worker.create cfg) where
  joinable := rfl
  exiting := ⟨fun hx => (by cases hx), fun hx => (by cases hx)⟩
  status := (hok.opening rfl).1
  boot _ hunsol := by
    have htype : s.maintenanceType = .unsolicited := hunsol
    rw [hok.solicits rfl] at htype
    cases htype
  delayed _ hdelay := by cases hdelay
  notDelayed hpc := absurd rfl hpc
  asks hpc := by cases hpc
  incomplete hunsol := by
    have htype : s.maintenanceType = .unsolicited := hunsol
    rw [hok.solicits rfl] at htype
    cases htype

theorem SysOk.threads_step (hok : SysOk cfg s) (h : Move cfg s t l e)
    (hen : e.enabled s t = true) (u : Tid) :
    ThreadOk cfg (s.commit cfg t l e) u ((s.commit cfg t l e).thread u) := by
  refine forall_threads_commit hok.threads
    (h.ok (hok.threads t))
    (fun u hu hl => hl.other rfl hu h hen hok.owners (hok.threads t)) ?_ u
  rintro v rfl
  obtain ⟨prev, hp⟩ := h.origin
  have hself := hok.threads t
  rw [hp] at hself
  refine ⟨fun w hw => ?_, ?_, ?_, ?_, ?_, ?_, ?_⟩
  · cases hw
    exact hself.create
  all_goals simp [Thread.opening, Thread.solicits, Thread.stopping, Thread.handling,
    Thread.joins, Thread.joined]

/-- A step adds nobody but its own thread to the waiters, and only by `wait`. -/
theorem mem_waiters_apply (hu : u ∈ (e.apply cfg t s).waiters) :
    u ∈ s.waiters ∨ u = t ∧ ∃ m, e = .wait m := by
  cases e with
  | wait m => exact (List.mem_cons.mp hu).symm.imp id fun h => ⟨h, m, rfl⟩
  | notifyOne woken =>
    cases woken with
    | none => exact .inl hu
    | some v => exact .inl (List.mem_of_mem_erase hu)
  | spuriousWakeUp => exact .inl (List.mem_of_mem_erase hu)
  | _ => exact .inl hu

theorem waiters_nodup_apply (hn : s.waiters.Nodup) (ht : (∃ m, e = .wait m) → t ∉ s.waiters) :
    (e.apply cfg t s).waiters.Nodup := by
  cases e with
  | wait m => exact List.nodup_cons.mpr ⟨ht ⟨m, rfl⟩, hn⟩
  | notifyOne woken =>
    cases woken with
    | none => exact hn
    | some v => exact hn.erase v
  | spuriousWakeUp => exact hn.erase t
  | _ => exact hn

/-- A thread becomes a waiter at `wakeContext` or `wakeTask` and stays there until it is
woken. -/
theorem SysOk.waiting_step (hok : SysOk cfg s) (h : Move cfg s t l e)
    (hen : e.enabled s t = true) (hu : u ∈ (s.commit cfg t l e).waiters) :
    ∃ w, (s.commit cfg t l e).thread u = .worker w ∧ (w.pc = .wakeContext ∨ w.pc = .wakeTask) := by
  have hidle {v : Tid} (hv : v ∈ s.waiters) (hi : s.thread v = .idle) : False := by
    obtain ⟨w, hw, -⟩ := hok.waiting v hv
    rw [hw] at hi
    cases hi
  by_cases hut : u = t
  · subst hut
    rw [commit_thread_self]
    cases h with
    | run c hwait hst =>
      rcases mem_waiters_apply hu with hin | ⟨-, m, rfl⟩
      · exact absurd hin hwait
      · cases hthread : s.thread u with
        | worker w =>
          rw [hthread] at hst
          cases taskExecutionThread_step hst with
          | waitContext hpc => exact ⟨_, rfl, .inl rfl⟩
          | waitTask hpc => exact ⟨_, rfl, .inr rfl⟩
        | _ =>
          obtain ⟨w, hw, -⟩ := statement_origin hst
          rw [hthread] at hw
          cases hw
    | call r hi => exact (hidle hu hi).elim
    | wakeUp =>
      rw [commit_waiters] at hu
      exact absurd hu hok.nodup.not_mem_erase
    | timerExpires => exact hok.waiting u hu
    | signal hi => exact (hidle hu hi).elim
  · rcases mem_waiters_apply hu with hin | ⟨heq, -⟩
    · rw [commit_thread_of_not_idle hen hut (hidle hin)]
      exact hok.waiting u hin
    · exact absurd heq hut

/-- A worker goes on as a worker or finishes, and a finished thread stays so. -/
theorem Move.worker_or_finished (h : Move cfg s t l e)
    (ht : (∃ w, s.thread t = .worker w) ∨ s.thread t = .finished) :
    (∃ w, l = .worker w) ∨ l = .finished := by
  cases h with
  | run c _ hst =>
    rcases ht with ⟨w, hw⟩ | hf
    · rw [hw] at hst
      cases taskExecutionThread_step hst <;> simp [Worker.goto]
    · rw [hf] at hst
      cases hst
  | call r hidle | signal hidle =>
    rw [hidle] at ht
    rcases ht with ⟨w, hw⟩ | hf
    · cases hw
    · cases hf
  | wakeUp | timerExpires => exact ht

theorem SysOk.joinable_step (hok : SysOk cfg s) (h : Move cfg s t l e)
    (hen : e.enabled s t = true) (hu : (s.commit cfg t l e).mThread = some u) :
    (∃ w, (s.commit cfg t l e).thread u = .worker w) ∨
      (s.commit cfg t l e).thread u = .finished := by
  by_cases hc : ∃ w, e = .create w
  · obtain ⟨w, rfl⟩ := hc
    obtain rfl : w = u := Option.some.inj hu
    have hwt : w ≠ t := by
      rintro rfl
      obtain ⟨prev, hp⟩ := h.origin
      have hidle := Thread.isIdle_iff.mp hen
      rw [hp] at hidle
      cases hidle
    exact .inl ⟨_, commit_thread_create hwt⟩
  · have hm : s.mThread = some u := by
      rw [commit_mThread] at hu
      cases e with
      | create w => exact absurd ⟨w, rfl⟩ hc
      | join w => cases hu
      | _ => exact hu
    by_cases hut : u = t
    · subst hut
      rw [commit_thread_self]
      exact h.worker_or_finished (hok.joinable u hm)
    · rw [commit_thread_other hut fun w hw => hc ⟨w, hw⟩]
      exact hok.joinable u hm

theorem SysOk.step (hok : SysOk cfg s) (h : Move cfg s t l e) (hen : e.enabled s t = true) :
    SysOk cfg (s.commit cfg t l e) where
  owners := h.ownersAgree hen hok.owners
  threads := hok.threads_step h hen
  waiting _ hu := hok.waiting_step h hen hu
  nodup := by
    rw [commit_waiters]
    refine waiters_nodup_apply hok.nodup ?_
    rintro ⟨m, rfl⟩
    cases h with
    | run c hwait _ => exact hwait
  joinable _ hu := hok.joinable_step h hen hu

theorem SysOk.onBootup (threadCreated : Bool) :
    SysOk cfg (maintenanceManagerOnBootup cfg threadCreated) where
  owners := ownersAgree_onBootup threadCreated
  threads t := by
    have hidle (hl : (maintenanceManagerOnBootup cfg threadCreated).thread t = .idle) :
        ThreadOk cfg (maintenanceManagerOnBootup cfg threadCreated) t
          ((maintenanceManagerOnBootup cfg threadCreated).thread t) := by
      rw [hl]
      exact ThreadOk.of_not_holds (fun w hw => by cases hw) rfl
    by_cases ht : t = 0
    · cases threadCreated with
      | false => exact hidle (by simp [maintenanceManagerOnBootup, ht])
      | true =>
        refine ⟨fun w hw => ?_, ?_, ?_, ?_, ?_, ?_, ?_⟩
        · simp only [maintenanceManagerOnBootup, ht, Function.update_self, if_true,
            Thread.worker.injEq] at hw
          subst hw
          constructor <;>
            simp [maintenanceManagerOnBootup, Worker.create, Worker.phase, Phase.agrees, ht,
              WorkerPc.asks]
          constructor <;> simp [WorkerPc.exits]
        all_goals simp [maintenanceManagerOnBootup, ht, Thread.opening, Thread.solicits,
          Thread.stopping, Thread.handling, Thread.joins, Thread.joined]
    · exact hidle (by simp [maintenanceManagerOnBootup, ht])
  waiting _ hu := by cases hu
  nodup := List.nodup_nil
  joinable t ht := by
    cases threadCreated with
    | false => cases ht
    | true =>
      obtain rfl : 0 = t := Option.some.inj ht
      exact .inl ⟨Worker.create cfg, by simp [maintenanceManagerOnBootup]⟩

/-- The invariant of every run. -/
theorem sysOk_of_reachable (h : (plugin cfg).Reachable s) : SysOk cfg s := by
  refine h.invariant ?_ ?_
  · rintro s ⟨threadCreated, rfl⟩
    exact SysOk.onBootup threadCreated
  · intro s a s' _ hok hstep
    obtain ⟨t, l, e, hoffer, hen, rfl⟩ := step_commit hstep
    exact hok.step (offer_move hoffer) hen

end SoftwareUpdate.MaintenanceManager
