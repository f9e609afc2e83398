import SoftwareUpdate.MaintenanceManager.System
import SoftwareUpdate.MaintenanceManager.Proofs.WorkerSteps

/-!
# What one step of the plugin can do

A step commits the move of one thread: the thread goes on to another program point and its
effect is applied to the shared state. The lemmas say which parts of the state an effect
leaves alone.
-/

namespace SoftwareUpdate.MaintenanceManager

open Misc

variable {cfg : Config} {s s' : Sys} {t u : Tid} {l : Thread} {e : Effect}

/-- The moves of thread `t`: a statement, the start of a call, a wake-up without notification,
the expiry of the timer (which leaves every thread where it is), the arrival of SIGALRM. -/
inductive Move (cfg : Config) (s : Sys) (t : Tid) : Thread → Effect → Prop
  | run {l : Thread} {e : Effect} (c : Choice) (hwait : t ∉ s.waiters)
      (h : statement cfg s c (s.thread t) = some (l, e)) : Move cfg s t l e
  | call (r : Request) (h : s.thread t = .idle) : Move cfg s t r.entry (.call r)
  | wakeUp : Move cfg s t (s.thread t) .spuriousWakeUp
  | timerExpires : Move cfg s t (s.thread t) .timerExpires
  | signal (h : s.thread t = .idle) : Move cfg s t (.timer .readTask) .signal

theorem Thread.isIdle_iff : l.isIdle = true ↔ l = .idle := by
  cases l <;> simp [Thread.isIdle]

theorem Thread.isFinished_iff : l.isFinished = true ↔ l = .finished := by
  cases l <;> simp [Thread.isFinished]

theorem offer_move {a : Action} (h : offer cfg s a = some (t, l, e)) : Move cfg s t l e := by
  cases a with
  | run t' c =>
    simp only [offer] at h
    split at h
    case isTrue => cases h
    case isFalse hwait =>
      obtain ⟨⟨l', e'⟩, hst, heq⟩ := Option.map_eq_some_iff.mp h
      cases heq
      exact .run c (by simpa using hwait) hst
  | call t' r =>
    simp only [offer] at h
    split at h
    case isTrue hidle => cases h; exact .call r (Thread.isIdle_iff.mp hidle)
    case isFalse => cases h
  | wakeUp t' => cases h; exact .wakeUp
  | timerExpires => cases h; exact .timerExpires
  | signal t' =>
    simp only [offer] at h
    split at h
    case isTrue hidle => cases h; exact .signal (Thread.isIdle_iff.mp hidle)
    case isFalse => cases h

/-- A computed test of what a thread would do next. -/
theorem offer_of_any {c : Choice}
    (h : (offer cfg s (.run t c)).any (fun p => p.2.2 == e) = true) :
    ∃ l, offer cfg s (.run t c) = some (t, l, e) := by
  obtain ⟨⟨t', l, e'⟩, hoffer, he⟩ := (Option.any_eq_true _ _).mp h
  obtain rfl : e' = e := beq_iff_eq.mp he
  refine ⟨l, ?_⟩
  rw [hoffer]
  simp only [offer] at hoffer
  split at hoffer
  case isTrue => cases hoffer
  case isFalse =>
    obtain ⟨p, -, hp⟩ := Option.map_eq_some_iff.mp hoffer
    cases hp
    rfl

/-- A step commits what the action offers. -/
theorem step_commit {a : Action} (h : step cfg s a = some s') :
    ∃ t l e, offer cfg s a = some (t, l, e) ∧ e.enabled s t = true ∧ s' = s.commit cfg t l e := by
  simp only [step] at h
  split at h
  case h_1 t l e hoffer =>
    split at h
    case isTrue hen => cases h; exact ⟨t, l, e, hoffer, hen, rfl⟩
    case isFalse => cases h
  case h_2 => cases h

/-! ## Where a move leads -/

/-- What a thread executes, without the program point. -/
inductive Activity where
  | nothing
  | worker
  | start
  | stop
  | event
  | timer
  | context
  | internet
  | mode
  deriving DecidableEq

def Thread.activity : Thread → Activity
  | .idle | .finished => .nothing
  | .worker _ => .worker
  | .start _ => .start
  | .stop _ _ => .stop
  | .event _ => .event
  | .timer _ => .timer
  | .context _ => .context
  | .internet _ => .internet
  | .mode _ => .mode

/-- A statement stays in its function or returns from it. -/
theorem statement_activity {c : Choice} {l₀ : Thread} (h : statement cfg s c l₀ = some (l, e)) :
    l.activity = l₀.activity ∨ l.activity = .nothing := by
  have of_eq {p : Thread × Effect} (hp : some p = some (l, e))
      (ha : p.1.activity = l₀.activity ∨ p.1.activity = .nothing) :
      l.activity = l₀.activity ∨ l.activity = .nothing := by
    rwa [Option.some.inj hp] at ha
  cases l₀ with
  | idle | finished => cases h
  | worker w => cases taskExecutionThread_step h <;> simp [Thread.activity, Worker.goto]
  | start pc =>
    refine of_eq h ?_
    fun_cases startMaintenance s pc c <;> simp [Thread.activity]
  | stop deinit pc =>
    refine of_eq h ?_
    fun_cases stopMaintenanceTasks s deinit pc c <;> simp [Thread.activity]
  | event pc =>
    refine of_eq h ?_
    fun_cases iarmEventHandler cfg s pc c <;> simp [Thread.activity]
  | timer pc =>
    refine of_eq h ?_
    fun_cases timerHandler s pc c <;> simp [Thread.activity]
  | context pc =>
    refine of_eq h ?_
    fun_cases deviceInitializationContextEventHandler s pc c <;> simp [Thread.activity]
  | internet pc =>
    refine of_eq h ?_
    fun_cases internetStatusChangeEventHandler s pc <;> simp [Thread.activity]
  | mode pc =>
    refine of_eq h ?_
    fun_cases maintenanceMode pc <;> simp [Thread.activity]

/-- A move of thread `t` into `l`, when it is no first statement of a call: a statement of the
function `l` is in, or a move that leaves every thread where it is. -/
theorem Move.statement_or_stay (h : Move cfg s t l e) (hl : l.activity ≠ .nothing)
    (hcall : ∀ r : Request, l ≠ r.entry) (htimer : l ≠ .timer .readTask) :
    (∃ c, t ∉ s.waiters ∧ statement cfg s c (s.thread t) = some (l, e) ∧
      (s.thread t).activity = l.activity) ∨
    (l = s.thread t ∧ (e = .spuriousWakeUp ∨ e = .timerExpires)) := by
  cases h with
  | run c hwait hst =>
    rcases statement_activity hst with ha | ha
    · exact .inl ⟨c, hwait, hst, ha.symm⟩
    · exact absurd ha hl
  | call r _ => exact absurd rfl (hcall r)
  | wakeUp => exact .inr ⟨rfl, .inl rfl⟩
  | timerExpires => exact .inr ⟨rfl, .inr rfl⟩
  | signal _ => exact absurd rfl htimer

/-- A move into a handler beyond its first statement is a statement of the handler. -/
theorem Move.event {pc : EventPc} (h : Move cfg s t (.event pc) e)
    (hpc : ∀ ev, pc ≠ .testInstance ev) :
    (∃ pc₀ c, s.thread t = .event pc₀ ∧ iarmEventHandler cfg s pc₀ c = (.event pc, e)) ∨
    (s.thread t = .event pc ∧ (e = .spuriousWakeUp ∨ e = .timerExpires)) := by
  rcases h.statement_or_stay (by simp [Thread.activity])
    (fun r hr => by cases r <;> cases hr; exact hpc _ rfl) (fun hx => by cases hx) with
    ⟨c, -, hst, hact⟩ | ⟨hstay, he⟩
  · cases hthread : s.thread t with
    | event pc₀ =>
      rw [hthread] at hst
      exact .inl ⟨pc₀, c, rfl, Option.some.inj hst⟩
    | _ =>
      rw [hthread] at hact
      cases hact
  · exact .inr ⟨hstay.symm, he⟩

theorem Move.start {pc : StartPc} (h : Move cfg s t (.start pc) e) (hpc : pc ≠ .lock) :
    (∃ pc₀ c, s.thread t = .start pc₀ ∧ startMaintenance s pc₀ c = (.start pc, e)) ∨
    (s.thread t = .start pc ∧ (e = .spuriousWakeUp ∨ e = .timerExpires)) := by
  rcases h.statement_or_stay (by simp [Thread.activity])
    (fun r hr => by cases r <;> cases hr; exact hpc rfl) (fun hx => by cases hx) with
    ⟨c, -, hst, hact⟩ | ⟨hstay, he⟩
  · cases hthread : s.thread t with
    | start pc₀ =>
      rw [hthread] at hst
      exact .inl ⟨pc₀, c, rfl, Option.some.inj hst⟩
    | _ =>
      rw [hthread] at hact
      cases hact
  · exact .inr ⟨hstay.symm, he⟩

theorem Move.stop {d : Bool} {pc : StopPc} (h : Move cfg s t (.stop d pc) e)
    (hpc : ∀ r : Request, Thread.stop d pc ≠ r.entry) :
    (∃ pc₀ c, s.thread t = .stop d pc₀ ∧ stopMaintenanceTasks s d pc₀ c = (.stop d pc, e)) ∨
    (s.thread t = .stop d pc ∧ (e = .spuriousWakeUp ∨ e = .timerExpires)) := by
  rcases h.statement_or_stay (by simp [Thread.activity]) hpc (fun hx => by cases hx) with
    ⟨c, -, hst, hact⟩ | ⟨hstay, he⟩
  · cases hthread : s.thread t with
    | stop d₀ pc₀ =>
      rw [hthread] at hst
      have heq := Option.some.inj hst
      obtain rfl : d₀ = d := by
        revert heq
        fun_cases stopMaintenanceTasks s d₀ pc₀ c <;> simp_all
      exact .inl ⟨pc₀, c, rfl, heq⟩
    | _ =>
      rw [hthread] at hact
      cases hact
  · exact .inr ⟨hstay.symm, he⟩

/-- A move into a worker is a step of that worker. -/
theorem Move.worker {w' : Worker} (h : Move cfg s t (.worker w') e) :
    (∃ w, t ∉ s.waiters ∧ s.thread t = .worker w ∧ WorkerStep cfg s w (.worker w') e) ∨
    (s.thread t = .worker w' ∧ (e = .spuriousWakeUp ∨ e = .timerExpires)) := by
  rcases h.statement_or_stay (by simp [Thread.activity]) (fun r hr => by cases r <;> cases hr)
    (fun hx => by cases hx) with ⟨c, hwait, hst, hact⟩ | ⟨hstay, he⟩
  · cases hthread : s.thread t with
    | worker w =>
      rw [hthread] at hst
      exact .inl ⟨w, hwait, rfl, taskExecutionThread_step hst⟩
    | _ =>
      rw [hthread] at hact
      cases hact
  · exact .inr ⟨hstay.symm, he⟩

/-- A worker executes its next statement or stays where it is. -/
theorem Move.of_worker {w : Worker} (h : Move cfg s t l e) (hw : s.thread t = .worker w) :
    WorkerStep cfg s w l e ∨ (l = .worker w ∧ (e = .spuriousWakeUp ∨ e = .timerExpires)) := by
  cases h with
  | run c _ hst =>
    rw [hw] at hst
    exact .inl (taskExecutionThread_step hst)
  | call r hidle | signal hidle =>
    rw [hw] at hidle
    cases hidle
  | wakeUp => exact .inr ⟨hw, .inl rfl⟩
  | timerExpires => exact .inr ⟨hw, .inr rfl⟩

/-- The same for `startMaintenance`. -/
theorem Move.of_start {pc : StartPc} (h : Move cfg s t l e) (hp : s.thread t = .start pc) :
    (∃ c, startMaintenance s pc c = (l, e)) ∨
      (l = .start pc ∧ (e = .spuriousWakeUp ∨ e = .timerExpires)) := by
  cases h with
  | run c _ hst =>
    rw [hp] at hst
    exact .inl ⟨c, Option.some.inj hst⟩
  | call r hidle | signal hidle =>
    rw [hp] at hidle
    cases hidle
  | wakeUp => exact .inr ⟨hp, .inl rfl⟩
  | timerExpires => exact .inr ⟨hp, .inr rfl⟩

/-! ## The committed state -/

section Commit

@[simp] theorem commit_thread_self : (s.commit cfg t l e).thread t = l := by
  simp [Sys.commit]

theorem commit_thread_of_ne (hu : u ≠ t) :
    (s.commit cfg t l e).thread u = (e.apply cfg t s).thread u := by
  simp [Sys.commit, hu]

@[simp] theorem commit_owner : (s.commit cfg t l e).owner = (e.apply cfg t s).owner := rfl
@[simp] theorem commit_waiters : (s.commit cfg t l e).waiters = (e.apply cfg t s).waiters := rfl
@[simp] theorem commit_mThread : (s.commit cfg t l e).mThread = (e.apply cfg t s).mThread := rfl
@[simp] theorem commit_notifyStatus :
    (s.commit cfg t l e).notifyStatus = (e.apply cfg t s).notifyStatus := rfl
@[simp] theorem commit_maintenanceType :
    (s.commit cfg t l e).maintenanceType = (e.apply cfg t s).maintenanceType := rfl
@[simp] theorem commit_abortFlag :
    (s.commit cfg t l e).abortFlag = (e.apply cfg t s).abortFlag := rfl
@[simp] theorem commit_taskStatus :
    (s.commit cfg t l e).taskStatus = (e.apply cfg t s).taskStatus := rfl
@[simp] theorem commit_unsolicitedComplete :
    (s.commit cfg t l e).unsolicitedComplete = (e.apply cfg t s).unsolicitedComplete := rfl
@[simp] theorem commit_taskMap : (s.commit cfg t l e).taskMap = (e.apply cfg t s).taskMap := rfl
@[simp] theorem commit_tasks : (s.commit cfg t l e).tasks = (e.apply cfg t s).tasks := rfl
@[simp] theorem commit_currentTask :
    (s.commit cfg t l e).currentTask = (e.apply cfg t s).currentTask := rfl
@[simp] theorem commit_log : (s.commit cfg t l e).log = (t, e) :: s.log := rfl

/-- Only a new thread changes the program point of another thread. -/
theorem apply_thread (he : ∀ w, e ≠ .create w) : (e.apply cfg t s).thread = s.thread := by
  cases e with
  | create w => exact absurd rfl (he w)
  | _ => rfl

theorem apply_owner (hl : ∀ m, e ≠ .lock m) (hu : ∀ m, e ≠ .unlock m) (hw : ∀ m, e ≠ .wait m) :
    (e.apply cfg t s).owner = s.owner := by
  cases e with
  | lock m => exact absurd rfl (hl m)
  | unlock m => exact absurd rfl (hu m)
  | wait m => exact absurd rfl (hw m)
  | _ => rfl

theorem apply_notifyStatus (h : ∀ st, e ≠ .onMaintenanceStatusChange st) :
    (e.apply cfg t s).notifyStatus = s.notifyStatus := by
  cases e with
  | onMaintenanceStatusChange st => exact absurd rfl (h st)
  | _ => rfl

theorem apply_unsolicitedComplete (h : e ≠ .setUnsolicitedComplete) :
    (e.apply cfg t s).unsolicitedComplete = s.unsolicitedComplete := by
  cases e with
  | setUnsolicitedComplete => exact absurd rfl h
  | _ => rfl

/-- The flag is raised and never lowered. -/
theorem apply_unsolicitedComplete_mono (h : s.unsolicitedComplete = true) :
    (e.apply cfg t s).unsolicitedComplete = true := by
  cases e with
  | setUnsolicitedComplete => rfl
  | _ => exact h

theorem commit_thread_other (hu : u ≠ t) (he : ∀ w, e ≠ .create w) :
    (s.commit cfg t l e).thread u = s.thread u := by
  rw [commit_thread_of_ne hu, apply_thread he]

theorem commit_thread_create {w : Tid} (hw : w ≠ t) :
    (s.commit cfg t l (.create w)).thread w = .worker (Worker.create cfg) := by
  rw [commit_thread_of_ne hw]
  simp [Effect.apply]

theorem commit_thread_create_of_ne {w : Tid} (hu : u ≠ t) (huw : u ≠ w) :
    (s.commit cfg t l (.create w)).thread u = s.thread u := by
  rw [commit_thread_of_ne hu]
  simp [Effect.apply, huw]

/-- A thread that does something is not the new worker, so only its own moves move it. -/
theorem commit_thread_of_not_idle (hen : e.enabled s t = true) (hut : u ≠ t)
    (hu : s.thread u ≠ .idle) : (s.commit cfg t l e).thread u = s.thread u := by
  rw [commit_thread_of_ne hut]
  cases e with
  | create w =>
    have huw : u ≠ w := by
      rintro rfl
      exact hu (Thread.isIdle_iff.mp hen)
    simp [Effect.apply, huw]
  | _ => rfl

/-- A thread that is not idle stays where it is when another one moves. -/
theorem commit_thread_stays {l' : Thread} (hen : e.enabled s t = true) (hut : u ≠ t)
    (hu : s.thread u = l') (hl : l' ≠ .idle) : (s.commit cfg t l e).thread u = l' :=
  (commit_thread_of_not_idle hen hut (hu ▸ hl)).trans hu

theorem commit_thread_of_not_worker {l' : Thread} (hut : u ≠ t)
    (hu : (s.commit cfg t l e).thread u = l') (hl : ∀ w, l' ≠ .worker w) : s.thread u = l' := by
  rw [commit_thread_of_ne hut] at hu
  cases e with
  | create w =>
    by_cases huw : u = w
    · subst huw
      simp only [Effect.apply, Function.update_self] at hu
      exact absurd hu.symm (hl _)
    · simpa [Effect.apply, huw] using hu
  | _ => exact hu

/-- An assertion about every thread is kept when the moving thread establishes it where it
goes, every other thread keeps it where it stands, and a new worker starts with it. -/
theorem forall_threads_commit {A B : Tid → Thread → Prop} (hall : ∀ u, A u (s.thread u))
    (own : B t l) (other : ∀ u, u ≠ t → A u (s.thread u) → B u (s.thread u))
    (new : ∀ w, e = .create w → B w (.worker (Worker.create cfg))) (u : Tid) :
    B u ((s.commit cfg t l e).thread u) := by
  by_cases hu : u = t
  · subst hu
    rw [commit_thread_self]
    exact own
  · rw [commit_thread_of_ne hu]
    cases e with
    | create w =>
      by_cases hw : u = w
      · subst hw
        simpa [Effect.apply] using new u rfl
      · simpa [Effect.apply, hw] using other u hu (hall u)
    | _ => exact other u hu (hall u)

end Commit

end SoftwareUpdate.MaintenanceManager
