import SoftwareUpdate.MaintenanceManager.Proofs.Moves

/-!
# Which statement has which effect

`Effect.origin s l₀ e` names the program points `l₀` at which a thread can have the effect
`e`. Every claim about who writes a part of the state starts from here, so that a statement
added to one of the functions shows up in one place.
-/

namespace SoftwareUpdate.MaintenanceManager

variable {cfg : Config} {s : Sys} {t : Tid} {l l₀ : Thread} {e : Effect}

/-- The mutex a thread is about to acquire. -/
def Thread.wants : Thread → Option Mutex
  | .worker w =>
      match w.pc with
      | .lockWai | .wakeContext => some .wai
      | .lockStarted | .lockError => some .status
      | .lockCall | .wakeTask => some .call
      | _ => none
  | .start .lock | .stop _ .lock | .event (.lock _) => some .status
  | .start .lockCall | .mode .lockCall => some .call
  | _ => none

def Effect.origin (s : Sys) (l₀ : Thread) : Effect → Prop
  | .onMaintenanceStatusChange v =>
      (∃ w, l₀ = .worker w ∧
        (w.pc = .notifyStarted ∧ v = .started ∨ w.pc = .notifyError ∧ v = .error)) ∨
      (∃ d, l₀ = .stop d .notifyError ∧ v = .error) ∨ l₀ = .event (.notify v)
  | .join w =>
      (∃ prev, l₀ = .start (.join w prev)) ∨ (∃ d, l₀ = .stop d (.join w)) ∨
      ∃ v, l₀ = .event (.join w v)
  | .create _ => ∃ prev, l₀ = .start (.create prev)
  | .clearTaskStatus => l₀ = .start .clearTaskStatus
  | .setMaintenanceType type => l₀ = .start .setType ∧ type = .solicited
  | .setAbortFlag true => ∃ d, l₀ = .stop d .setAbort
  | .setAbortFlag false =>
      l₀ = .start .clearAbort ∨ ∃ w, l₀ = .worker w ∧ w.pc = .clearAbort
  | .setUnsolicitedComplete =>
      (∃ w, l₀ = .worker w ∧ w.pc = .setUnsolicited) ∨ (∃ d, l₀ = .stop d .setUnsolicited) ∨
      ∃ v, l₀ = .event (.setUnsolicited v)
  | .setStatus n cause =>
      (∃ status rest, l₀ = .event (.body status (.setStatus n :: rest)) ∧
        cause = .event status) ∨
      (∃ u, l₀ = .timer (.setComplete u) ∧ n = completeBit u ∧ cause = .timeout) ∨
      (∃ w u, l₀ = .worker w ∧ w.pc = .failComplete ∧ s.tasks[w.i]? = some u ∧
        n = completeBit u ∧ cause = .launchFailed) ∨
      ∃ w, l₀ = .worker w ∧ cause = .firmwareSkipped ∧
        (w.pc = .markSuccess ∧ n = successBit .swupdate ∨
          w.pc = .markComplete ∧ n = completeBit .swupdate)
  | .setTaskMap u b =>
      (∃ status rest, l₀ = .event (.body status (.setTaskMap u b :: rest))) ∨
      (l₀ = .timer (.clearMap u) ∧ b = false) ∨ (∃ d, l₀ = .stop d (.clearMap u) ∧ b = false) ∨
      ∃ w, l₀ = .worker w ∧ s.tasks[w.i]? = some u ∧
        (w.pc = .setMap ∧ b = true ∨ w.pc = .clearMap ∧ b = false)
  | .notifyOne _ =>
      (∃ status rest, l₀ = .event (.body status (.notifyOne :: rest))) ∨
      (∃ u, l₀ = .timer (.notify u)) ∨ (∃ d, l₀ = .stop d .notify) ∨ l₀ = .context .notify
  | .wait m =>
      ∃ w, l₀ = .worker w ∧ (w.pc = .waitContext ∧ m = .wai ∨ w.pc = .waitTask ∧ m = .call)
  | .setTasks _ => ∃ w, l₀ = .worker w ∧ (w.pc = .eraseTasks ∨ w.pc = .pushTasks)
  | .setCurrentTask u => ∃ w, l₀ = .worker w ∧ w.pc = .setCurrent ∧ s.tasks[w.i]? = some u
  | .system u _ => ∃ w, l₀ = .worker w ∧ w.pc = .launch ∧ s.tasks[w.i]? = some u
  | .startTimer _ _ => ∃ w, l₀ = .worker w ∧ w.pc = .startTimer
  | .stopTimer _ =>
      (∃ w, l₀ = .worker w ∧ (w.pc = .stopTimer ∨ w.pc = .stopTimerEnd)) ∨
      ∃ d, l₀ = .stop d .stopTimer
  | .deleteTimer _ => ∃ d, l₀ = .stop d .deleteTimer
  | .abortTask u _ => ∃ d, l₀ = .stop d (.abortTask u)
  | .handle status => l₀ = .event (.dispatch status)
  | .storeTime _ => l₀ = .event .storeTime
  | .removeEventHandler => ∃ d, l₀ = .stop d .removeEventHandler
  | .clearInstance => ∃ d, l₀ = .stop d .clearInstance
  | .clearService => ∃ d, l₀ = .stop d .clearService
  | .call _ => l₀ = .idle
  | .signal => l₀ = .idle
  | .setListenNetwork _ => (∃ w, l₀ = .worker w) ∨ l₀ = .internet .clearListen
  | .setListenContext _ => (∃ w, l₀ = .worker w) ∨ l₀ = .context .clearListen
  | .lock m => l₀.wants = some m
  | .unlock _ | .startCriticalTasks | .setRebootPending _ | .setCritical _ | .tau
  | .spuriousWakeUp | .timerExpires => True

theorem WorkerStep.origin {w : Worker} (h : WorkerStep cfg s w l e) : e.origin s (.worker w) := by
  cases h <;> simp [Effect.origin, Thread.wants, *]

theorem CaseStmt.origin (x : CaseStmt) (status : ModuleStatus) (rest : List CaseStmt)
    (c : Choice) : (x.effect status c).origin s (.event (.body status (x :: rest))) := by
  cases x <;> simp [CaseStmt.effect, Effect.origin]

theorem statement_origin {c : Choice} (h : statement cfg s c l₀ = some (l, e)) :
    e.origin s l₀ := by
  have of_eq {p : Thread × Effect} (ho : p.2.origin s l₀) (hp : some p = some (l, e)) :
      e.origin s l₀ := by
    rwa [Option.some.inj hp] at ho
  cases l₀ with
  | idle | finished => cases h
  | worker w => exact (taskExecutionThread_step h).origin
  | start pc =>
    refine of_eq ?_ h
    fun_cases startMaintenance s pc c <;> simp [Effect.origin, Thread.wants]
  | stop deinit pc =>
    refine of_eq ?_ h
    fun_cases stopMaintenanceTasks s deinit pc c <;> simp [Effect.origin, Thread.wants]
  | event pc =>
    refine of_eq ?_ h
    fun_cases iarmEventHandler cfg s pc c
    case case9 status x rest => exact x.origin status rest c
    all_goals simp [Effect.origin, Thread.wants]
  | timer pc =>
    refine of_eq ?_ h
    fun_cases timerHandler s pc c <;> simp [Effect.origin]
  | context pc =>
    refine of_eq ?_ h
    fun_cases deviceInitializationContextEventHandler s pc c <;> simp [Effect.origin]
  | internet pc =>
    refine of_eq ?_ h
    fun_cases internetStatusChangeEventHandler s pc <;> simp [Effect.origin]
  | mode pc =>
    refine of_eq ?_ h
    fun_cases maintenanceMode pc <;> simp [Effect.origin, Thread.wants]

theorem Move.origin (h : Move cfg s t l e) : e.origin s (s.thread t) := by
  cases h with
  | run c _ h => exact statement_origin h
  | call r hidle => exact hidle
  | wakeUp | timerExpires => trivial
  | signal hidle => exact hidle

end SoftwareUpdate.MaintenanceManager
