import SoftwareUpdate.Misc.TransitionSystem
import SoftwareUpdate.MaintenanceManager.Callers

/-!
# The plugin as a transition system

A step is one statement of one thread, the start of a call, a spurious wake-up of the
condition variable, or an event of the task timer. Runs start in the state
`maintenanceManagerOnBootup` leaves behind.
-/

namespace SoftwareUpdate.MaintenanceManager

open Misc

/-- The first program point of a call. -/
def Request.entry : Request → Thread
  | .startMaintenance => .start .lock
  | .stopMaintenance => .stop false .lock
  | .deinitializePlugin => .stop true .deleteTimer
  | .iarmEvent ev => .event (.testInstance ev)
  | .deviceContext hasContext => .context (.test hasContext)
  | .internetStatus state => .internet (.test state)
  | .maintenanceMode => .mode .lockCall

/-- The statement a thread executes next. -/
def statement (cfg : Config) (s : Sys) (c : Choice) : Thread → Option (Thread × Effect)
  | .idle | .finished => none
  | .worker w => taskExecutionThread cfg s w c
  | .start pc => some (startMaintenance s pc c)
  | .stop deinit pc => some (stopMaintenanceTasks s deinit pc c)
  | .event pc => some (iarmEventHandler cfg s pc c)
  | .timer pc => some (timerHandler s pc c)
  | .context pc => some (deviceInitializationContextEventHandler s pc c)
  | .internet pc => some (internetStatusChangeEventHandler s pc)
  | .mode pc => some (maintenanceMode pc)

/-- What can happen next. -/
inductive Action where
  | run (t : Tid) (c : Choice)
  | call (t : Tid) (r : Request)
  | wakeUp (t : Tid)
  | timerExpires
  | signal (t : Tid)

/-- The thread that an action concerns, where it goes, and the effect. A thread inside
`wait` does nothing until it is woken, a call is made and SIGALRM is handled by a thread
that does nothing else. -/
def offer (cfg : Config) (s : Sys) : Action → Option (Tid × Thread × Effect)
  | .run t c =>
      if s.waiters.contains t then none else (statement cfg s c (s.thread t)).map fun p => (t, p)
  | .call t r => if (s.thread t).isIdle then some (t, r.entry, .call r) else none
  | .wakeUp t => some (t, s.thread t, .spuriousWakeUp)
  | .timerExpires => some (0, s.thread 0, .timerExpires)
  | .signal t => if (s.thread t).isIdle then some (t, .timer .readTask, .signal) else none

def step (cfg : Config) (s : Sys) (a : Action) : Option Sys :=
  match offer cfg s a with
  | some (t, l, e) => if e.enabled s t then some (s.commit cfg t l e) else none
  | none => none

/-- The state after `maintenanceManagerOnBootup` on a freshly constructed plugin. When the
worker cannot be created, the boot cycle is over and reported as an error at once. -/
def maintenanceManagerOnBootup (cfg : Config) (threadCreated : Bool) : Sys where
  thread := Function.update (fun _ => .idle) 0
    (if threadCreated then .worker (Worker.create cfg) else .idle)
  owner := fun _ => none
  waiters := []
  mThread := if threadCreated then some 0 else none
  notifyStatus := if threadCreated then .idle else .error
  maintenanceType := .unsolicited
  abortFlag := false
  taskStatus := 0
  unsolicitedComplete := !threadCreated
  listenToNwevents := false
  listenToDeviceContextUpdate := false
  isCriticalMaintenance := "false"
  isRebootPending := "false"
  lastSuccessfulCompletionTime := none
  taskMap := fun _ => false
  tasks := []
  currentTask := none
  taskTimerCreated := false
  taskTimerArmed := false
  signalPending := false
  eventHandlerRegistered := true
  instanceSet := true
  serviceSet := true
  log :=
    (if threadCreated then [] else [(0, .onMaintenanceStatusChange .error)]) ++
      [(0, .onMaintenanceStatusChange .idle)]

/-- The plugin after boot-up. -/
def plugin (cfg : Config) : TransitionSystem Sys Action where
  init s := ∃ threadCreated, s = maintenanceManagerOnBootup cfg threadCreated
  step := step cfg

/-- The states reached by the runs in which every move that is made, of thread `t` into `l`
with effect `e`, meets the condition `C s t l e` in the state `s` before it. -/
def ReachedWhere (cfg : Config) (C : Sys → Tid → Thread → Effect → Prop) : Sys → Prop :=
  (plugin cfg).ReachableWhere fun s a => ∀ t l e, offer cfg s a = some (t, l, e) → C s t l e

/-! ## Schedules -/

/-- A device, with or without WhoAmI support and suppressed maintenance. -/
def device (whoami suppress : Bool) : Config where
  whoamiSupportEnabled := whoami
  suppressMaintenanceEnabled := suppress
  maintenanceMgrName := "MaintenanceMGR"
  eventUpdate := 0

/-- Thread `t` executes `n` statements, and every call it makes fails. -/
def runs (t : Tid) (n : ℕ) : List Action := List.replicate n (.run t {})

/-- Thread `t` executes one statement, and the call it makes succeeds. -/
def succeeds (t : Tid) : List Action := [.run t { answer := true, created := true }]

/-- The worker, online, goes up to the loop over the tasks. -/
def startsUp (w : Tid) : List Action := runs w 6 ++ succeeds w ++ runs w 5

/-- The worker takes the next task, launches it and waits for it. -/
def launches (w : Tid) : List Action :=
  runs w 3 ++ succeeds w ++ runs w 1 ++ succeeds w ++ runs w 1

/-- Thread `t` receives a module status from a process of the given cycle and executes `n`
statements of the handler. -/
def delivers (t : Tid) (status : ModuleStatus) (n : ℕ) (cycle : ℕ := 0) : List Action :=
  .call t (.iarmEvent ⟨"MaintenanceMGR", 0, status, cycle⟩) :: runs t n

/-- The timer expires while the worker `w` waits; the handler runs on thread `t`. -/
def timesOut (w t : Tid) : List Action :=
  [.timerExpires, .signal t] ++ runs t 4 ++ .run t { woken := some w } :: runs w 2

/-- Thread `t` receives the outcome of a task, which wakes the worker `w`. -/
def deliversOutcome (t : Tid) (status : ModuleStatus) (w : Tid) : List Action :=
  delivers t status (match status with | .error _ => 6 | _ => 7) ++
    .run t { woken := some w } :: runs t 4

/-- All three tasks complete, and the handler of the last event waits for the worker. -/
def allComplete : List Action :=
  startsUp 0 ++ launches 0 ++ deliversOutcome 1 (.complete .rfc) 0 ++ runs 0 2 ++
    launches 0 ++ deliversOutcome 1 (.complete .swupdate) 0 ++ runs 0 2 ++
    launches 0 ++ deliversOutcome 1 (.complete .logupload) 0 ++ runs 1 2 ++ runs 0 6

end SoftwareUpdate.MaintenanceManager
