import Mathlib.Logic.Function.Basic
import SoftwareUpdate.MaintenanceManager.Status

/-!
# The plugin's state and the effects of single statements

The plugin is run by several threads: the worker (`task_execution_thread`), API calls, IARM
and Thunder event handlers, and the SIGALRM handler. A thread is at a program point, and a
step of it executes the statement found there. Every statement reads the shared state and
has at most one effect on it, so that all interleavings of statements are runs of the model;
what only touches the thread's own variables is folded into the step before it.

The shared state is the data members of `MaintenanceManager`, the three mutexes, the waiters
of the condition variable `task_thread`, the task timer and `m_thread`. It also keeps the
`log` of the effects executed so far, newest first: claims about what happened in a cycle
are claims about the log.
-/

namespace SoftwareUpdate.MaintenanceManager

open Misc.BitField

/-- Thread identifiers. -/
abbrev Tid := ℕ

/-- `m_statusMutex`, `m_callMutex`, `m_waiMutex`. -/
inductive Mutex where
  | status
  | call
  | wai
  deriving DecidableEq, Repr

/-- What is fixed when the plugin has been initialised: `g_whoami_support_enabled` (read from
the device properties), `g_suppress_maintenance_enabled` (a build option), the names the IARM
headers give the owner and the event, and `TASK_RETRY_COUNT`. -/
structure Config where
  whoamiSupportEnabled : Bool
  suppressMaintenanceEnabled : Bool
  maintenanceMgrName : String
  eventUpdate : ℕ
  taskRetryCount : ℕ := 1

/-- An IARM event as `_MaintenanceMgrEventHandler` receives it. The event does not say which
process has sent it; `cycle` is the number of the cycle that has launched the process, and no
statement reads it. -/
structure IarmEvent where
  owner : String
  eventId : ℕ
  status : ModuleStatus
  cycle : ℕ
  deriving DecidableEq, Repr

/-- Who executes a `SET_STATUS`: the handler of an event, `timer_handler`, the worker whose
launch attempts are exhausted, or the worker that leaves the firmware task out. -/
inductive Cause where
  | event (status : ModuleStatus)
  | timeout
  | launchFailed
  | firmwareSkipped
  deriving DecidableEq, Repr

/-! ## Program points -/

/-- Program points of `task_execution_thread`, named after the statement that comes next. -/
inductive WorkerPc where
  | lockWai
  | decideDelay
  | lockStarted
  | notifyStarted
  | unlockStarted
  | eraseTasks
  | checkActivation
  | checkNetwork
  | branchWhoAmI
  | checkActivated
  | knowWhoAmI
  | branchContext
  | listenContext
  | testContext
  | waitContext
  | wakeContext
  | branchExit
  | lockError
  | notifyError
  | unlockError
  | branchUnsolicited
  | setUnsolicited
  | listenNetwork
  | branchSkip
  | markSuccess
  | markComplete
  | pushTasks
  | lockCall
  | loopTest
  | setCurrent
  | abortTest
  | startTimer
  | setMap
  | launch
  | clearMap
  | failComplete
  | waitTask
  | wakeTask
  | stopTimer
  | abortEnd
  | clearAbort
  | stopTimerEnd
  | unlockCall
  | unlockWai
  deriving DecidableEq, Repr

/-- A worker: its program point and the local variables of `task_execution_thread`. -/
structure Worker where
  pc : WorkerPc
  i : ℕ
  internetConnectStatus : Bool
  delayMaintenanceStarted : Bool
  exitOnNoNetwork : Bool
  retryCount : ℕ
  isTaskTimerStarted : Bool
  skipFirmwareCheck : Bool
  activationStatus : ActivationStatus
  whoAmIStatus : Bool
  deriving DecidableEq, Repr

/-- `startMaintenance`; `prev` is `prev_critical_maintenance`. -/
inductive StartPc where
  | lock
  | guard
  | lockCall
  | unlockCall
  | clearTaskStatus
  | setType
  | clearAbort
  | setReboot
  | clearCritical
  | testJoinable (prev : String)
  | join (w : Tid) (prev : String)
  | create (prev : String)
  | rollback (prev : String)
  | unlock (result : Bool)
  deriving DecidableEq, Repr

/-- `stopMaintenanceTasks`, preceded and followed by the statements of `Deinitialize` when it
is called from there; `read` is the array `task_status`. -/
inductive StopPc where
  | deleteTimer
  | lock
  | testStarted
  | setAbort
  | readMap (t : Task) (read : Task → Bool)
  | abortTask (t : Task)
  | clearMap (t : Task)
  | stopTimer
  | notify
  | testJoinable
  | join (w : Tid)
  | branchUnsolicited
  | setUnsolicited
  | notifyError
  | unlock (result : Bool)
  | removeEventHandler
  | clearInstance
  | clearService

/-- The statements of one case of the `switch` in `iarmEventHandler`. -/
inductive CaseStmt where
  | setStatus (n : ℕ)
  | notifyOne
  | setTaskMap (t : Task) (b : Bool)
  | setRebootPending
  | setCritical
  deriving DecidableEq, Repr

/-- `_MaintenanceMgrEventHandler` and `iarmEventHandler`; `v` is `notify_status`. -/
inductive EventPc where
  | testInstance (ev : IarmEvent)
  | enter (ev : IarmEvent)
  | lock (ev : IarmEvent)
  | testAbort (ev : IarmEvent)
  | dispatch (status : ModuleStatus)
  | body (status : ModuleStatus) (rest : List CaseStmt)
  | testCompleted
  | testSuccess
  | testNotSuccess
  | testSkipped
  | storeTime
  | testJoinable (v : NotifyStatus)
  | join (w : Tid) (v : NotifyStatus)
  | branchUnsolicited (v : NotifyStatus)
  | setUnsolicited (v : NotifyStatus)
  | notify (v : NotifyStatus)
  | unlock
  deriving DecidableEq, Repr

/-- `timer_handler`; the task is `failedTask`. -/
inductive TimerPc where
  | readTask
  | testMap (t : Task)
  | clearMap (t : Task)
  | setComplete (t : Task)
  | notify (t : Task)
  deriving DecidableEq, Repr

/-- `deviceInitializationContextEventHandler`. -/
inductive ContextPc where
  | test (hasContext : Bool)
  | setContext
  | clearListen
  | notify
  deriving DecidableEq, Repr

/-- `internetStatusChangeEventHandler`. -/
inductive InternetPc where
  | test (state : ℤ)
  | criticalTasks
  | clearListen
  deriving DecidableEq, Repr

/-- `getMaintenanceActivityStatus` and `setMaintenanceMode`, of which only the use of
`m_callMutex` concerns the other threads. -/
inductive ModePc where
  | lockCall
  | unlockCall
  deriving DecidableEq, Repr

/-- What a thread executes. A worker that has returned is `finished` and can be joined; any
other thread that has returned from its call is `idle`. -/
inductive Thread where
  | idle
  | finished
  | worker (w : Worker)
  | start (pc : StartPc)
  | stop (deinit : Bool) (pc : StopPc)
  | event (pc : EventPc)
  | timer (pc : TimerPc)
  | context (pc : ContextPc)
  | internet (pc : InternetPc)
  | mode (pc : ModePc)

def Thread.isIdle : Thread → Bool
  | .idle => true
  | _ => false

def Thread.isFinished : Thread → Bool
  | .finished => true
  | _ => false

/-- Calls into the plugin. -/
inductive Request where
  | startMaintenance
  | stopMaintenance
  | deinitializePlugin
  | iarmEvent (ev : IarmEvent)
  | deviceContext (hasContext : Bool)
  | internetStatus (state : ℤ)
  | maintenanceMode
  deriving DecidableEq, Repr

/-! ## Effects -/

/-- The effect of one statement on the shared state, or of one event outside the plugin. -/
inductive Effect where
  | tau
  | lock (m : Mutex)
  | unlock (m : Mutex)
  | wait (m : Mutex)
  | notifyOne (woken : Option Tid)
  | join (w : Tid)
  | create (w : Tid)
  | onMaintenanceStatusChange (status : NotifyStatus)
  | setStatus (n : ℕ) (cause : Cause)
  | clearTaskStatus
  | setTaskMap (t : Task) (b : Bool)
  | setAbortFlag (b : Bool)
  | setMaintenanceType (type : MaintenanceType)
  | setUnsolicitedComplete
  | setListenNetwork (b : Bool)
  | setListenContext (b : Bool)
  | setTasks (ts : List Task)
  | setCurrentTask (t : Task)
  | startTimer (created armed : Bool)
  | stopTimer (disarmed : Bool)
  | deleteTimer (deleted : Bool)
  | system (t : Task) (launched : Bool)
  | startCriticalTasks
  | abortTask (t : Task) (killed : Bool)
  | setRebootPending (v : String)
  | setCritical (v : String)
  | storeTime (time : ℤ)
  | handle (status : ModuleStatus)
  | removeEventHandler
  | clearInstance
  | clearService
  | call (r : Request)
  | spuriousWakeUp
  | timerExpires
  | signal
  deriving DecidableEq, Repr

/-- The shared state, the program point of every thread, and the log. -/
structure Sys where
  thread : Tid → Thread
  owner : Mutex → Option Tid
  waiters : List Tid
  mThread : Option Tid
  notifyStatus : NotifyStatus
  maintenanceType : MaintenanceType
  abortFlag : Bool
  taskStatus : BitVec 16
  unsolicitedComplete : Bool
  listenToNwevents : Bool
  listenToDeviceContextUpdate : Bool
  isCriticalMaintenance : String
  isRebootPending : String
  lastSuccessfulCompletionTime : Option ℤ
  taskMap : Task → Bool
  tasks : List Task
  currentTask : Option Task
  taskTimerCreated : Bool
  taskTimerArmed : Bool
  signalPending : Bool
  eventHandlerRegistered : Bool
  instanceSet : Bool
  serviceSet : Bool
  log : List (Tid × Effect)

/-- A worker about to execute the first statement of `task_execution_thread`. -/
def Worker.create (cfg : Config) : Worker where
  pc := .lockWai
  i := 0
  internetConnectStatus := false
  delayMaintenanceStarted := false
  exitOnNoNetwork := false
  retryCount := cfg.taskRetryCount
  isTaskTimerStarted := false
  skipFirmwareCheck := false
  activationStatus := .invalid
  whoAmIStatus := false

/-- Whether the effect can be executed now: a mutex is acquired only when nobody owns it,
`join` returns only when the thread has finished, `notify_one` wakes one of the waiters if
there is any, and a new thread is one that does nothing else. -/
def Effect.enabled (s : Sys) (t : Tid) : Effect → Bool
  | .lock m => (s.owner m).isNone
  | .notifyOne none => s.waiters.isEmpty
  | .notifyOne (some u) => s.waiters.contains u
  | .join w => (s.thread w).isFinished
  | .create w => (s.thread w).isIdle
  | .spuriousWakeUp => s.waiters.contains t
  | .timerExpires => s.taskTimerArmed
  | .signal => s.signalPending
  | .call (.iarmEvent _) => s.eventHandlerRegistered
  | _ => true

/-- The shared state after thread `t` has executed the effect. -/
def Effect.apply (cfg : Config) (t : Tid) (s : Sys) : Effect → Sys
  | .lock m => { s with owner := Function.update s.owner m (some t) }
  | .unlock m => { s with owner := Function.update s.owner m none }
  | .wait m => { s with owner := Function.update s.owner m none, waiters := t :: s.waiters }
  | .notifyOne woken => { s with waiters := woken.elim s.waiters s.waiters.erase }
  | .join _ => { s with mThread := none }
  | .create w =>
      { s with
        mThread := some w
        thread := Function.update s.thread w (.worker (Worker.create cfg)) }
  | .onMaintenanceStatusChange status => { s with notifyStatus := status }
  | .setStatus n _ => { s with taskStatus := raise s.taskStatus n }
  | .clearTaskStatus => { s with taskStatus := 0 }
  | .setTaskMap u b => { s with taskMap := Function.update s.taskMap u b }
  | .setAbortFlag b => { s with abortFlag := b }
  | .setMaintenanceType type => { s with maintenanceType := type }
  | .setUnsolicitedComplete => { s with unsolicitedComplete := true }
  | .setListenNetwork b => { s with listenToNwevents := b }
  | .setListenContext b => { s with listenToDeviceContextUpdate := b }
  | .setTasks ts => { s with tasks := ts }
  | .setCurrentTask u => { s with currentTask := some u }
  | .startTimer created armed =>
      { s with
        taskTimerCreated := s.taskTimerCreated || created
        taskTimerArmed := s.taskTimerArmed || ((s.taskTimerCreated || created) && armed) }
  | .stopTimer disarmed =>
      { s with taskTimerArmed := s.taskTimerArmed && !(s.taskTimerCreated && disarmed) }
  | .deleteTimer deleted =>
      { s with
        taskTimerCreated := s.taskTimerCreated && !deleted
        taskTimerArmed := s.taskTimerArmed && !(s.taskTimerCreated && deleted) }
  | .setRebootPending v => { s with isRebootPending := v }
  | .setCritical v => { s with isCriticalMaintenance := v }
  | .storeTime time => { s with lastSuccessfulCompletionTime := some time }
  | .removeEventHandler => { s with eventHandlerRegistered := false }
  | .clearInstance => { s with instanceSet := false }
  | .clearService => { s with serviceSet := false }
  | .spuriousWakeUp => { s with waiters := s.waiters.erase t }
  -- a SIGALRM that is pending already is not queued a second time
  | .timerExpires => { s with taskTimerArmed := false, signalPending := true }
  | .signal => { s with signalPending := false }
  | .tau | .system _ _ | .startCriticalTasks | .abortTask _ _ | .handle _ | .call _ => s

/-- Thread `t` executes the effect and goes on to `l`. -/
def Sys.commit (cfg : Config) (s : Sys) (t : Tid) (l : Thread) (e : Effect) : Sys :=
  let s' := e.apply cfg t s
  { s' with thread := Function.update s'.thread t l, log := (t, e) :: s.log }

end SoftwareUpdate.MaintenanceManager
