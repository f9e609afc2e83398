import SoftwareUpdate.MaintenanceManager.Worker

/-!
# API calls and event handlers

The statements of `startMaintenance`, `stopMaintenanceTasks` with `Deinitialize`,
`iarmEventHandler`, `timer_handler` and the two Thunder event handlers.
-/

namespace SoftwareUpdate.MaintenanceManager

/-! ## `startMaintenance` -/

def startMaintenance (s : Sys) (pc : StartPc) (c : Choice) : Thread × Effect :=
  match pc with
  | .lock => (.start .guard, .lock .status)
  | .guard =>
      if s.notifyStatus ≠ .started ∧ s.unsolicitedComplete then
        (.start .lockCall, .tau)
      else
        (.start (.unlock false), .tau)
  | .lockCall => (.start .unlockCall, .lock .call)
  | .unlockCall => (.start .clearTaskStatus, .unlock .call)
  | .clearTaskStatus => (.start .setType, .clearTaskStatus)
  | .setType => (.start .clearAbort, .setMaintenanceType .solicited)
  | .clearAbort => (.start .setReboot, .setAbortFlag false)
  | .setReboot => (.start .clearCritical, .setRebootPending "true")
  | .clearCritical => (.start (.testJoinable s.isCriticalMaintenance), .setCritical "false")
  | .testJoinable prev =>
      match s.mThread with
      | some w => (.start (.join w prev), .tau)
      | none => (.start (.create prev), .tau)
  | .join w prev => (.start (.create prev), .join w)
  | .create prev =>
      match c.thread with
      | some w => (.start (.unlock true), .create w)
      | none => (.start (.rollback prev), .tau)
  | .rollback prev => (.start (.unlock false), .setCritical prev)
  | .unlock _ => (.idle, .unlock .status)

/-! ## `stopMaintenanceTasks` and `Deinitialize` -/

/-- The first task, in the order of `task_names`, whose entry was read as true. -/
def firstRunning (read : Task → Bool) : Option Task :=
  [Task.rfc, .swupdate, .logupload].find? read

/-- `stopMaintenanceTasks`; `deinit` is set when `Deinitialize` calls it, after deleting the
timer, and then goes on to `DeinitializeIARM` and the release of the service. -/
def stopMaintenanceTasks (s : Sys) (deinit : Bool) (pc : StopPc) (c : Choice) : Thread × Effect :=
  match pc with
  | .deleteTimer => (.stop deinit .lock, .deleteTimer c.answer)
  | .lock => (.stop deinit .testStarted, .lock .status)
  | .testStarted =>
      if s.notifyStatus = .started then
        (.stop deinit .setAbort, .tau)
      else
        (.stop deinit (.unlock false), .tau)
  | .setAbort => (.stop deinit (.readMap .rfc fun _ => false), .setAbortFlag true)
  | .readMap t read =>
      let read' := Function.update read t (s.taskMap t)
      match t with
      | .rfc => (.stop deinit (.readMap .swupdate read'), .tau)
      | .swupdate => (.stop deinit (.readMap .logupload read'), .tau)
      | .logupload =>
          -- only the first entry that is true is looked at
          match firstRunning read' with
          | some u => (.stop deinit (.abortTask u), .tau)
          | none => (.stop deinit .stopTimer, .tau)
  | .abortTask t =>
      if c.answer then
        (.stop deinit (.clearMap t), .abortTask t true)
      else
        (.stop deinit .stopTimer, .abortTask t false)
  | .clearMap t => (.stop deinit .stopTimer, .setTaskMap t false)
  | .stopTimer => (.stop deinit .notify, .stopTimer c.answer)
  | .notify => (.stop deinit .testJoinable, .notifyOne c.woken)
  | .testJoinable =>
      match s.mThread with
      | some w => (.stop deinit (.join w), .tau)
      | none => (.stop deinit .branchUnsolicited, .tau)
  | .join w => (.stop deinit .branchUnsolicited, .join w)
  | .branchUnsolicited =>
      if s.maintenanceType = .unsolicited ∧ s.unsolicitedComplete = false then
        (.stop deinit .setUnsolicited, .tau)
      else
        (.stop deinit .notifyError, .tau)
  | .setUnsolicited => (.stop deinit .notifyError, .setUnsolicitedComplete)
  | .notifyError => (.stop deinit (.unlock true), .onMaintenanceStatusChange .error)
  | .unlock _ =>
      if deinit then
        (.stop deinit .removeEventHandler, .unlock .status)
      else
        (.idle, .unlock .status)
  | .removeEventHandler =>
      -- `Utils::IARM::isConnected()`
      if c.answer then
        (.stop deinit .clearInstance, .removeEventHandler)
      else
        (.stop deinit .clearService, .tau)
  | .clearInstance => (.stop deinit .clearService, .clearInstance)
  | .clearService => (.idle, .clearService)

/-! ## `iarmEventHandler` -/

/-- `MAINT_*_COMPLETE`: ignored unless the task's entry is true. -/
def completeCase (t : Task) (entry : Bool) : List CaseStmt :=
  if entry = true then
    [.setStatus (successBit t), .setStatus (completeBit t), .notifyOne, .setTaskMap t false]
  else
    []

/-- `MAINT_*_ERROR`: the entry is tested the same way and then set to true again. -/
def errorCase (t : Task) (entry : Bool) : List CaseStmt :=
  if entry = true then
    [.setStatus (completeBit t), .notifyOne, .setTaskMap t true]
  else
    []

/-- The cases of the `switch` over the module status. -/
def eventCase (taskMap : Task → Bool) : ModuleStatus → List CaseStmt
  | .complete t => completeCase t (taskMap t)
  | .rebootRequired => [.setStatus rebootRequiredBit, .setRebootPending]
  | .criticalUpdate => [.setCritical]
  | .fwdownloadAborted =>
      [.setStatus taskSkippedBit, .setStatus (completeBit .swupdate), .notifyOne,
        .setTaskMap .swupdate false]
  | .error t => errorCase t (taskMap t)
  | .inprogress t => [.setTaskMap t true]
  | .other => []

/-- The effect of one statement of a case. -/
def CaseStmt.effect (status : ModuleStatus) (c : Choice) : CaseStmt → Effect
  | .setStatus n => .setStatus n (.event status)
  | .notifyOne => .notifyOne c.woken
  | .setTaskMap t b => .setTaskMap t b
  | .setRebootPending => .setRebootPending "true"
  | .setCritical => .setCritical "true"

/-- The event is for this plugin and reports a module status while a cycle is running. -/
def acceptsEvent (cfg : Config) (s : Sys) (ev : IarmEvent) : Bool :=
  !s.abortFlag && ev.owner == cfg.maintenanceMgrName && ev.eventId == cfg.eventUpdate &&
    s.notifyStatus == .started

def iarmEventHandler (cfg : Config) (s : Sys) (pc : EventPc) (c : Choice) : Thread × Effect :=
  match pc with
  | .testInstance ev => if s.instanceSet then (.event (.enter ev), .tau) else (.idle, .tau)
  | .enter ev => (.event (.lock ev), .tau)
  | .lock ev => (.event (.testAbort ev), .lock .status)
  | .testAbort ev =>
      if acceptsEvent cfg s ev then
        (.event (.dispatch ev.status), .tau)
      else
        (.event .unlock, .tau)
  | .dispatch status => (.event (.body status (eventCase s.taskMap status)), .handle status)
  | .body _ [] => (.event .testCompleted, .tau)
  | .body status (x :: rest) => (.event (.body status rest), x.effect status c)
  | .testCompleted =>
      if tasksCompleted s.taskStatus then
        (.event .testSuccess, .tau)
      else
        (.event .unlock, .tau)
  | .testSuccess =>
      if allTasksSuccess s.taskStatus then
        (.event .storeTime, .tau)
      else
        (.event .testNotSuccess, .tau)
  | .testNotSuccess =>
      -- `g_task_status` is read again; when it covers the mask by now, `notify_status`
      -- keeps its initial value
      if allTasksSuccess s.taskStatus then
        (.event (.testJoinable .started), .tau)
      else
        (.event .testSkipped, .tau)
  | .testSkipped =>
      if maintenanceTaskSkipped s.taskStatus then
        (.event (.testJoinable .incomplete), .tau)
      else
        (.event (.testJoinable .error), .tau)
  | .storeTime => (.event (.testJoinable .complete), .storeTime c.time)
  | .testJoinable v =>
      match s.mThread with
      | some w => (.event (.join w v), .tau)
      | none => (.event (.branchUnsolicited v), .tau)
  | .join w v => (.event (.branchUnsolicited v), .join w)
  | .branchUnsolicited v =>
      if s.maintenanceType = .unsolicited ∧ s.unsolicitedComplete = false then
        (.event (.setUnsolicited v), .tau)
      else
        (.event (.notify v), .tau)
  | .setUnsolicited v => (.event (.notify v), .setUnsolicitedComplete)
  | .notify v => (.event .unlock, .onMaintenanceStatusChange v)
  | .unlock => (.idle, .unlock .status)

/-! ## `timer_handler` -/

def timerHandler (s : Sys) (pc : TimerPc) (c : Choice) : Thread × Effect :=
  match pc with
  | .readTask =>
      match s.currentTask with
      | some t => (.timer (.testMap t), .tau)
      | none => (.idle, .tau)
  | .testMap t => if s.taskMap t then (.timer (.clearMap t), .tau) else (.idle, .tau)
  | .clearMap t => (.timer (.setComplete t), .setTaskMap t false)
  | .setComplete t => (.timer (.notify t), .setStatus (completeBit t) .timeout)
  | .notify _ => (.idle, .notifyOne c.woken)

/-! ## Thunder events and the calls that only take `m_callMutex` -/

def deviceInitializationContextEventHandler (s : Sys) (pc : ContextPc) (c : Choice) :
    Thread × Effect :=
  match pc with
  | .test hasContext =>
      if s.listenToDeviceContextUpdate ∧ s.maintenanceType = .unsolicited ∧ hasContext then
        (.context .setContext, .tau)
      else
        (.idle, .tau)
  | .setContext => if c.answer then (.context .clearListen, .tau) else (.idle, .tau)
  | .clearListen => (.context .notify, .setListenContext false)
  | .notify => (.idle, .notifyOne c.woken)

/-- `INTERNET_CONNECTED_STATE`. -/
def internetConnectedState : ℤ := 3

def internetStatusChangeEventHandler (s : Sys) (pc : InternetPc) : Thread × Effect :=
  match pc with
  | .test state =>
      if s.listenToNwevents ∧ state = internetConnectedState then
        (.internet .criticalTasks, .tau)
      else
        (.idle, .tau)
  | .criticalTasks => (.internet .clearListen, .startCriticalTasks)
  | .clearListen => (.idle, .setListenNetwork false)

def maintenanceMode (pc : ModePc) : Thread × Effect :=
  match pc with
  | .lockCall => (.mode .unlockCall, .lock .call)
  | .unlockCall => (.idle, .unlock .call)

/-! ## `getMaintenanceActivityStatus` -/

/-- The response. -/
structure ActivityStatus where
  maintenanceStatus : String
  lastSuccessfulCompletionTime : ℤ
  isCriticalMaintenance : Bool
  isRebootPending : Bool
  success : Bool
  deriving DecidableEq, Repr

/-- `stoi` of the text of a number, which throws when the number is no `int`. -/
def stoi (time : ℤ) : Option ℤ :=
  if -2 ^ 31 ≤ time ∧ time < 2 ^ 31 then some time else none

/-- A flag that is kept as a text; the empty text stands for "false". -/
def readFlag (flag : String) : Bool := (if flag = "" then "false" else flag) = "true"

def getMaintenanceActivityStatus (s : Sys) : ActivityStatus where
  maintenanceStatus := notifyStatusToString s.notifyStatus
  lastSuccessfulCompletionTime :=
    match s.lastSuccessfulCompletionTime with
    | some time => (stoi time).getD 0
    | none => 0
  isCriticalMaintenance := readFlag s.isCriticalMaintenance
  isRebootPending := readFlag s.isRebootPending
  success := true

end SoftwareUpdate.MaintenanceManager
