import SoftwareUpdate.MaintenanceManager.State

/-!
# The worker: `task_execution_thread`

One statement of the worker per step. The answers of the framework and the system (the
activation status, the network check, `system()`, the timer calls) are left open and come
in with the step as a `Choice`.
-/

namespace SoftwareUpdate.MaintenanceManager

/-- What a statement asks of the outside: the answer of a call, the activation status, the
thread `notify_one` wakes, the thread `std::thread` creates (none when it throws), a time. -/
structure Choice where
  answer : Bool := false
  created : Bool := false
  activation : ActivationStatus := .invalid
  woken : Option Tid := none
  thread : Option Tid := none
  time : ℤ := 0
  deriving Repr

/-- `getActivatedStatus`: whether to go on to the network check, and `skipFirmwareCheck`. -/
def getActivatedStatus : ActivationStatus → Bool × Bool
  | .activated => (true, false)
  | .activationDisconnect => (false, false)
  | .notActivated | .activationReady | .activationConnect => (true, true)
  | .invalid => (true, false)

/-- The worker at another program point. -/
def Worker.goto (w : Worker) (pc : WorkerPc) : Thread := .worker { w with pc := pc }

/-- The tasks of the cycle: without the firmware download when it is skipped. -/
def tasksFor (skip : Bool) : List Task :=
  if skip then [.rfc, .logupload] else [.rfc, .swupdate, .logupload]

/-- `!g_whoami_support_enabled && g_suppress_maintenance_enabled && skipFirmwareCheck`. -/
def Worker.skipsFirmware (cfg : Config) (w : Worker) : Bool :=
  !cfg.whoamiSupportEnabled && cfg.suppressMaintenanceEnabled && w.skipFirmwareCheck

/-- The branches over `g_whoami_support_enabled` and `g_maintenance_type` that follow the
network check; only an unsolicited cycle with WhoAmI support asks further. -/
def branchWhoAmI (cfg : Config) (s : Sys) (w : Worker) : Thread :=
  if cfg.whoamiSupportEnabled ∧ s.maintenanceType = .unsolicited then
    w.goto .checkActivated
  else
    .worker { w with pc := .branchExit, exitOnNoNetwork := !w.internetConnectStatus }

/-- `if (!whoAmIStatus && activation_status != "activated") … else if …`. -/
def branchContext (w : Worker) : Thread :=
  if w.whoAmIStatus = false ∧ w.activationStatus ≠ .activated then
    w.goto .listenContext
  else
    .worker { w with
      pc := .branchExit
      exitOnNoNetwork := !w.internetConnectStatus && w.activationStatus == .activated }

/-- `task_startTimer`: the timer is created when there is none, then armed. -/
def taskStartTimer (s : Sys) (created armed : Bool) : Bool × Effect :=
  ((s.taskTimerCreated || created) && armed, .startTimer created armed)

/-- The statement thread `t` executes at `w.pc`, where it goes and what it does. -/
def taskExecutionThread (cfg : Config) (s : Sys) (w : Worker) (c : Choice) :
    Option (Thread × Effect) :=
  match w.pc with
  | .lockWai => some (w.goto .decideDelay, .lock .wai)
  | .decideDelay =>
      -- STARTED is delayed only for the boot cycle of a WhoAmI device
      if s.maintenanceType = .unsolicited ∧ cfg.whoamiSupportEnabled then
        some (.worker { w with pc := .eraseTasks, delayMaintenanceStarted := true }, .tau)
      else
        some (w.goto .lockStarted, .tau)
  | .lockStarted => some (w.goto .notifyStarted, .lock .status)
  | .notifyStarted => some (w.goto .unlockStarted, .onMaintenanceStatusChange .started)
  | .unlockStarted =>
      -- the same three statements stand before and after the network check
      some (w.goto (if w.delayMaintenanceStarted then .branchSkip else .eraseTasks),
        .unlock .status)
  | .eraseTasks =>
      if !cfg.whoamiSupportEnabled && cfg.suppressMaintenanceEnabled then
        some (w.goto .checkActivation, .setTasks [])
      else
        some (w.goto .checkNetwork, .setTasks [])
  | .checkActivation =>
      let (proceed, skip) := getActivatedStatus c.activation
      let w' := { w with skipFirmwareCheck := skip }
      some (w'.goto (if proceed then .checkNetwork else .branchWhoAmI), .tau)
  | .checkNetwork =>
      some (.worker { w with pc := .branchWhoAmI, internetConnectStatus := c.answer }, .tau)
  | .branchWhoAmI => some (branchWhoAmI cfg s w, .tau)
  | .checkActivated =>
      some (.worker { w with pc := .knowWhoAmI, activationStatus := c.activation }, .tau)
  | .knowWhoAmI =>
      some (.worker { w with pc := .branchContext, whoAmIStatus := c.answer }, .tau)
  | .branchContext => some (branchContext w, .tau)
  | .listenContext => some (w.goto .testContext, .setListenContext true)
  | .testContext =>
      if s.listenToDeviceContextUpdate then
        some (w.goto .waitContext, .tau)
      else
        some (w.goto .branchExit, .tau)
  | .waitContext => some (w.goto .wakeContext, .wait .wai)
  | .wakeContext => some (w.goto .testContext, .lock .wai)
  | .branchExit =>
      if w.exitOnNoNetwork then
        some (w.goto .lockError, .tau)
      else if w.delayMaintenanceStarted then
        some (w.goto .lockStarted, .tau)
      else
        some (w.goto .branchSkip, .tau)
  | .lockError => some (w.goto .notifyError, .lock .status)
  | .notifyError => some (w.goto .unlockError, .onMaintenanceStatusChange .error)
  | .unlockError => some (w.goto .branchUnsolicited, .unlock .status)
  | .branchUnsolicited =>
      if s.maintenanceType = .unsolicited ∧ s.unsolicitedComplete = false then
        some (w.goto .setUnsolicited, .tau)
      else
        some (w.goto .unlockWai, .tau)
  | .setUnsolicited => some (w.goto .listenNetwork, .setUnsolicitedComplete)
  | .listenNetwork => some (w.goto .unlockWai, .setListenNetwork true)
  | .branchSkip =>
      if w.skipsFirmware cfg then
        some (w.goto .markSuccess, .tau)
      else
        some (w.goto .pushTasks, .tau)
  | .markSuccess =>
      some (w.goto .markComplete, .setStatus (successBit .swupdate) .firmwareSkipped)
  | .markComplete =>
      some (w.goto .pushTasks, .setStatus (completeBit .swupdate) .firmwareSkipped)
  | .pushTasks => some (w.goto .lockCall, .setTasks (s.tasks ++ tasksFor (w.skipsFirmware cfg)))
  | .lockCall => some (.worker { w with pc := .loopTest, i := 0 }, .lock .call)
  | .loopTest =>
      if w.i < s.tasks.length ∧ s.abortFlag = false then
        some (w.goto .setCurrent, .tau)
      else
        some (w.goto .abortEnd, .tau)
  | .setCurrent => (s.tasks[w.i]?).map fun t => (w.goto .abortTest, .setCurrentTask t)
  | .abortTest =>
      if s.abortFlag = false then
        some (w.goto .startTimer, .tau)
      else
        some (.worker { w with pc := .loopTest, i := w.i + 1, retryCount := cfg.taskRetryCount },
          .tau)
  | .startTimer =>
      if w.retryCount = cfg.taskRetryCount then
        let (started, e) := taskStartTimer s c.created c.answer
        some (.worker { w with
          pc := if started then .setMap else .clearMap
          isTaskTimerStarted := started }, e)
      else
        some (w.goto (if w.isTaskTimerStarted then .setMap else .clearMap), .tau)
  | .setMap => (s.tasks[w.i]?).map fun t => (w.goto .launch, .setTaskMap t true)
  | .launch =>
      (s.tasks[w.i]?).map fun t =>
        (w.goto (if c.answer then .waitTask else .clearMap), .system t c.answer)
  | .clearMap =>
      (s.tasks[w.i]?).map fun t =>
        -- a retry decrements `i` and the loop increments it again
        (if 0 < w.retryCount ∧ w.isTaskTimerStarted then
          .worker { w with pc := .loopTest, retryCount := w.retryCount - 1 }
        else
          w.goto .failComplete, .setTaskMap t false)
  | .failComplete =>
      (s.tasks[w.i]?).map fun t => (w.goto .stopTimer, .setStatus (completeBit t) .launchFailed)
  | .waitTask => some (w.goto .wakeTask, .wait .call)
  | .wakeTask => some (w.goto .stopTimer, .lock .call)
  | .stopTimer =>
      some (.worker { w with pc := .loopTest, i := w.i + 1, retryCount := cfg.taskRetryCount },
        .stopTimer c.answer)
  | .abortEnd =>
      if s.abortFlag then some (w.goto .clearAbort, .tau) else some (w.goto .unlockCall, .tau)
  | .clearAbort => some (w.goto .stopTimerEnd, .setAbortFlag false)
  | .stopTimerEnd => some (w.goto .unlockCall, .stopTimer c.answer)
  | .unlockCall => some (w.goto .unlockWai, .unlock .call)
  | .unlockWai => some (.finished, .unlock .wai)

end SoftwareUpdate.MaintenanceManager
