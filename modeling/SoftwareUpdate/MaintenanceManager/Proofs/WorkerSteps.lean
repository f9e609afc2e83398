import SoftwareUpdate.MaintenanceManager.Worker

/-!
# What one statement of the worker can do

`WorkerStep cfg s w l e`: from the state `s` the worker `w` goes on to `l` with the effect
`e`. There is one constructor for every branch of `task_execution_thread`, so that a fact
about the worker's steps is proved by cases on it and never by unfolding the function.
-/

namespace SoftwareUpdate.MaintenanceManager

/-- The worker goes on to the next task of the loop. -/
def Worker.nextTask (cfg : Config) (w : Worker) : Worker :=
  { w with pc := .loopTest, i := w.i + 1, retryCount := cfg.taskRetryCount }

inductive WorkerStep (cfg : Config) (s : Sys) (w : Worker) : Thread → Effect → Prop
  | lockWai (hpc : w.pc = .lockWai) : WorkerStep cfg s w (w.goto .decideDelay) (.lock .wai)
  | delay (hpc : w.pc = .decideDelay) (htype : s.maintenanceType = .unsolicited) :
      WorkerStep cfg s w
        (.worker { w with pc := .eraseTasks, delayMaintenanceStarted := true }) .tau
  | noDelay (hpc : w.pc = .decideDelay)
      (hno : ¬ (s.maintenanceType = .unsolicited ∧ cfg.whoamiSupportEnabled = true)) :
      WorkerStep cfg s w (w.goto .lockStarted) .tau
  | lockStarted (hpc : w.pc = .lockStarted) :
      WorkerStep cfg s w (w.goto .notifyStarted) (.lock .status)
  | notifyStarted (hpc : w.pc = .notifyStarted) :
      WorkerStep cfg s w (w.goto .unlockStarted) (.onMaintenanceStatusChange .started)
  | unlockStarted (hpc : w.pc = .unlockStarted) (hdelay : w.delayMaintenanceStarted = false) :
      WorkerStep cfg s w (w.goto .eraseTasks) (.unlock .status)
  | unlockDelayed (hpc : w.pc = .unlockStarted) (hdelay : w.delayMaintenanceStarted = true) :
      WorkerStep cfg s w (w.goto .branchSkip) (.unlock .status)
  | eraseThenActivation (hpc : w.pc = .eraseTasks) :
      WorkerStep cfg s w (w.goto .checkActivation) (.setTasks [])
  | eraseThenNetwork (hpc : w.pc = .eraseTasks) :
      WorkerStep cfg s w (w.goto .checkNetwork) (.setTasks [])
  | activationProceed (hpc : w.pc = .checkActivation) (skip : Bool) :
      WorkerStep cfg s w (.worker { w with pc := .checkNetwork, skipFirmwareCheck := skip }) .tau
  | activationStop (hpc : w.pc = .checkActivation) (skip : Bool) :
      WorkerStep cfg s w (.worker { w with pc := .branchWhoAmI, skipFirmwareCheck := skip }) .tau
  | checkNetwork (hpc : w.pc = .checkNetwork) (online : Bool) :
      WorkerStep cfg s w
        (.worker { w with pc := .branchWhoAmI, internetConnectStatus := online }) .tau
  | whoAmI (hpc : w.pc = .branchWhoAmI) (htype : s.maintenanceType = .unsolicited)
      (hwhoami : cfg.whoamiSupportEnabled = true) :
      WorkerStep cfg s w (w.goto .checkActivated) .tau
  | noWhoAmI (hpc : w.pc = .branchWhoAmI)
      (hno : ¬ (cfg.whoamiSupportEnabled = true ∧ s.maintenanceType = .unsolicited)) :
      WorkerStep cfg s w
        (.worker { w with pc := .branchExit, exitOnNoNetwork := !w.internetConnectStatus }) .tau
  | checkActivated (hpc : w.pc = .checkActivated) (status : ActivationStatus) :
      WorkerStep cfg s w (.worker { w with pc := .knowWhoAmI, activationStatus := status }) .tau
  | knowWhoAmI (hpc : w.pc = .knowWhoAmI) (known : Bool) :
      WorkerStep cfg s w (.worker { w with pc := .branchContext, whoAmIStatus := known }) .tau
  | contextWanted (hpc : w.pc = .branchContext)
      (hwanted : w.whoAmIStatus = false ∧ w.activationStatus ≠ .activated) :
      WorkerStep cfg s w (w.goto .listenContext) .tau
  | contextKnown (hpc : w.pc = .branchContext) (exit : Bool) :
      WorkerStep cfg s w (.worker { w with pc := .branchExit, exitOnNoNetwork := exit }) .tau
  | listenContext (hpc : w.pc = .listenContext) :
      WorkerStep cfg s w (w.goto .testContext) (.setListenContext true)
  | contextMissing (hpc : w.pc = .testContext) (hl : s.listenToDeviceContextUpdate = true) :
      WorkerStep cfg s w (w.goto .waitContext) .tau
  | contextSet (hpc : w.pc = .testContext) (hl : s.listenToDeviceContextUpdate = false) :
      WorkerStep cfg s w (w.goto .branchExit) .tau
  | waitContext (hpc : w.pc = .waitContext) :
      WorkerStep cfg s w (w.goto .wakeContext) (.wait .wai)
  | wakeContext (hpc : w.pc = .wakeContext) :
      WorkerStep cfg s w (w.goto .testContext) (.lock .wai)
  | exit (hpc : w.pc = .branchExit) (hexit : w.exitOnNoNetwork = true) :
      WorkerStep cfg s w (w.goto .lockError) .tau
  | startDelayed (hpc : w.pc = .branchExit) (hexit : w.exitOnNoNetwork = false)
      (hdelay : w.delayMaintenanceStarted = true) :
      WorkerStep cfg s w (w.goto .lockStarted) .tau
  | goOn (hpc : w.pc = .branchExit) (hexit : w.exitOnNoNetwork = false)
      (hdelay : w.delayMaintenanceStarted = false) :
      WorkerStep cfg s w (w.goto .branchSkip) .tau
  | lockError (hpc : w.pc = .lockError) :
      WorkerStep cfg s w (w.goto .notifyError) (.lock .status)
  | notifyError (hpc : w.pc = .notifyError) :
      WorkerStep cfg s w (w.goto .unlockError) (.onMaintenanceStatusChange .error)
  | unlockError (hpc : w.pc = .unlockError) :
      WorkerStep cfg s w (w.goto .branchUnsolicited) (.unlock .status)
  | unsolicited (hpc : w.pc = .branchUnsolicited) (htype : s.maintenanceType = .unsolicited)
      (hopen : s.unsolicitedComplete = false) :
      WorkerStep cfg s w (w.goto .setUnsolicited) .tau
  | notUnsolicited (hpc : w.pc = .branchUnsolicited)
      (hno : ¬ (s.maintenanceType = .unsolicited ∧ s.unsolicitedComplete = false)) :
      WorkerStep cfg s w (w.goto .unlockWai) .tau
  | setUnsolicited (hpc : w.pc = .setUnsolicited) :
      WorkerStep cfg s w (w.goto .listenNetwork) .setUnsolicitedComplete
  | listenNetwork (hpc : w.pc = .listenNetwork) :
      WorkerStep cfg s w (w.goto .unlockWai) (.setListenNetwork true)
  | skipFirmware (hpc : w.pc = .branchSkip) (hskip : w.skipsFirmware cfg = true) :
      WorkerStep cfg s w (w.goto .markSuccess) .tau
  | noSkip (hpc : w.pc = .branchSkip) (hskip : w.skipsFirmware cfg = false) :
      WorkerStep cfg s w (w.goto .pushTasks) .tau
  | markSuccess (hpc : w.pc = .markSuccess) :
      WorkerStep cfg s w (w.goto .markComplete)
        (.setStatus (successBit .swupdate) .firmwareSkipped)
  | markComplete (hpc : w.pc = .markComplete) :
      WorkerStep cfg s w (w.goto .pushTasks)
        (.setStatus (completeBit .swupdate) .firmwareSkipped)
  | pushTasks (hpc : w.pc = .pushTasks) :
      WorkerStep cfg s w (w.goto .lockCall) (.setTasks (s.tasks ++ tasksFor (w.skipsFirmware cfg)))
  | lockCall (hpc : w.pc = .lockCall) :
      WorkerStep cfg s w (.worker { w with pc := .loopTest, i := 0 }) (.lock .call)
  | enterLoop (hpc : w.pc = .loopTest) (hi : w.i < s.tasks.length) (habort : s.abortFlag = false) :
      WorkerStep cfg s w (w.goto .setCurrent) .tau
  | leaveLoop (hpc : w.pc = .loopTest) (hend : w.i < s.tasks.length → s.abortFlag = true) :
      WorkerStep cfg s w (w.goto .abortEnd) .tau
  | setCurrent (hpc : w.pc = .setCurrent) (t : Task) (ht : s.tasks[w.i]? = some t) :
      WorkerStep cfg s w (w.goto .abortTest) (.setCurrentTask t)
  | notAborted (hpc : w.pc = .abortTest) (habort : s.abortFlag = false) :
      WorkerStep cfg s w (w.goto .startTimer) .tau
  | aborted (hpc : w.pc = .abortTest) (habort : s.abortFlag = true) :
      WorkerStep cfg s w (.worker (w.nextTask cfg)) .tau
  | timerStarted (hpc : w.pc = .startTimer) (created : Bool)
      (hcreated : (s.taskTimerCreated || created) = true) :
      WorkerStep cfg s w (.worker { w with pc := .setMap, isTaskTimerStarted := true })
        (.startTimer created true)
  | timerFailed (hpc : w.pc = .startTimer) (created armed : Bool)
      (hfail : ((s.taskTimerCreated || created) && armed) = false) :
      WorkerStep cfg s w (.worker { w with pc := .clearMap, isTaskTimerStarted := false })
        (.startTimer created armed)
  | retry (hpc : w.pc = .startTimer) (hretry : w.retryCount ≠ cfg.taskRetryCount)
      (hstarted : w.isTaskTimerStarted = true) :
      WorkerStep cfg s w (w.goto .setMap) .tau
  | noRetry (hpc : w.pc = .startTimer) (hretry : w.retryCount ≠ cfg.taskRetryCount)
      (hstarted : w.isTaskTimerStarted = false) :
      WorkerStep cfg s w (w.goto .clearMap) .tau
  | setMap (hpc : w.pc = .setMap) (t : Task) (ht : s.tasks[w.i]? = some t) :
      WorkerStep cfg s w (w.goto .launch) (.setTaskMap t true)
  | launched (hpc : w.pc = .launch) (t : Task) (ht : s.tasks[w.i]? = some t) :
      WorkerStep cfg s w (w.goto .waitTask) (.system t true)
  | launchFailed (hpc : w.pc = .launch) (t : Task) (ht : s.tasks[w.i]? = some t) :
      WorkerStep cfg s w (w.goto .clearMap) (.system t false)
  | clearThenRetry (hpc : w.pc = .clearMap) (t : Task) (ht : s.tasks[w.i]? = some t)
      (hretry : 0 < w.retryCount) (hstarted : w.isTaskTimerStarted = true) :
      WorkerStep cfg s w (.worker { w with pc := .loopTest, retryCount := w.retryCount - 1 })
        (.setTaskMap t false)
  | clearThenFail (hpc : w.pc = .clearMap) (t : Task) (ht : s.tasks[w.i]? = some t)
      (hno : ¬ (0 < w.retryCount ∧ w.isTaskTimerStarted = true)) :
      WorkerStep cfg s w (w.goto .failComplete) (.setTaskMap t false)
  | failComplete (hpc : w.pc = .failComplete) (t : Task) (ht : s.tasks[w.i]? = some t) :
      WorkerStep cfg s w (w.goto .stopTimer) (.setStatus (completeBit t) .launchFailed)
  | waitTask (hpc : w.pc = .waitTask) : WorkerStep cfg s w (w.goto .wakeTask) (.wait .call)
  | wakeTask (hpc : w.pc = .wakeTask) : WorkerStep cfg s w (w.goto .stopTimer) (.lock .call)
  | stopTimer (hpc : w.pc = .stopTimer) (disarmed : Bool) :
      WorkerStep cfg s w (.worker (w.nextTask cfg)) (.stopTimer disarmed)
  | abortedAtEnd (hpc : w.pc = .abortEnd) (habort : s.abortFlag = true) :
      WorkerStep cfg s w (w.goto .clearAbort) .tau
  | notAbortedAtEnd (hpc : w.pc = .abortEnd) (habort : s.abortFlag = false) :
      WorkerStep cfg s w (w.goto .unlockCall) .tau
  | clearAbort (hpc : w.pc = .clearAbort) :
      WorkerStep cfg s w (w.goto .stopTimerEnd) (.setAbortFlag false)
  | stopTimerEnd (hpc : w.pc = .stopTimerEnd) (disarmed : Bool) :
      WorkerStep cfg s w (w.goto .unlockCall) (.stopTimer disarmed)
  | unlockCall (hpc : w.pc = .unlockCall) : WorkerStep cfg s w (w.goto .unlockWai) (.unlock .call)
  | unlockWai (hpc : w.pc = .unlockWai) : WorkerStep cfg s w .finished (.unlock .wai)

/-- Every statement of the worker is one of these steps. -/
theorem taskExecutionThread_step {cfg : Config} {s : Sys} {w : Worker} {c : Choice}
    {l : Thread} {e : Effect} (h : taskExecutionThread cfg s w c = some (l, e)) :
    WorkerStep cfg s w l e := by
  have pair {p : Thread × Effect} {o : Option Task} {f : Task → Thread × Effect}
      (hp : o.map f = some p) : ∃ t, o = some t ∧ f t = p := Option.map_eq_some_iff.mp hp
  cases hpc : w.pc <;> simp only [taskExecutionThread, hpc] at h
  case lockWai => cases h; exact .lockWai hpc
  case decideDelay =>
    split at h
    case isTrue hd => cases h; exact .delay hpc hd.1
    case isFalse hno => cases h; exact .noDelay hpc hno
  case lockStarted => cases h; exact .lockStarted hpc
  case notifyStarted => cases h; exact .notifyStarted hpc
  case unlockStarted =>
    cases hd : w.delayMaintenanceStarted <;> simp only [hd] at h <;> cases h
    · exact .unlockStarted hpc hd
    · exact .unlockDelayed hpc hd
  case eraseTasks =>
    split at h <;> cases h
    · exact .eraseThenActivation hpc
    · exact .eraseThenNetwork hpc
  case checkActivation =>
    cases hp : (getActivatedStatus c.activation).1 <;> simp only [hp] at h <;> cases h
    · exact .activationStop hpc _
    · exact .activationProceed hpc _
  case checkNetwork => cases h; exact .checkNetwork hpc _
  case branchWhoAmI =>
    simp only [branchWhoAmI] at h
    split at h
    case isTrue hw => cases h; exact .whoAmI hpc hw.2 hw.1
    case isFalse hw => cases h; exact .noWhoAmI hpc hw
  case checkActivated => cases h; exact .checkActivated hpc _
  case knowWhoAmI => cases h; exact .knowWhoAmI hpc _
  case branchContext =>
    simp only [branchContext] at h
    split at h
    case isTrue hwanted => cases h; exact .contextWanted hpc hwanted
    case isFalse => cases h; exact .contextKnown hpc _
  case listenContext => cases h; exact .listenContext hpc
  case testContext =>
    cases hl : s.listenToDeviceContextUpdate <;> simp only [hl] at h <;> cases h
    · exact .contextSet hpc hl
    · exact .contextMissing hpc hl
  case waitContext => cases h; exact .waitContext hpc
  case wakeContext => cases h; exact .wakeContext hpc
  case branchExit =>
    cases hx : w.exitOnNoNetwork <;> cases hd : w.delayMaintenanceStarted <;>
      simp only [hx, hd] at h <;> cases h
    · exact .goOn hpc hx hd
    · exact .startDelayed hpc hx hd
    · exact .exit hpc hx
    · exact .exit hpc hx
  case lockError => cases h; exact .lockError hpc
  case notifyError => cases h; exact .notifyError hpc
  case unlockError => cases h; exact .unlockError hpc
  case branchUnsolicited =>
    split at h
    case isTrue hu => cases h; exact .unsolicited hpc hu.1 hu.2
    case isFalse hu => cases h; exact .notUnsolicited hpc hu
  case setUnsolicited => cases h; exact .setUnsolicited hpc
  case listenNetwork => cases h; exact .listenNetwork hpc
  case branchSkip =>
    cases hs : w.skipsFirmware cfg <;> simp only [hs] at h <;> cases h
    · exact .noSkip hpc hs
    · exact .skipFirmware hpc hs
  case markSuccess => cases h; exact .markSuccess hpc
  case markComplete => cases h; exact .markComplete hpc
  case pushTasks => cases h; exact .pushTasks hpc
  case lockCall => cases h; exact .lockCall hpc
  case loopTest =>
    split at h
    case isTrue hl => cases h; exact .enterLoop hpc hl.1 hl.2
    case isFalse hl =>
      cases h
      refine .leaveLoop hpc fun hi => ?_
      simpa [hi] using hl
  case setCurrent => obtain ⟨t, ht, h⟩ := pair h; cases h; exact .setCurrent hpc t ht
  case abortTest =>
    split at h
    case isTrue ha => cases h; exact .notAborted hpc ha
    case isFalse ha => cases h; exact .aborted hpc (by simpa using ha)
  case startTimer =>
    split at h
    case isTrue =>
      simp only [taskStartTimer] at h
      cases hs : (s.taskTimerCreated || c.created) && c.answer <;> simp only [hs] at h <;> cases h
      · exact .timerFailed hpc _ _ hs
      · obtain ⟨hcreated, harmed⟩ := Bool.and_eq_true_iff.mp hs
        rw [harmed]
        exact .timerStarted hpc _ hcreated
    case isFalse hr =>
      cases hs : w.isTaskTimerStarted <;> simp only [hs] at h <;> cases h
      · exact .noRetry hpc hr hs
      · exact .retry hpc hr hs
  case setMap => obtain ⟨t, ht, h⟩ := pair h; cases h; exact .setMap hpc t ht
  case launch =>
    obtain ⟨t, ht, h⟩ := pair h
    cases ha : c.answer <;> simp only [ha] at h <;> cases h
    · exact .launchFailed hpc t ht
    · exact .launched hpc t ht
  case clearMap =>
    obtain ⟨t, ht, h⟩ := pair h
    split at h
    case isTrue hr => cases h; exact .clearThenRetry hpc t ht hr.1 hr.2
    case isFalse hr => cases h; exact .clearThenFail hpc t ht hr
  case failComplete => obtain ⟨t, ht, h⟩ := pair h; cases h; exact .failComplete hpc t ht
  case waitTask => cases h; exact .waitTask hpc
  case wakeTask => cases h; exact .wakeTask hpc
  case stopTimer => cases h; exact .stopTimer hpc _
  case abortEnd =>
    cases ha : s.abortFlag <;> simp only [ha] at h <;> cases h
    · exact .notAbortedAtEnd hpc ha
    · exact .abortedAtEnd hpc ha
  case clearAbort => cases h; exact .clearAbort hpc
  case stopTimerEnd => cases h; exact .stopTimerEnd hpc _
  case unlockCall => cases h; exact .unlockCall hpc
  case unlockWai => cases h; exact .unlockWai hpc

end SoftwareUpdate.MaintenanceManager
