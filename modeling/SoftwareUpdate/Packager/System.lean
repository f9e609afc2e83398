import Mathlib.Tactic.Common
import SoftwareUpdate.Misc.RecursiveLock
import SoftwareUpdate.Misc.TransitionSystem
import SoftwareUpdate.Packager.Install

/-!
# The Packager as a transition system

The plugin is run by its worker thread (`InstallThread`) and by the threads that call the
API. A thread that calls an observer can find itself in the API again, because the observer may
call it: the API calls a thread is in form a stack, below which the worker is at a program
point of its own. A step is one statement of one thread. Every statement reads the shared
state and has at most one effect on it; what it learns from libopkg, from the file system or
from an observer is an input of the step.

Reference counts, `UpdateConfig` and the deactivation of an installed plugin, none of which
touches the state below, are left out.
-/

namespace SoftwareUpdate.Packager

open Helpers Misc

/-- What the build and `Configure` fix: whether `DO_NOT_USE_DEPRECATED_API` is undefined, and
`_alwaysUpdateFirst`. -/
structure Config where
  useDeprecatedApi : Bool
  alwaysUpdateFirst : Bool
  library : Library

inductive Thread where
  | worker
  | client (n : ℕ)
  deriving DecidableEq, Repr

/-- The arguments of `DoWork`. -/
inductive Request where
  | install (package : PackageInfo)
  | synchronizeRepository
  deriving DecidableEq, Repr

/-- `_inProgress`. -/
structure InstallationData where
  package : Option PackageInfo := none
  install : Option InstallInfo := none
  deriving DecidableEq, Repr

/-- The data members; `running` is the state of `_worker`, which `Run()` sets and `Block()`
clears. Observers are numbered. -/
structure Shared where
  adminLock : RecursiveLock Thread := .free
  opkgInitialized : Bool := false
  notifications : List ℕ := []
  inProgress : InstallationData := {}
  running : Bool := false
  isUpgrade : Bool := false
  isSyncing : Bool := false
  deriving DecidableEq, Repr

/-- An operation is pending. -/
def Shared.pending (s : Shared) : Bool := s.inProgress.install.isSome || s.isSyncing

/-! ## Effects -/

inductive Effect where
  | none
  | lock
  | unlock
  | initOpkg (initialized : Bool)
  | setPackage (package : Option PackageInfo)
  | setInstall (install : Option InstallInfo)
  | setSyncing (isSyncing : Bool)
  | setUpgrade (isUpgrade : Bool)
  | pushBack (observer : ℕ)
  | erase (observer : ℕ)
  | run
  | block
  deriving DecidableEq, Repr

/-- The state after an effect of thread `t`, when the thread need not wait. -/
def Effect.apply (s : Shared) (t : Thread) : Effect → Option Shared
  | .none => some s
  | .lock => (s.adminLock.lock t).map fun l => { s with adminLock := l }
  | .unlock => (s.adminLock.unlock t).map fun l => { s with adminLock := l }
  | .initOpkg initialized => some { s with opkgInitialized := initialized }
  | .setPackage package => some { s with inProgress := { s.inProgress with package := package } }
  | .setInstall install => some { s with inProgress := { s.inProgress with install := install } }
  | .setSyncing isSyncing => some { s with isSyncing := isSyncing }
  | .setUpgrade isUpgrade => some { s with isUpgrade := isUpgrade }
  | .pushBack observer => some { s with notifications := s.notifications ++ [observer] }
  | .erase observer => some { s with notifications := s.notifications.erase observer }
  | .run => some { s with running := true }
  | .block => some { s with running := false }

/-! ## API calls -/

inductive DoWorkPc where
  | lock
  | test
  | freeOpkg
  | initOpkg
  | record
  | recordInstall
  | run
  | unlock
  deriving DecidableEq, Repr

inductive RegisterPc where
  | lock
  | pushBack
  | test
  | stateChange
  | unlock
  deriving DecidableEq, Repr

inductive UnregisterPc where
  | lock
  | erase
  | unlock
  deriving DecidableEq, Repr

/-- A call of the API in progress; `result` is the variable of that name in `DoWork`. -/
inductive Call where
  | doWork (request : Request) (result : ErrorCode) (pc : DoWorkPc)
  | register (observer : ℕ) (pc : RegisterPc)
  | unregister (observer : ℕ) (pc : UnregisterPc)
  deriving DecidableEq, Repr

/-- The functions of the API: `Install` and `SynchronizeRepository` call `DoWork`. -/
inductive Api where
  | doWork (request : Request)
  | register (observer : ℕ)
  | unregister (observer : ℕ)
  deriving DecidableEq, Repr

def Api.entry : Api → Call
  | .doWork request => .doWork request .inprogress .lock
  | .register observer => .register observer .lock
  | .unregister observer => .unregister observer .lock

/-- The statements of `DoWork`; `answer` is what `InitOPKG()` returns. -/
def doWork (s : Shared) (request : Request) (result : ErrorCode) (answer : Bool) :
    DoWorkPc → Option Call × Effect
  | .lock => (some (.doWork request result .test), .lock)
  | .test =>
      if s.pending then (some (.doWork request result .unlock), .none)
      else
        (some (.doWork request .none (if s.opkgInitialized then .freeOpkg else .initOpkg)), .none)
  | .freeOpkg => (some (.doWork request result .initOpkg), .initOpkg false)
  | .initOpkg =>
      (some (if answer then .doWork request result .record else .doWork request .general .unlock),
        .initOpkg answer)
  | .record =>
      match request with
      | .install package =>
          (some (.doWork request result .recordInstall), .setPackage (some package))
      | .synchronizeRepository => (some (.doWork request result .run), .setSyncing true)
  | .recordInstall => (some (.doWork request result .run), .setInstall (some {}))
  | .run => (some (.doWork request result .unlock), .run)
  | .unlock => (none, .unlock)

/-- The statements of `Register`. In `StateChange` the thread runs the observer's code. -/
def register (s : Shared) (observer : ℕ) : RegisterPc → Option Call × Effect
  | .lock => (some (.register observer .pushBack), .lock)
  | .pushBack => (some (.register observer .test), .pushBack observer)
  | .test =>
      (some (.register observer (if s.inProgress.install.isSome then .stateChange else .unlock)),
        .none)
  | .stateChange => (some (.register observer .unlock), .none)
  | .unlock => (none, .unlock)

/-- The statements of `Unregister`. -/
def unregister (observer : ℕ) : UnregisterPc → Option Call × Effect
  | .lock => (some (.unregister observer .erase), .lock)
  | .erase => (some (.unregister observer .unlock), .erase observer)
  | .unlock => (none, .unlock)

/-- The call after its next statement, `none` when it returns, and the effect. -/
def Call.statement (s : Shared) (answer : Bool) : Call → Option Call × Effect
  | .doWork request result pc => Packager.doWork s request result answer pc
  | .register observer pc => Packager.register s observer pc
  | .unregister observer pc => Packager.unregister observer pc

/-! ## The worker -/

/-- Program points of `NotifyStateChange` and `NotifyRepoSynced`; `callbacks` keeps the
observers that have not returned from the call yet. -/
inductive NotifyPc where
  | lock
  | start
  | callbacks (rest : List ℕ)
  | unlock
  deriving DecidableEq, Repr

/-- A call of libopkg that the worker is in. -/
inductive LibraryCall where
  | install (function : InstallFunction)
  | exec
  deriving DecidableEq, Repr

/-- Program points of `Worker` and of the functions it calls. `statements` executes a list and
then goes back into the call of libopkg it came from, if there is one. -/
inductive WorkerPc where
  | isRunning
  | lockRead
  | read
  | unlockRead (isInstall : Bool)
  | listFiles (isInstall : Bool)
  | update (isInstall : Bool)
  | repoSynced (isInstall : Bool) (status : ErrorCode) (pc : NotifyPc)
  | blockingInstall
  | listUpgradable
  | library (call : LibraryCall)
  | statements (stmts : List Stmt) (back : Option LibraryCall)
  | stateChange (stmts : List Stmt) (back : Option LibraryCall) (pc : NotifyPc)
  | lockClear
  | clearInstall
  | clearPackage
  | unlockClear
  | block
  deriving DecidableEq, Repr

/-- What a step is given: that it happens, with the answer of the operation the statement
tests; the call of the API that a thread makes; or what libopkg does next. -/
inductive Input where
  | next (answer : Bool)
  | call (api : Api)
  | upgradable (p : Pkg)
  | progress (d : ProgressData)
  | returns (ret : ℤ)
  deriving DecidableEq, Repr

/-- What follows `BlockingSetupLocalRepoNoLock`. -/
def afterSetup (isInstall : Bool) : WorkerPc := if isInstall then .blockingInstall else .block

/-- Where the worker is when the list of statements has been executed. -/
def WorkerPc.resume : Option LibraryCall → WorkerPc
  | some call => .library call
  | none => .lockClear

/-- The statements of `NotifyStateChange` and, with `isSyncing` to be cleared, of
`NotifyRepoSynced`; `at'` is the worker at a point of the function, `after` behind it. The pass goes
over the observers as they were when it began: when a callback changes them the code is undefined,
which `Observers` models. -/
def notify (s : Shared) (clears : Bool) (at' : NotifyPc → WorkerPc) (after : WorkerPc) :
    NotifyPc → WorkerPc × Effect
  | .lock => (at' .start, .lock)
  | .start => (at' (.callbacks s.notifications), if clears then .setSyncing false else .none)
  | .callbacks (_ :: rest) => (at' (.callbacks rest), .none)
  | .callbacks [] => (at' .unlock, .none)
  | .unlock => (after, .unlock)

/-- The statements of the worker. `answer` says in `listFiles` whether the directory of
the package lists contains a file, in `update` whether the lists have been fetched, and in
`blockingInstall` whether there is a command `install`. -/
def installThreadWorker (cfg : Config) (s : Shared) : WorkerPc → Input → Option (WorkerPc × Effect)
  | .isRunning, .next _ => if s.running then some (.lockRead, .none) else none
  | .lockRead, .next _ => some (.read, .lock)
  | .read, .next _ => some (.unlockRead s.inProgress.install.isSome, .none)
  | .unlockRead isInstall, .next _ => some (.listFiles isInstall, .unlock)
  | .listFiles isInstall, .next answer =>
      let containFiles := isInstall && !cfg.alwaysUpdateFirst && answer
      some (if containFiles then afterSetup isInstall else .update isInstall, .none)
  | .update isInstall, .next answer =>
      some (.repoSynced isInstall (if answer then .none else .general) .lock, .none)
  | .repoSynced isInstall status pc, .next _ =>
      some (notify s true (.repoSynced isInstall status) (afterSetup isInstall) pc)
  | .blockingInstall, .next answer =>
      if cfg.useDeprecatedApi then some (.listUpgradable, .setUpgrade false)
      else some (.statements (beforeCommand answer) (if answer then some .exec else none), .none)
  | .listUpgradable, .upgradable p =>
      s.inProgress.package.map fun package =>
        (.listUpgradable, .setUpgrade (checkUpgrade cfg.library package s.isUpgrade p))
  | .listUpgradable, .next _ =>
      some (.library (.install (installFunction s.isUpgrade)), .setUpgrade false)
  | .library (.install function), .progress d =>
      s.inProgress.install.map fun info =>
        (.statements (installationProgess d info) (some (.install function)), .none)
  | .library (.install _), .returns ret => some (.statements (afterInstall ret) none, .none)
  | .library .exec, .returns ret => some (.statements (afterCommand ret) none, .none)
  | .statements [] back, .next _ => some (.resume back, .none)
  | .statements (.notifyStateChange :: stmts) back, .next _ =>
      some (.stateChange stmts back .lock, .none)
  | .statements (stmt :: stmts) back, .next _ =>
      s.inProgress.install.map fun info =>
        (.statements stmts back, .setInstall (some (info.exec cfg.library stmt)))
  | .stateChange stmts back pc, .next _ =>
      some (notify s false (.stateChange stmts back) (.statements stmts back) pc)
  | .lockClear, .next _ => some (.clearInstall, .lock)
  | .clearInstall, .next _ => some (.clearPackage, .setInstall none)
  | .clearPackage, .next _ => some (.unlockClear, .setPackage none)
  | .unlockClear, .next _ => some (.block, .unlock)
  | .block, .next _ => some (.isRunning, .block)
  | _, _ => none

/-! ## The system -/

structure Sys where
  shared : Shared
  worker : WorkerPc
  calls : Thread → List Call

/-- The worker is in the code of an observer. -/
def NotifyPc.inCallback : NotifyPc → Bool
  | .callbacks rest => !rest.isEmpty
  | _ => false

def WorkerPc.inCallback : WorkerPc → Bool
  | .repoSynced _ _ pc => pc.inCallback
  | .stateChange _ _ pc => pc.inCallback
  | _ => false

/-- A call that is in the code of an observer. -/
def Call.inCallback : Call → Bool
  | .register _ .stateChange => true
  | _ => false

/-- Code outside the plugin runs on the thread, so that it can call the API. -/
def Sys.mayCall (s : Sys) (t : Thread) : Bool :=
  match s.calls t, t with
  | c :: _, _ => c.inCallback
  | [], .client _ => true
  | [], .worker => s.worker.inCallback

/-- The next statement of thread `t`: in the innermost call, or in the worker's own code. -/
def statement (cfg : Config) (s : Sys) (t : Thread) (i : Input) :
    Option (WorkerPc × List Call × Effect) :=
  match s.calls t, t, i with
  | c :: outer, _, .next answer =>
      let (c', e) := c.statement s.shared answer
      some (s.worker, c'.toList ++ outer, e)
  | [], .worker, i => (installThreadWorker cfg s.shared s.worker i).map fun (w, e) => (w, [], e)
  | _, _, _ => none

def step (cfg : Config) (s : Sys) : Thread × Input → Option Sys
  | (t, .call api) =>
      if s.mayCall t then
        some { s with calls := Function.update s.calls t (api.entry :: s.calls t) }
      else none
  | (t, i) =>
      (statement cfg s t i).bind fun (w, cs, e) =>
        (e.apply s.shared t).map fun shared =>
          { shared := shared, worker := w, calls := Function.update s.calls t cs }

/-- The plugin when it has been constructed: `_worker` is blocked. -/
def PackagerImplementation : Sys where
  shared := {}
  worker := .isRunning
  calls := fun _ => []

def packager (cfg : Config) : TransitionSystem Sys (Thread × Input) where
  init s := s = PackagerImplementation
  step := step cfg

/-! ## Schedules -/

/-- The default build, whose calls of libopkg succeed at once. -/
def defaultBuild : Config := ⟨true, false, libraryWith ⟨[], 0⟩⟩

/-- Thread `t` executes `n` statements, and every operation they test succeeds. -/
def executes (t : Thread) (n : ℕ) : List (Thread × Input) := List.replicate n (t, .next true)

/-- Thread `t` calls `SynchronizeRepository` and executes `n` statements of it. -/
def synchronizes (t : Thread) (n : ℕ) : List (Thread × Input) :=
  (t, .call (.doWork .synchronizeRepository)) :: executes t n

end SoftwareUpdate.Packager
