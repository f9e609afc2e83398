import SoftwareUpdate.Helpers.CSettings

/-!
# Installing a package

`BlockingInstallUntilCompletionNoLock` in its two compile-time variants. While it runs, only
the worker writes `_inProgress.Install`, so the statements that libopkg's progress callback
executes are determined by the information at its entry. They are kept as a list: here the
list is executed in one go, and the worker thread of the plugin executes it statement by
statement.
-/

namespace SoftwareUpdate.Packager

open Helpers

/-- `Exchange::IPackager::state`, the states the plugin sets. -/
inductive State where
  | idle
  | downloading
  | downloaded
  | installing
  | installed
  deriving DecidableEq, Repr

/-- `Core::ERROR_NONE`, `ERROR_GENERAL` and `ERROR_INPROGRESS`. -/
inductive ErrorCode where
  | none
  | general
  | inprogress
  deriving DecidableEq, Repr

structure PackageInfo where
  name : Text
  version : Text
  arch : Text
  deriving DecidableEq, Repr

structure InstallInfo where
  state : State := .idle
  error : ErrorCode := .none
  progress : ℕ := 0
  appname : Text := []
  deriving DecidableEq, Repr

/-- The parameter of `SetProgress` is a `uint8_t`. -/
def InstallInfo.setProgress (i : InstallInfo) (progress : ℤ) : InstallInfo :=
  { i with progress := (progress % 256).toNat }

/-! ## libopkg -/

/-- `pkg`, the fields that are read. -/
structure Pkg where
  name : Text
  version : Text
  deriving DecidableEq, Repr

/-- `opkg_action_t`. -/
inductive OpkgAction where
  | install
  | download
  | other
  deriving DecidableEq, Repr

/-- `opkg_progress_data_t`. -/
structure ProgressData where
  action : OpkgAction
  percentage : ℤ
  localFilename : Text
  deriving DecidableEq, Repr

/-- A call of `opkg_install_package` or `opkg_upgrade_package`: the progress callbacks it
makes and the code it returns. -/
structure Outcome where
  progress : List ProgressData
  ret : ℤ
  deriving DecidableEq, Repr

inductive InstallFunction where
  | opkgInstallPackage
  | opkgUpgradePackage
  deriving DecidableEq, Repr

/-- What the code calls in libopkg, and the two functions of `Core::File` that `SetAppName`
uses. The command `install` is `none` when `opkg_cmd_find` does not know it. -/
structure Library where
  upgradable : List Pkg
  compareVersions : Text → Text → ℤ
  call : InstallFunction → Text → Outcome
  installCommand : Option (Text → ℤ)
  pathName : Text → Text
  fileName : Text → Text

/-! ## Statements -/

/-- The statements that write `_inProgress.Install`, and `NotifyStateChange()`. -/
inductive Stmt where
  | setState (state : State)
  | setProgress (progress : ℤ)
  | setAppName (path : Text)
  | setError (err : ErrorCode)
  | notifyStateChange
  deriving DecidableEq, Repr

/-- The name of the last directory of the path. -/
def Library.appName (lib : Library) (path : Text) : Text :=
  lib.fileName ((lib.pathName path).dropLast)

def InstallInfo.exec (lib : Library) (i : InstallInfo) : Stmt → InstallInfo
  | .setState state => { i with state := state }
  | .setProgress progress => i.setProgress progress
  | .setAppName path => { i with appname := lib.appName path }
  | .setError err => { i with error := err }
  | .notifyStateChange => i

/-- `InstallationProgessNoLock`, with the information at its entry. The `switch` comes after
the first `if`, which leaves the state `DOWNLOADED` where it was `DOWNLOADING`. -/
def installationProgess (d : ProgressData) (i : InstallInfo) : List Stmt :=
  [.setProgress d.percentage] ++
    (if d.action = .install ∧ i.state = .downloading then
      [.setState .downloaded, .notifyStateChange]
    else []) ++
    (match d.action with
    | .download =>
        if i.state ≠ .downloading then [.setState .downloading, .notifyStateChange] else []
    | .install =>
        if i.state ≠ .installing then [.setState .installing, .notifyStateChange] else []
    | .other => []) ++
    (if d.percentage = 100 then
      [.setState .installed, .notifyStateChange, .setAppName d.localFilename]
    else [])

/-- `checkUpgrade`, called for each upgradable package. -/
def checkUpgrade (lib : Library) (package : PackageInfo) (isUpgrade : Bool) (p : Pkg) : Bool :=
  if isUpgrade then true
  else if package.name = p.name then
    if package.version.isEmpty then true
    else decide (lib.compareVersions p.version (cStr package.version) < 0)
  else false

/-- `installFunction` for the value of `_isUpgrade`. -/
def installFunction (isUpgrade : Bool) : InstallFunction :=
  if isUpgrade then .opkgUpgradePackage else .opkgInstallPackage

/-- What follows the call of `installFunction`. -/
def afterInstall (ret : ℤ) : List Stmt :=
  if ret ≠ 0 then [.setError .general, .notifyStateChange] else []

/-- The command `install` has been found, or not. -/
def beforeCommand (found : Bool) : List Stmt :=
  if found then [.setState .installing, .notifyStateChange]
  else [.setError .general, .notifyStateChange]

/-- What follows `opkg_cmd_exec`. -/
def afterCommand (ret : ℤ) : List Stmt :=
  (if ret = 0 then [.setProgress 100, .setState .installed] else [.setError .general]) ++
    [.notifyStateChange]

/-! ## The whole function -/

/-- The information about an install, and what `NotifyStateChange` has shown each observer
so far. -/
structure Installation where
  info : InstallInfo
  notified : List InstallInfo
  deriving DecidableEq, Repr

namespace Installation

def exec (lib : Library) (p : Installation) : Stmt → Installation
  | .notifyStateChange => { p with notified := p.notified ++ [p.info] }
  | stmt => { p with info := p.info.exec lib stmt }

def execAll (lib : Library) (p : Installation) (stmts : List Stmt) : Installation :=
  stmts.foldl (exec lib) p

/-- The progress callbacks of one call into libopkg. -/
def progressAll (lib : Library) (p : Installation) (ds : List ProgressData) : Installation :=
  ds.foldl (fun p d => p.execAll lib (installationProgess d p.info)) p

end Installation

/-- The call of `installFunction` that the function makes. -/
def Library.outcome (lib : Library) (package : PackageInfo) : Outcome :=
  lib.call (installFunction (lib.upgradable.foldl (checkUpgrade lib package) false))
    (cStr package.name)

/-- `BlockingInstallUntilCompletionNoLock`. -/
def blockingInstallUntilCompletion (lib : Library) (package : PackageInfo) (info : InstallInfo) :
    Installation :=
  let outcome := lib.outcome package
  let p : Installation := Installation.progressAll lib ⟨info, []⟩ outcome.progress
  p.execAll lib (afterInstall outcome.ret)

/-- `BlockingInstallUntilCompletionNoLock` built with `DO_NOT_USE_DEPRECATED_API`. -/
def blockingInstallCommand (lib : Library) (package : PackageInfo) (info : InstallInfo) :
    Installation :=
  match lib.installCommand with
  | some exec =>
      let p : Installation := Installation.execAll lib ⟨info, []⟩ (beforeCommand true)
      p.execAll lib (afterCommand (exec (cStr package.name)))
  | none => Installation.execAll lib ⟨info, []⟩ (beforeCommand false)

/-- Whether that variant's call of libopkg returns 0; a missing command counts as a failure. -/
def commandSucceeds (lib : Library) (package : PackageInfo) : Bool :=
  match lib.installCommand with
  | some exec => decide (exec (cStr package.name) = 0)
  | none => false

/-- A libopkg without upgradable packages whose calls have the given outcome. -/
def libraryWith (outcome : Outcome) : Library where
  upgradable := []
  compareVersions := fun _ _ => 0
  call := fun _ _ => outcome
  installCommand := none
  pathName := id
  fileName := id

end SoftwareUpdate.Packager
