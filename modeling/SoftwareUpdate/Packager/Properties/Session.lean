import SoftwareUpdate.Packager.Proofs.Operation
import SoftwareUpdate.Packager.Properties.Terminal

/-!
# The installs of a run

Each time the worker is in `BlockingInstallUntilCompletionNoLock`, libopkg is called and calls
back, and the observers are shown the state of the install. What is recorded of this is compared
with what the function does when nothing else runs and libopkg behaves in the same way.
-/

namespace SoftwareUpdate.Packager

variable {cfg : Config} {w w' : WorkerPc}

/-! ## The events of installs -/

/-- What happens to an install: it is accepted by `DoWork`, the worker enters
`BlockingInstallUntilCompletionNoLock` (`found` says whether there is a command `install`), libopkg
is called, calls back and returns, and the observers are shown the state of the install. -/
inductive InstallEvent where
  | accepts (package : PackageInfo)
  | begins (package : PackageInfo) (found : Bool)
  | lists (p : Pkg)
  | calls (function : InstallFunction)
  | progress (d : ProgressData)
  | returns (ret : ℤ)
  | shows (info : InstallInfo)
  deriving DecidableEq, Repr

def InstallEvent.accepted : InstallEvent → Option PackageInfo
  | .accepts package => some package
  | _ => none

def Call.installEvent : Call → Option InstallEvent
  | .doWork (.install package) _ .recordInstall => some (.accepts package)
  | _ => none

def WorkerPc.installEvent (sh : Shared) : WorkerPc → Input → Option InstallEvent
  | .blockingInstall, .next answer => sh.inProgress.package.map (.begins · answer)
  | .listUpgradable, .upgradable p => some (.lists p)
  | .listUpgradable, .next _ => some (.calls (installFunction sh.isUpgrade))
  | .library (.install _), .progress d => some (.progress d)
  | .library _, .returns ret => some (.returns ret)
  | .stateChange _ _ .start, .next _ => sh.inProgress.install.map .shows
  | _, _ => none

def installEvent (s : Sys) : Thread × Input → Option InstallEvent
  | (_, .call _) => none
  | (t, i) => (s.calls t).head?.elim (s.worker.installEvent s.shared i) Call.installEvent

/-- One execution of `BlockingInstallUntilCompletionNoLock`: what libopkg did in it, and what
`NotifyStateChange` showed the observers. The call of `StateChange` in `Register`, for the new
observer alone, is not recorded. -/
structure Session where
  package : PackageInfo
  found : Bool
  upgradable : List Pkg := []
  function : Option InstallFunction := none
  progress : List ProgressData := []
  ret : Option ℤ := none
  shown : List InstallInfo := []
  deriving DecidableEq, Repr

def Session.record (x : Session) : InstallEvent → Session
  | .lists p => { x with upgradable := x.upgradable ++ [p] }
  | .calls function => { x with function := some function }
  | .progress d => { x with progress := x.progress ++ [d] }
  | .returns ret => { x with ret := some ret }
  | .shows info => { x with shown := x.shown ++ [info] }
  | .accepts _ | .begins _ _ => x

/-- The executions, newest first, after one more event. -/
def recordSession (xs : List Session) : InstallEvent → List Session
  | .begins package found => { package := package, found := found } :: xs
  | ev =>
      match xs with
      | x :: rest => x.record ev :: rest
      | [] => []

/-- The executions of a run, newest first. -/
def sessions (evs : List InstallEvent) : List Session := evs.foldl recordSession []

theorem sessions_append (evs : List InstallEvent) (ev : Option InstallEvent) :
    sessions (evs ++ ev.toList) = ev.elim (sessions evs) (recordSession (sessions evs)) := by
  cases ev <;> simp [sessions, List.foldl_append]

/-! ## An execution on its own -/

/-- The function of the build. -/
def Config.blockingInstall (cfg : Config) (lib : Library) (package : PackageInfo)
    (info : InstallInfo) : Installation :=
  if cfg.useDeprecatedApi then blockingInstallUntilCompletion lib package info
  else blockingInstallCommand lib package info

namespace Session

variable {x : Session} {info : InstallInfo}

/-- libopkg, behaving as it did in the execution. -/
def library (lib : Library) (x : Session) : Library :=
  { lib with
    upgradable := x.upgradable
    call := fun _ _ => ⟨x.progress, x.ret.getD 0⟩
    installCommand := if x.found then some fun _ => x.ret.getD 0 else none }

/-- The function for the packages that were listed. -/
def installs (lib : Library) (x : Session) : InstallFunction :=
  installFunction (x.upgradable.foldl (checkUpgrade lib x.package) false)

/-- libopkg has returned, unless it was not called, the observers were shown what the function
shows when it runs alone, and it called the function of libopkg that it calls then. -/
structure AsAlone (cfg : Config) (x : Session) : Prop where
  returned : x.ret.isSome = (cfg.useDeprecatedApi || x.found)
  shown : x.shown = (cfg.blockingInstall (x.library cfg.library) x.package {}).notified
  function : cfg.useDeprecatedApi = true → x.function = some (x.installs cfg.library)

/-- What the statements so far come to, those of a list under way included. -/
def target (cfg : Config) (x : Session) : Installation :=
  if cfg.useDeprecatedApi then
    (Installation.progressAll cfg.library ⟨{}, []⟩ x.progress).execAll cfg.library
      (x.ret.elim [] afterInstall)
  else
    (Installation.execAll cfg.library ⟨{}, []⟩ (beforeCommand x.found)).execAll cfg.library
      (x.ret.elim [] afterCommand)

end Session

/-- The worker has begun with the install that `_inProgress` holds. -/
def WorkerPc.begun : WorkerPc → Bool
  | .listUpgradable | .library _ | .statements _ _ | .stateChange _ _ _ | .lockClear
  | .clearInstall => true
  | _ => false

/-- The statements that the worker has yet to execute before it goes back into libopkg. -/
def WorkerPc.ahead : WorkerPc → List Stmt
  | .statements stmts _ => stmts
  | .stateChange stmts _ pc => if pc.clears then .notifyStateChange :: stmts else stmts
  | _ => []

/-- The call of libopkg that the worker is in or goes back into. -/
def WorkerPc.libraryCall : WorkerPc → Option LibraryCall
  | .library call => some call
  | .statements _ back | .stateChange _ back _ => back
  | _ => none

namespace Session

variable {x : Session} {info : InstallInfo}

/-- libopkg has returned, or it has not, as the call says that the worker goes back into. -/
def Awaits (cfg : Config) (x : Session) : Option LibraryCall → Prop
  | some (.install _) => cfg.useDeprecatedApi = true ∧ x.ret = none
  | some .exec => cfg.useDeprecatedApi = false ∧ x.found = true ∧ x.ret = none
  | none => x.ret.isSome = (cfg.useDeprecatedApi || x.found)

/-- The packages are being listed; nothing has been shown. -/
structure Lists (cfg : Config) (x : Session) (isUpgrade : Bool) (info : InstallInfo) : Prop where
  build : cfg.useDeprecatedApi = true
  fresh : x = { package := x.package, found := x.found, upgradable := x.upgradable }
  info : info = {}
  isUpgrade : isUpgrade = x.upgradable.foldl (checkUpgrade cfg.library x.package) false

/-- The worker is past the listing. -/
structure Called (cfg : Config) (x : Session) (info : InstallInfo) (w : WorkerPc) : Prop where
  function : cfg.useDeprecatedApi = true → x.function = some (x.installs cfg.library)
  awaits : x.Awaits cfg w.libraryCall
  target : Installation.execAll cfg.library ⟨info, x.shown⟩ w.ahead = x.target cfg

/-- What is known of the execution the worker is in. -/
def At (cfg : Config) (x : Session) (isUpgrade : Bool) (info : InstallInfo) : WorkerPc → Prop
  | .listUpgradable => x.Lists cfg isUpgrade info
  | w => x.Called cfg info w

theorem exec_library {lib : Library} :
    Installation.exec (x.library lib) = Installation.exec lib := by
  funext p stmt
  cases stmt <;> rfl

theorem execAll_library {lib : Library} :
    Installation.execAll (x.library lib) = Installation.execAll lib := by
  funext p stmts
  simp only [Installation.execAll, exec_library]

theorem progressAll_concat {lib : Library} {p : Installation} {ds : List ProgressData}
    {d : ProgressData} :
    p.progressAll lib (ds ++ [d]) =
      (p.progressAll lib ds).execAll lib (installationProgess d (p.progressAll lib ds).info) :=
  List.foldl_append

theorem progressAll_library {lib : Library} :
    Installation.progressAll (x.library lib) = Installation.progressAll lib := by
  funext p ds
  simp only [Installation.progressAll, execAll_library]

@[simp] theorem outcome_library {lib : Library} {package : PackageInfo} :
    (x.library lib).outcome package = ⟨x.progress, x.ret.getD 0⟩ :=
  rfl

@[simp] theorem installCommand_library {lib : Library} :
    (x.library lib).installCommand = if x.found then some fun _ => x.ret.getD 0 else none :=
  rfl

/-- When libopkg has returned, the statements come to what the function does on its own. -/
theorem target_eq (h : x.Awaits cfg none) :
    x.target cfg = cfg.blockingInstall (x.library cfg.library) x.package {} := by
  have hret : x.ret.isSome = (cfg.useDeprecatedApi || x.found) := h
  unfold target Config.blockingInstall blockingInstallUntilCompletion blockingInstallCommand
  simp only [outcome_library, installCommand_library, execAll_library, progressAll_library]
  cases hbuild : cfg.useDeprecatedApi with
  | true =>
    rw [hbuild, Bool.true_or] at hret
    obtain ⟨ret, hret⟩ := Option.isSome_iff_exists.mp hret
    simp [hret]
  | false =>
    rw [hbuild, Bool.false_or] at hret
    cases hfound : x.found with
    | true =>
      rw [hfound] at hret
      obtain ⟨ret, hret⟩ := Option.isSome_iff_exists.mp hret
      simp [hret]
    | false =>
      rw [hfound, Option.isSome_eq_false_iff, Option.isNone_iff_eq_none] at hret
      simp [hret]

/-- At the end of the function. -/
theorem Called.asAlone (h : x.Called cfg info w) (hahead : w.ahead = [])
    (hcall : w.libraryCall = none) : x.AsAlone cfg := by
  have hawaits := h.awaits
  rw [hcall] at hawaits
  refine ⟨hawaits, ?_, h.function⟩
  rw [← target_eq hawaits, ← h.target, hahead]
  rfl

theorem commandSucceeds_library {lib : Library} (hret : x.ret.isSome = x.found) :
    commandSucceeds (x.library lib) x.package = true ↔ x.ret = some 0 := by
  unfold commandSucceeds
  rw [installCommand_library]
  cases hfound : x.found with
  | true =>
    rw [hfound] at hret
    obtain ⟨ret, hret⟩ := Option.isSome_iff_exists.mp hret
    simp [hret]
  | false =>
    rw [hfound, Option.isSome_eq_false_iff, Option.isNone_iff_eq_none] at hret
    simp [hret]

/-- How the install ended for the observers. -/
theorem AsAlone.truthful (h : x.AsAlone cfg) :
    Truthful x.shown (x.ret = some 0) ↔
      (cfg.useDeprecatedApi = true →
        (x.ret = some 0 ↔ x.progress.countP ProgressData.isDone = 1) ∧
          x.progress.countP ProgressData.isDone ≤ 1) := by
  obtain ⟨hret, hshown, -⟩ := h
  rw [hshown]
  unfold Config.blockingInstall
  cases hbuild : cfg.useDeprecatedApi with
  | true =>
    rw [hbuild, Bool.true_or] at hret
    obtain ⟨ret, hret⟩ := Option.isSome_iff_exists.mp hret
    have htruthful := truthful_blockingInstall_iff (x.library cfg.library) x.package
    simp only [outcome_library, hret, Option.getD_some] at htruthful
    simp only [hret, Option.some.injEq, if_true, forall_const]
    rw [htruthful]
    generalize x.progress.countP ProgressData.isDone = n
    by_cases hzero : ret = 0
    · simp [hzero]
      omega
    · simp [hzero]
      omega
  | false =>
    rw [hbuild, Bool.false_or] at hret
    have htruthful := truthful_blockingInstallCommand (x.library cfg.library) x.package
    rw [propext (commandSucceeds_library hret)] at htruthful
    simpa using htruthful

end Session

end SoftwareUpdate.Packager
