import Mathlib.Tactic.Common
import SoftwareUpdate.Packager.Install

/-!
# How an install ends for the observers

An observer knows that an install is over from a notification that shows `INSTALLED` without
an error, or an error. The default build shows `INSTALLED` when a progress callback reports
100 percent and an error when libopkg's return code is not 0, and nothing relates the two: the
notifications are right exactly for the calls whose callbacks report 100 percent once when
they succeed and never when they fail. The build with `DO_NOT_USE_DEPRECATED_API` goes by the
return code alone, and its notifications are always right.
-/

namespace SoftwareUpdate.Packager

open Helpers

namespace InstallInfo

def isInstalled (i : InstallInfo) : Bool := decide (i.state = .installed ∧ i.error = .none)

def isFailed (i : InstallInfo) : Bool := decide (i.error ≠ .none)

/-- The observer takes the install to be over. -/
def isTerminal (i : InstallInfo) : Bool := i.isInstalled || i.isFailed

variable {i : InstallInfo}

@[simp] theorem isInstalled_iff : i.isInstalled = true ↔ i.state = .installed ∧ i.error = .none :=
  decide_eq_true_iff

@[simp] theorem isFailed_iff : i.isFailed = true ↔ i.error ≠ .none := decide_eq_true_iff

end InstallInfo

/-- The notifications of an install that did or did not succeed: exactly one of them is
terminal, success is shown exactly when it succeeded, and an error exactly when it did not. -/
def Truthful (notified : List InstallInfo) (succeeded : Prop) : Prop :=
  notified.countP InstallInfo.isTerminal = 1 ∧
    ((∃ i ∈ notified, i.isInstalled = true) ↔ succeeded) ∧
    ((∃ i ∈ notified, i.isFailed = true) ↔ ¬ succeeded)

/-- The callback reports that it is done. -/
def ProgressData.isDone (d : ProgressData) : Bool := decide (d.percentage = 100)

namespace Installation

variable {lib : Library} {p : Installation} {d : ProgressData} {ds : List ProgressData}

@[simp] theorem execAll_nil : p.execAll lib [] = p := rfl

@[simp] theorem execAll_cons {stmt : Stmt} {stmts : List Stmt} :
    p.execAll lib (stmt :: stmts) = (p.exec lib stmt).execAll lib stmts :=
  rfl

@[simp] theorem execAll_append {stmts stmts' : List Stmt} :
    p.execAll lib (stmts ++ stmts') = (p.execAll lib stmts).execAll lib stmts' :=
  List.foldl_append

/-- No error so far, in the information and in what has been shown of it, which includes
`INSTALLED` as often as `n`. -/
structure Running (p : Installation) (n : ℕ) : Prop where
  error : p.info.error = .none
  shown : ∀ i ∈ p.notified, i.error = .none
  installed : p.notified.countP InstallInfo.isInstalled = n

theorem Running.start (i : InstallInfo) (h : i.error = .none) : Running ⟨i, []⟩ 0 :=
  ⟨h, fun _ hi => absurd hi List.not_mem_nil, rfl⟩

/-- What shows a state other than `INSTALLED`. -/
theorem Running.notify {n : ℕ} (h : p.Running n) (state : State) (hstate : state ≠ .installed) :
    (p.execAll lib [.setState state, .notifyStateChange]).Running n := by
  refine ⟨h.error, ?_, ?_⟩
  · intro i hi
    rcases List.mem_append.mp hi with hi | hi
    · exact h.shown i hi
    · obtain rfl := List.mem_singleton.mp hi
      exact h.error
  · show List.countP _ (p.notified ++ [_]) = n
    rw [List.countP_append, h.installed]
    simp [exec, InstallInfo.exec, hstate]

theorem Running.notifyIf {n : ℕ} (h : p.Running n) (c : Prop) [Decidable c] (state : State)
    (hstate : state ≠ .installed) :
    (p.execAll lib (if c then [.setState state, .notifyStateChange] else [])).Running n := by
  split
  · exact h.notify state hstate
  · exact h

/-- What shows `INSTALLED`. -/
theorem Running.showInstalled {n : ℕ} (h : p.Running n) :
    (p.execAll lib [.setState .installed, .notifyStateChange]).Running (n + 1) := by
  refine ⟨h.error, ?_, ?_⟩
  · intro i hi
    rcases List.mem_append.mp hi with hi | hi
    · exact h.shown i hi
    · obtain rfl := List.mem_singleton.mp hi
      exact h.error
  · show List.countP _ (p.notified ++ [_]) = n + 1
    rw [List.countP_append, h.installed]
    simp [exec, InstallInfo.exec, h.error]

/-- The last part of the callback, which alone shows `INSTALLED`. -/
theorem Running.done {n : ℕ} (h : p.Running n) :
    (p.execAll lib (if d.percentage = 100 then
      [.setState .installed, .notifyStateChange, .setAppName d.localFilename] else [])).Running
      (n + if d.isDone then 1 else 0) := by
  by_cases hd : d.percentage = 100
  · have hdone : d.isDone = true := decide_eq_true hd
    rw [if_pos hd, hdone]
    have hshown : (p.execAll lib [.setState .installed, .notifyStateChange]).Running (n + 1) :=
      h.showInstalled
    exact ⟨hshown.error, hshown.shown, hshown.installed⟩
  · have hdone : d.isDone = false := decide_eq_false hd
    rw [if_neg hd, hdone]
    exact h

/-- One callback. -/
theorem Running.progress {n : ℕ} (h : p.Running n) (lib : Library) (d : ProgressData) :
    (p.execAll lib (installationProgess d p.info)).Running (n + if d.isDone then 1 else 0) := by
  unfold installationProgess
  rw [execAll_append, execAll_append, execAll_append]
  refine Running.done ?_
  have hset : (p.execAll lib [.setProgress d.percentage]).Running n :=
    ⟨h.error, h.shown, h.installed⟩
  have hfirst : ((p.execAll lib [.setProgress d.percentage]).execAll lib
      (if d.action = .install ∧ p.info.state = .downloading then
        [.setState .downloaded, .notifyStateChange] else [])).Running n :=
    hset.notifyIf _ .downloaded (by decide)
  cases haction : d.action with
  | download =>
    rw [haction] at hfirst
    exact hfirst.notifyIf (p.info.state ≠ .downloading) .downloading (by decide)
  | install =>
    rw [haction] at hfirst
    exact hfirst.notifyIf (p.info.state ≠ .installing) .installing (by decide)
  | other =>
    rw [haction] at hfirst
    exact hfirst

/-- All callbacks of a call. -/
theorem Running.progressAll {n : ℕ} (h : p.Running n) (lib : Library) (ds : List ProgressData) :
    (p.progressAll lib ds).Running (n + ds.countP ProgressData.isDone) := by
  induction ds generalizing p n with
  | nil => exact h
  | cons d ds ih =>
    have hrest := ih (h.progress lib d)
    rw [List.countP_cons]
    rwa [Nat.add_assoc, Nat.add_comm (if d.isDone then 1 else 0)] at hrest

/-! ## The end of an install -/

/-- While there is no error, the terminal notifications are those that show `INSTALLED`. -/
theorem Running.countP_terminal {n : ℕ} (h : p.Running n) :
    p.notified.countP InstallInfo.isTerminal = n := by
  rw [← h.installed]
  refine List.countP_congr fun i hi => ?_
  simp [InstallInfo.isTerminal, h.shown i hi]

theorem Running.exists_installed {n : ℕ} (h : p.Running n) :
    (∃ i ∈ p.notified, i.isInstalled = true) ↔ 0 < n := by
  rw [← h.installed, List.countP_pos_iff]

theorem Running.not_exists_failed {n : ℕ} (h : p.Running n) :
    ¬ ∃ i ∈ p.notified, i.isFailed = true := by
  rintro ⟨i, hi, hfailed⟩
  exact InstallInfo.isFailed_iff.mp hfailed (h.shown i hi)

/-- Ending without an error is right for a success that was shown once. -/
theorem Running.truthful_iff {n : ℕ} (h : p.Running n) {succeeded : Prop} :
    Truthful p.notified succeeded ↔ succeeded ∧ n = 1 := by
  unfold Truthful
  rw [h.countP_terminal, h.exists_installed]
  have hfailed := h.not_exists_failed
  constructor
  · rintro ⟨hone, hsuccess, -⟩
    exact ⟨hsuccess.mp (by omega), hone⟩
  · rintro ⟨hs, hone⟩
    exact ⟨hone, ⟨fun _ => hs, fun _ => by omega⟩, ⟨fun hf => absurd hf hfailed, fun hn => absurd hs hn⟩⟩

/-- What is shown when an error has been set. -/
def showError (p : Installation) : List InstallInfo :=
  p.notified ++ [{ p.info with error := .general }]

/-- Ending with an error is right for a failure when no success was shown. -/
theorem Running.truthful_showError_iff {n : ℕ} (h : p.Running n) {succeeded : Prop} :
    Truthful p.showError succeeded ↔ ¬ succeeded ∧ n = 0 := by
  have hcount : p.showError.countP InstallInfo.isTerminal = n + 1 := by
    rw [showError, List.countP_append, h.countP_terminal]
    simp [InstallInfo.isTerminal, InstallInfo.isFailed]
  have hfailed : ∃ i ∈ p.showError, i.isFailed = true :=
    ⟨_, List.mem_append_right _ (List.mem_singleton.mpr rfl), by simp [InstallInfo.isFailed]⟩
  have hinstalled : (∃ i ∈ p.showError, i.isInstalled = true) ↔ 0 < n := by
    rw [← h.exists_installed]
    constructor
    · rintro ⟨i, hi, hi'⟩
      rcases List.mem_append.mp hi with hi | hi
      · exact ⟨i, hi, hi'⟩
      · obtain rfl := List.mem_singleton.mp hi
        simp [InstallInfo.isInstalled] at hi'
    · rintro ⟨i, hi, hi'⟩
      exact ⟨i, List.mem_append_left _ hi, hi'⟩
  unfold Truthful
  rw [hcount, hinstalled]
  constructor
  · rintro ⟨hone, -, hfail⟩
    exact ⟨hfail.mp hfailed, by omega⟩
  · rintro ⟨hs, hzero⟩
    exact ⟨by omega, ⟨fun hn => by omega, fun hc => absurd hc hs⟩, ⟨fun _ => hs, fun _ => hfailed⟩⟩

end Installation

/-! ## The two builds -/

section

variable (lib : Library) (package : PackageInfo)

/-- The default build. -/
theorem truthful_blockingInstall_iff :
    Truthful (blockingInstallUntilCompletion lib package {}).notified
        ((lib.outcome package).ret = 0) ↔
      (lib.outcome package).ret = 0 ∧
          (lib.outcome package).progress.countP ProgressData.isDone = 1 ∨
        (lib.outcome package).ret ≠ 0 ∧
          (lib.outcome package).progress.countP ProgressData.isDone = 0 := by
  have hrun : (Installation.progressAll lib ⟨{}, []⟩ (lib.outcome package).progress).Running
      ((lib.outcome package).progress.countP ProgressData.isDone) := by
    have h := (Installation.Running.start {} rfl).progressAll lib (lib.outcome package).progress
    rwa [Nat.zero_add] at h
  by_cases hret : (lib.outcome package).ret = 0
  · have hend : blockingInstallUntilCompletion lib package {} =
        Installation.progressAll lib ⟨{}, []⟩ (lib.outcome package).progress := by
      simp [blockingInstallUntilCompletion, afterInstall, hret]
    rw [hend, hrun.truthful_iff]
    simp [hret]
  · have hend : (blockingInstallUntilCompletion lib package {}).notified =
        (Installation.progressAll lib ⟨{}, []⟩ (lib.outcome package).progress).showError := by
      simp [blockingInstallUntilCompletion, afterInstall, hret, Installation.exec,
        InstallInfo.exec, Installation.showError]
    rw [hend, hrun.truthful_showError_iff]
    simp [hret]

/-- The build with `DO_NOT_USE_DEPRECATED_API`. -/
theorem truthful_blockingInstallCommand :
    Truthful (blockingInstallCommand lib package {}).notified
      (commandSucceeds lib package = true) := by
  cases hcommand : lib.installCommand with
  | none =>
    have hend : (blockingInstallCommand lib package {}).notified =
        Installation.showError ⟨{}, []⟩ := by
      simp [blockingInstallCommand, hcommand, beforeCommand, Installation.exec, InstallInfo.exec,
        Installation.showError]
    rw [hend, (Installation.Running.start {} rfl).truthful_showError_iff]
    simp [commandSucceeds, hcommand]
  | some exec =>
    let p : Installation := Installation.execAll lib ⟨{}, []⟩ (beforeCommand true)
    have hrun : p.Running 0 := (Installation.Running.start {} rfl).notify .installing (by decide)
    by_cases hret : exec (cStr package.name) = 0
    · have hend : blockingInstallCommand lib package {} =
          (p.execAll lib [.setProgress 100]).execAll lib [.setState .installed, .notifyStateChange] := by
        simp [blockingInstallCommand, hcommand, afterCommand, hret, p]
      have hset : (p.execAll lib [.setProgress 100]).Running 0 :=
        ⟨hrun.error, hrun.shown, hrun.installed⟩
      rw [hend, hset.showInstalled.truthful_iff]
      simp [commandSucceeds, hcommand, hret]
    · have hend : (blockingInstallCommand lib package {}).notified = p.showError := by
        simp [blockingInstallCommand, hcommand, afterCommand, hret, Installation.exec,
          InstallInfo.exec, Installation.showError, p]
      rw [hend, hrun.truthful_showError_iff]
      simp [commandSucceeds, hcommand, hret]

/-- In the default build the notifications are truthful for a call that succeeds after one
report of 100 percent and for a call that fails without one, and for no other. In the build
with `DO_NOT_USE_DEPRECATED_API` they are always truthful. -/
theorem truthful_install_iff :
    (Truthful (blockingInstallUntilCompletion lib package {}).notified
          ((lib.outcome package).ret = 0) ↔
        (lib.outcome package).ret = 0 ∧
            (lib.outcome package).progress.countP ProgressData.isDone = 1 ∨
          (lib.outcome package).ret ≠ 0 ∧
            (lib.outcome package).progress.countP ProgressData.isDone = 0) ∧
      Truthful (blockingInstallCommand lib package {}).notified
        (commandSucceeds lib package = true) :=
  ⟨truthful_blockingInstall_iff lib package, truthful_blockingInstallCommand lib package⟩

end

/-- A call that succeeds without having reported 100 percent is shown neither as a success nor
as a failure; one that fails after a download has reported 100 percent is shown as both. -/
theorem not_truthful_install :
    ¬ Truthful (blockingInstallUntilCompletion (libraryWith ⟨[], 0⟩) ⟨[], [], []⟩ {}).notified
        (((libraryWith ⟨[], 0⟩).outcome ⟨[], [], []⟩).ret = 0) ∧
      ¬ Truthful
        (blockingInstallUntilCompletion (libraryWith ⟨[⟨.download, 100, []⟩], -1⟩) ⟨[], [], []⟩
          {}).notified
        (((libraryWith ⟨[⟨.download, 100, []⟩], -1⟩).outcome ⟨[], [], []⟩).ret = 0) :=
  ⟨fun h => absurd h.1 (by decide), fun h => absurd h.1 (by decide)⟩

end SoftwareUpdate.Packager
