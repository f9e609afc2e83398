import SoftwareUpdate.Packager.Properties.RequestSlot
import SoftwareUpdate.Packager.Properties.Session

/-!
# An install runs as if it were alone

While the worker is in `BlockingInstallUntilCompletionNoLock`, other threads and the observers
call the API, and the worker writes `_inProgress.Install` without the lock. What the observers
are shown is nevertheless what the function shows when nothing else runs, and the accepted
installs begin in the order in which they were accepted.
-/

namespace SoftwareUpdate.Packager

open Misc

variable {cfg : Config} {s s' : Sys} {sh sh' : Shared} {t : Thread} {c : Call}
  {w w' : WorkerPc} {e : Effect} {i : Input} {answer : Bool}

/-! ## The statements of an execution -/

theorem inProgress_of_apply (happly : e.apply sh t = some sh')
    (he : e = .none ∨ e = .lock ∨ e = .unlock ∨ e = .run ∨ e = .block ∨ (∃ b, e = .setSyncing b) ∨
      (∃ b, e = .initOpkg b) ∨ (∃ o, e = .pushBack o) ∨ ∃ o, e = .erase o) :
    sh'.inProgress = sh.inProgress ∧ sh'.isUpgrade = sh.isUpgrade := by
  rcases he with rfl | rfl | rfl | rfl | rfl | ⟨b, rfl⟩ | ⟨b, rfl⟩ | ⟨o, rfl⟩ | ⟨o, rfl⟩
  case inr.inl | inr.inr.inl =>
    obtain ⟨l, -, rfl⟩ := Option.map_eq_some_iff.mp happly
    exact ⟨rfl, rfl⟩
  all_goals cases happly; exact ⟨rfl, rfl⟩

namespace Session

variable {x : Session} {info : InstallInfo}

theorem record_package {ev : InstallEvent} : (x.record ev).package = x.package := by
  cases ev <;> rfl

theorem record_elim_package {ev : Option InstallEvent} :
    (ev.elim x x.record).package = x.package := by
  cases ev with
  | none => rfl
  | some ev => exact record_package

theorem Called.congr (h : x.Called cfg info w) (hahead : w'.ahead = w.ahead)
    (hcall : w'.libraryCall = w.libraryCall) : x.Called cfg info w' where
  function := h.function
  awaits := hcall ▸ h.awaits
  target := by rw [hahead, h.target]

/-- The execution the worker is in is that of the package in `_inProgress`. -/
structure Current (cfg : Config) (x : Session) (sh : Shared) (w : WorkerPc) : Prop where
  package : sh.inProgress.package = some x.package
  install : ∃ info, sh.inProgress.install = some info ∧ x.At cfg sh.isUpgrade info w

theorem Current.congr (h : x.Current cfg sh w) (hsame : sh'.inProgress = sh.inProgress)
    (hupgrade : sh'.isUpgrade = sh.isUpgrade) : x.Current cfg sh' w := by
  obtain ⟨hpackage, info, hinstall, hat⟩ := h
  refine ⟨hsame ▸ hpackage, info, hsame ▸ hinstall, ?_⟩
  rw [hupgrade]
  exact hat

theorem target_install (hbuild : cfg.useDeprecatedApi = true) :
    x.target cfg = (Installation.progressAll cfg.library ⟨{}, []⟩ x.progress).execAll cfg.library
      (x.ret.elim [] afterInstall) :=
  if_pos hbuild

theorem target_command (hbuild : cfg.useDeprecatedApi = false) :
    x.target cfg =
      (Installation.execAll cfg.library ⟨{}, []⟩ (beforeCommand x.found)).execAll cfg.library
        (x.ret.elim [] afterCommand) :=
  if_neg (by simp [hbuild])

/-- What a callback of libopkg executes. -/
theorem Called.progress {f : InstallFunction} (d : ProgressData)
    (h : x.Called cfg info (.library (.install f))) :
    (x.record (.progress d)).Called cfg info
      (.statements (installationProgess d info) (some (.install f))) := by
  obtain ⟨hbuild, hret⟩ := h.awaits
  refine ⟨h.function, ⟨hbuild, hret⟩, ?_⟩
  have htarget : (⟨info, x.shown⟩ : Installation) =
      Installation.progressAll cfg.library ⟨{}, []⟩ x.progress := by
    simpa [target_install hbuild, hret, WorkerPc.ahead] using h.target
  have hret' : (x.record (.progress d)).ret = none := hret
  rw [target_install hbuild, hret', Option.elim_none, Installation.execAll_nil]
  show _ = Installation.progressAll cfg.library ⟨{}, []⟩ (x.progress ++ [d])
  rw [progressAll_concat, ← htarget]
  rfl

/-- What follows the return of libopkg. -/
theorem Called.returns {f : InstallFunction} (ret : ℤ)
    (h : x.Called cfg info (.library (.install f))) :
    (x.record (.returns ret)).Called cfg info (.statements (afterInstall ret) none) := by
  obtain ⟨hbuild, hret⟩ := h.awaits
  refine ⟨h.function, by simp [WorkerPc.libraryCall, Awaits, record, hbuild], ?_⟩
  have htarget : (⟨info, x.shown⟩ : Installation) =
      Installation.progressAll cfg.library ⟨{}, []⟩ x.progress := by
    simpa [target_install hbuild, hret, WorkerPc.ahead] using h.target
  rw [target_install hbuild]
  show Installation.execAll cfg.library ⟨info, x.shown⟩ _ = _
  rw [htarget]
  rfl

theorem Called.execReturns (ret : ℤ) (h : x.Called cfg info (.library .exec)) :
    (x.record (.returns ret)).Called cfg info (.statements (afterCommand ret) none) := by
  obtain ⟨hbuild, hfound, hret⟩ := h.awaits
  refine ⟨h.function, by simp [WorkerPc.libraryCall, Awaits, record, hfound], ?_⟩
  have htarget : (⟨info, x.shown⟩ : Installation) =
      Installation.execAll cfg.library ⟨{}, []⟩ (beforeCommand x.found) := by
    simpa [target_command hbuild, hret, WorkerPc.ahead] using h.target
  rw [target_command hbuild]
  show Installation.execAll cfg.library ⟨info, x.shown⟩ _ = _
  rw [htarget]
  rfl

/-- The packages that are listed, and the call after the list. -/
theorem Current.listed (h : x.Current cfg sh .listUpgradable)
    (hst : installThreadWorker cfg sh .listUpgradable i = some (w', e))
    (happly : e.apply sh t = some sh') :
    w'.begun = true ∧
      ((WorkerPc.listUpgradable.installEvent sh i).elim x x.record).Current cfg sh' w' := by
  obtain ⟨hpackage, info, hinstall, hlists⟩ := h
  obtain ⟨hbuild, hfresh, rfl, hupgrade⟩ : x.Lists cfg sh.isUpgrade info := hlists
  cases i with
  | upgradable p =>
    rw [installThreadWorker, hpackage, Option.map_some, Option.some.injEq, Prod.mk.injEq] at hst
    obtain ⟨rfl, rfl⟩ := hst
    cases happly
    refine ⟨rfl, hpackage, {}, hinstall, hbuild, ?_, rfl, ?_⟩
    · rw [hfresh]
      rfl
    · show checkUpgrade cfg.library x.package sh.isUpgrade p =
        (x.upgradable ++ [p]).foldl (checkUpgrade cfg.library x.package) false
      rw [List.foldl_append, ← hupgrade]
      rfl
  | next answer =>
    cases hst
    cases happly
    refine ⟨rfl, hpackage, {}, hinstall, fun _ => ?_, ⟨hbuild, ?_⟩, ?_⟩
    · show some (installFunction sh.isUpgrade) = some (x.installs cfg.library)
      rw [hupgrade]
      rfl
    · rw [hfresh]
      rfl
    · rw [hfresh]
      simp [target, hbuild, WorkerPc.installEvent, record, WorkerPc.ahead,
        Installation.progressAll]
  | _ => cases hst

/-- A callback of libopkg, or its return. -/
theorem Current.called {call : LibraryCall} (h : x.Current cfg sh (.library call))
    (hst : installThreadWorker cfg sh (.library call) i = some (w', e))
    (happly : e.apply sh t = some sh') :
    w'.begun = true ∧
      (((WorkerPc.library call).installEvent sh i).elim x x.record).Current cfg sh' w' := by
  obtain ⟨hpackage, info, hinstall, hat⟩ := h
  have hcalled : x.Called cfg info (.library call) := hat
  cases call with
  | install f =>
    cases i with
    | progress d =>
      rw [installThreadWorker, hinstall, Option.map_some, Option.some.injEq, Prod.mk.injEq] at hst
      obtain ⟨rfl, rfl⟩ := hst
      cases happly
      exact ⟨rfl, hpackage, info, hinstall, hcalled.progress d⟩
    | returns ret =>
      cases hst
      cases happly
      exact ⟨rfl, hpackage, info, hinstall, hcalled.returns ret⟩
    | _ => cases hst
  | exec =>
    cases i with
    | returns ret =>
      cases hst
      cases happly
      exact ⟨rfl, hpackage, info, hinstall, hcalled.execReturns ret⟩
    | _ => cases hst

/-- A statement of the list. -/
theorem Current.executes {stmts : List Stmt} {back : Option LibraryCall}
    (h : x.Current cfg sh (.statements stmts back))
    (hst : installThreadWorker cfg sh (.statements stmts back) i = some (w', e))
    (happly : e.apply sh t = some sh') : w'.begun = true ∧ x.Current cfg sh' w' := by
  obtain ⟨hpackage, info, hinstall, hat⟩ := h
  have hcalled : x.Called cfg info (.statements stmts back) := hat
  cases i with
  | next answer =>
    cases stmts with
    | nil =>
      cases hst
      cases happly
      cases back with
      | some call => exact ⟨rfl, hpackage, info, hinstall, hcalled.congr rfl rfl⟩
      | none => exact ⟨rfl, hpackage, info, hinstall, hcalled.congr rfl rfl⟩
    | cons stmt stmts =>
      by_cases hnotify : stmt = .notifyStateChange
      · subst hnotify
        cases hst
        cases happly
        exact ⟨rfl, hpackage, info, hinstall, hcalled.congr rfl rfl⟩
      · have hset : (w', e) =
            (.statements stmts back, .setInstall (some (info.exec cfg.library stmt))) := by
          cases stmt <;> simp_all [installThreadWorker]
        obtain ⟨rfl, rfl⟩ := Prod.mk.inj hset
        cases happly
        refine ⟨rfl, hpackage, _, rfl, hcalled.function, hcalled.awaits, ?_⟩
        have htarget := hcalled.target
        cases stmt <;> first | exact htarget | exact absurd rfl hnotify
  | _ =>
    cases stmts with
    | nil => cases hst
    | cons stmt stmts => cases stmt <;> cases hst

/-- A statement of `NotifyStateChange`. -/
theorem Current.notifies {stmts : List Stmt} {back : Option LibraryCall} {pc : NotifyPc}
    (h : x.Current cfg sh (.stateChange stmts back pc))
    (hst : installThreadWorker cfg sh (.stateChange stmts back pc) i = some (w', e))
    (happly : e.apply sh t = some sh') :
    w'.begun = true ∧
      (((WorkerPc.stateChange stmts back pc).installEvent sh i).elim x x.record).Current
        cfg sh' w' := by
  obtain ⟨hpackage, info, hinstall, hat⟩ := h
  have hcalled : x.Called cfg info (.stateChange stmts back pc) := hat
  cases i with
  | next answer =>
    obtain ⟨rfl, rfl⟩ := Prod.mk.inj (Option.some.inj hst)
    cases pc with
    | lock =>
      obtain ⟨hsame, hupgrade⟩ := inProgress_of_apply happly (.inr (.inl rfl))
      have hnext : x.Current cfg sh (.stateChange stmts back .start) :=
        ⟨hpackage, info, hinstall, hcalled.congr rfl rfl⟩
      exact ⟨rfl, hnext.congr hsame hupgrade⟩
    | start =>
      cases happly
      have hevent : (WorkerPc.stateChange stmts back .start).installEvent sh (.next answer) =
          some (.shows info) := by simp [WorkerPc.installEvent, hinstall]
      rw [hevent]
      exact ⟨rfl, hpackage, info, hinstall, hcalled.function, hcalled.awaits, hcalled.target⟩
    | callbacks rest =>
      cases rest with
      | nil =>
        cases happly
        exact ⟨rfl, hpackage, info, hinstall, hcalled.congr rfl rfl⟩
      | cons o rest =>
        cases happly
        exact ⟨rfl, hpackage, info, hinstall, hcalled.congr rfl rfl⟩
    | unlock =>
      obtain ⟨hsame, hupgrade⟩ := inProgress_of_apply happly (.inr (.inr (.inl rfl)))
      have hnext : x.Current cfg sh (.statements stmts back) :=
        ⟨hpackage, info, hinstall, hcalled.congr rfl rfl⟩
      exact ⟨rfl, hnext.congr hsame hupgrade⟩
  | _ => cases hst

/-- Any statement of the worker in an install, but the one that clears it. -/
theorem Current.statement (h : x.Current cfg sh w) (hw : w.begun = true)
    (hclear : w ≠ .clearInstall) (hst : installThreadWorker cfg sh w i = some (w', e))
    (happly : e.apply sh t = some sh') :
    w'.begun = true ∧ ((w.installEvent sh i).elim x x.record).Current cfg sh' w' := by
  cases w with
  | listUpgradable => exact h.listed hst happly
  | library call => exact h.called hst happly
  | statements stmts back => exact h.executes hst happly
  | stateChange stmts back pc => exact h.notifies hst happly
  | lockClear =>
    obtain ⟨hpackage, info, hinstall, hat⟩ := h
    have hcalled : x.Called cfg info .lockClear := hat
    cases i with
    | next answer =>
      cases hst
      obtain ⟨hsame, hupgrade⟩ := inProgress_of_apply happly (.inr (.inl rfl))
      have hnext : x.Current cfg sh .clearInstall :=
        ⟨hpackage, info, hinstall, hcalled.congr rfl rfl⟩
      exact ⟨rfl, hnext.congr hsame hupgrade⟩
    | _ => cases hst
  | clearInstall => exact absurd rfl hclear
  | _ => cases hw

/-- The function is entered. -/
theorem current_of_begins {package : PackageInfo} (hpackage : sh.inProgress.package = some package)
    (hinstall : sh.inProgress.install = some {})
    (hst : installThreadWorker cfg sh .blockingInstall i = some (w', e))
    (happly : e.apply sh t = some sh') :
    w'.begun = true ∧ ∃ found,
      WorkerPc.blockingInstall.installEvent sh i = some (.begins package found) ∧
        Current cfg { package := package, found := found } sh' w' := by
  cases i with
  | next answer =>
    have hevent : WorkerPc.blockingInstall.installEvent sh (.next answer) =
        some (.begins package answer) := by simp [WorkerPc.installEvent, hpackage]
    cases hbuild : cfg.useDeprecatedApi with
    | true =>
      simp only [installThreadWorker, hbuild, if_true, Option.some.injEq, Prod.mk.injEq] at hst
      obtain ⟨rfl, rfl⟩ := hst
      cases happly
      exact ⟨rfl, answer, hevent, hpackage, {}, hinstall, hbuild, rfl, rfl, rfl⟩
    | false =>
      simp only [installThreadWorker, hbuild, Bool.false_eq_true, if_false, Option.some.injEq,
        Prod.mk.injEq] at hst
      obtain ⟨rfl, rfl⟩ := hst
      cases happly
      refine ⟨rfl, answer, hevent, hpackage, {}, hinstall, ?_, ?_, ?_⟩
      · exact fun h => absurd (hbuild.symm.trans h) Bool.false_ne_true
      · cases answer with
        | true => exact ⟨hbuild, rfl, rfl⟩
        | false => simp [WorkerPc.libraryCall, Awaits, hbuild]
      · rw [target_command hbuild]
        rfl
  | _ => cases hst

end Session

/-! ## One step -/

/-- The install that has been accepted and has not begun. -/
def waiting (sh : Shared) (w : WorkerPc) : Option PackageInfo :=
  if !w.begun && sh.inProgress.install.isSome then sh.inProgress.package else none

theorem waiting_of_begun (hw : w.begun = true) : waiting sh w = none := by
  simp [waiting, hw]

theorem waiting_of_install (hinstall : sh.inProgress.install = none) : waiting sh w = none := by
  simp [waiting, hinstall]

theorem waiting_congr (hw : w'.begun = w.begun) (hsame : sh'.inProgress = sh.inProgress) :
    waiting sh' w' = waiting sh w := by
  simp only [waiting, hw, hsame]

/-- The executions that are over have run as if alone, and the one the worker is in has so far. An
install that has not begun is as `DoWork` has created it. -/
inductive Tracks (cfg : Config) (sh : Shared) (w : WorkerPc) : List Session → Prop
  | idle {xs : List Session} (hw : w.begun = false)
      (hfresh : ∀ info, sh.inProgress.install = some info → info = {})
      (hover : ∀ x ∈ xs, x.AsAlone cfg) : Tracks cfg sh w xs
  | busy {x : Session} {xs : List Session} (hw : w.begun = true) (hcurrent : x.Current cfg sh w)
      (hover : ∀ y ∈ xs, y.AsAlone cfg) : Tracks cfg sh w (x :: xs)

/-- What holds after the events of a run. -/
structure Recorded (cfg : Config) (sh : Shared) (w : WorkerPc) (evs : List InstallEvent) :
    Prop where
  tracks : Tracks cfg sh w (sessions evs)
  order : evs.filterMap InstallEvent.accepted =
    (sessions evs).reverse.map Session.package ++ (waiting sh w).toList

theorem Tracks.still {xs : List Session} (h : Tracks cfg sh w xs)
    (hsame : sh'.inProgress = sh.inProgress) (hupgrade : sh'.isUpgrade = sh.isUpgrade) :
    Tracks cfg sh' w xs := by
  cases h with
  | idle hw hfresh hover => exact .idle hw (hsame ▸ hfresh) hover
  | busy hw hcurrent hover => exact .busy hw (hcurrent.congr hsame hupgrade) hover

theorem Tracks.over {xs : List Session} (h : Tracks cfg sh w xs) (hw : w.begun = false) :
    ∀ x ∈ xs, x.AsAlone cfg := by
  cases h with
  | idle _ _ hover => exact hover
  | busy hbegun _ _ => exact absurd (hw.symm.trans hbegun) Bool.false_ne_true

theorem install_eq_none (h : sh.flags.install = false) : sh.inProgress.install = none :=
  Option.not_isSome_iff_eq_none.mp (Bool.eq_false_iff.mp h)

/-- What the statements of a call do to an install: nothing, or they prepare the next one while
there is none. -/
theorem Call.inProgress_statement (hknows : c.Knows sh.flags) (hrec : c.Records sh)
    (happly : (c.statement sh answer).2.apply sh t = some sh') :
    sh'.isUpgrade = sh.isUpgrade ∧
      (sh'.inProgress = sh.inProgress ∧ c.installEvent = none ∨
        sh.inProgress.install = none ∧ sh'.inProgress.install = none ∧ c.installEvent = none ∨
        sh.inProgress.install = none ∧ ∃ package, sh'.inProgress = ⟨some package, some {}⟩ ∧
          c.installEvent = some (.accepts package)) := by
  cases c with
  | register observer pc =>
    have hsame := inProgress_of_apply happly
      (by cases pc <;> simp [Call.statement, Packager.register])
    exact ⟨hsame.2, .inl ⟨hsame.1, rfl⟩⟩
  | unregister observer pc =>
    have hsame := inProgress_of_apply happly
      (by cases pc <;> simp [Call.statement, Packager.unregister])
    exact ⟨hsame.2, .inl ⟨hsame.1, rfl⟩⟩
  | doWork request result pc =>
    cases pc with
    | record =>
      have hinstall := install_eq_none hknows.2.1
      cases request with
      | install package =>
        cases happly
        exact ⟨rfl, .inr (.inl ⟨hinstall, hinstall, rfl⟩)⟩
      | synchronizeRepository =>
        cases happly
        exact ⟨rfl, .inl ⟨rfl, rfl⟩⟩
    | recordInstall =>
      have hinstall := install_eq_none hknows.2.1
      obtain ⟨package, rfl, hpackage⟩ := hrec
      cases happly
      exact ⟨rfl, .inr (.inr ⟨hinstall, package,
        congrArg (InstallationData.mk · (some {})) hpackage, rfl⟩)⟩
    | test =>
      have hsame := inProgress_of_apply happly
        (by simp only [Call.statement, Packager.doWork]; split <;> exact .inl rfl)
      exact ⟨hsame.2, .inl ⟨hsame.1, by cases request <;> rfl⟩⟩
    | _ =>
      have hsame := inProgress_of_apply happly (by simp [Call.statement, Packager.doWork])
      exact ⟨hsame.2, .inl ⟨hsame.1, by cases request <;> rfl⟩⟩

theorem WorkerPc.install_of_begun (h : w.Knows sh.flags) (hw : w.begun = true) :
    sh.inProgress.install.isSome = true := by
  cases w <;> first | exact h | cases hw

/-- A worker that is not in an install leaves the pending one as it is. -/
theorem WorkerMove.idle (h : WorkerMove cfg sh w w' e) (hw : w.begun = false)
    (hne : w ≠ .blockingInstall) (hknows : w.Knows sh.flags) (happly : e.apply sh t = some sh') :
    w'.begun = false ∧ sh'.inProgress.install = sh.inProgress.install ∧
      waiting sh' w' = waiting sh w := by
  have hstill {w₁ : WorkerPc} (hw₁ : w₁.begun = false) (hsame : sh'.inProgress = sh.inProgress) :
      w₁.begun = false ∧ sh'.inProgress.install = sh.inProgress.install ∧
        waiting sh' w₁ = waiting sh w :=
    ⟨hw₁, by rw [hsame], waiting_congr (hw₁.trans hw.symm) hsame⟩
  have hsetup {b : Bool} : (afterSetup b).begun = false := by cases b <;> rfl
  cases h with
  | listFiles isInstall hw' =>
    refine hstill ?_ (inProgress_of_apply happly (by simp)).1
    rcases hw' with ⟨rfl, -⟩ | rfl
    · exact hsetup
    · rfl
  | repoSynced isInstall status pc =>
    cases pc with
    | callbacks rest =>
      cases rest <;> exact hstill rfl (inProgress_of_apply happly (.inl rfl)).1
    | unlock => exact hstill hsetup (inProgress_of_apply happly (by simp [notify])).1
    | _ => exact hstill rfl (inProgress_of_apply happly (by simp [notify])).1
  | install hinstalls _ _ =>
    cases w <;> first
      | exact absurd rfl hne
      | exact absurd hinstalls Bool.false_ne_true
      | exact absurd hw.symm Bool.false_ne_true
  | clearPackage =>
    have hinstall := install_eq_none hknows.1
    have hinstall' : sh'.inProgress.install = none := by
      cases happly
      exact hinstall
    refine ⟨rfl, hinstall'.trans hinstall.symm, ?_⟩
    rw [waiting_of_install hinstall', waiting_of_install hinstall]
  | notifyStateChange | stateChange | lockClear | clearInstall => cases hw
  | _ => exact hstill rfl (inProgress_of_apply happly (by simp)).1

theorem recordSession_accepts {package : PackageInfo} {xs : List Session} :
    recordSession xs (.accepts package) = xs := by
  cases xs <;> rfl

theorem recordSession_cons {ev : Option InstallEvent} {x : Session} {xs : List Session}
    (h : ∀ package found, ev ≠ some (.begins package found)) :
    ev.elim (x :: xs) (recordSession (x :: xs)) = ev.elim x x.record :: xs := by
  cases ev with
  | none => rfl
  | some ev =>
    cases ev with
    | begins package found => exact absurd rfl (h package found)
    | _ => rfl

/-- The worker accepts nothing, and begins only when it enters the function. -/
theorem WorkerPc.accepted_installEvent :
    (w.installEvent sh i).bind InstallEvent.accepted = none := by
  unfold WorkerPc.installEvent
  split
  case h_1 => cases sh.inProgress.package <;> rfl
  case h_6 => cases sh.inProgress.install <;> rfl
  all_goals rfl

theorem WorkerPc.installEvent_ne_begins (hw : w.begun = true) (package : PackageInfo)
    (found : Bool) : w.installEvent sh i ≠ some (.begins package found) := by
  unfold WorkerPc.installEvent
  split
  case h_1 => cases hw
  case h_6 => cases sh.inProgress.install <;> nofun
  all_goals nofun

theorem WorkerPc.installEvent_idle (hw : w.begun = false) (hne : w ≠ .blockingInstall) :
    w.installEvent sh i = none := by
  unfold WorkerPc.installEvent
  split
  case h_1 => exact absurd rfl hne
  case h_7 => rfl
  all_goals cases hw

theorem accepted_append (evs : List InstallEvent) (ev : Option InstallEvent) :
    (evs ++ ev.toList).filterMap InstallEvent.accepted =
      evs.filterMap InstallEvent.accepted ++ (ev.bind InstallEvent.accepted).toList := by
  cases ev with
  | none => simp
  | some ev => cases h : ev.accepted <;> simp [h]

/-- After a statement of a call. -/
theorem Recorded.api {evs : List InstallEvent} (h : Recorded cfg sh w evs)
    (hworker : w.Knows sh.flags) (hknows : c.Knows sh.flags) (hrec : c.Records sh)
    (happly : (c.statement sh answer).2.apply sh t = some sh') :
    Recorded cfg sh' w (evs ++ c.installEvent.toList) := by
  have hidle (hnone : sh.inProgress.install = none) : w.begun = false := by
    by_contra hbegun
    have hsome := WorkerPc.install_of_begun hworker (Bool.not_eq_false _ ▸ hbegun)
    rw [hnone] at hsome
    cases hsome
  obtain ⟨hupgrade, hcase⟩ := Call.inProgress_statement hknows hrec happly
  rcases hcase with ⟨hsame, hev⟩ | ⟨hnone, hnone', hev⟩ | ⟨hnone, package, hafter, hev⟩
  · rw [hev]
    refine ⟨?_, ?_⟩
    · rw [sessions_append]
      exact h.tracks.still hsame hupgrade
    · rw [accepted_append, sessions_append, waiting_congr rfl hsame, h.order]
      simp
  · rw [hev]
    have hw := hidle hnone
    refine ⟨?_, ?_⟩
    · rw [sessions_append]
      refine .idle hw (fun info hinfo => ?_) (h.tracks.over hw)
      rw [hnone'] at hinfo
      cases hinfo
    · rw [accepted_append, sessions_append, waiting_of_install hnone', h.order,
        waiting_of_install hnone]
      simp
  · rw [hev]
    have hw := hidle hnone
    refine ⟨?_, ?_⟩
    · rw [sessions_append, Option.elim_some, recordSession_accepts]
      refine .idle hw (fun info hinfo => ?_) (h.tracks.over hw)
      rw [hafter] at hinfo
      exact (Option.some.inj hinfo).symm
    · have hwaiting : waiting sh' w = some package := by simp [waiting, hw, hafter]
      rw [accepted_append, sessions_append, Option.elim_some, recordSession_accepts, hwaiting,
        h.order, waiting_of_install hnone]
      simp [InstallEvent.accepted]

/-- After a statement of the worker. -/
theorem Tracks.worker {xs : List Session} (h : Tracks cfg sh w xs) (hknows : w.Knows sh.flags)
    (hdata : w = .blockingInstall → sh.inProgress.package.isSome = true)
    (hst : installThreadWorker cfg sh w i = some (w', e)) (happly : e.apply sh t = some sh') :
    Tracks cfg sh' w' ((w.installEvent sh i).elim xs (recordSession xs)) ∧
      ((w.installEvent sh i).elim xs (recordSession xs)).reverse.map Session.package ++
          (waiting sh' w').toList =
        xs.reverse.map Session.package ++ (waiting sh w).toList := by
  cases h with
  | idle hw hfresh hover =>
    by_cases hbegin : w = .blockingInstall
    · subst hbegin
      obtain ⟨package, hpackage⟩ := Option.isSome_iff_exists.mp (hdata rfl)
      obtain ⟨info, hinstall⟩ := Option.isSome_iff_exists.mp hknows
      obtain rfl := hfresh info hinstall
      obtain ⟨hw', found, hev, hcurrent⟩ :=
        Session.current_of_begins hpackage hinstall hst happly
      rw [hev]
      refine ⟨.busy hw' hcurrent hover, ?_⟩
      have hwaiting : waiting sh .blockingInstall = some package := by
        simp [waiting, WorkerPc.begun, hinstall, hpackage]
      rw [waiting_of_begun hw', hwaiting]
      simp [recordSession]
    · obtain ⟨hw', hinstall, hwaiting⟩ := (worker_move hst).idle hw hbegin hknows happly
      rw [WorkerPc.installEvent_idle hw hbegin]
      exact ⟨.idle hw' (hinstall ▸ hfresh) hover, by rw [hwaiting]; rfl⟩
  | @busy x xs hw hcurrent hover =>
    by_cases hclear : w = .clearInstall
    · subst hclear
      cases i with
      | next answer =>
        cases hst
        cases happly
        obtain ⟨-, info, -, hat⟩ := hcurrent
        have hcalled : x.Called cfg info .clearInstall := hat
        refine ⟨.idle rfl nofun fun y hy => ?_, rfl⟩
        rcases List.mem_cons.mp hy with rfl | hy
        · exact hcalled.asAlone rfl rfl
        · exact hover y hy
      | _ => cases hst
    · have hnext := hcurrent.statement hw hclear hst happly
      rw [recordSession_cons (WorkerPc.installEvent_ne_begins hw)]
      refine ⟨.busy hnext.1 hnext.2 hover, ?_⟩
      rw [waiting_of_begun hw, waiting_of_begun hnext.1, List.reverse_cons, List.reverse_cons,
        List.map_append, List.map_append, List.map_singleton, List.map_singleton,
        Session.record_elim_package]

theorem Recorded.worker {evs : List InstallEvent} (h : Recorded cfg sh w evs)
    (hknows : w.Knows sh.flags)
    (hdata : w = .blockingInstall → sh.inProgress.package.isSome = true)
    (hst : installThreadWorker cfg sh w i = some (w', e)) (happly : e.apply sh t = some sh') :
    Recorded cfg sh' w' (evs ++ (w.installEvent sh i).toList) := by
  obtain ⟨htracks, horder⟩ := h.tracks.worker hknows hdata hst happly
  refine ⟨by rwa [sessions_append], ?_⟩
  rw [accepted_append, WorkerPc.accepted_installEvent, sessions_append, horder, h.order]
  exact List.append_nil _

/-- The executions that are over. -/
theorem Recorded.asAlone {evs : List InstallEvent} (h : Recorded cfg sh w evs) :
    ∀ x ∈ if w.begun then (sessions evs).tail else sessions evs, x.AsAlone cfg := by
  have htracks := h.tracks
  generalize sessions evs = xs at htracks
  cases htracks with
  | idle hw _ hover => simpa [hw] using hover
  | busy hw _ hover => simpa [hw] using hover

/-! ## Every run -/

theorem recorded_step {evs : List InstallEvent} (hs : (packager cfg).Reachable s)
    (h : Recorded cfg s.shared s.worker evs) (hstep : step cfg s (t, i) = some s') :
    Recorded cfg s'.shared s'.worker (evs ++ (installEvent s (t, i)).toList) := by
  have hordered := ordered_reachable hs
  rcases step_cases hstep with ⟨api, rfl, hshared, hworker⟩ |
    ⟨c, outer, answer, rfl, htop, hworker, happly⟩ | ⟨rfl, hnone, hi, e, hst, happly⟩
  · rw [hshared, hworker]
    exact (List.append_nil evs).symm ▸ h
  · have hevent : installEvent s (t, .next answer) = c.installEvent := by
      simp [installEvent, htop]
    rw [hevent, hworker]
    exact h.api hordered.worker (hordered.calls t c outer htop)
      (recording_of_reachable hs t c outer htop) happly
  · have hevent : installEvent s (.worker, i) = s.worker.installEvent s.shared i := by
      cases i with
      | call api => exact absurd rfl (hi api)
      | _ => simp [installEvent, hnone]
    rw [hevent]
    refine h.worker hordered.worker (fun hbegin => ?_) hst happly
    exact (hordered.filled (by rw [hbegin]; rfl)).2

theorem recorded_of_run {as : List (Thread × Input)}
    (h : (packager cfg).run PackagerImplementation as = some s) :
    Recorded cfg s.shared s.worker
      ((packager cfg).events installEvent PackagerImplementation as) := by
  have hstart : Recorded cfg PackagerImplementation.shared PackagerImplementation.worker [] :=
    ⟨.idle rfl nofun nofun, rfl⟩
  exact TransitionSystem.invariant_events (I := fun s => Recorded cfg s.shared s.worker)
    (fun s ⟨t, i⟩ s' evs hs hi hstep => recorded_step hs hi hstep) (.init rfl) hstart h

/-- The installs that have been accepted have begun in the order in which they were accepted, but
for the one that is waiting, and those that are over have run as if alone. -/
theorem asAlone_of_run {as : List (Thread × Input)}
    (h : (packager cfg).run PackagerImplementation as = some s) :
    let evs := (packager cfg).events installEvent PackagerImplementation as
    evs.filterMap InstallEvent.accepted =
        (sessions evs).reverse.map Session.package ++ (waiting s.shared s.worker).toList ∧
      ∀ x ∈ if s.worker.begun then (sessions evs).tail else sessions evs, x.AsAlone cfg := by
  intro evs
  have hrecorded : Recorded cfg s.shared s.worker evs := recorded_of_run h
  exact ⟨hrecorded.order, hrecorded.asAlone⟩

/-- In the build with `DO_NOT_USE_DEPRECATED_API` the observers have been told exactly once, and
truthfully, how each install that is over has ended. In the default build they have exactly when
libopkg has called back with 100 percent once for a success, and never for a failure. -/
theorem truthful_of_run {as : List (Thread × Input)}
    (h : (packager cfg).run PackagerImplementation as = some s) :
    let evs := (packager cfg).events installEvent PackagerImplementation as
    ∀ x ∈ if s.worker.begun then (sessions evs).tail else sessions evs,
      (Truthful x.shown (x.ret = some 0) ↔
        (cfg.useDeprecatedApi = true →
          (x.ret = some 0 ↔ x.progress.countP ProgressData.isDone = 1) ∧
            x.progress.countP ProgressData.isDone ≤ 1)) :=
  fun x hx => ((recorded_of_run h).asAlone x hx).truthful

/-- Client 0 installs a package, and while libopkg does, client 1 asks for another install and is
told that one is in progress. -/
def oneInstall : List (Thread × Input) :=
  let package : PackageInfo := ⟨['a'], [], []⟩
  (.client 0, .call (.doWork (.install package))) :: executes (.client 0) 7 ++
    executes .worker 7 ++
    (.client 1, .call (.doWork (.install package))) :: executes (.client 1) 3 ++
    (.worker, .progress ⟨.install, 100, []⟩) :: executes .worker 15 ++
    (.worker, .returns 0) :: executes .worker 4

theorem asAlone_of_run_oneInstall : ∃ s,
    (packager defaultBuild).run PackagerImplementation oneInstall = some s ∧
    (sessions ((packager defaultBuild).events installEvent PackagerImplementation oneInstall)).map
      (fun x => x.shown.map InstallInfo.state) = [[.installing, .installed]] ∧
    ∀ x ∈ if s.worker.begun then
        (sessions ((packager defaultBuild).events installEvent PackagerImplementation
          oneInstall)).tail
      else sessions ((packager defaultBuild).events installEvent PackagerImplementation
        oneInstall), x.AsAlone defaultBuild := by
  have hsome : ((packager defaultBuild).run PackagerImplementation oneInstall).isSome = true := by
    decide +kernel
  obtain ⟨s, hrun⟩ := Option.isSome_iff_exists.mp hsome
  exact ⟨s, hrun, by decide +kernel, (asAlone_of_run hrun).2⟩

/-- That install is over, and its end has been shown truthfully. -/
theorem truthful_of_run_oneInstall : ∃ s,
    (packager defaultBuild).run PackagerImplementation oneInstall = some s ∧
    s.worker.begun = false ∧
    ∀ x ∈ if s.worker.begun then
        (sessions ((packager defaultBuild).events installEvent PackagerImplementation
          oneInstall)).tail
      else sessions ((packager defaultBuild).events installEvent PackagerImplementation
        oneInstall),
      (Truthful x.shown (x.ret = some 0) ↔
        (defaultBuild.useDeprecatedApi = true →
          (x.ret = some 0 ↔ x.progress.countP ProgressData.isDone = 1) ∧
            x.progress.countP ProgressData.isDone ≤ 1)) := by
  have hany : ((packager defaultBuild).run PackagerImplementation oneInstall).any
      (fun s => !s.worker.begun) = true := by decide +kernel
  obtain ⟨hsome, hbegun⟩ := (Option.any_eq_true_iff_get _ _).mp hany
  have hrun := (Option.some_get hsome).symm
  exact ⟨_, hrun, by simpa using hbegun, truthful_of_run hrun⟩

end SoftwareUpdate.Packager
