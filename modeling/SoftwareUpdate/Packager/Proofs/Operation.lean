import SoftwareUpdate.Packager.Proofs.Moves

/-!
# The pending operation

Between reading its request and clearing it the worker holds the lock only now and then; that
nobody else touches the request follows from what each program point knows about
`_inProgress` and `_isSyncing`. A call of `DoWork` that has passed its test knows that nothing is
pending, the worker that serves a request knows that it is, and all writes are made with the
lock held.
-/

namespace SoftwareUpdate.Packager

open Misc

variable {cfg : Config} {s s' : Sys} {sh sh' : Shared} {t u : Thread} {c c' : Call}
  {outer : List Call} {w w' : WorkerPc} {e : Effect} {answer : Bool}

/-! ## The stacks and the lock -/

/-- The lock is held as the program points say, and only a thread in the code of an observer
has made another call. -/
structure Locked (s : Sys) : Prop where
  agrees : s.shared.adminLock.Agrees s.level
  outer : ∀ t c outer, s.calls t = c :: outer → ∀ c' ∈ outer, c'.inCallback = true
  nested : s.calls .worker ≠ [] → s.worker.inCallback = true

theorem Sys.level_cons (h : s.calls t = c :: outer) :
    s.level t =
      c.level + ((outer.map Call.level).sum + if t = .worker then s.worker.level else 0) := by
  simp only [Sys.level, h, List.map_cons, List.sum_cons, Nat.add_assoc]

theorem Sys.level_pos (h : s.calls t = c :: outer) (hc : 0 < c.level) : 0 < s.level t := by
  rw [Sys.level_cons h]
  omega

theorem Sys.level_worker (hnone : s.calls .worker = []) : s.level .worker = s.worker.level := by
  simp [Sys.level, hnone]

theorem Api.level_entry (api : Api) : api.entry.level = 0 := by
  cases api <;> rfl

theorem inCallback_of_mayCall (hl : Locked s) (hmay : s.mayCall t = true) :
    (∀ c ∈ s.calls t, c.inCallback = true) ∧ (t = .worker → s.worker.inCallback = true) := by
  unfold Sys.mayCall at hmay
  split at hmay
  case h_1 c outer htop =>
    refine ⟨?_, ?_⟩
    · intro c' hc'
      rw [htop] at hc'
      rcases List.mem_cons.mp hc' with rfl | hc'
      · exact hmay
      · exact hl.outer _ c outer htop c' hc'
    · rintro rfl
      exact hl.nested (by rw [htop]; exact List.cons_ne_nil _ _)
  case h_2 n hnone =>
    rw [hnone]
    exact ⟨fun _ h => absurd h List.not_mem_nil, nofun⟩
  case h_3 hnone =>
    rw [hnone]
    exact ⟨fun _ h => absurd h List.not_mem_nil, fun _ => hmay⟩

theorem Locked.call (hl : Locked s) (api : Api) (hmay : s.mayCall t = true) :
    Locked { s with calls := Function.update s.calls t (api.entry :: s.calls t) } := by
  obtain ⟨hcalls, hworker⟩ := inCallback_of_mayCall hl hmay
  refine ⟨?_, ?_, ?_⟩
  · intro u
    rw [hl.agrees u]
    by_cases hu : u = t
    · subst hu
      simp [Sys.level, api.level_entry]
    · simp [Sys.level, hu]
  · intro u c outer htop
    rcases calls_of_update htop with ⟨rfl, heq⟩ | ⟨-, htop⟩
    · obtain ⟨-, rfl⟩ := List.cons.inj heq
      exact hcalls
    · exact hl.outer u c outer htop
  · intro hne
    by_cases ht : t = .worker
    · exact hworker ht
    · exact hl.nested (by simpa [Function.update_of_ne (Ne.symm ht)] using hne)

theorem Locked.api (hl : Locked s) (htop : s.calls t = c :: outer)
    (happly : (c.statement s.shared answer).2.apply s.shared t = some sh) :
    Locked { s with
      shared := sh
      calls := Function.update s.calls t ((c.statement s.shared answer).1.toList ++ outer) } := by
  obtain ⟨hlevel, hunlock⟩ := Call.level_statement c s.shared answer
  refine ⟨?_, ?_, ?_⟩
  · intro u
    rw [apply_agrees hl.agrees happly u]
    by_cases hu : u = t
    · subst hu
      rw [Function.update_self, Sys.level_cons htop]
      simp only [Sys.level, Function.update_self, List.map_append, List.sum_append, hlevel,
        Nat.add_assoc]
      cases he : (c.statement s.shared answer).2 with
      | unlock =>
        have hone := hunlock he
        simp only [Effect.onLevel]
        omega
      | _ => simp only [Effect.onLevel] <;> omega
    · simp [Sys.level, hu]
  · intro u d rest htop'
    rcases calls_of_update htop' with ⟨rfl, heq⟩ | ⟨-, htop'⟩
    · have hsub : ∀ d' ∈ rest, d' ∈ outer := by
        intro d' hd'
        cases hc' : (c.statement s.shared answer).1 with
        | none =>
          rw [hc'] at heq
          have hout : outer = d :: rest := heq
          rw [hout]
          exact List.mem_cons_of_mem _ hd'
        | some c' =>
          rw [hc'] at heq
          obtain ⟨-, rfl⟩ := List.cons.inj heq
          exact hd'
      exact fun d' hd' => hl.outer u c outer htop d' (hsub d' hd')
    · exact hl.outer u d rest htop'
  · intro hne
    refine hl.nested ?_
    by_cases ht : t = .worker
    · rw [← ht, htop]
      exact List.cons_ne_nil _ _
    · simpa [Function.update_of_ne (Ne.symm ht)] using hne

theorem Locked.worker (hl : Locked s) (hnone : s.calls .worker = [])
    (hmove : WorkerMove cfg s.shared s.worker w e) (happly : e.apply s.shared .worker = some sh) :
    Locked { s with shared := sh, worker := w } := by
  refine ⟨?_, hl.outer, fun hne => absurd hnone hne⟩
  intro u
  rw [apply_agrees hl.agrees happly u]
  by_cases hu : u = .worker
  · subst hu
    rw [Function.update_self, Sys.level_worker hnone, ← hmove.level]
    exact (Sys.level_worker (s := ⟨sh, w, s.calls⟩) hnone).symm
  · simp [Sys.level, hu]

theorem locked_init : Locked PackagerImplementation :=
  ⟨fun t => by simp [Sys.level, PackagerImplementation, WorkerPc.level], nofun,
    fun h => absurd rfl h⟩

/-! ## What the program points know -/

/-- What the test of `DoWork` and the worker read: whether `_inProgress.Install` and
`_inProgress.Package` are filled in, `_isSyncing`, and whether the worker runs. -/
structure Flags where
  install : Bool
  package : Bool
  syncing : Bool
  running : Bool
  deriving DecidableEq

def Shared.flags (sh : Shared) : Flags where
  install := sh.inProgress.install.isSome
  package := sh.inProgress.package.isSome
  syncing := sh.isSyncing
  running := sh.running

def Flags.pending (f : Flags) : Bool := f.install || f.syncing

theorem Flags.pending_eq_false_iff {f : Flags} :
    f.pending = false ↔ f.install = false ∧ f.syncing = false :=
  Bool.or_eq_false_iff

def Effect.onFlags (f : Flags) : Effect → Flags
  | .setPackage package => { f with package := package.isSome }
  | .setInstall install => { f with install := install.isSome }
  | .setSyncing isSyncing => { f with syncing := isSyncing }
  | .run => { f with running := true }
  | .block => { f with running := false }
  | _ => f

theorem apply_flags (happly : e.apply sh t = some sh') : sh'.flags = e.onFlags sh.flags := by
  cases e with
  | lock =>
    obtain ⟨l, -, rfl⟩ := Option.map_eq_some_iff.mp happly
    rfl
  | unlock =>
    obtain ⟨l, -, rfl⟩ := Option.map_eq_some_iff.mp happly
    rfl
  | _ => cases happly; rfl

/-- Both or neither of the two parts of `_inProgress` are filled in, and no synchronisation is
pending with an install. -/
def Flags.Consistent (f : Flags) : Prop :=
  f.install = f.package ∧ (f.install = true → f.syncing = false)

def DoWorkPc.Knows (f : Flags) (result : ErrorCode) : DoWorkPc → Prop
  | .lock | .test => result = .inprogress
  | .freeOpkg | .initOpkg | .record =>
      result = .none ∧ f.install = false ∧ f.package = false ∧ f.syncing = false
  | .recordInstall => result = .none ∧ f.install = false ∧ f.package = true ∧ f.syncing = false
  | .run => result = .none ∧ f.pending = true
  | .unlock => True

def Call.Knows (f : Flags) : Call → Prop
  | .doWork _ result pc => pc.Knows f result
  | _ => True

/-- The request that the worker serves. -/
def Serves (f : Flags) (isInstall : Bool) : Prop :=
  if isInstall then f.install = true else f.install = false ∧ f.syncing = true

/-- The worker has yet to clear `_isSyncing`. -/
def NotifyPc.clears : NotifyPc → Bool
  | .lock | .start => true
  | _ => false

def WorkerPc.Knows (f : Flags) : WorkerPc → Prop
  | .isRunning => f.running = true → f.pending = true
  | .lockRead | .read => f.pending = true
  | .unlockRead isInstall | .listFiles isInstall | .update isInstall => Serves f isInstall
  | .repoSynced isInstall _ pc => (isInstall || pc.clears) = true → Serves f isInstall
  | .clearPackage => f.install = false ∧ f.syncing = false
  | .unlockClear | .block => True
  | _ => f.install = true

/-- What holds between the statements. In between the two parts of `_inProgress` are filled in
or cleared one after the other. -/
structure Ordered (s : Sys) : Prop extends Locked s where
  calls : ∀ t c outer, s.calls t = c :: outer → c.Knows s.shared.flags
  worker : s.worker.Knows s.shared.flags
  awake : s.worker ≠ .isRunning → s.shared.flags.running = true
  data : s.shared.flags.Consistent ∨
    (∃ t request result outer, s.calls t = .doWork request result .recordInstall :: outer) ∨
    s.worker = .clearPackage

/-! ## One statement of a call -/

variable {f f' : Flags}

theorem Call.knows_of_level_zero (hc : c.level = 0) (h : c.Knows f) : c.Knows f' := by
  cases c with
  | doWork request result pc => cases pc <;> first | exact h | cases hc
  | _ => trivial

theorem Call.knows_of_inCallback (h : c.inCallback = true) : c.Knows f := by
  cases c with
  | doWork request result pc => cases h
  | _ => trivial

/-- The call has been told that its request goes into the plugin, and it is half recorded. -/
def Call.records : Call → Bool
  | .doWork _ _ .recordInstall => true
  | _ => false

/-- What a call knows after its next statement. That nothing is pending is read in the test;
that both parts of `_inProgress` are empty then follows because they agree. -/
theorem Call.knows_statement (h : c.Knows sh.flags)
    (hdata : 0 < c.level → c.records = false → sh.flags.Consistent)
    (hc' : (c.statement sh answer).1 = some c') :
    c'.Knows ((c.statement sh answer).2.onFlags sh.flags) := by
  cases c with
  | register observer pc => cases pc <;> cases hc' <;> trivial
  | unregister observer pc => cases pc <;> cases hc' <;> trivial
  | doWork request result pc =>
    cases pc with
    | lock => cases hc'; exact h
    | test =>
      simp only [Call.statement, Packager.doWork] at hc' ⊢
      split at hc'
      case isTrue => cases hc'; trivial
      case isFalse hpending =>
        have hnone : sh.flags.install = false ∧ sh.flags.syncing = false :=
          Flags.pending_eq_false_iff.mp (Bool.eq_false_iff.mpr hpending)
        have hpackage : sh.flags.package = false := by
          rw [← (hdata Nat.zero_lt_one rfl).1]
          exact hnone.1
        have hknows : (DoWorkPc.freeOpkg).Knows sh.flags .none :=
          ⟨rfl, hnone.1, hpackage, hnone.2⟩
        cases hc'
        rw [if_neg hpending]
        split <;> exact hknows
    | freeOpkg => cases hc'; exact h
    | initOpkg =>
      cases answer with
      | true => cases hc'; exact h
      | false => cases hc'; trivial
    | record =>
      obtain ⟨hresult, hinstall, -, hsyncing⟩ := h
      cases request with
      | install package => cases hc'; exact ⟨hresult, hinstall, rfl, hsyncing⟩
      | synchronizeRepository => cases hc'; exact ⟨hresult, Bool.or_true _⟩
    | recordInstall => cases hc'; exact ⟨h.1, rfl⟩
    | run => cases hc'; trivial
    | unlock => cases hc'

/-- A statement that changes the request is made by a call that knows that none is pending. -/
theorem Call.flags_statement (sh : Shared) (answer : Bool) (h : c.Knows f) :
    (c.statement sh answer).2.onFlags f = f ∨
      f.pending = true ∧ (c.statement sh answer).2.onFlags f = { f with running := true } ∨
      f.pending = false ∧ 0 < c.level ∧
        ((c.statement sh answer).2.onFlags f).running = f.running := by
  cases c with
  | register observer pc => cases pc <;> exact .inl rfl
  | unregister observer pc => cases pc <;> exact .inl rfl
  | doWork request result pc =>
    cases pc with
    | test =>
      refine .inl ?_
      simp only [Call.statement, Packager.doWork]
      split <;> rfl
    | record =>
      obtain ⟨-, hinstall, -, hsyncing⟩ := h
      refine .inr (.inr ⟨Flags.pending_eq_false_iff.mpr ⟨hinstall, hsyncing⟩, Nat.zero_lt_one, ?_⟩)
      cases request <;> rfl
    | recordInstall =>
      obtain ⟨-, hinstall, -, hsyncing⟩ := h
      exact .inr (.inr ⟨Flags.pending_eq_false_iff.mpr ⟨hinstall, hsyncing⟩, Nat.zero_lt_one, rfl⟩)
    | run => exact .inr (.inl ⟨h.2, rfl⟩)
    | _ => exact .inl rfl

/-! ## What the worker knows of the statements of the others -/

theorem WorkerPc.knows_run (h : w.Knows f) (hf : f.pending = true) :
    w.Knows { f with running := true } := by
  cases w with
  | isRunning => exact fun _ => hf
  | _ => exact h

/-- A worker that may be told that nothing is pending knows nothing. -/
theorem WorkerPc.knows_of_not_pending (h : w.Knows f) (hf : f.pending = false)
    (hw : w ≠ .clearPackage) (hrun : f'.running = f.running) : w.Knows f' := by
  obtain ⟨hinstall, hsyncing⟩ := Flags.pending_eq_false_iff.mp hf
  have hserves : ∀ {b}, ¬ Serves f b := by
    intro b hs
    cases b with
    | true => exact Bool.false_ne_true (hinstall.symm.trans hs)
    | false => exact Bool.false_ne_true (hsyncing.symm.trans hs.2)
  cases w with
  | isRunning =>
    intro hr
    rw [h (hrun.symm.trans hr)] at hf
    cases hf
  | lockRead => exact absurd (hf.symm.trans h) Bool.false_ne_true
  | read => exact absurd (hf.symm.trans h) Bool.false_ne_true
  | unlockRead isInstall => exact absurd h hserves
  | listFiles isInstall => exact absurd h hserves
  | update isInstall => exact absurd h hserves
  | repoSynced isInstall status pc => exact fun hb => absurd (h hb) hserves
  | clearPackage => exact absurd rfl hw
  | unlockClear => trivial
  | block => trivial
  | _ => exact absurd (hinstall.symm.trans h) Bool.false_ne_true

theorem WorkerPc.knows_statement (h : w.Knows f) (hc : c.Knows f)
    (hw : 0 < c.level → w ≠ .clearPackage) :
    w.Knows ((c.statement sh answer).2.onFlags f) := by
  rcases Call.flags_statement _ _ hc with heq | ⟨hf, heq⟩ | ⟨hf, hlevel, hrun⟩
  · rwa [heq]
  · rw [heq]
    exact WorkerPc.knows_run h hf
  · exact WorkerPc.knows_of_not_pending h hf (hw hlevel) hrun

/-! ## One statement of the worker -/

/-- The request slot and `_isSyncing` are as before, up to what `_inProgress.Install` points
to, and the worker has not been run. -/
structure Unchanged (sh sh' : Shared) : Prop where
  package : sh'.inProgress.package = sh.inProgress.package
  install : sh'.inProgress.install.isSome = sh.inProgress.install.isSome
  syncing : sh'.isSyncing = sh.isSyncing
  running : sh'.running = true → sh.running = true

theorem Unchanged.refl (sh : Shared) : Unchanged sh sh := ⟨rfl, rfl, rfl, id⟩

theorem Unchanged.trans {sh₁ sh₂ sh₃ : Shared} (h : Unchanged sh₁ sh₂) (h' : Unchanged sh₂ sh₃) :
    Unchanged sh₁ sh₃ :=
  ⟨h'.package.trans h.package, h'.install.trans h.install, h'.syncing.trans h.syncing,
    fun hr => h.running (h'.running hr)⟩

theorem Unchanged.pending (h : Unchanged sh sh') : sh'.pending = sh.pending := by
  simp only [Shared.pending, h.install, h.syncing]

/-- The effects that leave the request as it is. -/
theorem unchanged_of_apply (happly : e.apply sh t = some sh')
    (he : e = .none ∨ e = .lock ∨ e = .unlock ∨ e = .block ∨ (∃ b, e = .setUpgrade b) ∨
      (∃ b, e = .initOpkg b) ∨
      ∃ info, sh.inProgress.install.isSome = true ∧ e = .setInstall (some info)) :
    Unchanged sh sh' := by
  rcases he with rfl | rfl | rfl | rfl | ⟨b, rfl⟩ | ⟨b, rfl⟩ | ⟨info, hinfo, rfl⟩
  case inr.inl | inr.inr.inl =>
    obtain ⟨l, -, rfl⟩ := Option.map_eq_some_iff.mp happly
    exact ⟨rfl, rfl, rfl, id⟩
  case inr.inr.inr.inl => cases happly; exact ⟨rfl, rfl, rfl, nofun⟩
  case inr.inr.inr.inr.inr.inr => cases happly; exact ⟨rfl, hinfo.symm, rfl, id⟩
  all_goals cases happly; exact ⟨rfl, rfl, rfl, id⟩

theorem Call.unchanged (hc : c.level = 0)
    (happly : (c.statement sh answer).2.apply sh t = some sh') : Unchanged sh sh' := by
  refine unchanged_of_apply happly (.inr (.inl ?_))
  cases c with
  | doWork request result pc => cases pc <;> first | rfl | cases hc
  | register observer pc => cases pc <;> first | rfl | cases hc
  | unregister observer pc => cases pc <;> first | rfl | cases hc

/-- Without the lock the worker changes no more than what `_inProgress.Install` points to and
whether it runs. -/
theorem WorkerMove.unchanged (h : WorkerMove cfg sh w w' e) (hw : w.level = 0)
    (happly : e.apply sh t = some sh') : Unchanged sh sh' := by
  refine unchanged_of_apply happly ?_
  cases h with
  | lockRead => exact .inr (.inl rfl)
  | lockClear => exact .inr (.inl rfl)
  | block => exact .inr (.inr (.inr (.inl rfl)))
  | repoSynced isInstall status pc =>
    cases pc with
    | lock => exact .inr (.inl rfl)
    | _ => cases hw
  | stateChange stmts back pc =>
    cases pc with
    | lock => exact .inr (.inl rfl)
    | _ => cases hw
  | install _ _ he =>
    rcases he with rfl | hb | hinfo
    · exact .inl rfl
    · exact .inr (.inr (.inr (.inr (.inl hb))))
    · exact .inr (.inr (.inr (.inr (.inr (.inr hinfo)))))
  | _ => first | exact .inl rfl | cases hw

/-- What the calls know is about the request. -/
theorem Call.knows_of_unchanged (h : Unchanged sh sh') (hc : c.Knows sh.flags) :
    c.Knows sh'.flags := by
  have hinstall : sh'.flags.install = sh.flags.install := h.install
  have hpackage : sh'.flags.package = sh.flags.package := congrArg Option.isSome h.package
  have hsyncing : sh'.flags.syncing = sh.flags.syncing := h.syncing
  cases c with
  | doWork request result pc =>
    cases pc <;>
      simp only [Call.Knows, DoWorkPc.Knows, Flags.pending, hinstall, hpackage, hsyncing]
        at hc ⊢ <;>
      exact hc
  | _ => trivial

theorem knows_afterSetup {b : Bool} (h : b = true → f.install = true) : (afterSetup b).Knows f := by
  cases b with
  | true => exact h rfl
  | false => trivial

theorem WorkerPc.knows_of_installs (hw : w.installs = true) : w.Knows f ↔ f.install = true := by
  cases w <;> first | rfl | cases hw

/-- What the worker knows after its next statement. -/
theorem WorkerMove.knows (h : WorkerMove cfg sh w w' e) (hknows : w.Knows sh.flags)
    (hdata : w = .clearInstall → sh.flags.Consistent) : w'.Knows (e.onFlags sh.flags) := by
  cases h with
  | isRunning hrun => exact hknows hrun
  | lockRead => exact hknows
  | read =>
    show Serves sh.flags sh.flags.install
    cases hinstall : sh.flags.install with
    | true => exact hinstall
    | false =>
      refine ⟨hinstall, ?_⟩
      have hpending : (sh.flags.install || sh.flags.syncing) = true := hknows
      rwa [hinstall, Bool.false_or] at hpending
  | unlockRead isInstall => exact hknows
  | listFiles isInstall hw =>
    rcases hw with ⟨rfl, rfl⟩ | rfl
    · exact hknows
    · exact hknows
  | update isInstall status => exact fun _ => hknows
  | repoSynced isInstall status pc =>
    cases pc with
    | lock => exact hknows
    | start =>
      cases isInstall with
      | true => exact fun _ => hknows rfl
      | false => exact nofun
    | callbacks rest =>
      cases isInstall with
      | true => cases rest <;> exact fun _ => hknows rfl
      | false => cases rest <;> exact nofun
    | unlock => exact knows_afterSetup fun hb => by subst hb; exact hknows rfl
  | install hw hw' he =>
    rw [WorkerPc.knows_of_installs hw] at hknows
    rw [WorkerPc.knows_of_installs hw']
    rcases he with rfl | ⟨b, rfl⟩ | ⟨info, -, rfl⟩
    · exact hknows
    · exact hknows
    · rfl
  | notifyStateChange stmts back => exact hknows
  | stateChange stmts back pc =>
    cases pc with
    | callbacks rest => cases rest <;> exact hknows
    | _ => exact hknows
  | lockClear => exact hknows
  | clearInstall => exact ⟨rfl, (hdata rfl).2 hknows⟩
  | clearPackage => trivial
  | unlockClear => trivial
  | block => exact nofun

theorem WorkerMove.running (h : WorkerMove cfg sh w w' e)
    (hrun : w ≠ .isRunning → sh.flags.running = true) :
    w' ≠ .isRunning → (e.onFlags sh.flags).running = true := by
  intro hw'
  cases h with
  | isRunning hr => exact hr
  | repoSynced isInstall status pc =>
    cases pc with
    | callbacks rest => cases rest <;> exact hrun nofun
    | _ => exact hrun nofun
  | stateChange stmts back pc =>
    cases pc with
    | callbacks rest => cases rest <;> exact hrun nofun
    | _ => exact hrun nofun
  | install hw _ he =>
    have hne : w ≠ .isRunning := by
      rintro rfl
      cases hw
    rcases he with rfl | ⟨b, rfl⟩ | ⟨info, -, rfl⟩ <;> exact hrun hne
  | block => exact absurd rfl hw'
  | _ => exact hrun nofun

/-- The two parts of `_inProgress` agree after the statements of the worker, but for one. -/
theorem WorkerMove.consistent (h : WorkerMove cfg sh w w' e) (hknows : w.Knows sh.flags)
    (hdata : sh.flags.Consistent ∨ w = .clearPackage) :
    (e.onFlags sh.flags).Consistent ∨ w' = .clearPackage := by
  cases h with
  | clearInstall => exact .inr rfl
  | clearPackage => exact .inl ⟨hknows.1, fun _ => hknows.2⟩
  | repoSynced isInstall status pc =>
    obtain hcon := hdata.resolve_right nofun
    cases pc with
    | start => exact .inl ⟨hcon.1, fun _ => rfl⟩
    | callbacks rest => cases rest <;> exact .inl hcon
    | _ => exact .inl hcon
  | stateChange stmts back pc =>
    obtain hcon := hdata.resolve_right nofun
    cases pc with
    | callbacks rest => cases rest <;> exact .inl hcon
    | _ => exact .inl hcon
  | install hw _ he =>
    have hne : w ≠ .clearPackage := by
      rintro rfl
      cases hw
    have hcon := hdata.resolve_right hne
    rcases he with rfl | ⟨b, rfl⟩ | ⟨info, hinfo, rfl⟩
    · exact .inl hcon
    · exact .inl hcon
    · exact .inl ⟨hinfo.symm.trans hcon.1, fun _ => hcon.2 hinfo⟩
  | _ => exact .inl (hdata.resolve_right nofun)

/-! ## The invariant -/

/-- Two threads whose program points hold the lock are one. -/
theorem Ordered.worker_free (h : Ordered s) (htop : s.calls t = c :: outer) (hc : 0 < c.level) :
    s.worker ≠ .clearPackage := by
  intro hw
  have hworker : 0 < s.level .worker := by
    simp only [Sys.level, hw, WorkerPc.level]
    exact Nat.lt_of_lt_of_le Nat.zero_lt_one (Nat.le_add_left _ _)
  obtain rfl : t = .worker := h.agrees.unique (Sys.level_pos htop hc) hworker
  have hin := h.nested (by rw [htop]; exact List.cons_ne_nil _ _)
  rw [hw] at hin
  cases hin

/-- While a call that holds the lock is not in between, the two parts of `_inProgress` agree. -/
theorem Ordered.consistent (h : Ordered s) (htop : s.calls t = c :: outer) (hc : 0 < c.level)
    (hrecords : c.records = false) : s.shared.flags.Consistent := by
  rcases h.data with hcon | ⟨u, request, result, outer', hu⟩ | hw
  · exact hcon
  · obtain rfl : t = u := h.agrees.unique (Sys.level_pos htop hc) (Sys.level_pos hu Nat.zero_lt_one)
    obtain ⟨rfl, -⟩ := List.cons.inj (htop.symm.trans hu)
    cases hrecords
  · exact absurd hw (h.worker_free htop hc)

/-- A thread that does not hold the lock leaves the request as it is. -/
theorem unchanged_of_move (h : Move cfg s t s') (hlevel : s.level t = 0) :
    Unchanged s.shared s'.shared := by
  cases h with
  | call api hmay => exact .refl _
  | api answer htop happly =>
    rw [Sys.level_cons htop] at hlevel
    exact Call.unchanged (by omega) happly
  | worker i ht hnone hst happly =>
    subst ht
    rw [Sys.level_worker hnone] at hlevel
    exact (worker_move hst).unchanged hlevel happly

/-- While a call holds the lock the other threads leave the request as it is. -/
theorem Locked.unchanged (h : Locked s) (hmove : Move cfg s t s') (hu : s.calls u = c :: outer)
    (hc : 0 < c.level) (hne : u ≠ t) : Unchanged s.shared s'.shared := by
  refine unchanged_of_move hmove ?_
  by_contra hlevel
  exact hne (h.agrees.unique (Sys.level_pos hu hc) (Nat.pos_of_ne_zero hlevel))

theorem Ordered.knows_of_unchanged (h : Ordered s) (hu : s.calls u = c :: outer) (hne : u ≠ t)
    (hsame : s.level t = 0 → Unchanged s.shared sh) : c.Knows sh.flags := by
  by_cases hc : c.level = 0
  · exact Call.knows_of_level_zero hc (h.calls u c outer hu)
  · refine Call.knows_of_unchanged (hsame ?_) (h.calls u c outer hu)
    by_contra hlevel
    have hpos : 0 < s.level u := Sys.level_pos hu (Nat.pos_of_ne_zero hc)
    exact hne (h.agrees.unique hpos (Nat.pos_of_ne_zero hlevel))

theorem Ordered.call (h : Ordered s) (api : Api) (hmay : s.mayCall t = true) :
    Ordered { s with calls := Function.update s.calls t (api.entry :: s.calls t) } := by
  refine ⟨h.toLocked.call api hmay, ?_, h.worker, h.awake, ?_⟩
  · intro u c outer htop
    rcases calls_of_update htop with ⟨rfl, heq⟩ | ⟨-, htop⟩
    · obtain ⟨rfl, -⟩ := List.cons.inj heq
      cases api <;> trivial
    · exact h.calls u c outer htop
  · rcases h.data with hcon | ⟨u, request, result, outer, hu⟩ | hw
    · exact .inl hcon
    · refine .inr (.inl ⟨u, request, result, outer, ?_⟩)
      show Function.update s.calls t _ u = _
      rw [Function.update_of_ne, hu]
      rintro rfl
      have hin := (inCallback_of_mayCall h.toLocked hmay).1 _ (by rw [hu]; exact List.mem_cons_self)
      cases hin
    · exact .inr (.inr hw)

/-- The two parts of `_inProgress` agree after the statements of a call, but for one. -/
theorem Call.consistent_statement (hknows : c.Knows f) (hcon : c.records = false → f.Consistent) :
    ((c.statement sh answer).2.onFlags f).Consistent ∨
      ∃ request result,
        (c.statement sh answer).1 = some (.doWork request result .recordInstall) := by
  cases c with
  | register observer pc => cases pc <;> exact .inl (hcon rfl)
  | unregister observer pc => cases pc <;> exact .inl (hcon rfl)
  | doWork request result pc =>
    cases pc with
    | test =>
      refine .inl ?_
      simp only [Call.statement, Packager.doWork]
      split <;> exact hcon rfl
    | record =>
      obtain ⟨-, hinstall, hpackage, -⟩ := hknows
      cases request with
      | install package => exact .inr ⟨_, _, rfl⟩
      | synchronizeRepository =>
        refine .inl ⟨hinstall.trans hpackage.symm, fun hi => ?_⟩
        exact absurd (hinstall.symm.trans hi) Bool.false_ne_true
    | recordInstall =>
      obtain ⟨-, -, hpackage, hsyncing⟩ := hknows
      exact .inl ⟨hpackage.symm, fun _ => hsyncing⟩
    | _ => exact .inl (hcon rfl)

theorem Ordered.api (h : Ordered s) (htop : s.calls t = c :: outer)
    (happly : (c.statement s.shared answer).2.apply s.shared t = some sh) :
    Ordered { s with
      shared := sh
      calls := Function.update s.calls t ((c.statement s.shared answer).1.toList ++ outer) } := by
  have hflags := apply_flags happly
  have hknows := h.calls t c outer htop
  refine ⟨h.toLocked.api htop happly, ?_, ?_, ?_, ?_⟩
  · intro u d rest htop'
    show d.Knows sh.flags
    rw [hflags]
    rcases calls_of_update htop' with ⟨rfl, heq⟩ | ⟨hne, htop'⟩
    · cases hc' : (c.statement s.shared answer).1 with
      | some c' =>
        rw [hc'] at heq
        obtain ⟨rfl, -⟩ := List.cons.inj heq
        exact Call.knows_statement hknows (h.consistent htop) hc'
      | none =>
        rw [hc'] at heq
        have hout : outer = d :: rest := heq
        have hmem : d ∈ outer := by
          rw [hout]
          exact List.mem_cons_self
        exact Call.knows_of_inCallback (h.outer u c outer htop d hmem)
    · rw [← hflags]
      refine h.knows_of_unchanged htop' hne fun hlevel => ?_
      rw [Sys.level_cons htop] at hlevel
      exact Call.unchanged (by omega) happly
  · show s.worker.Knows sh.flags
    rw [hflags]
    exact WorkerPc.knows_statement h.worker hknows (h.worker_free htop)
  · intro hw
    show sh.flags.running = true
    rw [hflags]
    rcases Call.flags_statement s.shared answer hknows with heq | ⟨-, heq⟩ | ⟨-, -, heq⟩
    · rw [heq]
      exact h.awake hw
    · rw [heq]
    · rw [heq]
      exact h.awake hw
  · show sh.flags.Consistent ∨ _
    rw [hflags]
    rcases h.data with hcon | ⟨u, request, result, outer', hu⟩ | hw
    · rcases Call.consistent_statement hknows fun _ => hcon with hcon' | ⟨request, result, hc'⟩
      · exact .inl hcon'
      · refine .inr (.inl ⟨t, request, result, outer, ?_⟩)
        show Function.update s.calls t _ t = _
        rw [Function.update_self, hc']
        rfl
    · by_cases hut : u = t
      · subst hut
        obtain ⟨rfl, -⟩ := List.cons.inj (htop.symm.trans hu)
        exact .inl ⟨hknows.2.2.1.symm, fun _ => hknows.2.2.2⟩
      · refine .inr (.inl ⟨u, request, result, outer', ?_⟩)
        show Function.update s.calls t _ u = _
        rw [Function.update_of_ne hut, hu]
    · exact .inr (.inr hw)

theorem Ordered.consistent_worker (h : Ordered s) (hnone : s.calls .worker = [])
    (hw : 0 < s.worker.level) : s.shared.flags.Consistent ∨ s.worker = .clearPackage := by
  rcases h.data with hcon | ⟨u, request, result, outer, hu⟩ | hw'
  · exact .inl hcon
  · rw [← Sys.level_worker hnone] at hw
    obtain rfl : u = .worker := h.agrees.unique (Sys.level_pos hu Nat.zero_lt_one) hw
    rw [hnone] at hu
    cases hu
  · exact .inr hw'

theorem Ordered.worker_step (h : Ordered s) (hnone : s.calls .worker = [])
    (hmove : WorkerMove cfg s.shared s.worker w e) (happly : e.apply s.shared .worker = some sh) :
    Ordered { s with shared := sh, worker := w } := by
  have hflags := apply_flags happly
  refine ⟨h.toLocked.worker hnone hmove happly, ?_, ?_, ?_, ?_⟩
  · intro u c outer htop
    have hne : u ≠ .worker := by
      rintro rfl
      exact absurd (hnone.symm.trans htop) (List.cons_ne_nil _ _).symm
    refine h.knows_of_unchanged htop hne fun hlevel => ?_
    rw [Sys.level_worker hnone] at hlevel
    exact hmove.unchanged hlevel happly
  · show w.Knows sh.flags
    rw [hflags]
    refine hmove.knows h.worker fun hw => ?_
    exact (h.consistent_worker hnone (by rw [hw]; exact Nat.zero_lt_one)).resolve_right
      (by rw [hw]; exact nofun)
  · intro hw
    show sh.flags.running = true
    rw [hflags]
    exact hmove.running h.awake hw
  · show sh.flags.Consistent ∨ _ ∨ w = .clearPackage
    by_cases hlevel : s.worker.level = 0
    · have hsame := hmove.unchanged hlevel happly
      rcases h.data with hcon | hrecords | hw
      · refine .inl ⟨?_, fun hi => ?_⟩
        · exact hsame.install.trans (hcon.1.trans (congrArg Option.isSome hsame.package).symm)
        · exact hsame.syncing.trans (hcon.2 (hsame.install.symm.trans hi))
      · exact .inr (.inl hrecords)
      · rw [hw] at hlevel
        cases hlevel
    · rw [hflags]
      have hcon := h.consistent_worker hnone (Nat.pos_of_ne_zero hlevel)
      exact (hmove.consistent h.worker hcon).imp id .inr

theorem ordered_move (h : Ordered s) (hmove : Move cfg s t s') : Ordered s' := by
  cases hmove with
  | call api hmay => exact h.call api hmay
  | api answer htop happly => exact h.api htop happly
  | worker i ht hnone hst happly => exact h.worker_step hnone (worker_move hst) happly

theorem ordered_reachable (h : (packager cfg).Reachable s) : Ordered s := by
  refine h.invariant (I := Ordered) ?_ ?_
  · rintro s rfl
    exact ⟨locked_init, nofun, nofun, fun h => absurd rfl h, .inl ⟨rfl, fun _ => rfl⟩⟩
  · rintro s ⟨t, i⟩ s' - h hstep
    exact ordered_move h (step_move hstep)

end SoftwareUpdate.Packager
