import SoftwareUpdate.Packager.Proofs.Operation

/-!
# One operation at a time

The slot of the request and `_isSyncing` stand for the pending operation. With the lock free
they name one operation or none; libopkg is initialised anew only when the worker is not using it;
and a call of `DoWork` fails with `ERROR_INPROGRESS` exactly when an operation is pending, and
leaves everything as it is when it fails.
-/

namespace SoftwareUpdate.Packager

open Misc

variable {cfg : Config} {s s' : Sys} {t u : Thread} {c : Call} {outer : List Call}
  {request : Request} {result result' : ErrorCode}

/-- The worker is between reading its request and its last call of libopkg for it. -/
def WorkerPc.usesLibrary : WorkerPc → Bool
  | .unlockRead _ | .listFiles _ | .update _ | .blockingInstall | .listUpgradable | .library _ =>
      true
  | .repoSynced isInstall _ _ => isInstall
  | .statements _ back | .stateChange _ back _ => back.isSome
  | _ => false

/-- Both or neither of `Package` and `Install` are filled in, and no synchronisation is pending
with an install. -/
def Shared.OneRequest (sh : Shared) : Prop :=
  (sh.inProgress.install.isSome = true ↔ sh.inProgress.package.isSome = true) ∧
    ¬ (sh.inProgress.install.isSome = true ∧ sh.isSyncing = true)

/-- The innermost call of thread `t` is `DoWork` before its statement `pc`. -/
def Sys.inDoWork (s : Sys) (t : Thread) (request : Request) (outer : List Call)
    (result : ErrorCode) (pc : DoWorkPc) : Prop :=
  s.calls t = .doWork request result pc :: outer

/-- Thread `t` returns from `DoWork` with its next statement. -/
def Sys.returns (s : Sys) (t : Thread) : Bool :=
  match s.calls t with
  | .doWork _ _ .unlock :: _ => true
  | _ => false

/-- What `s` leads to before thread `t` returns from the call of `DoWork` it is in. -/
def DuringCall (cfg : Config) (t : Thread) : Sys → Sys → Prop :=
  (packager cfg).Leads fun s a => a.1 = t → s.returns t = false

/-! ## The worker that uses libopkg has a request -/

theorem WorkerPc.pending_of_usesLibrary {w : WorkerPc} {f : Flags} (h : w.Knows f)
    (hw : w.usesLibrary = true) : f.pending = true := by
  have hserves : ∀ {b}, Serves f b → f.pending = true := by
    intro b hs
    cases b with
    | true => exact Bool.or_eq_true_iff.mpr (.inl hs)
    | false => exact Bool.or_eq_true_iff.mpr (.inr hs.2)
  cases w with
  | unlockRead isInstall => exact hserves h
  | listFiles isInstall => exact hserves h
  | update isInstall => exact hserves h
  | repoSynced isInstall status pc =>
    obtain rfl : isInstall = true := hw
    exact hserves (h rfl)
  | blockingInstall => exact Bool.or_eq_true_iff.mpr (.inl h)
  | listUpgradable => exact Bool.or_eq_true_iff.mpr (.inl h)
  | library call => exact Bool.or_eq_true_iff.mpr (.inl h)
  | statements stmts back => exact Bool.or_eq_true_iff.mpr (.inl h)
  | stateChange stmts back pc => exact Bool.or_eq_true_iff.mpr (.inl h)
  | _ => cases hw

/-- `FreeOPKG` and `InitOPKG` find the worker outside libopkg. -/
theorem Ordered.not_usesLibrary (h : Ordered s)
    (hcall : s.inDoWork t request outer result .freeOpkg ∨
      s.inDoWork t request outer result .initOpkg) : s.worker.usesLibrary = false := by
  have hidle : s.shared.flags.pending = false := by
    rcases hcall with hcall | hcall
    all_goals
      obtain ⟨-, hinstall, -, hsyncing⟩ := h.calls t _ outer hcall
      exact Flags.pending_eq_false_iff.mpr ⟨hinstall, hsyncing⟩
  by_contra hw
  rw [WorkerPc.pending_of_usesLibrary h.worker (Bool.not_eq_false _ ▸ hw)] at hidle
  cases hidle

theorem Ordered.oneRequest (h : Ordered s) (hfree : s.shared.adminLock = .free) :
    s.shared.OneRequest := by
  have hlevel := h.agrees.eq_zero_of_free hfree
  have hcon : s.shared.flags.Consistent := by
    rcases h.data with hcon | ⟨u, request, result, outer, hu⟩ | hw
    · exact hcon
    · exact absurd (hlevel u) (Nat.ne_of_gt (Sys.level_pos hu Nat.zero_lt_one))
    · have hworker := hlevel .worker
      simp [Sys.level, hw, WorkerPc.level] at hworker
  obtain ⟨hagree, hsync⟩ := hcon
  exact ⟨Bool.eq_iff_iff.mp hagree,
    fun hboth => Bool.false_ne_true ((hsync hboth.1).symm.trans hboth.2)⟩

/-! ## One call of `DoWork` -/

/-- What has happened since the test, which was made in the state `sh`. -/
def DoWorkPc.Since (sh sh' : Shared) (result : ErrorCode) : DoWorkPc → Prop
  | .lock => False
  | .test => result = .inprogress ∧ Unchanged sh sh'
  | .freeOpkg | .initOpkg => result = .none ∧ sh.pending = false ∧ Unchanged sh sh'
  | .record | .recordInstall | .run => result = .none ∧ sh.pending = false
  | .unlock =>
      (result = .inprogress ↔ sh.pending = true) ∧ (result ≠ .none → Unchanged sh sh')

theorem DoWorkPc.Since.unchanged {sh sh₁ sh₂ : Shared} {pc : DoWorkPc}
    (h : pc.Since sh sh₁ result) (hsame : Unchanged sh₁ sh₂) : pc.Since sh sh₂ result := by
  cases pc with
  | test => exact ⟨h.1, h.2.trans hsame⟩
  | freeOpkg => exact ⟨h.1, h.2.1, h.2.2.trans hsame⟩
  | initOpkg => exact ⟨h.1, h.2.1, h.2.2.trans hsame⟩
  | unlock => exact ⟨h.1, fun hr => (h.2 hr).trans hsame⟩
  | _ => exact h

theorem DoWorkPc.Since.level_pos {sh sh' : Shared} {pc : DoWorkPc} (h : pc.Since sh sh' result) :
    0 < (Call.doWork request result pc).level := by
  cases pc <;> first | exact Nat.zero_lt_one | exact absurd h id

/-- The next statement of the call. -/
theorem DoWorkPc.Since.statement {sh sh₁ sh₂ : Shared} {pc : DoWorkPc} {answer : Bool}
    (h : pc.Since sh sh₁ result) (hpc : pc ≠ .unlock)
    (happly : (doWork sh₁ request result answer pc).2.apply sh₁ t = some sh₂) :
    ∃ result' pc', (doWork sh₁ request result answer pc).1 = some (.doWork request result' pc') ∧
      pc'.Since sh sh₂ result' := by
  cases pc with
  | lock => exact absurd h id
  | test =>
    obtain ⟨rfl, hsame⟩ := h
    unfold doWork at happly ⊢
    by_cases hpending : sh₁.pending = true
    · simp only [hpending, if_true] at happly ⊢
      cases happly
      exact ⟨_, _, rfl, ⟨fun _ => hsame.pending ▸ hpending, fun _ => rfl⟩, fun _ => hsame⟩
    · simp only [hpending] at happly ⊢
      cases happly
      have hidle : sh.pending = false := by
        rw [← hsame.pending]
        exact Bool.eq_false_iff.mpr hpending
      refine ⟨_, _, rfl, ?_⟩
      split <;> exact ⟨rfl, hidle, hsame⟩
  | freeOpkg =>
    cases happly
    exact ⟨_, _, rfl, h.1, h.2.1, h.2.2.trans ⟨rfl, rfl, rfl, id⟩⟩
  | initOpkg =>
    obtain ⟨hresult, hidle, hsame⟩ := h
    cases happly
    cases answer with
    | true => exact ⟨_, _, rfl, hresult, hidle⟩
    | false =>
      refine ⟨_, _, rfl, ⟨nofun, fun hp => ?_⟩, fun _ => hsame.trans ⟨rfl, rfl, rfl, id⟩⟩
      exact absurd (hidle.symm.trans hp) Bool.false_ne_true
  | record => cases request <;> exact ⟨_, _, rfl, h⟩
  | recordInstall => exact ⟨_, _, rfl, h⟩
  | run =>
    obtain ⟨hresult, hidle⟩ := h
    subst hresult
    refine ⟨_, _, rfl, ⟨nofun, fun hp => ?_⟩, fun hne => absurd rfl hne⟩
    exact absurd (hidle.symm.trans hp) Bool.false_ne_true
  | unlock => exact absurd rfl hpc

/-- A step of the plugin that does not end the call of thread `t`: another thread moves and the
request stays as it is, or the call goes on. -/
theorem call_cases (h : Locked s) {pc : DoWorkPc} (hcall : s.inDoWork t request outer result pc)
    (hlevel : 0 < (Call.doWork request result pc).level) (hmove : Move cfg s u s') :
    u ≠ t ∧ s'.inDoWork t request outer result pc ∧ Unchanged s.shared s'.shared ∨
      u = t ∧ ∃ answer,
        (doWork s.shared request result answer pc).2.apply s.shared t = some s'.shared ∧
        s'.calls t = (doWork s.shared request result answer pc).1.toList ++ outer := by
  by_cases hut : u = t
  · refine .inr ⟨hut, ?_⟩
    subst hut
    cases hmove with
    | call api hmay =>
      have hin := (inCallback_of_mayCall h hmay).1 _ (by rw [hcall]; exact List.mem_cons_self)
      cases hin
    | api answer htop happly =>
      obtain ⟨rfl, rfl⟩ := List.cons.inj (htop.symm.trans hcall)
      exact ⟨answer, happly, Function.update_self ..⟩
    | worker i ht hnone hst happly =>
      subst ht
      exact absurd (hnone.symm.trans hcall) (List.cons_ne_nil _ _).symm
  · refine .inl ⟨hut, ?_, h.unchanged hmove hcall hlevel (Ne.symm hut)⟩
    cases hmove with
    | call api hmay => exact (Function.update_of_ne (Ne.symm hut) ..).trans hcall
    | api answer htop happly => exact (Function.update_of_ne (Ne.symm hut) ..).trans hcall
    | worker i ht hnone hst happly => exact hcall

theorem Sys.returns_of_unlock (h : s.inDoWork t request outer result .unlock) :
    s.returns t = true := by
  simp only [Sys.returns, Sys.inDoWork] at h ⊢
  rw [h]

/-- What has happened since the test, whatever the other threads have done in between. -/
theorem since_duringCall (h : Ordered s) (htest : s.inDoWork t request outer result .test)
    (hcall : DuringCall cfg t s s') :
    Ordered s' ∧ ∃ result' pc, s'.inDoWork t request outer result' pc ∧
      pc.Since s.shared s'.shared result' := by
  refine hcall.invariant (I := fun s' => Ordered s' ∧ ∃ result' pc,
    s'.inDoWork t request outer result' pc ∧ pc.Since s.shared s'.shared result')
    ⟨h, result, .test, htest, h.calls t _ outer htest, .refl _⟩ ?_
  rintro s₁ ⟨u, i⟩ s₂ ⟨h₁, result₁, pc, hin, hsince⟩ hstays hstep
  have hmove := step_move hstep
  refine ⟨ordered_move h₁ hmove, ?_⟩
  rcases call_cases h₁.toLocked hin hsince.level_pos hmove with
    ⟨-, hin', hsame⟩ | ⟨rfl, answer, happly, hcalls⟩
  · exact ⟨result₁, pc, hin', hsince.unchanged hsame⟩
  · have hpc : pc ≠ .unlock := by
      rintro rfl
      rw [Sys.returns_of_unlock hin] at hstays
      exact absurd (hstays rfl) Bool.noConfusion
    obtain ⟨result₂, pc₂, hnext, hsince'⟩ := hsince.statement hpc happly
    refine ⟨result₂, pc₂, ?_, hsince'⟩
    rw [Sys.inDoWork, hcalls, hnext]
    rfl

/-- A call that runs the worker succeeds. -/
theorem succeeds_of_run (h : Ordered s) (hrun : s.inDoWork t request outer result .run)
    (hcall : DuringCall cfg t s s') :
    Ordered s' ∧ ∃ pc, s'.inDoWork t request outer .none pc ∧ (pc = .run ∨ pc = .unlock) := by
  have hresult : result = .none := (h.calls t _ outer hrun).1
  subst hresult
  refine hcall.invariant (I := fun s' => Ordered s' ∧ ∃ pc,
    s'.inDoWork t request outer .none pc ∧ (pc = .run ∨ pc = .unlock)) ⟨h, .run, hrun, .inl rfl⟩ ?_
  rintro s₁ ⟨u, i⟩ s₂ ⟨h₁, pc, hin, hpc⟩ hstays hstep
  have hmove := step_move hstep
  have hlevel : 0 < (Call.doWork request .none pc).level := by
    rcases hpc with rfl | rfl <;> exact Nat.zero_lt_one
  refine ⟨ordered_move h₁ hmove, ?_⟩
  rcases call_cases h₁.toLocked hin hlevel hmove with ⟨-, hin', -⟩ | ⟨rfl, answer, -, hcalls⟩
  · exact ⟨pc, hin', hpc⟩
  · rcases hpc with rfl | rfl
    · exact ⟨.unlock, hcalls, .inr rfl⟩
    · rw [Sys.returns_of_unlock hin] at hstays
      exact absurd (hstays rfl) Bool.noConfusion

theorem pc_of_inDoWork {pc pc' : DoWorkPc} (h : s.inDoWork t request outer result pc)
    (h' : s.inDoWork t request outer result' pc') : result = result' ∧ pc = pc' := by
  obtain ⟨heq, -⟩ := List.cons.inj (h.symm.trans h')
  obtain ⟨-, hresult, hpc⟩ := Call.doWork.inj heq
  exact ⟨hresult, hpc⟩

/-- The Packager performs one operation at a time: in every state that its runs reach, with
the lock free, at most one request is recorded, and it is recorded completely; `FreeOPKG` and
`InitOPKG` do not disturb the worker; a call of `DoWork` returns `ERROR_INPROGRESS` exactly
when its test finds an operation pending; a call that fails leaves the request as it was and
does not run the worker, and one that runs the worker succeeds. -/
theorem oneOperation (h : (packager cfg).Reachable s) :
    (s.shared.adminLock = .free → s.shared.OneRequest) ∧
    (∀ t request outer result, s.inDoWork t request outer result .freeOpkg ∨
        s.inDoWork t request outer result .initOpkg → s.worker.usesLibrary = false) ∧
    (∀ t request outer result, s.inDoWork t request outer result .test →
      ∀ s' result', DuringCall cfg t s s' → s'.inDoWork t request outer result' .unlock →
        (result' = .inprogress ↔ s.shared.pending = true) ∧
        (result' ≠ .none → Unchanged s.shared s'.shared)) ∧
    (∀ t request outer result, s.inDoWork t request outer result .run →
      ∀ s' result', DuringCall cfg t s s' → s'.inDoWork t request outer result' .unlock →
        result' = .none) := by
  have hordered := ordered_reachable h
  refine ⟨hordered.oneRequest, ?_, ?_, ?_⟩
  · intro t request outer result hcall
    exact hordered.not_usesLibrary hcall
  · intro t request outer result htest s' result' hduring hunlock
    obtain ⟨-, result₁, pc, hin, hsince⟩ := since_duringCall hordered htest hduring
    obtain ⟨rfl, rfl⟩ := pc_of_inDoWork hin hunlock
    exact hsince
  · intro t request outer result hrun s' result' hduring hunlock
    obtain ⟨-, pc, hin, -⟩ := succeeds_of_run hordered hrun hduring
    exact (pc_of_inDoWork hin hunlock).1.symm

/-- A client initialises libopkg for its request, and the worker is not using it. -/
theorem oneOperation_initOpkg : ∃ s, (packager defaultBuild).Reachable s ∧
    s.inDoWork (.client 0) .synchronizeRepository [] .none .initOpkg ∧
    s.worker.usesLibrary = false := by
  obtain ⟨s, hs, htest⟩ := TransitionSystem.exists_reachable_of_run (packager defaultBuild)
    PackagerImplementation (synchronizes (.client 0) 2)
    (fun s => decide (s.calls (.client 0) = [.doWork .synchronizeRepository .none .initOpkg])) rfl
    (by decide +kernel)
  have hcall := of_decide_eq_true htest
  exact ⟨s, hs, hcall, (oneOperation hs).2.1 _ _ _ _ (.inr hcall)⟩

end SoftwareUpdate.Packager
