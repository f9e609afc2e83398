import SoftwareUpdate.Packager.Properties.OneOperation

/-!
# Requests that are accepted and never executed

`DoWork` accepts a request as soon as the worker has cleared the last one, but the worker
calls `Block()` later. When the `Run()` of the new request finds the worker still running, it has
no effect, and the worker then blocks with the request pending: nobody runs it again, because
every later call finds an operation in progress. A request is not lost when every `Run()`
finds the worker blocked.
-/

namespace SoftwareUpdate.Packager

open Misc

variable {cfg : Config} {s s' : Sys} {sh : Shared} {t u : Thread} {c : Call} {outer : List Call}
  {request : Request} {result : ErrorCode} {w w' : WorkerPc} {e : Effect} {answer : Bool}
  {f : Flags}

/-- A request is pending while the worker is blocked, and no `Run()` will follow: the worker
stays blocked whatever happens. -/
def Lost (cfg : Config) (s : Sys) : Prop :=
  s.shared.pending = true ∧
    ∀ s', (packager cfg).Leads (fun _ _ => True) s s' → s'.shared.running = false

/-- The innermost call of thread `t` is about to execute `Run()`. -/
def Sys.runsNext (s : Sys) (t : Thread) : Prop :=
  ∃ request result outer, s.inDoWork t request outer result .run

/-- The step is not a `Run()` that finds the worker running. -/
def RunsBlocked (s : Sys) (a : Thread × Input) : Prop :=
  s.runsNext a.1 → s.shared.running = false

/-- The worker has cleared the request it has served and has not blocked yet. -/
def WorkerPc.leaving : WorkerPc → Bool
  | .repoSynced isInstall _ pc => !isInstall && !pc.clears
  | .unlockClear | .block => true
  | _ => false

/-- The worker is blocked, or will block without looking for a request. -/
def WorkerPc.blocks (f : Flags) (w : WorkerPc) : Prop := w.leaving = true ∨ f.running = false

theorem WorkerPc.leaving_of_installs (h : w.installs = true) : w.leaving = false := by
  cases w <;> first | rfl | cases h

theorem pending_flags : sh.flags.pending = sh.pending := rfl

/-! ## What the statements do to a pending request -/

/-- A call that does not execute `Run()` next leaves a pending request pending, and when it is
about to do so after its next statement, it has just recorded the request. -/
theorem Call.run_cases (sh : Shared) (answer : Bool) (h : c.Knows f) :
    (∃ request result, c = .doWork request result .run) ∨
    (f.pending = false ∧ 0 < c.level ∧
      (∃ request result, (c.statement sh answer).1 = some (.doWork request result .run)) ∧
      ((c.statement sh answer).2.onFlags f).running = f.running) ∨
    ((∀ request result, (c.statement sh answer).1 ≠ some (.doWork request result .run)) ∧
      ((c.statement sh answer).2.onFlags f).pending = f.pending ∧
      ((c.statement sh answer).2.onFlags f).running = f.running) := by
  cases c with
  | register observer pc =>
    refine .inr (.inr ⟨?_, ?_⟩)
    · intro request result hnext
      cases pc <;> cases hnext
    · cases pc <;> exact ⟨rfl, rfl⟩
  | unregister observer pc =>
    refine .inr (.inr ⟨?_, ?_⟩)
    · intro request result hnext
      cases pc <;> cases hnext
    · cases pc <;> exact ⟨rfl, rfl⟩
  | doWork request result pc =>
    cases pc with
    | run => exact .inl ⟨_, _, rfl⟩
    | test =>
      refine .inr (.inr ⟨?_, ?_⟩)
      · intro request' result' hnext
        simp only [Call.statement, Packager.doWork] at hnext
        split at hnext <;> (try split at hnext) <;> cases hnext
      · simp only [Call.statement, Packager.doWork]
        split <;> exact ⟨rfl, rfl⟩
    | initOpkg =>
      refine .inr (.inr ⟨?_, rfl, rfl⟩)
      intro request' result' hnext
      cases answer <;> cases hnext
    | record =>
      obtain ⟨-, hinstall, -, hsyncing⟩ := h
      cases request with
      | install package =>
        refine .inr (.inr ⟨?_, rfl, rfl⟩)
        intro request' result' hnext
        cases hnext
      | synchronizeRepository =>
        exact .inr (.inl
          ⟨Flags.pending_eq_false_iff.mpr ⟨hinstall, hsyncing⟩, Nat.zero_lt_one, ⟨_, _, rfl⟩, rfl⟩)
    | recordInstall =>
      obtain ⟨-, hinstall, -, hsyncing⟩ := h
      exact .inr (.inl
        ⟨Flags.pending_eq_false_iff.mpr ⟨hinstall, hsyncing⟩, Nat.zero_lt_one, ⟨_, _, rfl⟩, rfl⟩)
    | _ =>
      refine .inr (.inr ⟨?_, rfl, rfl⟩)
      intro request' result' hnext
      cases hnext

/-- A worker that blocks with a request pending was about to do so before. -/
theorem WorkerMove.blocks_of_blocks (h : WorkerMove cfg sh w w' e) (hknows : w.Knows sh.flags)
    (hpending : (e.onFlags sh.flags).pending = true) (hw' : w'.blocks (e.onFlags sh.flags)) :
    sh.flags.pending = true ∧ w.blocks sh.flags := by
  cases h with
  | repoSynced isInstall status pc =>
    cases isInstall with
    | true =>
      have hinstall : sh.flags.install = true := hknows rfl
      refine ⟨Bool.or_eq_true_iff.mpr (.inl hinstall), ?_⟩
      cases pc with
      | callbacks rest => cases rest <;> exact hw'
      | _ => exact hw'
    | false =>
      cases pc with
      | start =>
        obtain ⟨hinstall, -⟩ := hknows rfl
        have hidle : (sh.flags.install || false) = true := hpending
        rw [hinstall] at hidle
        cases hidle
      | lock => exact ⟨hpending, hw'⟩
      | callbacks rest => cases rest <;> exact ⟨hpending, .inl rfl⟩
      | unlock => exact ⟨hpending, .inl rfl⟩
  | stateChange stmts back pc =>
    refine ⟨Bool.or_eq_true_iff.mpr (.inl hknows), ?_⟩
    cases pc with
    | callbacks rest => cases rest <;> exact hw'
    | _ => exact hw'
  | install hw hinstalls he =>
    rw [WorkerPc.knows_of_installs hw] at hknows
    refine ⟨Bool.or_eq_true_iff.mpr (.inl hknows), ?_⟩
    have hleaving : w'.leaving = false := WorkerPc.leaving_of_installs hinstalls
    rcases hw' with hw' | hrun
    · rw [hleaving] at hw'
      cases hw'
    · refine .inr ?_
      rcases he with rfl | ⟨b, rfl⟩ | ⟨info, -, rfl⟩ <;> exact hrun
  | listFiles isInstall hw =>
    rcases hw with ⟨rfl, rfl⟩ | rfl <;> exact ⟨hpending, hw'⟩
  | update isInstall status => cases isInstall <;> exact ⟨hpending, hw'⟩
  | clearInstall => exact ⟨Bool.or_eq_true_iff.mpr (.inl hknows), hw'⟩
  | clearPackage =>
    obtain ⟨hinstall, hsyncing⟩ := hknows
    have hidle : (sh.flags.install || sh.flags.syncing) = true := hpending
    rw [hinstall, hsyncing] at hidle
    cases hidle
  | unlockClear => exact ⟨hpending, .inl rfl⟩
  | block => exact ⟨hpending, .inl rfl⟩
  | _ => exact ⟨hpending, hw'⟩

/-- A worker on its way to `Block()` leaves a pending request alone. -/
theorem WorkerMove.blocks (h : WorkerMove cfg sh w w' e) (hw : w.leaving = true) :
    (e.onFlags sh.flags).pending = sh.flags.pending ∧ w'.blocks (e.onFlags sh.flags) := by
  cases h with
  | repoSynced isInstall status pc =>
    cases isInstall with
    | true => cases hw
    | false =>
      cases pc with
      | callbacks rest => cases rest <;> exact ⟨rfl, .inl rfl⟩
      | unlock => exact ⟨rfl, .inl rfl⟩
      | _ => cases hw
  | unlockClear => exact ⟨rfl, .inl rfl⟩
  | block => exact ⟨rfl, .inr rfl⟩
  | install hinstalls =>
    rw [WorkerPc.leaving_of_installs hinstalls] at hw
    cases hw
  | _ => cases hw

/-! ## Runs in which every `Run()` finds the worker blocked -/

/-- The worker will be run when it is about to block with a request pending. -/
def Covered (s : Sys) : Prop :=
  s.shared.pending = true → s.worker.blocks s.shared.flags → ∃ t, s.runsNext t

theorem runsNext_of_ne {cs : List Call} {s' : Sys} (h : s.runsNext u) (hne : u ≠ t)
    (hcalls : s'.calls = Function.update s.calls t cs) : s'.runsNext u := by
  obtain ⟨request, result, outer, hu⟩ := h
  refine ⟨request, result, outer, ?_⟩
  rw [Sys.inDoWork, hcalls, Function.update_of_ne hne]
  exact hu

/-- Who is about to execute `Run()` after a statement of the innermost call of thread `t`. -/
theorem runsNext_api (h : Locked s) (htop : s.calls t = c :: outer)
    (hu : Sys.runsNext ⟨sh, w, Function.update s.calls t
      ((c.statement s.shared answer).1.toList ++ outer)⟩ u) :
    (u = t ∧ ∃ request result, (c.statement s.shared answer).1 =
        some (.doWork request result .run)) ∨
      u ≠ t ∧ s.runsNext u := by
  obtain ⟨request, result, outer', hu⟩ := hu
  rcases calls_of_update hu with ⟨rfl, heq⟩ | ⟨hne, hu⟩
  · refine .inl ⟨rfl, request, result, ?_⟩
    cases hc' : (c.statement s.shared answer).1 with
    | some c' =>
      rw [hc'] at heq
      obtain ⟨rfl, -⟩ := List.cons.inj heq
      rfl
    | none =>
      rw [hc'] at heq
      have hout : outer = .doWork request result .run :: outer' := heq
      have hin := h.outer u c outer htop _ (by rw [hout]; exact List.mem_cons_self)
      cases hin
  · exact .inr ⟨hne, request, result, outer', hu⟩

theorem not_runsNext_of_mayCall (hl : Locked s) (hmay : s.mayCall t = true) : ¬ s.runsNext t := by
  rintro ⟨request, result, outer, ht⟩
  have hin := (inCallback_of_mayCall hl hmay).1 _ (by rw [ht]; exact List.mem_cons_self)
  cases hin

/-- A worker that is blocked is before the test of its loop. -/
theorem Ordered.isRunning (h : Ordered s) (hrun : s.shared.running = false) :
    s.worker = .isRunning := by
  by_contra hw
  exact Bool.false_ne_true (hrun.symm.trans (h.awake hw))

theorem covered_move (h : Ordered s) (hmove : Move cfg s t s')
    (hrun : s.runsNext t → s.shared.running = false) (hc : Covered s) : Covered s' := by
  intro hpending hblocks
  cases hmove with
  | call api hmay =>
    obtain ⟨u, hu⟩ := hc hpending hblocks
    refine ⟨u, runsNext_of_ne hu ?_ rfl⟩
    rintro rfl
    exact not_runsNext_of_mayCall h.toLocked hmay hu
  | worker i ht hnone hst happly =>
    have hflags := apply_flags happly
    rw [hflags] at hblocks
    rw [← pending_flags, hflags] at hpending
    obtain ⟨hpending', hblocks'⟩ := (worker_move hst).blocks_of_blocks h.worker hpending hblocks
    exact hc hpending' hblocks'
  | @api c outer sh answer htop happly =>
    have hflags := apply_flags happly
    have hknows := h.calls t c outer htop
    rw [hflags] at hblocks
    rw [← pending_flags, hflags] at hpending
    rcases Call.run_cases s.shared answer hknows with
      ⟨request, result, rfl⟩ | ⟨-, -, ⟨request, result, hnext⟩, -⟩ | ⟨-, hsame, hsame'⟩
    · -- `Run()` finds the worker blocked, so that it runs again
      have hw := h.isRunning (hrun ⟨request, result, outer, htop⟩)
      rcases hblocks with hblocks | hblocks
      · rw [hw] at hblocks
        cases hblocks
      · cases hblocks
    · refine ⟨t, request, result, outer, ?_⟩
      show Function.update s.calls t _ t = _
      rw [Function.update_self, hnext]
      rfl
    · rw [hsame] at hpending
      rw [WorkerPc.blocks, hsame'] at hblocks
      obtain ⟨u, hu⟩ := hc hpending hblocks
      refine ⟨u, runsNext_of_ne hu ?_ rfl⟩
      rintro rfl
      have hblocked := hrun hu
      obtain ⟨request, result, outer', hu⟩ := hu
      obtain ⟨rfl, -⟩ := List.cons.inj (htop.symm.trans hu)
      exact Bool.false_ne_true (hsame'.trans hblocked).symm

theorem covered_reachable (h : (packager cfg).ReachableWhere RunsBlocked s) : Covered s := by
  refine h.invariant (I := Covered) ?_ ?_
  · rintro s rfl hpending
    cases hpending
  · rintro s ⟨t, i⟩ s' hs hc hrun hstep
    exact covered_move (ordered_reachable hs.reachable) (step_move hstep) hrun hc

/-- `Run()` runs the worker. -/
theorem step_run (cfg : Config) (h : s.runsNext t) :
    ∃ s', (packager cfg).step s (t, .next true) = some s' ∧ s'.shared.running = true := by
  obtain ⟨request, result, outer, htop⟩ := h
  refine ⟨⟨{ s.shared with running := true }, s.worker,
    Function.update s.calls t (.doWork request result .unlock :: outer)⟩, ?_, rfl⟩
  have hst : statement cfg s t (.next true) =
      some (s.worker, .doWork request result .unlock :: outer, .run) := by
    simp only [statement]
    rw [htop]
    rfl
  simp only [packager, step, hst]
  rfl

/-- In a run in which every `Run()` finds the worker blocked no request is lost. -/
theorem acceptedRequest_executed (h : (packager cfg).ReachableWhere RunsBlocked s) :
    ¬ Lost cfg s := by
  rintro ⟨hpending, hforever⟩
  obtain ⟨t, ht⟩ := covered_reachable h hpending (.inr (hforever s .refl))
  obtain ⟨s', hstep, hrun⟩ := step_run cfg ht
  rw [hforever s' (.single trivial hstep)] at hrun
  cases hrun

/-- The test of a step for `RunsBlocked`. -/
def runsBlocked (s : Sys) (a : Thread × Input) : Bool :=
  match s.calls a.1 with
  | .doWork _ _ .run :: _ => !s.shared.running
  | _ => true

theorem runsBlocked_sound {a : Thread × Input} (h : runsBlocked s a = true) : RunsBlocked s a := by
  rintro ⟨request, result, outer, hcall⟩
  unfold runsBlocked at h
  rw [hcall] at h
  simpa using h

/-- The second request of a client, which is made when the worker has blocked, is not lost. -/
theorem acceptedRequest_executed_twice :
    ∃ s, (packager defaultBuild).ReachableWhere RunsBlocked s ∧ s.shared.pending = true ∧
      ¬ Lost defaultBuild s := by
  have hrun : ((packager defaultBuild).runWhere runsBlocked PackagerImplementation
      (synchronizes (.client 0) 6 ++ executes .worker 11 ++ synchronizes (.client 0) 6)).any
        (fun s => s.shared.pending) = true := by
    decide +kernel
  obtain ⟨s, hs, htest⟩ := TransitionSystem.exists_reachableWhere_of_run
    (fun s a _ h => runsBlocked_sound h) rfl hrun
  exact ⟨s, hs, htest, acceptedRequest_executed hs⟩

/-! ## A `Run()` that finds the worker running -/

/-- A request is pending that the worker will not look for, and nobody is about to run it. -/
structure Doomed (s : Sys) : Prop where
  pending : s.shared.pending = true
  blocks : s.worker.blocks s.shared.flags
  unrun : ∀ t, ¬ s.runsNext t

theorem Doomed.move (hd : Doomed s) (h : Ordered s) (hmove : Move cfg s t s') :
    Doomed s' ∧ (s.shared.running = false → s'.shared.running = false) := by
  cases hmove with
  | call api hmay =>
    refine ⟨⟨hd.pending, hd.blocks, ?_⟩, id⟩
    rintro u ⟨request, result, outer, hu⟩
    rcases calls_of_update hu with ⟨-, heq⟩ | ⟨-, hu⟩
    · obtain ⟨heq, -⟩ := List.cons.inj heq
      cases api <;> cases heq
    · exact hd.unrun u ⟨request, result, outer, hu⟩
  | worker i ht hnone hst happly =>
    have hflags := apply_flags happly
    have hworker := worker_move hst
    rcases hd.blocks with hleaving | hrun
    · obtain ⟨hpending, hblocks⟩ := hworker.blocks hleaving
      rw [← hflags] at hpending hblocks
      refine ⟨⟨hpending.trans hd.pending, hblocks, hd.unrun⟩, fun hr => ?_⟩
      rw [h.isRunning hr] at hleaving
      cases hleaving
    · rw [h.isRunning hrun] at hworker
      cases hworker with
      | isRunning hr => exact absurd (hrun.symm.trans hr) Bool.false_ne_true
      | install hinstalls => cases hinstalls
  | @api c outer sh answer htop happly =>
    have hflags := apply_flags happly
    have hknows := h.calls t c outer htop
    have hfp : s.shared.flags.pending = true := hd.pending
    rcases Call.run_cases s.shared answer hknows with
      ⟨request, result, rfl⟩ | ⟨hidle, -⟩ | ⟨hnext, hpending, hrunning⟩
    · exact absurd ⟨request, result, outer, htop⟩ (hd.unrun t)
    · exact absurd (hidle.symm.trans hfp) Bool.false_ne_true
    · rw [← hflags] at hpending hrunning
      refine ⟨⟨hpending.trans hfp, hd.blocks.imp id hrunning.trans, ?_⟩, hrunning.trans⟩
      intro u hu
      rcases runsNext_api h.toLocked htop hu with ⟨-, request, result, heq⟩ | ⟨-, hu⟩
      · exact hnext request result heq
      · exact hd.unrun u hu

theorem Doomed.leads (hd : Doomed s) (h : Ordered s)
    (hleads : (packager cfg).Leads (fun _ _ => True) s s') :
    Ordered s' ∧ Doomed s' ∧ (s.shared.running = false → s'.shared.running = false) := by
  refine hleads.invariant (I := fun s' => Ordered s' ∧ Doomed s' ∧
    (s.shared.running = false → s'.shared.running = false)) ⟨h, hd, id⟩ ?_
  rintro s₁ ⟨t, i⟩ s₂ ⟨h₁, hd₁, hrun₁⟩ - hstep
  have hmove := step_move hstep
  obtain ⟨hd₂, hrun₂⟩ := hd₁.move h₁ hmove
  exact ⟨ordered_move h₁ hmove, hd₂, fun hr => hrun₂ (hrun₁ hr)⟩

/-- A request that the worker will not look for is lost once the worker is blocked. -/
theorem Doomed.lost (hd : Doomed s) (h : Ordered s) (hrun : s.shared.running = false) :
    Lost cfg s :=
  ⟨hd.pending, fun _ hleads => (hd.leads h hleads).2.2 hrun⟩

/-- A worker that knows of no request is on its way to `Block()`. -/
theorem WorkerPc.blocks_of_not_pending (h : w.Knows f) (hf : f.pending = false)
    (hw : w ≠ .clearPackage) : w.blocks f := by
  by_contra hblocks
  obtain ⟨hleaving, hrun⟩ := not_or.mp hblocks
  have hpending : f.pending = true := by
    cases w with
    | isRunning => exact h (Bool.not_eq_false _ ▸ hrun)
    | lockRead => exact h
    | read => exact h
    | unlockRead isInstall => exact pending_of_usesLibrary h rfl
    | listFiles isInstall => exact pending_of_usesLibrary h rfl
    | update isInstall => exact pending_of_usesLibrary h rfl
    | repoSynced isInstall status pc =>
      cases isInstall with
      | true => exact pending_of_usesLibrary h rfl
      | false =>
        cases hclears : pc.clears with
        | true => exact Bool.or_eq_true_iff.mpr (.inr (h hclears).2)
        | false => exact absurd (by simp [leaving, hclears]) hleaving
    | clearPackage => exact absurd rfl hw
    | unlockClear => exact absurd rfl hleaving
    | block => exact absurd rfl hleaving
    | _ => exact Bool.or_eq_true_iff.mpr (.inl h)
  exact Bool.false_ne_true (hf.symm.trans hpending)

theorem Locked.runsNext_unique (h : Locked s) (ht : s.runsNext t) (hu : s.calls u = c :: outer)
    (hc : 0 < c.level) : t = u := by
  obtain ⟨request, result, outer', ht⟩ := ht
  exact h.agrees.unique (Sys.level_pos ht Nat.zero_lt_one) (Sys.level_pos hu hc)

/-- A call that is about to execute `Run()` finds the worker blocked or on its way there. -/
theorem blocks_of_runsNext (h : (packager cfg).Reachable s) :
    ∀ t, s.runsNext t → s.worker.blocks s.shared.flags := by
  refine h.invariant (I := fun s => ∀ t, s.runsNext t → s.worker.blocks s.shared.flags) ?_ ?_
  · rintro s rfl t -
    exact .inr rfl
  · rintro s ⟨t, i⟩ s' hs ih hstep u hu
    have h := ordered_reachable hs
    cases step_move hstep with
    | call api hmay =>
      obtain ⟨request, result, outer, hu⟩ := hu
      rcases calls_of_update hu with ⟨-, heq⟩ | ⟨-, hu⟩
      · obtain ⟨heq, -⟩ := List.cons.inj heq
        cases api <;> cases heq
      · exact ih u ⟨request, result, outer, hu⟩
    | worker i ht hnone hst happly =>
      have hworker := worker_move hst
      show WorkerPc.blocks (Shared.flags _) _
      rw [apply_flags happly]
      rcases ih u hu with hleaving | hrun
      · exact (hworker.blocks hleaving).2
      · rw [h.isRunning hrun] at hworker
        cases hworker with
        | isRunning hr => exact absurd (hrun.symm.trans hr) Bool.false_ne_true
        | install hinstalls => cases hinstalls
    | @api c outer sh answer htop happly =>
      have hknows := h.calls t c outer htop
      show WorkerPc.blocks sh.flags s.worker
      rw [apply_flags happly]
      rcases Call.run_cases s.shared answer hknows with
        ⟨request, result, rfl⟩ | ⟨hidle, hlevel, -, hrun⟩ | ⟨hnext, -, hrun⟩
      · rcases runsNext_api h.toLocked htop hu with ⟨-, _, _, heq⟩ | ⟨hne, hu⟩
        · cases heq
        · exact absurd (h.runsNext_unique hu htop Nat.zero_lt_one) hne
      · exact (WorkerPc.blocks_of_not_pending h.worker hidle (h.worker_free htop hlevel)).imp id
          hrun.trans
      · rcases runsNext_api h.toLocked htop hu with ⟨-, request, result, heq⟩ | ⟨-, hu⟩
        · exact absurd heq (hnext request result)
        · exact (ih u hu).imp id hrun.trans

/-- A `Run()` that finds the worker running has no effect: once the worker is blocked, the
request is lost. -/
theorem lost_of_run (h : (packager cfg).Reachable s) (hrun : s.runsNext t)
    (hrunning : s.shared.running = true) {s₁ : Sys} {answer : Bool}
    (hstep : (packager cfg).step s (t, .next answer) = some s₁)
    (hleads : (packager cfg).Leads (fun _ _ => True) s₁ s') (hblocked : s'.shared.running = false) :
    Lost cfg s' := by
  have hordered := ordered_reachable h
  have hmove : Move cfg s t s₁ := step_move (i := .next answer) hstep
  have hleaving := (blocks_of_runsNext h t hrun).resolve_right
    fun hr => Bool.false_ne_true (hr.symm.trans hrunning)
  have hdoomed : Doomed s₁ := by
    cases hmove with
    | call api hmay => exact absurd hrun (not_runsNext_of_mayCall hordered.toLocked hmay)
    | worker i ht hnone hst happly =>
      obtain ⟨request, result, outer, htop⟩ := hrun
      subst ht
      exact absurd (hnone.symm.trans htop) (List.cons_ne_nil _ _).symm
    | @api c outer sh answer' htop happly =>
      obtain ⟨request, result, outer', htop'⟩ := hrun
      obtain ⟨rfl, -⟩ := List.cons.inj (htop.symm.trans htop')
      have hpending : s.shared.pending = true := (hordered.calls t _ outer htop).2
      cases happly
      refine ⟨hpending, .inl hleaving, fun u hu => ?_⟩
      rcases runsNext_api hordered.toLocked htop hu with ⟨-, _, _, heq⟩ | ⟨hne, hu⟩
      · cases heq
      · exact hne (hordered.runsNext_unique hu htop Nat.zero_lt_one)
  obtain ⟨hordered', hdoomed', -⟩ := hdoomed.leads (ordered_move hordered hmove) hleads
  exact hdoomed'.lost hordered' hblocked

/-- Nobody is about to run the worker while the lock is free. -/
theorem Locked.not_runsNext (h : Locked s) (hfree : s.shared.adminLock = .free) :
    ¬ s.runsNext t := by
  rintro ⟨request, result, outer, ht⟩
  have hpos : 0 < s.level t := Sys.level_pos ht Nat.zero_lt_one
  rw [h.agrees.eq_zero_of_free hfree t] at hpos
  exact Nat.lt_irrefl 0 hpos

/-- An observer that answers `RepositorySynchronize` by calling `SynchronizeRepository` from
the worker thread is told that its request has been accepted, and the request is lost. -/
theorem not_acceptedRequest_executed :
    ∃ s, (packager defaultBuild).Reachable s ∧ Lost defaultBuild s := by
  obtain ⟨s, hs, htest⟩ := TransitionSystem.exists_reachable_of_run (packager defaultBuild)
    PackagerImplementation
    ((.client 0, .call (.register 0)) :: executes (.client 0) 4 ++
      synchronizes (.client 0) 6 ++ executes .worker 8 ++ synchronizes .worker 7 ++
      executes .worker 4)
    (fun s => decide (s.shared.adminLock = .free ∧ s.shared.pending = true ∧
      s.shared.running = false)) rfl
    (by decide +kernel)
  obtain ⟨hfree, hpending, hrun⟩ := of_decide_eq_true htest
  have h := ordered_reachable hs
  exact ⟨s, hs, Doomed.lost ⟨hpending, .inr hrun, fun _ => h.not_runsNext hfree⟩ h hrun⟩

end SoftwareUpdate.Packager
