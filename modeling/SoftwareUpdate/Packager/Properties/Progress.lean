import SoftwareUpdate.Packager.Properties.OneOperation

/-!
# Who can go on

`_adminLock` is the only thing a thread of the Packager waits for, and the thread that holds it
can always execute its next statement. The worker reads `_inProgress` through pointers that are
filled in whenever it does.
-/

namespace SoftwareUpdate.Packager

open Misc

variable {cfg : Config} {s s' : Sys} {sh : Shared} {t u : Thread} {c : Call} {outer : List Call}
  {w w' : WorkerPc} {e : Effect} {answer : Bool}

/-- The thread can execute its next statement. -/
def GoesOn (cfg : Config) (s : Sys) (t : Thread) : Prop :=
  ∃ i s', (∀ api, i ≠ .call api) ∧ step cfg s (t, i) = some s'

/-- The thread is in a call, or it is the worker and has been run. -/
def Sys.busy (s : Sys) (t : Thread) : Prop :=
  s.calls t ≠ [] ∨ t = .worker ∧ (s.worker ≠ .isRunning ∨ s.shared.running = true)

/-! ## The next statement -/

/-- The worker has a next statement, whatever it is to be told. -/
theorem exists_installThreadWorker (cfg : Config) (hknows : w.Knows sh.flags)
    (hrun : w = .isRunning → sh.running = true) :
    ∃ i w' e, (∀ api, i ≠ .call api) ∧ installThreadWorker cfg sh w i = some (w', e) := by
  cases w with
  | isRunning =>
    exact ⟨.next true, .lockRead, .none, nofun, by simp [installThreadWorker, hrun rfl]⟩
  | library call => cases call <;> exact ⟨.returns 0, _, _, nofun, rfl⟩
  | statements stmts back =>
    cases stmts with
    | nil => exact ⟨.next true, _, _, nofun, rfl⟩
    | cons stmt stmts =>
      obtain ⟨info, hinfo⟩ := Option.isSome_iff_exists.mp (show sh.inProgress.install.isSome = true
        from hknows)
      cases stmt <;>
        exact ⟨.next true, _, _, nofun, by simp only [installThreadWorker, hinfo]; rfl⟩
  | blockingInstall =>
    refine ⟨.next true, ?_⟩
    simp only [installThreadWorker]
    split <;> exact ⟨_, _, nofun, rfl⟩
  | _ => exact ⟨.next true, _, _, nofun, rfl⟩

/-- An effect is executed at once, but for the acquisition of the lock. -/
theorem exists_apply (hl : e = .unlock → 0 < sh.adminLock.level t) :
    (∃ sh', e.apply sh t = some sh') ∨
      e = .lock ∧ ∃ u, u ≠ t ∧ 0 < sh.adminLock.level u := by
  cases e with
  | lock =>
    cases hlock : sh.adminLock with
    | free => exact .inl ⟨_, by simp only [Effect.apply, hlock]; rfl⟩
    | held owner again =>
      by_cases ht : t = owner
      · exact .inl ⟨_, by simp only [Effect.apply, hlock, RecursiveLock.lock, if_pos ht]; rfl⟩
      · exact .inr ⟨rfl, owner, Ne.symm ht, by simp [RecursiveLock.level]⟩
  | unlock =>
    have hpos := hl rfl
    cases hlock : sh.adminLock with
    | free =>
      rw [hlock] at hpos
      exact absurd hpos (Nat.lt_irrefl 0)
    | held owner again =>
      rw [hlock] at hpos
      have ht : t = owner := by
        by_contra hne
        simp [RecursiveLock.level, hne] at hpos
      exact .inl ⟨_, by simp only [Effect.apply, hlock, RecursiveLock.unlock, if_pos ht]; rfl⟩
  | _ => exact .inl ⟨_, rfl⟩

/-- The worker unlocks where it holds the lock. -/
theorem WorkerMove.level_of_unlock (h : WorkerMove cfg sh w w' e) (he : e = .unlock) :
    0 < w.level := by
  cases h with
  | unlockRead | unlockClear => exact Nat.zero_lt_one
  | repoSynced isInstall status pc | stateChange stmts back pc =>
    cases pc with
    | lock => cases he
    | _ => exact Nat.zero_lt_one
  | install hw hw' hnot =>
    subst he
    rcases hnot with hnot | ⟨b, hnot⟩ | ⟨info, -, hnot⟩ <;> cases hnot
  | _ => cases he

/-! ## Blocked threads -/

/-- A busy thread can go on, or another one holds the lock. -/
theorem Ordered.goesOn_or_waits (cfg : Config) (h : Ordered s) (hbusy : s.busy t) :
    GoesOn cfg s t ∨ ∃ u, u ≠ t ∧ 0 < s.level u := by
  have hagrees := h.agrees
  cases hcalls : s.calls t with
  | cons c outer =>
    obtain ⟨-, hunlock⟩ := Call.level_statement c s.shared true
    have hpos (he : (c.statement s.shared true).2 = .unlock) : 0 < s.shared.adminLock.level t := by
      rw [hagrees t]
      exact Sys.level_pos hcalls (by rw [hunlock he]; decide)
    rcases exists_apply hpos with ⟨sh', happly⟩ | ⟨-, u, hu, hlevel⟩
    · refine .inl ⟨.next true, ⟨sh', s.worker, Function.update s.calls t
        ((c.statement s.shared true).1.toList ++ outer)⟩, nofun, ?_⟩
      simp only [step, statement, hcalls, Option.bind_some, happly, Option.map_some]
    · exact .inr ⟨u, hu, hagrees u ▸ hlevel⟩
  | nil =>
    obtain ⟨rfl, hworker⟩ := hbusy.resolve_left fun hne => hne hcalls
    obtain ⟨i, w', e, hi, hst⟩ := exists_installThreadWorker cfg h.worker
      fun hw => hworker.resolve_left fun hne => hne hw
    have hmove := worker_move hst
    have hpos (he : e = .unlock) : 0 < s.shared.adminLock.level .worker := by
      rw [hagrees, Sys.level_worker hcalls]
      exact hmove.level_of_unlock he
    rcases exists_apply hpos with ⟨sh', happly⟩ | ⟨-, u, hu, hlevel⟩
    · refine .inl ⟨i, ⟨sh', w', Function.update s.calls .worker []⟩, hi, ?_⟩
      cases i with
      | call api => exact absurd rfl (hi api)
      | _ => simp only [step, statement, hcalls, hst, Option.map_some, Option.bind_some, happly]
    · exact .inr ⟨u, hu, hagrees u ▸ hlevel⟩

theorem Sys.busy_of_level (h : 0 < s.level t) : s.busy t := by
  by_cases hcalls : s.calls t = []
  · right
    simp only [Sys.level, hcalls, List.map_nil, List.sum_nil, Nat.zero_add] at h
    split at h
    case isTrue ht =>
      refine ⟨ht, .inl ?_⟩
      intro hw
      rw [hw] at h
      cases h
    case isFalse => cases h
  · exact .inl hcalls

/-- The thread that holds the lock can go on. -/
theorem Ordered.goesOn_of_level (h : Ordered s) (hlevel : 0 < s.level t) : GoesOn cfg s t := by
  refine (h.goesOn_or_waits cfg (Sys.busy_of_level hlevel)).resolve_right ?_
  rintro ⟨u, hu, hpos⟩
  exact hu (h.agrees.unique hpos hlevel)

/-- Where the worker reads `_inProgress` through its pointers. -/
def WorkerPc.reads : WorkerPc → Bool
  | .blockingInstall | .listUpgradable | .library _ | .statements _ _ | .stateChange _ _ _ => true
  | _ => false

/-- Both pointers are filled in where the worker reads through them. -/
theorem Ordered.filled (h : Ordered s) (hw : s.worker.reads = true) :
    s.shared.inProgress.install.isSome = true ∧ s.shared.inProgress.package.isSome = true := by
  have hinstall : s.shared.flags.install = true := by
    have hknows := h.worker
    cases hworker : s.worker <;> rw [hworker] at hw hknows <;> first | exact hknows | cases hw
  refine ⟨hinstall, ?_⟩
  rcases h.data with hcon | ⟨u, request, result, outer, hu⟩ | hclear
  · exact hcon.1.symm.trans hinstall
  · obtain ⟨-, hnone, -, -⟩ := h.calls u _ outer hu
    rw [hinstall] at hnone
    cases hnone
  · rw [hclear] at hw
    cases hw

/-- In every run, a thread that is in a call, or the worker that has been run, can go on or
waits for the one thread that holds `_adminLock`, which can go on; and the worker never follows a
null pointer of `_inProgress`. -/
theorem goesOn_of_reachable (h : (packager cfg).Reachable s) :
    (∀ t, s.busy t → GoesOn cfg s t ∨
      ∃ u, u ≠ t ∧ 0 < s.level u ∧ (∀ v, 0 < s.level v → v = u) ∧ GoesOn cfg s u) ∧
    (s.worker.reads = true →
      s.shared.inProgress.install.isSome = true ∧ s.shared.inProgress.package.isSome = true) := by
  have hordered := ordered_reachable h
  refine ⟨fun t hbusy => ?_, hordered.filled⟩
  rcases hordered.goesOn_or_waits cfg hbusy with hgo | ⟨u, hu, hlevel⟩
  · exact .inl hgo
  · exact .inr ⟨u, hu, hlevel, fun v hv => hordered.agrees.unique hv hlevel,
      hordered.goesOn_of_level hlevel⟩

/-- A client waits for another one that holds the lock. -/
theorem goesOn_of_reachable_waiting : ∃ s, (packager defaultBuild).Reachable s ∧
    s.busy (.client 1) ∧ 0 < s.level (.client 0) ∧
      (GoesOn defaultBuild s (.client 1) ∨ ∃ u, u ≠ .client 1 ∧ 0 < s.level u ∧
        (∀ v, 0 < s.level v → v = u) ∧ GoesOn defaultBuild s u) := by
  obtain ⟨s, hs, htest⟩ := TransitionSystem.exists_reachable_of_run (packager defaultBuild)
    PackagerImplementation (synchronizes (.client 0) 2 ++ synchronizes (.client 1) 0)
    (fun s => !(s.calls (.client 1)).isEmpty && decide (0 < s.level (.client 0))) rfl
    (by decide +kernel)
  simp only [Bool.and_eq_true, Bool.not_eq_true', decide_eq_true_eq] at htest
  have hbusy : s.busy (.client 1) := .inl (by rintro hnone; simp [hnone] at htest)
  exact ⟨s, hs, hbusy, htest.2, (goesOn_of_reachable hs).1 _ hbusy⟩

end SoftwareUpdate.Packager
