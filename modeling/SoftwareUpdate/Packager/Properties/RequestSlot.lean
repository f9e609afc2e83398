import SoftwareUpdate.Misc.Refinement
import SoftwareUpdate.Packager.Properties.Progress

/-!
# The Packager is a slot for one request

`_inProgress` and `_isSyncing` together are a slot: `DoWork` puts a request into it when it is
empty, and the worker takes the request out when it has served it. The two parts of
`_inProgress` are written one after the other, so that the request is in the slot from the
second write on, and out of it from the first clearing on.
-/

namespace SoftwareUpdate.Packager

open Misc

variable {cfg : Config} {s s' : Sys} {sh sh' : Shared} {t u : Thread} {c : Call}
  {outer : List Call} {w w' : WorkerPc} {e : Effect} {request : Request} {result : ErrorCode}
  {answer : Bool} {i : Input}

/-- The request that is pending. -/
def Shared.slot (sh : Shared) : Option Request :=
  if sh.inProgress.install.isSome then sh.inProgress.package.map .install
  else if sh.isSyncing then some .synchronizeRepository
  else none

/-- What the next statement of a call does to the slot. -/
def Call.event : Call → Option (SlotEvent Request)
  | .doWork .synchronizeRepository _ .record => some (.put .synchronizeRepository)
  | .doWork request _ .recordInstall => some (.put request)
  | _ => none

/-- What the worker's next statement does to the slot. -/
def WorkerPc.event : WorkerPc → Option (SlotEvent Request)
  | .repoSynced false _ .start | .clearInstall => some .take
  | _ => none

/-- What a step does to the slot. -/
def event (s : Sys) : Thread × Input → Option (SlotEvent Request)
  | (_, .call _) => none
  | (t, _) => (s.calls t).head?.elim (s.worker.event) Call.event

/-! ## The package that is recorded -/

/-- The request that a call records. -/
def Call.Records (sh : Shared) : Call → Prop
  | .doWork request _ .recordInstall => ∃ package,
      request = .install package ∧ sh.inProgress.package = some package
  | _ => True

/-- Between its two statements a call that records an install has put its package down. -/
def Sys.Recording (s : Sys) : Prop := ∀ t c outer, s.calls t = c :: outer → c.Records s.shared

theorem Call.records_of_package (h : c.Records sh)
    (hsame : sh'.inProgress.package = sh.inProgress.package) : c.Records sh' := by
  cases c with
  | doWork request result pc =>
    cases pc with
    | recordInstall =>
      obtain ⟨package, hrequest, hpackage⟩ := h
      exact ⟨package, hrequest, hsame.trans hpackage⟩
    | _ => trivial
  | _ => trivial

theorem Call.records_of_not_records (h : c.records = false) : c.Records sh := by
  cases c with
  | doWork request result pc =>
    cases pc with
    | recordInstall => cases h
    | _ => trivial
  | _ => trivial

theorem Call.records_level (h : c.records = true) : 0 < c.level := by
  cases c with
  | doWork request result pc => cases pc <;> first | exact Nat.zero_lt_one | cases h
  | _ => cases h

/-- After its next statement. -/
theorem Call.records_statement {c' : Call} (hc' : (c.statement sh answer).1 = some c')
    (happly : (c.statement sh answer).2.apply sh t = some sh') : c'.Records sh' := by
  cases hrec : c'.records with
  | false => exact Call.records_of_not_records hrec
  | true =>
    cases c with
    | register observer pc => cases pc <;> cases hc' <;> cases hrec
    | unregister observer pc => cases pc <;> cases hc' <;> cases hrec
    | doWork request result pc =>
      cases pc with
      | test =>
        simp only [Call.statement, Packager.doWork] at hc'
        split at hc' <;> (try split at hc') <;> cases hc' <;> cases hrec
      | initOpkg => cases answer <;> cases hc' <;> cases hrec
      | record =>
        cases request with
        | install package =>
          cases hc'
          cases happly
          exact ⟨package, rfl, rfl⟩
        | synchronizeRepository => cases hc'; cases hrec
      | _ => cases hc' <;> cases hrec

theorem Ordered.recording_move (h : Ordered s) (hrec : s.Recording) (hmove : Move cfg s t s') :
    s'.Recording := by
  have hother {u : Thread} {c : Call} {outer : List Call} (hu : s.calls u = c :: outer)
      (hne : u ≠ t) : c.Records s'.shared := by
    cases hc : c.records with
    | false => exact Call.records_of_not_records hc
    | true =>
      exact Call.records_of_package (hrec u c outer hu)
        (h.toLocked.unchanged hmove hu (Call.records_level hc) hne).package
  intro u d rest hu
  cases hmove with
  | call api hmay =>
    rcases calls_of_update hu with ⟨rfl, heq⟩ | ⟨hne, htop⟩
    · obtain ⟨rfl, -⟩ := List.cons.inj heq
      cases api <;> trivial
    · exact hother htop hne
  | @api c outer sh answer htop happly =>
    rcases calls_of_update hu with ⟨rfl, heq⟩ | ⟨hne, htop'⟩
    · cases hc' : (c.statement s.shared answer).1 with
      | some c' =>
        rw [hc'] at heq
        obtain ⟨rfl, -⟩ := List.cons.inj heq
        exact Call.records_statement hc' happly
      | none =>
        rw [hc'] at heq
        have hout : outer = d :: rest := heq
        have hin := h.outer u c outer htop d (by rw [hout]; exact List.mem_cons_self)
        exact Call.records_of_not_records (by cases d <;> first | rfl | cases hin)
    · exact hother htop' hne
  | worker i ht hnone hst happly =>
    subst ht
    refine hother hu ?_
    rintro rfl
    exact absurd (hnone.symm.trans hu) (List.cons_ne_nil _ _).symm

theorem recording_of_reachable (h : (packager cfg).Reachable s) : s.Recording := by
  refine h.invariant (I := Sys.Recording) ?_ ?_
  · rintro s rfl t c outer hcalls
    cases hcalls
  · rintro s ⟨t, i⟩ s' hs hrec hstep
    exact (ordered_reachable hs).recording_move hrec (step_move hstep)

/-! ## The slot -/

theorem slot_eq_none (hinstall : sh.flags.install = false) (hsyncing : sh.flags.syncing = false) :
    sh.slot = none := by
  simp only [Shared.flags] at hinstall hsyncing
  simp [Shared.slot, hinstall, hsyncing]

theorem slot_congr (hpackage : sh'.inProgress.package = sh.inProgress.package)
    (hinstall : sh'.inProgress.install.isSome = sh.inProgress.install.isSome)
    (hsyncing : sh'.isSyncing = sh.isSyncing) : sh'.slot = sh.slot := by
  simp only [Shared.slot, hpackage, hinstall, hsyncing]

/-- What an effect does that does not touch the request. -/
theorem slot_of_apply (happly : e.apply sh t = some sh')
    (he : e = .none ∨ e = .lock ∨ e = .unlock ∨ e = .run ∨ e = .block ∨ (∃ b, e = .setUpgrade b) ∨
      (∃ b, e = .initOpkg b) ∨ (∃ o, e = .pushBack o) ∨ ∃ o, e = .erase o) :
    sh'.slot = sh.slot := by
  rcases he with rfl | rfl | rfl | rfl | rfl | ⟨b, rfl⟩ | ⟨b, rfl⟩ | ⟨o, rfl⟩ | ⟨o, rfl⟩
  case inr.inl | inr.inr.inl =>
    obtain ⟨l, -, rfl⟩ := Option.map_eq_some_iff.mp happly
    rfl
  all_goals cases happly; rfl

/-- A step that stands for no event. -/
theorem slot_still {event : Option (SlotEvent Request)} (hevent : event = none)
    (hslot : sh'.slot = sh.slot) :
    event.elim (some sh.slot) ((oneSlot Request).step sh.slot) = some sh'.slot := by
  rw [hevent, hslot]
  rfl

/-- The next statement of a call. -/
theorem Call.slot_statement (hknows : c.Knows sh.flags) (hrec : c.Records sh)
    (happly : (c.statement sh answer).2.apply sh t = some sh') :
    c.event.elim (some sh.slot) ((oneSlot Request).step sh.slot) = some sh'.slot := by
  cases c with
  | register observer pc =>
    refine slot_still rfl (slot_of_apply happly ?_)
    cases pc <;> simp [Call.statement, Packager.register]
  | unregister observer pc =>
    refine slot_still rfl (slot_of_apply happly ?_)
    cases pc <;> simp [Call.statement, Packager.unregister]
  | doWork request result pc =>
    cases pc with
    | record =>
      obtain ⟨-, hinstall, -, hsyncing⟩ := hknows
      have hempty := slot_eq_none hinstall hsyncing
      cases request with
      | install package =>
        have hflags := apply_flags happly
        have hafter : sh'.slot = none :=
          slot_eq_none (by rw [hflags]; exact hinstall) (by rw [hflags]; exact hsyncing)
        exact slot_still rfl (hafter.trans hempty.symm)
      | synchronizeRepository =>
        cases happly
        have hno : sh.inProgress.install.isSome = false := hinstall
        rw [hempty]
        simp [Call.event, oneSlot, Shared.slot, hno]
    | recordInstall =>
      obtain ⟨-, hinstall, -, hsyncing⟩ := hknows
      obtain ⟨package, rfl, hpackage⟩ := hrec
      cases happly
      rw [slot_eq_none hinstall hsyncing]
      simp [Call.event, oneSlot, Shared.slot, hpackage]
    | test =>
      refine slot_still (by cases request <;> rfl) (slot_of_apply happly ?_)
      simp only [Call.statement, Packager.doWork]
      split <;> exact .inl rfl
    | _ =>
      refine slot_still (by cases request <;> rfl) (slot_of_apply happly ?_)
      simp [Call.statement, Packager.doWork]

/-- The next statement of the worker. -/
theorem WorkerMove.slot (h : WorkerMove cfg sh w w' e) (hknows : w.Knows sh.flags)
    (hdata : w = .clearInstall → sh.flags.Consistent)
    (happly : e.apply sh t = some sh') :
    w.event.elim (some sh.slot) ((oneSlot Request).step sh.slot) = some sh'.slot := by
  cases h with
  | repoSynced isInstall status pc =>
    cases pc with
    | start =>
      cases happly
      cases isInstall with
      | true =>
        have hinstall : sh.inProgress.install.isSome = true := hknows rfl
        exact slot_still rfl (by simp [Shared.slot, hinstall])
      | false =>
        obtain ⟨hinstall, hsyncing⟩ : sh.inProgress.install.isSome = false ∧
          sh.isSyncing = true := hknows rfl
        simp [WorkerPc.event, oneSlot, Shared.slot, hinstall, hsyncing]
    | callbacks rest =>
      refine slot_still (by cases isInstall <;> rfl) (slot_of_apply happly ?_)
      cases rest <;> exact .inl rfl
    | lock =>
      exact slot_still (by cases isInstall <;> rfl) (slot_of_apply happly (by simp [notify]))
    | unlock =>
      exact slot_still (by cases isInstall <;> rfl) (slot_of_apply happly (by simp [notify]))
  | stateChange stmts back pc =>
    refine slot_still rfl (slot_of_apply happly ?_)
    cases pc with
    | callbacks rest => cases rest <;> exact .inl rfl
    | _ => simp [notify]
  | install hw hw' he =>
    have hevent : w.event = none := by cases w <;> first | rfl | cases hw
    refine slot_still hevent ?_
    rcases he with rfl | hb | ⟨info, hinfo, rfl⟩
    · exact slot_of_apply happly (.inl rfl)
    · exact slot_of_apply happly (by simp [hb])
    · cases happly
      exact slot_congr rfl (by simp [hinfo]) rfl
  | clearInstall =>
    have hcon := hdata rfl
    have hinstall : sh.inProgress.install.isSome = true := hknows
    obtain ⟨package, hpackage⟩ := Option.isSome_iff_exists.mp
      (show sh.inProgress.package.isSome = true from hcon.1.symm.trans hknows)
    have hsyncing : sh.isSyncing = false := hcon.2 hknows
    cases happly
    simp [WorkerPc.event, oneSlot, Shared.slot, hinstall, hpackage, hsyncing]
  | clearPackage =>
    obtain ⟨hinstall, hsyncing⟩ := hknows
    have hflags := apply_flags happly
    have hafter : sh'.slot = none :=
      slot_eq_none (by rw [hflags]; exact hinstall) (by rw [hflags]; exact hsyncing)
    exact slot_still rfl (hafter.trans (slot_eq_none hinstall hsyncing).symm)
  | _ => exact slot_still rfl (slot_of_apply happly (by simp))

/-- A step is a call that is made, a statement of the innermost call, or a statement of the
worker. -/
theorem step_cases (h : step cfg s (t, i) = some s') :
    (∃ api, i = .call api ∧ s'.shared = s.shared ∧ s'.worker = s.worker) ∨
      (∃ c outer answer, i = .next answer ∧ s.calls t = c :: outer ∧ s'.worker = s.worker ∧
        (c.statement s.shared answer).2.apply s.shared t = some s'.shared) ∨
      (t = .worker ∧ s.calls .worker = [] ∧ (∀ api, i ≠ .call api) ∧ ∃ e,
        installThreadWorker cfg s.shared s.worker i = some (s'.worker, e) ∧
          e.apply s.shared .worker = some s'.shared) := by
  by_cases hcall : ∃ api, i = .call api
  · obtain ⟨api, rfl⟩ := hcall
    simp only [step] at h
    split at h <;> cases h
    exact .inl ⟨api, rfl, rfl, rfl⟩
  · have hi : ∀ api, i ≠ .call api := fun api he => hcall ⟨api, he⟩
    obtain ⟨w, cs, e, sh, hst, happly, rfl⟩ := move_of_statement hi h
    unfold statement at hst
    split at hst
    case h_1 c outer answer htop =>
      cases hst
      exact .inr (.inl ⟨c, outer, answer, rfl, htop, rfl, happly⟩)
    case h_2 hnone =>
      obtain ⟨⟨w', e'⟩, hw, heq⟩ := Option.map_eq_some_iff.mp hst
      cases heq
      exact .inr (.inr ⟨rfl, hnone, hi, _, hw, happly⟩)
    case h_3 => cases hst

/-- The Packager refines the slot. -/
theorem packager_refines (cfg : Config) :
    TransitionSystem.Refines (packager cfg) (oneSlot Request) (fun s => s.shared.slot) event where
  init s hs := by
    subst hs
    rfl
  step := by
    rintro s ⟨t, i⟩ s' hs hstep
    have hordered := ordered_reachable hs
    rcases step_cases hstep with ⟨api, rfl, hsame, -⟩ | ⟨c, outer, answer, rfl, htop, -, happly⟩ |
      ⟨rfl, hnone, hi, e, hst, happly⟩
    · exact slot_still rfl (by rw [hsame])
    · have hevent : event s (t, .next answer) = c.event := by simp [event, htop]
      rw [hevent]
      exact Call.slot_statement (hordered.calls t c outer htop)
        (recording_of_reachable hs t c outer htop) happly
    · have hevent : event s (.worker, i) = s.worker.event := by
        cases i with
        | call api => exact absurd rfl (hi api)
        | _ => simp [event, hnone]
      rw [hevent]
      refine (worker_move hst).slot hordered.worker (fun hclear => ?_) happly
      refine (hordered.consistent_worker hnone ?_).resolve_right ?_
      · rw [hclear]
        exact Nat.zero_lt_one
      · simp [hclear]

/-- In every run the requests are put into the slot and taken out one by one, in the order in
which they were accepted; only the last can still be in it. What the worker installs is the
package of that one. -/
theorem served_in_order {as : List (Thread × Input)}
    (h : (packager cfg).run PackagerImplementation as = some s) :
    (∃ served : List Request, (packager cfg).events event PackagerImplementation as =
      served.flatMap (fun r => [.put r, .take]) ++ s.shared.slot.toList.map .put) ∧
    (s.worker.reads = true → ∃ package, s.shared.inProgress.package = some package ∧
      s.shared.slot = some (.install package)) := by
  have hreach : (packager cfg).Reachable s :=
    TransitionSystem.ReachableWhere.run (fun _ _ _ _ => trivial) (.init rfl) h
  constructor
  · obtain ⟨served, hserved⟩ := oneSlot_run ((packager_refines cfg).run (.init rfl) h)
    exact ⟨served, hserved⟩
  · intro hreads
    obtain ⟨hinstall, hpackage⟩ := (ordered_reachable hreach).filled hreads
    obtain ⟨package, hsome⟩ := Option.isSome_iff_exists.mp hpackage
    exact ⟨package, hsome, by simp [Shared.slot, hinstall, hsome]⟩

/-- Two synchronisations, of which the first has been served. -/
def twoSynchronisations : List (Thread × Input) :=
  synchronizes (.client 0) 6 ++ executes .worker 11 ++ synchronizes (.client 1) 6

theorem served_in_order_twice : ∃ s,
    (packager defaultBuild).run PackagerImplementation twoSynchronisations = some s ∧
    (packager defaultBuild).events event PackagerImplementation twoSynchronisations =
      [.put .synchronizeRepository, .take, .put .synchronizeRepository] ∧
    ∃ served : List Request,
      (packager defaultBuild).events event PackagerImplementation twoSynchronisations =
        served.flatMap (fun r => [.put r, .take]) ++ s.shared.slot.toList.map .put := by
  have hsome : ((packager defaultBuild).run PackagerImplementation twoSynchronisations).isSome =
      true := by decide +kernel
  obtain ⟨s, hrun⟩ := Option.isSome_iff_exists.mp hsome
  exact ⟨s, hrun, by decide +kernel, (served_in_order hrun).1⟩

end SoftwareUpdate.Packager
