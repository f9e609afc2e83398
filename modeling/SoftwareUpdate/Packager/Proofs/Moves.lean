import Mathlib.Algebra.GroupWithZero.Nat
import SoftwareUpdate.Packager.System

/-!
# What one step of the Packager can do

A thread makes a call, executes a statement of its innermost call, or, being the worker and
in no call, a statement of its own. Which threads hold `_adminLock`, and how often, follows
from their program points; a thread that makes a call has outside code on top of its stack.
-/

namespace SoftwareUpdate.Packager

open Misc

variable {cfg : Config} {s s' : Sys} {sh sh' : Shared} {t u : Thread} {c : Call} {outer : List Call}
  {w w' : WorkerPc} {e : Effect} {i : Input} {answer : Bool}

/-- The steps of thread `t`. -/
inductive Move (cfg : Config) (s : Sys) (t : Thread) : Sys → Prop
  | call (api : Api) (hmay : s.mayCall t = true) :
      Move cfg s t { s with calls := Function.update s.calls t (api.entry :: s.calls t) }
  | api {c : Call} {outer : List Call} {sh : Shared} (answer : Bool) (htop : s.calls t = c :: outer)
      (happly : (c.statement s.shared answer).2.apply s.shared t = some sh) :
      Move cfg s t
        { s with
          shared := sh
          calls := Function.update s.calls t ((c.statement s.shared answer).1.toList ++ outer) }
  | worker {w : WorkerPc} {e : Effect} {sh : Shared} (i : Input) (ht : t = .worker)
      (hnone : s.calls .worker = [])
      (hst : installThreadWorker cfg s.shared s.worker i = some (w, e))
      (happly : e.apply s.shared .worker = some sh) :
      Move cfg s t { s with shared := sh, worker := w }

theorem move_of_statement (hi : ∀ api, i ≠ .call api) (h : step cfg s (t, i) = some s') :
    ∃ w cs e sh, statement cfg s t i = some (w, cs, e) ∧ e.apply s.shared t = some sh ∧
      s' = ⟨sh, w, Function.update s.calls t cs⟩ := by
  have hbind : (statement cfg s t i).bind (fun p => (p.2.2.apply s.shared t).map fun shared =>
      Sys.mk shared p.1 (Function.update s.calls t p.2.1)) = some s' := by
    cases i with
    | call api => exact absurd rfl (hi api)
    | next _ => exact h
    | upgradable _ => exact h
    | progress _ => exact h
    | returns _ => exact h
  obtain ⟨⟨w, cs, e⟩, hst, hmap⟩ := Option.bind_eq_some_iff.mp hbind
  obtain ⟨sh, happly, rfl⟩ := Option.map_eq_some_iff.mp hmap
  exact ⟨w, cs, e, sh, hst, happly, rfl⟩

theorem step_move (h : step cfg s (t, i) = some s') : Move cfg s t s' := by
  by_cases hcall : ∃ api, i = .call api
  · obtain ⟨api, rfl⟩ := hcall
    simp only [step] at h
    split at h
    case isTrue hmay => cases h; exact .call api hmay
    case isFalse => cases h
  · obtain ⟨w, cs, e, sh, hst, happly, rfl⟩ :=
      move_of_statement (fun api hi => hcall ⟨api, hi⟩) h
    unfold statement at hst
    split at hst
    case h_1 c outer answer htop =>
      cases hst
      exact .api answer htop happly
    case h_2 hnone =>
      obtain ⟨⟨w', e'⟩, hw, heq⟩ := Option.map_eq_some_iff.mp hst
      cases heq
      have hsame : Function.update s.calls .worker [] = s.calls := by
        rw [← hnone, Function.update_eq_self]
      rw [hsame]
      exact .worker _ rfl hnone hw happly
    case h_3 => cases hst

/-- The calls of a thread after those of thread `t` have changed. -/
theorem calls_of_update {calls : Thread → List Call} {cs cs' : List Call}
    (h : Function.update calls t cs u = cs') : u = t ∧ cs = cs' ∨ u ≠ t ∧ calls u = cs' := by
  by_cases hu : u = t
  · subst hu
    rw [Function.update_self] at h
    exact .inl ⟨rfl, h⟩
  · rw [Function.update_of_ne hu] at h
    exact .inr ⟨hu, h⟩

/-! ## The worker -/

/-- The worker installs a package, outside the calls of the observers. -/
def WorkerPc.installs : WorkerPc → Bool
  | .blockingInstall | .listUpgradable | .library _ | .statements _ _ | .lockClear => true
  | _ => false

/-- What the worker's statements do. Those of an install leave `_inProgress` filled in. -/
inductive WorkerMove (cfg : Config) (sh : Shared) : WorkerPc → WorkerPc → Effect → Prop
  | isRunning (hrun : sh.running = true) : WorkerMove cfg sh .isRunning .lockRead .none
  | lockRead : WorkerMove cfg sh .lockRead .read .lock
  | read : WorkerMove cfg sh .read (.unlockRead sh.inProgress.install.isSome) .none
  | unlockRead (isInstall : Bool) :
      WorkerMove cfg sh (.unlockRead isInstall) (.listFiles isInstall) .unlock
  | listFiles (isInstall : Bool) {w : WorkerPc}
      (hw : w = afterSetup isInstall ∧ isInstall = true ∨ w = .update isInstall) :
      WorkerMove cfg sh (.listFiles isInstall) w .none
  | update (isInstall : Bool) (status : ErrorCode) :
      WorkerMove cfg sh (.update isInstall) (.repoSynced isInstall status .lock) .none
  | repoSynced (isInstall : Bool) (status : ErrorCode) (pc : NotifyPc) :
      WorkerMove cfg sh (.repoSynced isInstall status pc)
        (notify sh true (.repoSynced isInstall status) (afterSetup isInstall) pc).1
        (notify sh true (.repoSynced isInstall status) (afterSetup isInstall) pc).2
  | install {w w' : WorkerPc} {e : Effect} (hw : w.installs = true) (hw' : w'.installs = true)
      (he : e = .none ∨ (∃ b, e = .setUpgrade b) ∨
        ∃ info, sh.inProgress.install.isSome = true ∧ e = .setInstall (some info)) :
      WorkerMove cfg sh w w' e
  | notifyStateChange (stmts : List Stmt) (back : Option LibraryCall) :
      WorkerMove cfg sh (.statements (.notifyStateChange :: stmts) back)
        (.stateChange stmts back .lock) .none
  | stateChange (stmts : List Stmt) (back : Option LibraryCall) (pc : NotifyPc) :
      WorkerMove cfg sh (.stateChange stmts back pc)
        (notify sh false (.stateChange stmts back) (.statements stmts back) pc).1
        (notify sh false (.stateChange stmts back) (.statements stmts back) pc).2
  | lockClear : WorkerMove cfg sh .lockClear .clearInstall .lock
  | clearInstall : WorkerMove cfg sh .clearInstall .clearPackage (.setInstall none)
  | clearPackage : WorkerMove cfg sh .clearPackage .unlockClear (.setPackage none)
  | unlockClear : WorkerMove cfg sh .unlockClear .block .unlock
  | block : WorkerMove cfg sh .block .isRunning .block

theorem installs_resume {back : Option LibraryCall} : (WorkerPc.resume back).installs = true := by
  cases back <;> rfl

theorem worker_move (h : installThreadWorker cfg sh w i = some (w', e)) :
    WorkerMove cfg sh w w' e := by
  unfold installThreadWorker at h
  split at h
  case h_1 =>
    split at h
    case isTrue hrun => cases h; exact .isRunning hrun
    case isFalse => cases h
  case h_2 => cases h; exact .lockRead
  case h_3 => cases h; exact .read
  case h_4 => cases h; exact .unlockRead _
  case h_5 isInstall answer =>
    cases h
    refine .listFiles isInstall ?_
    cases isInstall <;> cases cfg.alwaysUpdateFirst <;> cases answer <;> simp
  case h_6 => cases h; exact .update _ _
  case h_7 isInstall status pc _ =>
    obtain ⟨rfl, rfl⟩ := Prod.mk.injEq _ _ _ _ ▸ Option.some.inj h
    exact .repoSynced isInstall status pc
  case h_8 =>
    split at h <;> cases h
    · exact .install rfl rfl (.inr (.inl ⟨_, rfl⟩))
    · exact .install rfl rfl (.inl rfl)
  case h_9 =>
    obtain ⟨package, -, heq⟩ := Option.map_eq_some_iff.mp h
    cases heq
    exact .install rfl rfl (.inr (.inl ⟨_, rfl⟩))
  case h_10 => cases h; exact .install rfl rfl (.inr (.inl ⟨_, rfl⟩))
  case h_11 =>
    obtain ⟨info, -, heq⟩ := Option.map_eq_some_iff.mp h
    cases heq
    exact .install rfl rfl (.inl rfl)
  case h_12 => cases h; exact .install rfl rfl (.inl rfl)
  case h_13 => cases h; exact .install rfl rfl (.inl rfl)
  case h_14 => cases h; exact .install rfl installs_resume (.inl rfl)
  case h_15 => cases h; exact .notifyStateChange _ _
  case h_16 =>
    obtain ⟨info, hinfo, heq⟩ := Option.map_eq_some_iff.mp h
    cases heq
    exact .install rfl rfl (.inr (.inr ⟨_, by rw [hinfo]; rfl, rfl⟩))
  case h_17 stmts back pc _ =>
    obtain ⟨rfl, rfl⟩ := Prod.mk.injEq _ _ _ _ ▸ Option.some.inj h
    exact .stateChange stmts back pc
  case h_18 => cases h; exact .lockClear
  case h_19 => cases h; exact .clearInstall
  case h_20 => cases h; exact .clearPackage
  case h_21 => cases h; exact .unlockClear
  case h_22 => cases h; exact .block
  case h_23 => cases h

/-! ## Who holds the lock -/

def Call.level : Call → ℕ
  | .doWork _ _ .lock | .register _ .lock | .unregister _ .lock => 0
  | _ => 1

def NotifyPc.level : NotifyPc → ℕ
  | .lock => 0
  | _ => 1

def WorkerPc.level : WorkerPc → ℕ
  | .repoSynced _ _ pc | .stateChange _ _ pc => pc.level
  | .read | .unlockRead _ | .clearInstall | .clearPackage | .unlockClear => 1
  | _ => 0

/-- How often thread `t` holds the lock. -/
def Sys.level (s : Sys) (t : Thread) : ℕ :=
  ((s.calls t).map Call.level).sum + if t = .worker then s.worker.level else 0

/-- What an effect does to the number of times its thread holds the lock. -/
def Effect.onLevel : Effect → ℕ → ℕ
  | .lock, n => n + 1
  | .unlock, n => n - 1
  | _, n => n

theorem apply_agrees {n : Thread → ℕ} (h : sh.adminLock.Agrees n)
    (happly : e.apply sh t = some sh') :
    sh'.adminLock.Agrees (Function.update n t (e.onLevel (n t))) := by
  cases e with
  | lock =>
    obtain ⟨l, hl, rfl⟩ := Option.map_eq_some_iff.mp happly
    exact h.lock hl
  | unlock =>
    obtain ⟨l, hl, rfl⟩ := Option.map_eq_some_iff.mp happly
    exact h.unlock hl
  | _ =>
    cases happly
    intro u
    simpa [Effect.onLevel] using h u

/-- The level of a call and of what is left of it after its next statement. -/
theorem Call.level_statement (c : Call) (sh : Shared) (answer : Bool) :
    ((c.statement sh answer).1.toList.map Call.level).sum =
        (c.statement sh answer).2.onLevel c.level ∧
      ((c.statement sh answer).2 = .unlock → c.level = 1) := by
  cases c with
  | doWork request result pc =>
    cases pc with
    | test =>
      simp only [Call.statement, Packager.doWork]
      split <;> (try split) <;> exact ⟨rfl, nofun⟩
    | initOpkg => cases answer <;> exact ⟨rfl, nofun⟩
    | record => cases request <;> exact ⟨rfl, nofun⟩
    | unlock => exact ⟨rfl, fun _ => rfl⟩
    | _ => exact ⟨rfl, nofun⟩
  | register observer pc =>
    cases pc with
    | test =>
      simp only [Call.statement, Packager.register]
      split <;> exact ⟨rfl, nofun⟩
    | unlock => exact ⟨rfl, fun _ => rfl⟩
    | _ => exact ⟨rfl, nofun⟩
  | unregister observer pc =>
    cases pc with
    | unlock => exact ⟨rfl, fun _ => rfl⟩
    | _ => exact ⟨rfl, nofun⟩

theorem level_afterSetup {b : Bool} : (afterSetup b).level = 0 := by
  cases b <;> rfl

theorem WorkerPc.level_of_installs (h : w.installs = true) : w.level = 0 := by
  cases w <;> first | rfl | cases h

/-- The functions that call the observers. -/
theorem level_notify {clears : Bool} {at' : NotifyPc → WorkerPc} {after : WorkerPc} {pc : NotifyPc}
    (hat : ∀ pc, (at' pc).level = pc.level) (hafter : after.level = 0) :
    (notify sh clears at' after pc).1.level =
      (notify sh clears at' after pc).2.onLevel pc.level := by
  cases pc with
  | lock => exact hat _
  | start => cases clears <;> exact hat _
  | callbacks rest => cases rest <;> exact hat _
  | unlock => exact hafter

/-- The level of the worker before and after one of its statements. -/
theorem WorkerMove.level (h : WorkerMove cfg sh w w' e) : w'.level = e.onLevel w.level := by
  cases h with
  | listFiles isInstall hw =>
    rcases hw with ⟨rfl, -⟩ | rfl
    · exact level_afterSetup
    · rfl
  | repoSynced isInstall status pc => exact level_notify (fun _ => rfl) level_afterSetup
  | stateChange stmts back pc => exact level_notify (fun _ => rfl) rfl
  | install hw hw' he =>
    rw [WorkerPc.level_of_installs hw, WorkerPc.level_of_installs hw']
    rcases he with rfl | ⟨b, rfl⟩ | ⟨info, -, rfl⟩ <;> rfl
  | _ => rfl

end SoftwareUpdate.Packager
