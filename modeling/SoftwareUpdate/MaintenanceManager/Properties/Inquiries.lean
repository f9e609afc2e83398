import SoftwareUpdate.MaintenanceManager.Inquiries
import SoftwareUpdate.MaintenanceManager.Proofs.WorkerSteps
import SoftwareUpdate.MaintenanceManager.System
import SoftwareUpdate.Misc.History

/-!
# What the answers decide

A cycle is left for lack of a network when none of its network checks, of which there are at
most five, has found the device online, unless a device that is not activated waits for its
context. Events of other plugins are subscribed to once; SecManager's are subscribed to again
when it has been found inactive. `knowWhoAmI` returns once SecManager is active.
-/

namespace SoftwareUpdate.MaintenanceManager

open Helpers Misc Misc.History

variable {f : Framework} {cfg : Config} {s s' s₀ s₁ s₂ : Inquirer} {w w' w₀ : Worker}
  {callsign : Callsign} {status : ActivationStatus} {x : Inquiry} {b : Bool} {k n : ℕ}
  {p : Inquiry → Bool}

/-! ## Kinds of inquiries -/

namespace Inquiry

/-- `isConnectedToInternet` has been answered with yes. -/
def saysOnline : Inquiry → Bool
  | isConnectedToInternet (some (some true)) => true
  | _ => false

def asksNetwork : Inquiry → Bool
  | getServiceState .network _ => true
  | _ => false

def asksAuthService : Inquiry → Bool
  | getServiceState .authService _ => true
  | _ => false

/-- The AuthService has answered that the device is activated. -/
def saysActivated : Inquiry → Bool
  | getActivationStatus (some status) => ActivationStatus.ofText status == .activated
  | _ => false

/-- The plugin whose state the inquiry asks for or which it asks further. -/
def target : Inquiry → Option Callsign
  | getServiceState c _ => some c
  | subscribe c _ => some c
  | isConnectedToInternet _ => some .network
  | getActivationStatus _ => some .authService
  | getDeviceInitializationContext _ => some .secManager
  | queryIAuthService _ | setDeviceInitializationContext _ _ | sleep _ => none

end Inquiry

open Inquiry

/-- How many inquiries with `p` have been made. -/
def Inquirer.count (s : Inquirer) (p : Inquiry → Bool) : ℕ := s.history.countP p

theorem Inquirer.count_record : (s.record x).count p = s.count p + (p x).toNat := by
  cases hp : p x <;> simp [count, hp]

/-- No inquiries from `s` to `s'` but to the plugin. -/
inductive Asks (callsign : Callsign) (s : Inquirer) : Inquirer → Prop
  | same {s' : Inquirer} (h : s'.history = s.history) : Asks callsign s s'
  | tail {s' s'' : Inquirer} {x : Inquiry} (h : Asks callsign s s')
      (hx : ∀ c, x.target = some c → c = callsign) (hs : s''.history = x :: s'.history) :
      Asks callsign s s''

namespace Asks

theorem trans (h : Asks callsign s s₁) (h' : Asks callsign s₁ s₂) : Asks callsign s s₂ := by
  induction h' with
  | same heq =>
    cases h with
    | same h => exact .same (heq.trans h)
    | tail h hx hs => exact .tail h hx (heq.trans hs)
  | tail _ hx hs ih => exact .tail ih hx hs

theorem single (hx : ∀ c, x.target = some c → c = callsign) (hs : s'.history = x :: s.history) :
    Asks callsign s s' :=
  .tail (.same rfl) hx hs

/-- Inquiries to one plugin do not count for another. -/
theorem count_eq (h : Asks callsign s s')
    (hp : ∀ x, p x = true → ∃ c, x.target = some c ∧ c ≠ callsign) : s'.count p = s.count p := by
  induction h with
  | same heq => simp only [Inquirer.count, heq]
  | @tail s₁ s₂ x _ hx hs ih =>
    have hnot : p x = false := by
      by_contra hpx
      obtain ⟨c, hc, hne⟩ := hp x (by simpa using hpx)
      exact hne (hx c hc)
    simpa [Inquirer.count, hs, hnot] using ih

end Asks

theorem Asks.count_saysOnline (h : Asks callsign s s') (hc : callsign ≠ .network) :
    s'.count saysOnline = s.count saysOnline := by
  refine h.count_eq fun x hx => ⟨.network, ?_, hc.symm⟩
  cases x <;> first | rfl | cases hx

theorem Asks.count_asksNetwork (h : Asks callsign s s') (hc : callsign ≠ .network) :
    s'.count asksNetwork = s.count asksNetwork := by
  refine h.count_eq fun x hx => ⟨.network, ?_, hc.symm⟩
  cases x with
  | getServiceState c _ => cases c <;> first | rfl | cases hx
  | _ => cases hx

theorem Asks.count_asksAuthService (h : Asks callsign s s') (hc : callsign ≠ .authService) :
    s'.count asksAuthService = s.count asksAuthService := by
  refine h.count_eq fun x hx => ⟨.authService, ?_, hc.symm⟩
  cases x with
  | getServiceState c _ => cases c <;> first | rfl | cases hx
  | _ => cases hx

theorem Asks.count_saysActivated (h : Asks callsign s s') (hc : callsign ≠ .authService) :
    s'.count saysActivated = s.count saysActivated := by
  refine h.count_eq fun x hx => ⟨.authService, ?_, hc.symm⟩
  cases x <;> first | rfl | cases hx

/-! ## The inquiries of each function -/

theorem isActive_asks : Asks callsign s (isActive f callsign s).1 :=
  .single (x := .getServiceState callsign (f.getServiceState s.history callsign))
    (by simp [target]) rfl

theorem subscribeForInternetStatusEvent_asks :
    Asks .network s (subscribeForInternetStatusEvent f s) :=
  .single (x := .subscribe .network (f.subscribe s.history .network)) (by simp [target]) rfl

theorem askNetwork_asks : Asks .network s (askNetwork f s).1 := by
  unfold askNetwork
  refine .tail (?_ : Asks _ s (if _ then _ else _)) ?_ rfl
  · split
    · exact subscribeForInternetStatusEvent_asks
    · exact .same rfl
  · simp [target]

theorem checkNetwork_asks : Asks .network s (checkNetwork f s).1 := by
  simp only [checkNetwork]
  split
  · exact isActive_asks.trans askNetwork_asks
  · exact isActive_asks

theorem isDeviceOnline_asks : Asks .network s (isDeviceOnline f s).1 := by
  simp only [isDeviceOnline]
  split
  · exact checkNetwork_asks
  · refine tryUpTo_induct (I := fun _ s' => Asks .network s s')
      (Q := fun s' _ => Asks .network s s') checkNetwork_asks ?_ ?_ fun _ h => h
    all_goals
      intro k s' _ h _
      refine h.trans (.trans ?_ checkNetwork_asks)
      refine .single (x := .sleep NETWORK_RETRY_INTERVAL) ?_ rfl
      simp [target]

theorem queryIAuthService_asks : Asks callsign s (queryIAuthService f s).1 := by
  unfold queryIAuthService
  split
  · exact .same rfl
  · exact .single (x := .queryIAuthService (f.queryIAuthService s.history)) (by simp [target]) rfl

theorem retryActivation_asks : Asks .authService s (retryActivation f s).1 := by
  simp only [retryActivation]
  split
  · exact isActive_asks
  · exact isActive_asks.trans (.single (x := .sleep 10) (by simp [target]) rfl)

theorem awaitAuthService_asks : Asks .authService s (awaitAuthService f s).1 := by
  simp only [awaitAuthService]
  split
  · exact isActive_asks
  · refine tryUpTo_induct (I := fun _ s' => Asks .authService s s')
      (Q := fun s' _ => Asks .authService s s') isActive_asks ?_ ?_ fun _ h => h
    all_goals
      intro k s' _ h _
      exact h.trans retryActivation_asks

theorem checkActivatedStatus_asks : Asks .authService s (checkActivatedStatus f s).1 := by
  simp only [checkActivatedStatus]
  split
  · split
    · refine (awaitAuthService_asks.trans queryIAuthService_asks).trans (.single ?_ rfl)
      simp [target]
    · exact awaitAuthService_asks.trans queryIAuthService_asks
  · exact awaitAuthService_asks

theorem subscribeToDeviceInitializationEvent_asks :
    Asks .secManager s (subscribeToDeviceInitializationEvent f s) :=
  .single (x := .subscribe .secManager (f.subscribe s.history .secManager)) (by simp [target]) rfl

theorem setContext_asks {context : JsonObject} : Asks callsign s (setContext f context s).1 := by
  refine .tail (?_ : Asks _ s (if _ then _ else _ : Inquirer × Bool).1) ?_ rfl
  · split
    · exact queryIAuthService_asks
    · exact .same rfl
  · simp [target]

theorem askSecManager_asks : Asks .secManager s (askSecManager f s).1 := by
  have hfirst : Asks .secManager s (s.record
      (.getDeviceInitializationContext (f.getDeviceInitializationContext s.history))) :=
    .single (by simp [target]) rfl
  have hsub {s' : Inquirer} (h : Asks .secManager s s') : Asks .secManager s
      (if s'.subscribedForDeviceContextUpdate then s'
        else subscribeToDeviceInitializationEvent f s') := by
    split
    · exact h
    · exact h.trans subscribeToDeviceInitializationEvent_asks
  simp only [askSecManager]
  apply hsub
  split
  · split
    · exact hfirst.trans setContext_asks
    · exact hfirst
  · exact hfirst

theorem askWhoAmI_asks : Asks .secManager s (askWhoAmI f status s).1 := by
  simp only [askWhoAmI]
  split
  · exact isActive_asks.trans askSecManager_asks
  · split
    · refine (isActive_asks (f := f)).trans (.single (x := .sleep SECMGR_RETRY_INTERVAL) ?_ rfl)
      simp [target]
    · exact isActive_asks.trans (.same rfl)

theorem knowWhoAmI_asks : Asks .secManager s (knowWhoAmI f status n s).1 := by
  refine tryUpTo_induct (I := fun _ s' => Asks .secManager s s')
    (Q := fun s' _ => Asks .secManager s s') (.same rfl) ?_ ?_ fun _ h => h
  all_goals
    intro k s' _ h _
    exact h.trans askWhoAmI_asks

/-! ## What the network checks find -/

theorem isActive_count : (isActive f callsign s).1.count p =
    s.count p + (p (.getServiceState callsign (f.getServiceState s.history callsign))).toNat :=
  Inquirer.count_record

theorem subscribeForInternetStatusEvent_count
    (hp : ∀ subscribed, p (.subscribe .network subscribed) = false) :
    (subscribeForInternetStatusEvent f s).count p = s.count p := by
  simp [subscribeForInternetStatusEvent, Inquirer.count, hp]

theorem askNetwork_count (hp : ∀ subscribed, p (.subscribe .network subscribed) = false) :
    ∃ answer, (askNetwork f s).1.count p = s.count p + (p (.isConnectedToInternet answer)).toNat ∧
      (askNetwork f s).2 = (answer == some (some true)) := by
  refine ⟨_, ?_, rfl⟩
  simp only [askNetwork, Inquirer.count_record]
  split
  · rw [subscribeForInternetStatusEvent_count hp]
  · rfl

/-- A check asks for the plugin once, and succeeds when it is told that the device is online. -/
theorem checkNetwork_count : (checkNetwork f s).1.count saysOnline =
      s.count saysOnline + (checkNetwork f s).2.toNat ∧
    (checkNetwork f s).1.count asksNetwork = s.count asksNetwork + 1 := by
  simp only [checkNetwork]
  split
  · obtain ⟨answer, honline, hresult⟩ := askNetwork_count (f := f) (s := (isActive f .network s).1)
      (p := saysOnline) fun _ => rfl
    obtain ⟨answer', hasks, -⟩ := askNetwork_count (f := f) (s := (isActive f .network s).1)
      (p := asksNetwork) fun _ => rfl
    rw [honline, hasks, hresult, isActive_count, isActive_count]
    refine ⟨?_, rfl⟩
    rcases answer with _ | _ | _ | _ <;> rfl
  · rw [isActive_count, isActive_count]
    exact ⟨rfl, rfl⟩

theorem retryNetwork_count : (retryNetwork f s).1.count saysOnline =
      s.count saysOnline + (retryNetwork f s).2.isSome.toNat ∧
    (retryNetwork f s).1.count asksNetwork = s.count asksNetwork + 1 := by
  have hcheck := checkNetwork_count (f := f) (s := s.record (.sleep NETWORK_RETRY_INTERVAL))
  simp only [Inquirer.count_record, saysOnline, asksNetwork, Bool.toNat_false,
    Nat.add_zero] at hcheck
  simp only [retryNetwork]
  refine ⟨hcheck.1.trans ?_, hcheck.2⟩
  split
  case isTrue hyes => rw [hyes]; rfl
  case isFalse hno => rw [Bool.not_eq_true] at hno; rw [hno]; rfl

/-- `isDeviceOnline` checks at most five times, and ends with the first check that succeeds. -/
theorem isDeviceOnline_count : (isDeviceOnline f s).1.count saysOnline =
      s.count saysOnline + (isDeviceOnline f s).2.toNat ∧
    (isDeviceOnline f s).1.count asksNetwork ≤ s.count asksNetwork + (1 + MAX_NETWORK_RETRIES) := by
  obtain ⟨honline, hasks⟩ := checkNetwork_count (f := f) (s := s)
  simp only [isDeviceOnline]
  split
  case isTrue hyes =>
    rw [hyes] at honline
    exact ⟨honline, hasks.le.trans (Nat.add_le_add_left (Nat.le_add_right _ _) _)⟩
  case isFalse hno =>
    rw [Bool.not_eq_true] at hno
    rw [hno] at honline
    refine tryUpTo_induct
      (I := fun k (s' : Inquirer) => s'.count saysOnline = s.count saysOnline ∧
        s'.count asksNetwork = s.count asksNetwork + (1 + k))
      (Q := fun (s' : Inquirer) available =>
        s'.count saysOnline = s.count saysOnline + available.isSome.toNat ∧
        s'.count asksNetwork ≤ s.count asksNetwork + (1 + MAX_NETWORK_RETRIES))
      ⟨honline, hasks⟩ ?_ ?_ fun s' h => ⟨h.1, h.2.le⟩
    · intro k s' _ h hnone
      obtain ⟨honline', hasks'⟩ := retryNetwork_count (f := f) (s := s')
      rw [hnone, h.1] at honline'
      rw [h.2] at hasks'
      exact ⟨honline', hasks'⟩
    · intro k s' hk h _
      obtain ⟨honline', hasks'⟩ := retryNetwork_count (f := f) (s := s')
      rw [h.1] at honline'
      rw [h.2] at hasks'
      exact ⟨honline', hasks'.le.trans (by omega)⟩

/-! ## What the AuthService says -/

theorem isActive_authService_count :
    (isActive f .authService s).1.count asksAuthService = s.count asksAuthService + 1 ∧
      (isActive f .authService s).1.count saysActivated = s.count saysActivated :=
  ⟨isActive_count, isActive_count⟩

theorem retryActivation_count :
    (retryActivation f s).1.count asksAuthService = s.count asksAuthService + 1 ∧
      (retryActivation f s).1.count saysActivated = s.count saysActivated := by
  simp only [retryActivation]
  split
  · exact isActive_authService_count
  · rw [Inquirer.count_record, Inquirer.count_record]
    exact isActive_authService_count (f := f)

theorem awaitAuthService_count :
    s.count asksAuthService < (awaitAuthService f s).1.count asksAuthService ∧
      (awaitAuthService f s).1.count saysActivated = s.count saysActivated := by
  obtain ⟨hasks, hnoted⟩ := isActive_authService_count (f := f) (s := s)
  have hfirst : s.count asksAuthService < (isActive f .authService s).1.count asksAuthService :=
    hasks ▸ Nat.lt_succ_self _
  simp only [awaitAuthService]
  split
  · exact ⟨hfirst, hnoted⟩
  · refine tryUpTo_induct
      (I := fun _ (s' : Inquirer) => s.count asksAuthService < s'.count asksAuthService ∧
        s'.count saysActivated = s.count saysActivated)
      (Q := fun (s' : Inquirer) _ => s.count asksAuthService < s'.count asksAuthService ∧
        s'.count saysActivated = s.count saysActivated) ⟨hfirst, hnoted⟩ ?_ ?_ fun _ h => h
    all_goals
      intro k s' _ h _
      obtain ⟨hasks', hnoted'⟩ := retryActivation_count (f := f) (s := s')
      exact ⟨by omega, hnoted'.trans h.2⟩

theorem queryIAuthService_count (hp : ∀ found, p (.queryIAuthService found) = false) :
    (queryIAuthService f s).1.count p = s.count p := by
  unfold queryIAuthService
  split
  · rfl
  · simp [Inquirer.count, hp]

/-- `checkActivatedStatus` asks for the AuthService, and returns `"activated"` only when it has
said so. -/
theorem checkActivatedStatus_count :
    s.count asksAuthService < (checkActivatedStatus f s).1.count asksAuthService ∧
    (checkActivatedStatus f s).1.count saysActivated = s.count saysActivated +
      (ActivationStatus.ofText (checkActivatedStatus f s).2 == .activated).toNat := by
  obtain ⟨hasks, hnoted⟩ := awaitAuthService_count (f := f) (s := s)
  have hfound : (queryIAuthService f (awaitAuthService f s).1).1.count asksAuthService =
      (awaitAuthService f s).1.count asksAuthService := queryIAuthService_count fun _ => rfl
  have hfound' : (queryIAuthService f (awaitAuthService f s).1).1.count saysActivated =
      (awaitAuthService f s).1.count saysActivated := queryIAuthService_count fun _ => rfl
  simp only [checkActivatedStatus]
  split
  · split
    · rw [Inquirer.count_record, Inquirer.count_record, hfound, hfound', hnoted]
      refine ⟨hasks, ?_⟩
      cases f.getActivationStatus (queryIAuthService f (awaitAuthService f s).1).1.history with
      | none => rfl
      | some status => rfl
    · exact ⟨hfound ▸ hasks, hfound'.trans hnoted⟩
  · exact ⟨hasks, hnoted⟩

/-! ## From the first statement of the worker to its decision -/

/-- An inquiry with `p` has been made since `s₀`. -/
def Inquirer.Made (s₀ s : Inquirer) (p : Inquiry → Bool) : Prop := s₀.count p < s.count p

/-- A device with WhoAmI support has not asked the AuthService yet. -/
def AuthServiceUnasked (cfg : Config) (s₀ s : Inquirer) : Prop :=
  cfg.whoamiSupportEnabled = true → s.count asksAuthService = s₀.count asksAuthService ∧
    s.count saysActivated = s₀.count saysActivated

/-- Nothing is known of the network. -/
structure Fresh (cfg : Config) (s₀ s : Inquirer) (w : Worker) : Prop where
  exit : w.exitOnNoNetwork = false
  offline : w.internetConnectStatus = false
  online : s.count saysOnline = s₀.count saysOnline
  checks : s.count asksNetwork = s₀.count asksNetwork
  unasked : AuthServiceUnasked cfg s₀ s

/-- The network has been asked, or it is not to be asked. -/
structure Checked (s₀ s : Inquirer) (w : Worker) : Prop where
  exit : w.exitOnNoNetwork = false
  online : s.count saysOnline = s₀.count saysOnline + w.internetConnectStatus.toNat
  checks : s.count asksNetwork ≤ s₀.count asksNetwork + (1 + MAX_NETWORK_RETRIES)

/-- A device with WhoAmI support has asked the AuthService, too. -/
structure AskedBoth (cfg : Config) (s₀ s : Inquirer) (w : Worker) : Prop extends
    Checked s₀ s w where
  whoami : cfg.whoamiSupportEnabled = true
  asked : s₀.Made s asksAuthService
  activated : s.count saysActivated =
    s₀.count saysActivated + (w.activationStatus == .activated).toNat

/-- What the decision to leave the cycle rests on. -/
structure NetworkSettled (cfg : Config) (s₀ s : Inquirer) (w : Worker) : Prop where
  exits_iff : w.exitOnNoNetwork = true ↔ ¬ s₀.Made s saysOnline ∧
    (cfg.whoamiSupportEnabled = true → s₀.Made s asksAuthService → s₀.Made s saysActivated)
  online_iff : w.internetConnectStatus = true ↔ s₀.Made s saysOnline
  checks : s.count asksNetwork ≤ s₀.count asksNetwork + (1 + MAX_NETWORK_RETRIES)

/-- What holds at each statement up to the decision. -/
def Prepared (cfg : Config) (s₀ s : Inquirer) (w : Worker) : Prop :=
  match w.pc with
  | .lockWai | .decideDelay | .eraseTasks | .checkNetwork => Fresh cfg s₀ s w
  | .lockStarted | .notifyStarted | .unlockStarted =>
      w.delayMaintenanceStarted = false → Fresh cfg s₀ s w
  | .checkActivation => cfg.whoamiSupportEnabled = false ∧ Fresh cfg s₀ s w
  | .branchWhoAmI => Checked s₀ s w ∧ AuthServiceUnasked cfg s₀ s
  | .checkActivated =>
      cfg.whoamiSupportEnabled = true ∧ Checked s₀ s w ∧ AuthServiceUnasked cfg s₀ s
  | .knowWhoAmI | .branchContext => AskedBoth cfg s₀ s w
  | .listenContext | .testContext | .waitContext | .wakeContext =>
      AskedBoth cfg s₀ s w ∧ w.activationStatus ≠ .activated
  | .branchExit => NetworkSettled cfg s₀ s w
  | _ => True

theorem Fresh.checked (h : Fresh cfg s₀ s w) : Checked s₀ s w where
  exit := h.exit
  online := by rw [h.online, h.offline]; rfl
  checks := h.checks.le.trans (Nat.le_add_right _ _)

theorem Checked.made_online (h : Checked s₀ s w) :
    s₀.Made s saysOnline ↔ w.internetConnectStatus = true := by
  unfold Inquirer.Made
  rw [h.online]
  cases w.internetConnectStatus <;> simp

theorem AskedBoth.made_activated (h : AskedBoth cfg s₀ s w) :
    s₀.Made s saysActivated ↔ w.activationStatus = .activated := by
  unfold Inquirer.Made
  rw [h.activated]
  by_cases hstatus : w.activationStatus = .activated <;> simp [hstatus]

/-- The decision of a worker that has asked the network only. -/
theorem Checked.networkSettled (h : Checked s₀ s w) (hunasked : AuthServiceUnasked cfg s₀ s)
    (hexit : w'.exitOnNoNetwork = !w.internetConnectStatus)
    (honline : w'.internetConnectStatus = w.internetConnectStatus) :
    NetworkSettled cfg s₀ s w' where
  exits_iff := by
    have hno : cfg.whoamiSupportEnabled = true → ¬ s₀.Made s asksAuthService := by
      intro hwhoami hmade
      exact absurd hmade (by rw [Inquirer.Made, (hunasked hwhoami).1]; exact Nat.lt_irrefl _)
    rw [h.made_online, hexit, Bool.not_eq_true', Bool.not_eq_true]
    exact ⟨fun hoffline => ⟨hoffline, fun hwhoami hmade => absurd hmade (hno hwhoami)⟩, And.left⟩
  online_iff := by rw [h.made_online, honline]
  checks := h.checks

/-- The decision of a worker that has asked the AuthService, too. -/
theorem AskedBoth.networkSettled (h : AskedBoth cfg s₀ s w)
    (hexit : w'.exitOnNoNetwork =
      (!w.internetConnectStatus && w.activationStatus == .activated))
    (honline : w'.internetConnectStatus = w.internetConnectStatus) :
    NetworkSettled cfg s₀ s w' where
  exits_iff := by
    rw [h.made_online, h.made_activated, hexit, Bool.and_eq_true, Bool.not_eq_true',
      Bool.not_eq_true, beq_iff_eq]
    exact and_congr_right fun _ => ⟨fun hstatus _ _ => hstatus, fun hall => hall h.whoami h.asked⟩
  online_iff := by rw [h.made_online, honline]
  checks := h.checks

/-- The worker asks, or the next statement depends on what it has been told. -/
def WorkerPc.inquires : WorkerPc → Bool
  | .eraseTasks | .checkActivation | .checkNetwork | .checkActivated | .knowWhoAmI
  | .branchContext => true
  | _ => false

/-- A statement that asks nothing. -/
theorem Prepared.statement {sys : Sys} {e : Effect} (h : Prepared cfg s₀ s w)
    (hstep : WorkerStep cfg sys w (.worker w') e) (hasks : w.pc.inquires = false) :
    Prepared cfg s₀ s w' := by
  have fresh {pc : WorkerPc} {delay : Bool} (h : Fresh cfg s₀ s w) :
      Fresh cfg s₀ s { w with pc := pc, delayMaintenanceStarted := delay } :=
    ⟨h.exit, h.offline, h.online, h.checks, h.unasked⟩
  cases hstep with
  | lockWai hpc | delay hpc =>
    simp only [Prepared, hpc] at h
    exact fresh h
  | noDelay hpc =>
    simp only [Prepared, hpc] at h
    exact fun _ => fresh h
  | lockStarted hpc | notifyStarted hpc =>
    simp only [Prepared, hpc] at h
    exact fun hdelay => fresh (h hdelay)
  | unlockStarted hpc hdelay =>
    simp only [Prepared, hpc] at h
    exact fresh (h hdelay)
  | eraseThenActivation hpc | eraseThenNetwork hpc | activationProceed hpc | activationStop hpc
  | checkNetwork hpc | checkActivated hpc | knowWhoAmI hpc | contextWanted hpc
  | contextKnown hpc =>
    rw [hpc] at hasks
    cases hasks
  | whoAmI hpc _ hwhoami =>
    simp only [Prepared, hpc] at h
    exact ⟨hwhoami, ⟨h.1.exit, h.1.online, h.1.checks⟩, h.2⟩
  | noWhoAmI hpc =>
    simp only [Prepared, hpc] at h
    exact h.1.networkSettled h.2 rfl rfl
  | listenContext hpc | contextMissing hpc | waitContext hpc | wakeContext hpc =>
    simp only [Prepared, hpc] at h
    obtain ⟨⟨⟨hexit, honline, hchecks⟩, hwhoami, hasked, hactivated⟩, hstatus⟩ := h
    exact ⟨⟨⟨hexit, honline, hchecks⟩, hwhoami, hasked, hactivated⟩, hstatus⟩
  | contextSet hpc =>
    simp only [Prepared, hpc] at h
    refine h.1.networkSettled ?_ rfl
    simp [h.1.exit, h.2]
  | startDelayed hpc _ hdelay =>
    intro hno
    rw [show w.delayMaintenanceStarted = false from hno] at hdelay
    cases hdelay
  | _ => trivial

/-! ## The statements that ask -/

theorem AuthServiceUnasked.of_asks (h : AuthServiceUnasked cfg s₀ s) (hasks : Asks callsign s s')
    (hc : callsign ≠ .authService) : AuthServiceUnasked cfg s₀ s' := by
  intro hwhoami
  rw [hasks.count_asksAuthService hc, hasks.count_saysActivated hc]
  exact h hwhoami

/-- A device without WhoAmI support asks the AuthService first. -/
theorem Fresh.of_asks (h : Fresh cfg s₀ s w) (hasks : Asks .authService s s')
    (hwhoami : cfg.whoamiSupportEnabled = false) : Fresh cfg s₀ s' w where
  exit := h.exit
  offline := h.offline
  online := (hasks.count_saysOnline (by decide)).trans h.online
  checks := (hasks.count_asksNetwork (by decide)).trans h.checks
  unasked hwhoami' := absurd (hwhoami.symm.trans hwhoami') Bool.false_ne_true

theorem Fresh.isDeviceOnline (h : Fresh cfg s₀ s w) (hexit : w'.exitOnNoNetwork = false)
    (honline : w'.internetConnectStatus = (isDeviceOnline f s).2) :
    Checked s₀ (isDeviceOnline f s).1 w' ∧ AuthServiceUnasked cfg s₀ (isDeviceOnline f s).1 := by
  obtain ⟨hnoted, hchecks⟩ := isDeviceOnline_count (f := f) (s := s)
  rw [h.online, ← honline] at hnoted
  rw [h.checks] at hchecks
  exact ⟨⟨hexit, hnoted, hchecks⟩, h.unasked.of_asks isDeviceOnline_asks (by decide)⟩

theorem Checked.of_asks (h : Checked s₀ s w) (hasks : Asks callsign s s')
    (hc : callsign ≠ .network) : Checked s₀ s' w where
  exit := h.exit
  online := (hasks.count_saysOnline hc).trans h.online
  checks := (hasks.count_asksNetwork hc).le.trans h.checks

theorem Checked.checkActivatedStatus (h : Checked s₀ s w) (hunasked : AuthServiceUnasked cfg s₀ s)
    (hwhoami : cfg.whoamiSupportEnabled = true) {pc : WorkerPc} :
    AskedBoth cfg s₀ (checkActivatedStatus f s).1
      { w with pc := pc, activationStatus := .ofText (checkActivatedStatus f s).2 } where
  toChecked :=
    have hchecked := h.of_asks (checkActivatedStatus_asks (f := f)) (by decide)
    ⟨hchecked.exit, hchecked.online, hchecked.checks⟩
  whoami := hwhoami
  asked := by
    rw [Inquirer.Made, ← (hunasked hwhoami).1]
    exact checkActivatedStatus_count.1
  activated := by
    rw [checkActivatedStatus_count.2, (hunasked hwhoami).2]

theorem AskedBoth.of_asks (h : AskedBoth cfg s₀ s w) (hasks : Asks .secManager s s') :
    AskedBoth cfg s₀ s' w where
  toChecked := h.toChecked.of_asks hasks (by decide)
  whoami := h.whoami
  asked := by
    rw [Inquirer.Made, hasks.count_asksAuthService (by decide)]
    exact h.asked
  activated := (hasks.count_saysActivated (by decide)).trans h.activated

/-- One statement of the worker. -/
theorem Prepared.step {sys : Sys} {c : Choice} {e : Effect} (h : Prepared cfg s₀ s w)
    (hask : inquire f n w s = some (s', c))
    (hstep : taskExecutionThread cfg sys w c = some (.worker w', e)) : Prepared cfg s₀ s' w' := by
  cases hpc : w.pc with
  | eraseTasks =>
    simp only [inquire, hpc, Option.some.injEq, Prod.mk.injEq] at hask
    obtain ⟨rfl, rfl⟩ := hask
    simp only [Prepared, hpc] at h
    simp only [taskExecutionThread, hpc] at hstep
    split at hstep
    case isTrue hbranch =>
      cases hstep
      rw [Bool.and_eq_true, Bool.not_eq_true'] at hbranch
      exact ⟨hbranch.1, h.exit, h.offline, h.online, h.checks, h.unasked⟩
    case isFalse =>
      cases hstep
      exact ⟨h.exit, h.offline, h.online, h.checks, h.unasked⟩
  | checkActivation =>
    simp only [inquire, hpc, Option.some.injEq, Prod.mk.injEq] at hask
    obtain ⟨rfl, rfl⟩ := hask
    simp only [Prepared, hpc] at h
    have hfresh := h.2.of_asks (checkActivatedStatus_asks (f := f)) h.1
    simp only [taskExecutionThread, hpc] at hstep
    cases hproceed : (getActivatedStatus (.ofText (checkActivatedStatus f s).2)).1 with
    | true =>
      simp only [hproceed] at hstep
      cases hstep
      exact ⟨hfresh.exit, hfresh.offline, hfresh.online, hfresh.checks, hfresh.unasked⟩
    | false =>
      simp only [hproceed] at hstep
      cases hstep
      have hchecked := hfresh.checked
      exact ⟨⟨hchecked.exit, hchecked.online, hchecked.checks⟩, hfresh.unasked⟩
  | checkNetwork =>
    simp only [inquire, hpc, Option.some.injEq, Prod.mk.injEq] at hask
    obtain ⟨rfl, rfl⟩ := hask
    simp only [Prepared, hpc] at h
    simp only [taskExecutionThread, hpc] at hstep
    cases hstep
    exact h.isDeviceOnline h.exit rfl
  | checkActivated =>
    simp only [inquire, hpc, Option.some.injEq, Prod.mk.injEq] at hask
    obtain ⟨rfl, rfl⟩ := hask
    simp only [Prepared, hpc] at h
    simp only [taskExecutionThread, hpc] at hstep
    cases hstep
    exact h.2.1.checkActivatedStatus h.2.2 h.1
  | knowWhoAmI =>
    simp only [inquire, hpc, Option.map_eq_some_iff, Prod.mk.injEq] at hask
    obtain ⟨known, -, rfl, rfl⟩ := hask
    simp only [Prepared, hpc] at h
    have hasks : Asks .secManager s (knowWhoAmI f w.activationStatus n s).1 := knowWhoAmI_asks
    have hasked := h.of_asks hasks
    simp only [taskExecutionThread, hpc] at hstep
    cases hstep
    exact ⟨⟨hasked.exit, hasked.online, hasked.checks⟩, hasked.whoami, hasked.asked,
      hasked.activated⟩
  | branchContext =>
    simp only [inquire, hpc, Option.some.injEq, Prod.mk.injEq] at hask
    obtain ⟨rfl, rfl⟩ := hask
    simp only [Prepared, hpc] at h
    simp only [taskExecutionThread, hpc, branchContext] at hstep
    split at hstep
    case isTrue hwanted =>
      cases hstep
      exact ⟨⟨⟨h.exit, h.online, h.checks⟩, h.whoami, h.asked, h.activated⟩, hwanted.2⟩
    case isFalse =>
      cases hstep
      exact h.networkSettled rfl rfl
  | _ =>
    simp only [inquire, hpc, Option.some.injEq, Prod.mk.injEq] at hask
    obtain ⟨rfl, rfl⟩ := hask
    exact h.statement (taskExecutionThread_step hstep) (by rw [hpc]; rfl)

/-- The worker leaves its cycle for lack of a network exactly when no check since the cycle began
has found the device online and, if the AuthService was asked because the device wants to know
who it is, the device is activated. There are at most five checks. -/
theorem networkSettled_of_prepares (h : Prepares f cfg (Worker.create cfg) s₀ w s)
    (hpc : w.pc = .branchExit) : NetworkSettled cfg s₀ s w := by
  have hprepared : Prepared cfg s₀ s w := by
    clear hpc
    induction h with
    | refl => exact ⟨rfl, rfl, rfl, rfl, fun _ => ⟨rfl, rfl⟩⟩
    | tail _ hask hstep ih => exact ih.step hask hstep
  simpa only [Prepared, hpc] using hprepared

/-- The worker's statements one after another, the shared state being `sys` at each. -/
def prepareFor (f : Framework) (cfg : Config) (sys : Sys) (n : ℕ) :
    ℕ → Worker → Inquirer → Option (Worker × Inquirer)
  | 0, w, s => some (w, s)
  | k + 1, w, s => (inquire f n w s).bind fun p =>
      match taskExecutionThread cfg sys w p.2 with
      | some (.worker w', _) => prepareFor f cfg sys n k w' p.1
      | _ => none

theorem prepares_of_prepareFor {sys : Sys} (h : Prepares f cfg w₀ s₀ w s)
    (hrun : prepareFor f cfg sys n k w s = some (w', s')) : Prepares f cfg w₀ s₀ w' s' := by
  induction k generalizing w s with
  | zero =>
    cases hrun
    exact h
  | succ k ih =>
    obtain ⟨⟨s₁, c⟩, hask, hrest⟩ := Option.bind_eq_some_iff.mp hrun
    split at hrest
    case h_1 w₁ e hstep => exact ih (.tail h hask hstep) hrest
    case h_2 => cases hrest

/-- Every plugin is active, and there is no connection to the internet. -/
def noConnection : Framework where
  getServiceState _ _ := some .activated
  subscribe _ _ := true
  isConnectedToInternet _ := some (some false)
  queryIAuthService _ := true
  getActivationStatus _ := some "activated".toList
  getDeviceInitializationContext _ := ⟨none, none⟩
  services _ := ⟨fun _ => .success, true, []⟩
  maintenanceType _ := .unsolicited

theorem networkSettled_of_prepares_noConnection : ∃ w s,
    Prepares noConnection (device true false) (Worker.create (device true false)) {} w s ∧
      w.pc = .branchExit ∧ w.exitOnNoNetwork = true ∧ s.count asksNetwork = 5 ∧
      NetworkSettled (device true false) {} s w := by
  have hrun : (prepareFor noConnection (device true false)
      (maintenanceManagerOnBootup (device true false) true) 1 8 (Worker.create (device true false))
      {}).any (fun p => p.1.pc == .branchExit && p.1.exitOnNoNetwork &&
        p.2.count asksNetwork == 5) = true := by
    decide +kernel
  obtain ⟨hsome, htest⟩ := (Option.any_eq_true_iff_get _ _).mp hrun
  have hprepares := prepares_of_prepareFor .refl (Option.some_get hsome).symm
  simp only [Bool.and_eq_true, beq_iff_eq] at htest
  obtain ⟨⟨hpc, hexit⟩, hcount⟩ := htest
  exact ⟨_, _, hprepares, hpc, hexit, hcount, networkSettled_of_prepares hprepares hpc⟩

end SoftwareUpdate.MaintenanceManager
