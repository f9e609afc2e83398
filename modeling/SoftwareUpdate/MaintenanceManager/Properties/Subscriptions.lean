import Mathlib.Order.Nat
import SoftwareUpdate.MaintenanceManager.Inquiries
import SoftwareUpdate.Misc.History

/-!
# The events of other plugins, and the answer of SecManager

The worker subscribes to the events of the Network plugin and of SecManager. Over any sequence
of inquiries the flags say whether it is subscribed, and it never subscribes while it is; to
SecManager it subscribes again after it has found it inactive, to the Network plugin it does
not.
-/

namespace SoftwareUpdate.MaintenanceManager

open Helpers Misc Misc.History

variable {f : Framework} {s s' : Inquirer} {callsign : Callsign} {status : ActivationStatus}
  {x : Inquiry} {b : Bool} {n : ℕ}

/-- The events of the plugin have been subscribed to. -/
def Inquiry.subscribes (callsign : Callsign) : Inquiry → Bool
  | subscribe c subscribed => c == callsign && subscribed
  | _ => false

/-- The subscription to the plugin's events is taken for lost: SecManager was not active. -/
def Inquiry.unsubscribes (callsign : Callsign) : Inquiry → Bool
  | getServiceState c state => callsign == .secManager && c == callsign && state != some .activated
  | _ => false

open Inquiry

/-- The flag of the plugin. -/
def Inquirer.subscribedFor (s : Inquirer) : Callsign → Bool
  | .network => s.subscribedForNwevents
  | .authService => false
  | .secManager => s.subscribedForDeviceContextUpdate

/-- There is a subscription to the events of the plugin that is not taken for lost. -/
def subscribed (callsign : Callsign) (history : List Inquiry) : Bool :=
  since (unsubscribes callsign) (subscribes callsign) history

/-- The flags tell of the subscriptions, and none was made while there was one. -/
structure SubscribedOnce (s : Inquirer) : Prop where
  flags : ∀ callsign, s.subscribedFor callsign = subscribed callsign s.history
  once : ∀ callsign result earlier, subscribe callsign result :: earlier <:+ s.history →
    subscribed callsign earlier = false

/-- All that a plugin asks, `Initialize` first and then its workers one after another. -/
inductive Inquires (f : Framework) : Inquirer → Prop
  | start (whoamiSupportEnabled : Bool) : Inquires f (inquireOnInitialize f whoamiSupportEnabled {})
  | isDeviceOnline {s : Inquirer} (h : Inquires f s) : Inquires f (isDeviceOnline f s).1
  | checkActivatedStatus {s : Inquirer} (h : Inquires f s) :
      Inquires f (checkActivatedStatus f s).1
  | knowWhoAmI {s : Inquirer} (h : Inquires f s) (status : ActivationStatus) (n : ℕ) :
      Inquires f (knowWhoAmI f status n s).1

/-! ## One inquiry -/

/-- The inquiry neither makes nor loses a subscription. -/
def Inquiry.isPlain : Inquiry → Bool
  | subscribe _ _ => false
  | getServiceState .secManager state => state == some .activated
  | _ => true

theorem subscribed_cons : subscribed callsign (x :: s.history) =
    (!x.unsubscribes callsign && (x.subscribes callsign || subscribed callsign s.history)) :=
  rfl

theorem subscribed_of_isPlain (hx : x.isPlain = true) :
    subscribed callsign (x :: s.history) = subscribed callsign s.history := by
  rw [subscribed_cons]
  cases x with
  | subscribe => cases hx
  | getServiceState c state =>
    cases c <;> cases callsign <;> first | rfl | skip
    obtain rfl : state = some .activated := by simpa [isPlain] using hx
    rfl
  | _ => rfl

theorem SubscribedOnce.of_isPlain (h : SubscribedOnce s) (hx : x.isPlain = true)
    (hhistory : s'.history = x :: s.history)
    (hflags : ∀ callsign, s'.subscribedFor callsign = s.subscribedFor callsign) :
    SubscribedOnce s' where
  flags callsign := by rw [hflags, h.flags, hhistory, subscribed_of_isPlain hx]
  once callsign result earlier hsuffix := by
    rw [hhistory] at hsuffix
    rcases List.suffix_cons_iff.mp hsuffix with heq | hsuffix
    · cases heq
      cases hx
    · exact h.once callsign result earlier hsuffix

theorem SubscribedOnce.record (h : SubscribedOnce s) (hx : x.isPlain = true) :
    SubscribedOnce (s.record x) :=
  h.of_isPlain hx rfl fun callsign => by cases callsign <;> rfl

/-- A subscription is made where there is none. -/
theorem SubscribedOnce.subscribe (h : SubscribedOnce s) (callsign : Callsign)
    (hno : s.subscribedFor callsign = false)
    (hhistory : s'.history = .subscribe callsign b :: s.history)
    (hflag : s'.subscribedFor callsign = b)
    (hother : ∀ c, c ≠ callsign → s'.subscribedFor c = s.subscribedFor c) : SubscribedOnce s' where
  flags c := by
    rw [hhistory, subscribed_cons]
    by_cases hc : c = callsign
    · subst hc
      rw [hflag, ← h.flags, hno]
      cases b <;> simp [subscribes, unsubscribes]
    · rw [hother c hc, h.flags]
      simp [subscribes, unsubscribes, Ne.symm hc]
  once c result earlier hsuffix := by
    rw [hhistory] at hsuffix
    rcases List.suffix_cons_iff.mp hsuffix with heq | hsuffix
    · cases heq
      rw [← h.flags]
      exact hno
    · exact h.once c result earlier hsuffix

/-! ## The network and the AuthService -/

theorem subscribedOnce_isActive (h : SubscribedOnce s) (callsign : Callsign)
    (hc : callsign = .secManager → (isActive f callsign s).2 = true) :
    SubscribedOnce (isActive f callsign s).1 := by
  apply h.record
  cases callsign with
  | secManager => exact hc rfl
  | _ => rfl

theorem subscribedOnce_askNetwork (h : SubscribedOnce s) :
    SubscribedOnce (askNetwork f s).1 := by
  have hanswered {s' : Inquirer} {answer : Option (Option Bool)} (h' : SubscribedOnce s') :
      SubscribedOnce (s'.record (.isConnectedToInternet answer)) := h'.record rfl
  apply hanswered
  split
  case isTrue hsub =>
    refine h.subscribe .network hsub.2 rfl ?_ ?_
    · simp [subscribeForInternetStatusEvent, Inquirer.subscribedFor, hsub.2]
    · intro c hc
      cases c with
      | network => exact absurd rfl hc
      | _ => rfl
  case isFalse => exact h

theorem subscribedOnce_checkNetwork (h : SubscribedOnce s) :
    SubscribedOnce (checkNetwork f s).1 := by
  have hactive := subscribedOnce_isActive (f := f) h .network nofun
  simp only [checkNetwork]
  split
  · exact subscribedOnce_askNetwork hactive
  · exact hactive

theorem subscribedOnce_isDeviceOnline (h : SubscribedOnce s) :
    SubscribedOnce (isDeviceOnline f s).1 := by
  simp only [isDeviceOnline]
  split
  · exact subscribedOnce_checkNetwork h
  · refine tryUpTo_induct (I := fun _ s' => SubscribedOnce s') (Q := fun s' _ => SubscribedOnce s')
      (subscribedOnce_checkNetwork h) ?_ ?_ fun _ h => h
    all_goals
      intro k s' _ h _
      exact subscribedOnce_checkNetwork (h.record (x := .sleep NETWORK_RETRY_INTERVAL) rfl)

theorem subscribedOnce_queryIAuthService (h : SubscribedOnce s) :
    SubscribedOnce (queryIAuthService f s).1 := by
  unfold queryIAuthService
  split
  · exact h
  · exact h.of_isPlain (x := .queryIAuthService (f.queryIAuthService s.history)) rfl rfl
      fun c => by cases c <;> rfl

theorem subscribedOnce_retryActivation (h : SubscribedOnce s) :
    SubscribedOnce (retryActivation f s).1 := by
  have hactive := subscribedOnce_isActive (f := f) h .authService nofun
  simp only [retryActivation]
  split
  · exact hactive
  · exact hactive.record (x := .sleep 10) rfl

theorem subscribedOnce_checkActivatedStatus (h : SubscribedOnce s) :
    SubscribedOnce (checkActivatedStatus f s).1 := by
  have hawait : SubscribedOnce (awaitAuthService f s).1 := by
    have hactive := subscribedOnce_isActive (f := f) h .authService nofun
    simp only [awaitAuthService]
    split
    · exact hactive
    · refine tryUpTo_induct (I := fun _ s' => SubscribedOnce s')
        (Q := fun s' _ => SubscribedOnce s') hactive ?_ ?_ fun _ h => h
      all_goals
        intro k s' _ h _
        exact subscribedOnce_retryActivation h
  simp only [checkActivatedStatus]
  split
  · split
    · exact (subscribedOnce_queryIAuthService hawait).record (x := .getActivationStatus _) rfl
    · exact subscribedOnce_queryIAuthService hawait
  · exact hawait

/-! ## SecManager -/

theorem subscribedOnce_setContext {context : JsonObject} (h : SubscribedOnce s) :
    SubscribedOnce (setContext f context s).1 := by
  have hset {s' : Inquirer} {written : Written} {setDone : Bool} (h' : SubscribedOnce s') :
      SubscribedOnce (s'.record (.setDeviceInitializationContext written setDone)) := h'.record rfl
  simp only [setContext]
  apply hset
  split
  · exact subscribedOnce_queryIAuthService h
  · exact h

theorem subscribedOnce_subscribeToDeviceInitializationEvent (h : SubscribedOnce s)
    (hno : s.subscribedForDeviceContextUpdate = false) :
    SubscribedOnce (subscribeToDeviceInitializationEvent f s) := by
  refine h.subscribe .secManager hno rfl rfl ?_
  intro c hc
  cases c with
  | secManager => exact absurd rfl hc
  | _ => rfl

theorem subscribedOnce_inquireOnInitialize : SubscribedOnce (inquireOnInitialize f b {}) := by
  have hempty : SubscribedOnce {} := by
    refine ⟨fun callsign => by cases callsign <;> rfl, ?_⟩
    intro callsign result earlier hsuffix
    cases List.suffix_nil.mp hsuffix
  unfold inquireOnInitialize
  split
  · exact subscribedOnce_subscribeToDeviceInitializationEvent hempty rfl
  · exact hempty

theorem subscribedOnce_askSecManager (h : SubscribedOnce s) :
    SubscribedOnce (askSecManager f s).1 := by
  have hsub {s' : Inquirer} (h' : SubscribedOnce s') : SubscribedOnce
      (if s'.subscribedForDeviceContextUpdate then s'
        else subscribeToDeviceInitializationEvent f s') := by
    split
    case isTrue => exact h'
    case isFalse hno =>
      exact subscribedOnce_subscribeToDeviceInitializationEvent h' (Bool.not_eq_true _ ▸ hno)
  have hasked := h.record (x := .getDeviceInitializationContext
    (f.getDeviceInitializationContext s.history)) rfl
  simp only [askSecManager]
  apply hsub
  split
  · split
    · exact subscribedOnce_setContext hasked
    · exact hasked
  · exact hasked

/-- SecManager is found inactive, and the flag is cleared. -/
theorem subscribedOnce_inactive (h : SubscribedOnce s)
    (hinactive : ¬ (isActive f .secManager s).2 = true) :
    SubscribedOnce { (isActive f .secManager s).1 with
      subscribedForDeviceContextUpdate := false } where
  flags c := by
    have hstate : f.getServiceState s.history .secManager ≠ some .activated := by
      simpa [isActive] using hinactive
    have hcons : subscribed c (.getServiceState .secManager
        (f.getServiceState s.history .secManager) :: s.history) =
          (c != .secManager && subscribed c s.history) := by
      rw [subscribed_cons]
      cases c with
      | secManager => simp [unsubscribes, hstate]
      | _ => rfl
    have hflags := h.flags c
    cases c with
    | secManager => exact hcons.symm
    | _ => exact hflags.trans hcons.symm
  once c result earlier hsuffix := by
    rcases List.suffix_cons_iff.mp hsuffix with heq | hsuffix
    · cases heq
    · exact h.once c result earlier hsuffix

theorem subscribedOnce_askWhoAmI (h : SubscribedOnce s) :
    SubscribedOnce (askWhoAmI f status s).1 := by
  simp only [askWhoAmI]
  split
  case isTrue hactive =>
    exact subscribedOnce_askSecManager (subscribedOnce_isActive h .secManager fun _ => hactive)
  case isFalse hinactive =>
    split
    · exact (subscribedOnce_inactive h hinactive).record (x := .sleep SECMGR_RETRY_INTERVAL) rfl
    · exact subscribedOnce_inactive h hinactive

/-- Over all inquiries of a plugin, a subscription to the events of another plugin is made only
when there is none, or when SecManager has been found inactive since. -/
theorem subscribedOnce_of_inquires (h : Inquires f s) : SubscribedOnce s := by
  induction h with
  | start whoamiSupportEnabled => exact subscribedOnce_inquireOnInitialize
  | isDeviceOnline _ ih => exact subscribedOnce_isDeviceOnline ih
  | checkActivatedStatus _ ih => exact subscribedOnce_checkActivatedStatus ih
  | knowWhoAmI _ status n ih =>
    refine tryUpTo_induct (I := fun _ s' => SubscribedOnce s')
      (Q := fun s' _ => SubscribedOnce s') ih ?_ ?_ fun _ h => h
    all_goals
      intro k s' _ h _
      exact subscribedOnce_askWhoAmI h

/-- Every plugin is active, but SecManager is found restarting now and then. -/
def restartingSecManager : Framework where
  getServiceState history callsign :=
    if callsign = .secManager ∧ history.length % 3 = 0 then none else some .activated
  subscribe _ _ := true
  isConnectedToInternet _ := some (some true)
  queryIAuthService _ := true
  getActivationStatus _ := some "activated".toList
  getDeviceInitializationContext _ := ⟨none, none⟩
  services _ := ⟨fun _ => .success, true, []⟩
  maintenanceType _ := .unsolicited

/-- SecManager restarts between two calls of `knowWhoAmI`. -/
theorem subscribedOnce_of_inquires_restarting : ∃ s, Inquires restartingSecManager s ∧
    s.history.countP (subscribes .secManager) = 2 ∧ s.history.countP (subscribes .network) = 1 ∧
      SubscribedOnce s := by
  have hasked := (Inquires.start (f := restartingSecManager) true).knowWhoAmI .notActivated 2
  have hrun := (hasked.knowWhoAmI .notActivated 2).isDeviceOnline
  exact ⟨_, hrun, by decide +kernel, by decide +kernel, subscribedOnce_of_inquires hrun⟩

end SoftwareUpdate.MaintenanceManager
