import SoftwareUpdate.Misc.Attempts
import SoftwareUpdate.MaintenanceManager.DeviceContext
import SoftwareUpdate.MaintenanceManager.Worker

/-!
# What the worker asks other plugins

Before it runs its tasks, `task_execution_thread` asks the Network plugin whether the device is
online, the AuthService whether it is activated, and SecManager who it is. Each question may
be repeated after a sleep. What the others answer is a parameter, and may depend on everything
asked so far; the questions are recorded with their answers.
-/

namespace SoftwareUpdate.MaintenanceManager

open Helpers Misc

/-- The plugins that are asked. -/
inductive Callsign where
  | network
  | authService
  | secManager
  deriving DecidableEq, Repr

/-- `PluginHost::IShell::state`. -/
inductive ShellState where
  | unavailable
  | activated
  | other (code : ℕ)
  deriving DecidableEq, Repr

/-- The answer to `getDeviceInitializationContext`: the labels `success` and
`deviceInitializationContext`, when they are there. -/
structure ContextAnswer where
  success : Option Bool
  context : Option JsonObject

/-- A question with its answer, or a sleep. There is no answer when the call fails. -/
inductive Inquiry where
  | getServiceState (callsign : Callsign) (state : Option ShellState)
  | subscribe (callsign : Callsign) (subscribed : Bool)
  /-- The label `connectedToInternet` may be absent from the answer. -/
  | isConnectedToInternet (answer : Option (Option Bool))
  | queryIAuthService (found : Bool)
  | getActivationStatus (status : Option Text)
  | getDeviceInitializationContext (answer : ContextAnswer)
  | setDeviceInitializationContext (written : Written) (setDone : Bool)
  | sleep (seconds : ℕ)

/-- What the rest of the device answers, given all inquiries before, newest first.
`g_maintenance_type` is there too, because other threads may set it meanwhile. -/
structure Framework where
  getServiceState : List Inquiry → Callsign → Option ShellState
  subscribe : List Inquiry → Callsign → Bool
  isConnectedToInternet : List Inquiry → Option (Option Bool)
  queryIAuthService : List Inquiry → Bool
  getActivationStatus : List Inquiry → Option Text
  getDeviceInitializationContext : List Inquiry → ContextAnswer
  services : List Inquiry → Services
  maintenanceType : List Inquiry → MaintenanceType

/-- The data members that the inquiries use, and what has been asked, newest first;
`authservicePlugin` says whether `m_authservicePlugin` is set. -/
structure Inquirer where
  subscribedForNwevents : Bool := false
  subscribedForDeviceContextUpdate : Bool := false
  authservicePlugin : Bool := false
  history : List Inquiry := []

def Inquirer.record (s : Inquirer) (x : Inquiry) : Inquirer := { s with history := x :: s.history }

@[simp] theorem Inquirer.record_history (s : Inquirer) (x : Inquiry) :
    (s.record x).history = x :: s.history := rfl

variable (f : Framework)

/-- `getServiceState`, and whether it finds the plugin activated. -/
def isActive (callsign : Callsign) (s : Inquirer) : Inquirer × Bool :=
  let state := f.getServiceState s.history callsign
  (s.record (.getServiceState callsign state), state == some .activated)

/-! ## The network -/

def MAX_NETWORK_RETRIES : ℕ := 4

def NETWORK_RETRY_INTERVAL : ℕ := 30

/-- `subscribeForInternetStatusEvent`, and what is made of its result. -/
def subscribeForInternetStatusEvent (s : Inquirer) : Inquirer :=
  let subscribed := f.subscribe s.history .network
  { s.record (.subscribe .network subscribed) with
    subscribedForNwevents := s.subscribedForNwevents || subscribed }

/-- What `checkNetwork` does when the Network plugin is active. -/
def askNetwork (s : Inquirer) : Inquirer × Bool :=
  let s :=
    if f.maintenanceType s.history = .unsolicited ∧ s.subscribedForNwevents = false then
      subscribeForInternetStatusEvent f s
    else s
  let answer := f.isConnectedToInternet s.history
  (s.record (.isConnectedToInternet answer), answer == some (some true))

def checkNetwork (s : Inquirer) : Inquirer × Bool :=
  let (s, active) := isActive f .network s
  if active then askNetwork f s else (s, false)

/-- One turn of the loop of `isDeviceOnline`. -/
def retryNetwork (s : Inquirer) : Inquirer × Option Unit :=
  let (s, networkAvailable) := checkNetwork f (s.record (.sleep NETWORK_RETRY_INTERVAL))
  (s, if networkAvailable then some () else none)

def isDeviceOnline (s : Inquirer) : Inquirer × Bool :=
  let (s, networkAvailable) := checkNetwork f s
  if networkAvailable then (s, true)
  else
    let (s, available) := tryUpTo (retryNetwork f) MAX_NETWORK_RETRIES s
    (s, available.isSome)

/-! ## The activation status -/

def MAX_ACTIVATION_RETRIES : ℕ := 4

/-- The known strings of `getActivatedStatus`; `knowWhoAmI` asks for `"activated"` only. -/
def ActivationStatus.ofText (status : Text) : ActivationStatus :=
  if status = "activation-connect".toList then .activationConnect
  else if status = "activation-ready".toList then .activationReady
  else if status = "not-activated".toList then .notActivated
  else if status = "activation-disconnect".toList then .activationDisconnect
  else if status = "activated".toList then .activated
  else .invalid

/-- `queryIAuthService`, which keeps the interface it has got. -/
def queryIAuthService (s : Inquirer) : Inquirer × Bool :=
  if s.authservicePlugin then (s, true)
  else
    let found := f.queryIAuthService s.history
    ({ s.record (.queryIAuthService found) with authservicePlugin := found }, found)

/-- One turn of the `do` loop of `checkActivatedStatus`. -/
def retryActivation (s : Inquirer) : Inquirer × Option Unit :=
  let (s, active) := isActive f .authService s
  if active then (s, some ()) else (s.record (.sleep 10), none)

/-- The part of `checkActivatedStatus` that waits for the AuthService. `state` is ACTIVATED
behind the loop only when the loop has been left by its `break`. -/
def awaitAuthService (s : Inquirer) : Inquirer × Bool :=
  let (s, active) := isActive f .authService s
  if active then (s, true)
  else
    let (s, now) := tryUpTo (retryActivation f) MAX_ACTIVATION_RETRIES s
    (s, now.isSome)

def checkActivatedStatus (s : Inquirer) : Inquirer × Text :=
  let retStatus := "invalid".toList
  let (s, active) := awaitAuthService f s
  if active then
    let (s, found) := queryIAuthService f s
    if found then
      let status := f.getActivationStatus s.history
      (s.record (.getActivationStatus status), status.getD retStatus)
    else (s, retStatus)
  else (s, retStatus)

/-! ## Who the device is -/

def SECMGR_RETRY_INTERVAL : ℕ := 5

def subscribeToDeviceInitializationEvent (s : Inquirer) : Inquirer :=
  let subscribed := f.subscribe s.history .secManager
  { s.record (.subscribe .secManager subscribed) with
    subscribedForDeviceContextUpdate := subscribed }

/-- What `Initialize` asks. -/
def inquireOnInitialize (whoamiSupportEnabled : Bool) (s : Inquirer) : Inquirer :=
  if whoamiSupportEnabled then subscribeToDeviceInitializationEvent f s else s

/-- `setDeviceInitializationContext`; the AuthService is asked for only to take the partner
id. -/
def setContext (context : JsonObject) (s : Inquirer) : Inquirer × Bool :=
  let services := f.services s.history
  let (s, found) :=
    if labelString services context ContextKey.partnerId.label ≠ [] then queryIAuthService f s
    else (s, false)
  let (written, setDone) :=
    setDeviceInitializationContext { services with authService := found } context
  (s.record (.setDeviceInitializationContext written setDone), setDone)

/-- What `knowWhoAmI` does when SecManager is active. -/
def askSecManager (s : Inquirer) : Inquirer × Bool :=
  let answer := f.getDeviceInitializationContext s.history
  let s := s.record (.getDeviceInitializationContext answer)
  let (s, success) :=
    if answer.success = some true then
      match answer.context with
      | some context => setContext f context s
      | none => (s, false)
    else (s, false)
  (if s.subscribedForDeviceContextUpdate then s else subscribeToDeviceInitializationEvent f s,
    success)

/-- One turn of the loop of `knowWhoAmI`. -/
def askWhoAmI (activationStatus : ActivationStatus) (s : Inquirer) : Inquirer × Option Bool :=
  let (s, active) := isActive f .secManager s
  if active then
    let (s, success) := askSecManager f s
    (s, some success)
  else
    let s := { s with subscribedForDeviceContextUpdate := false }
    if activationStatus ≠ .activated then (s.record (.sleep SECMGR_RETRY_INTERVAL), none)
    else (s, some false)

/-- `knowWhoAmI` after up to `n` turns of its loop, which has no limit: `none` while it goes
on. -/
def knowWhoAmI (activationStatus : ActivationStatus) (n : ℕ) (s : Inquirer) :
    Inquirer × Option Bool :=
  tryUpTo (askWhoAmI f activationStatus) n s

/-! ## The worker -/

/-- What the worker's next statement asks, and what it is told: `n` bounds the turns of
`knowWhoAmI`. -/
def inquire (n : ℕ) (w : Worker) (s : Inquirer) : Option (Inquirer × Choice) :=
  match w.pc with
  | .checkActivation | .checkActivated =>
      let (s, status) := checkActivatedStatus f s
      some (s, { activation := .ofText status })
  | .checkNetwork =>
      let (s, internetConnectStatus) := isDeviceOnline f s
      some (s, { answer := internetConnectStatus })
  | .knowWhoAmI =>
      let (s, whoAmIStatus) := knowWhoAmI f w.activationStatus n s
      whoAmIStatus.map fun status => (s, { answer := status })
  | _ => some (s, {})

/-- The worker's own statements, one after another, while the other threads may do anything to
the shared state in between. -/
inductive Prepares (cfg : Config) (w₀ : Worker) (s₀ : Inquirer) : Worker → Inquirer → Prop
  | refl : Prepares cfg w₀ s₀ w₀ s₀
  | tail {w w' : Worker} {s s' : Inquirer} {sys : Sys} {n : ℕ} {c : Choice} {e : Effect} :
      Prepares cfg w₀ s₀ w s → inquire f n w s = some (s', c) →
      taskExecutionThread cfg sys w c = some (.worker w', e) → Prepares cfg w₀ s₀ w' s'

end SoftwareUpdate.MaintenanceManager
