import Mathlib.Algebra.Group.Int.Defs
import Mathlib.Algebra.Group.Nat.Defs
import SoftwareUpdate.Misc.TransitionSystem

/-!
# `JsonRpcInterface` as a transition system

Requests and responses of `JsonRpcInterface.h`. Every call of `sendRequest` has a request of its
own, so a call is known by the id of its request. The calls and the messages that come in share
the map `responseToPromise_`, which every step reads or changes under `responseMutex_`. What the
JSON library reads in a message is part of the message.
-/

namespace SoftwareUpdate.WebSockets

open Misc

/-- A message, as the JSON library reads it: the fields that `onMessage` asks for, and those of the
`Response` that `processResponse` reads from the same text. -/
structure Message where
  isJson : Bool
  hasMethod : Bool
  hasId : Bool
  idIsNumber : Bool
  /-- `json["id"].Number()` -/
  number : ℤ
  /-- `deviceResponse.isValid()` -/
  isValid : Bool
  /-- `deviceResponse.getId()` -/
  responseId : ℕ
  /-- `deviceResponse.isResult()` -/
  isResult : Bool
  /-- The parameter `success` of the result, when there is one. -/
  success : Option Bool
  deriving DecidableEq, Repr

/-- `onMessage` hands the message to `handleResponse`: it has an id that is a number, and no
method. -/
def Message.isResponse (m : Message) : Bool :=
  m.isJson && m.hasId && !m.hasMethod && m.idIsNumber

/-- A JSON number as the `uint32_t` argument of `handleResponse`. -/
def toUint32 (number : ℤ) : ℕ := (number % 2 ^ 32).toNat

/-- `std::future_status`. -/
inductive FutureStatus where
  | ready
  | timeout
  | deferred
  deriving DecidableEq, Repr

/-- Where a call of `sendRequest` is. -/
inductive Call where
  | notStarted
  /-- No request with the id is being processed. -/
  | checked
  /-- The promise is in the map. -/
  | created
  /-- The request is sent, and the call waits for the future. -/
  | sent
  /-- The call is about to remove the promise, and then to process the response if there is one. -/
  | removing (response : Option Message)
  | processing (response : Message)
  /-- The call has returned, with the response that it has processed. -/
  | returned (result : Bool) (response : Option Message)
  deriving DecidableEq, Repr

inductive Event where
  /-- `createFutureResponse` has put a promise for the id into the map. -/
  | created (id : ℕ)
  /-- `handleResponse` is called with the id. -/
  | arrived (id : ℕ)
  /-- `set_value` is called on the promise for the id. -/
  | setValue (id : ℕ)
  deriving DecidableEq, Repr

/-- A promise in the map: the message it is fulfilled with, if it is. -/
abbrev Promise := Option Message

/-- The map, the calls, and the events, the latest first. -/
structure State where
  responseToPromise : ℕ → Option Promise
  calls : ℕ → Call
  history : List Event

namespace State

def setCall (s : State) (id : ℕ) (c : Call) : State :=
  { s with calls := fun i => if i = id then c else s.calls i }

def setPromise (s : State) (id : ℕ) (p : Option Promise) : State :=
  { s with responseToPromise := fun i => if i = id then p else s.responseToPromise i }

def record (s : State) (e : Event) : State := { s with history := e :: s.history }

/-- `isRequestProcessingOngoing`. -/
def isRequestProcessingOngoing (s : State) (id : ℕ) : Bool := (s.responseToPromise id).isSome

/-- `createFutureResponse`; the call goes on when there is no promise for the id yet. -/
def createFutureResponse (s : State) (id : ℕ) : State :=
  match s.responseToPromise id with
  | some _ => s.setCall id (.returned false none)
  | none => ((s.setPromise id (some none)).setCall id .created).record (.created id)

/-- `handleResponse`. On a promise that is fulfilled `set_value` throws. -/
def handleResponse (s : State) (id : ℕ) (m : Message) : State :=
  match s.responseToPromise id with
  | none => s.record (.arrived id)
  | some none => ((s.record (.arrived id)).setPromise id (some (some m))).record (.setValue id)
  | some (some _) => (s.record (.arrived id)).record (.setValue id)

/-- `onMessage`. A request from the other side, a message whose id is no number and a notification
change nothing here. -/
def onMessage (s : State) (m : Message) : State :=
  if m.isResponse then s.handleResponse (toUint32 m.number) m else s

/-- `wait_for`: the future is ready when the promise is fulfilled, and the wait times out when it is
not. -/
def wake (s : State) (id : ℕ) : FutureStatus → Option State
  | .ready =>
      match s.responseToPromise id with
      | some (some m) => some (s.setCall id (.removing (some m)))
      | _ => none
  | .timeout =>
      match s.responseToPromise id with
      | some none => some (s.setCall id (.removing none))
      | _ => none
  | .deferred => some (s.setCall id (.removing none))

end State

/-- `processResponse`: the `success` of a valid response with the id of the request. -/
def processResponse (id : ℕ) (m : Message) : Bool :=
  if m.isValid && m.responseId == id then m.isResult && m.success.getD false else false

/-- A step of a call, or a message. -/
inductive Action where
  | sendRequest (id : ℕ)
  | createFutureResponse (id : ℕ)
  | send (id : ℕ) (sent : Bool)
  | wake (id : ℕ) (status : FutureStatus)
  | removePromise (id : ℕ)
  | processResponse (id : ℕ)
  | onMessage (m : Message)
  deriving DecidableEq, Repr

namespace State

def step (s : State) : Action → Option State
  | .sendRequest id =>
      match s.calls id with
      | .notStarted =>
          if id < 2 ^ 32 then
            if s.isRequestProcessingOngoing id then some (s.setCall id (.returned false none))
            else some (s.setCall id .checked)
          else none
      | _ => none
  | .createFutureResponse id =>
      match s.calls id with
      | .checked => some (s.createFutureResponse id)
      | _ => none
  | .send id sent =>
      match s.calls id with
      | .created => some (s.setCall id (if sent then .sent else .removing none))
      | _ => none
  | .wake id status =>
      match s.calls id with
      | .sent => s.wake id status
      | _ => none
  | .removePromise id =>
      match s.calls id with
      | .removing (some m) => some ((s.setPromise id none).setCall id (.processing m))
      | .removing none => some ((s.setPromise id none).setCall id (.returned false none))
      | _ => none
  | .processResponse id =>
      match s.calls id with
      | .processing m => some (s.setCall id (.returned (WebSockets.processResponse id m) (some m)))
      | _ => none
  | .onMessage m => some (s.onMessage m)

/-- No call has begun. -/
def start : State := ⟨fun _ => none, fun _ => .notStarted, []⟩

end State

/-- The calls and the messages in any order. -/
def system : TransitionSystem State Action where
  init := fun s => s = State.start
  step := State.step

end SoftwareUpdate.WebSockets
