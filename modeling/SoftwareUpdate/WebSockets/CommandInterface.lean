import SoftwareUpdate.Helpers.CSettings
import SoftwareUpdate.Misc.TransitionSystem

/-!
# `CommandInterface` as a transition system

The calls of `sendCommand` and the event loop, which hands the messages to `onMessage`, share
`lastResponse_` under `responseMutex_`. A step is one statement of one of them. A call inside
`wait_for` is a waiter until it is notified, until its five seconds are over, or until it wakes up
for no reason.
-/

namespace SoftwareUpdate.WebSockets.CommandInterface

open Helpers Misc

/-- The next statement of a call of `sendCommand`. -/
inductive Call where
  | notStarted
  | send (command : Text)
  | lock
  | waitFor
  /-- The end of `wait_for`, which locks the mutex again. -/
  | relock
  | read
  | unlock (response : Text)
  /-- The response of a call that has returned `true`, `none` for one that has returned `false`. -/
  | returned (response : Option Text)
  deriving DecidableEq, Repr

/-- The next statement of `onMessage`. -/
inductive EventLoop where
  | idle
  | lock (message : Text)
  | store (message : Text)
  | notify
  | unlock
  deriving DecidableEq, Repr

inductive Thread where
  | call (i : ℕ)
  | eventLoop
  deriving DecidableEq, Repr

/-- `websocketpp::frame::opcode::value`, as far as it is compared with `opcode_`. -/
inductive Opcode where
  | text
  | binary
  | other
  deriving DecidableEq, Repr

inductive Event where
  | sent (i : ℕ)
  | received (message : Text)
  | notified (i : ℕ)
  | read (i : ℕ) (response : Text)
  deriving DecidableEq, Repr

/-- The members, the calls, and the events, the latest first. -/
structure State where
  responseMutex : Option Thread
  lastResponse : Text
  waiters : List ℕ
  calls : ℕ → Call
  eventLoop : EventLoop
  history : List Event

/-- `WSEndpoint::send`; `sent` says whether the endpoint takes the message. -/
def send (message : Text) (sent : Bool) : Bool := !message.isEmpty && sent

namespace State

def setCall (s : State) (i : ℕ) (c : Call) : State :=
  { s with calls := fun j => if j = i then c else s.calls j }

def record (s : State) (e : Event) : State := { s with history := e :: s.history }

def lock (s : State) (t : Thread) : Option State :=
  if s.responseMutex = none then some { s with responseMutex := some t } else none

def unlock (s : State) : State := { s with responseMutex := none }

def wait (s : State) (i : ℕ) : State := { s with waiters := i :: s.waiters }

def wake (s : State) (i : ℕ) : State := { s with waiters := s.waiters.filter (· ≠ i) }

def setEventLoop (s : State) (l : EventLoop) : State := { s with eventLoop := l }

/-- The statements of `sendCommand`. -/
def sendCommand (s : State) (i : ℕ) (sent : Bool) : Call → Option State
  | .notStarted | .returned _ => none
  | .send command =>
      if send command sent then some ((s.record (.sent i)).setCall i .lock)
      else some (s.setCall i (.returned none))
  | .lock => (s.lock (.call i)).map fun s' => s'.setCall i .waitFor
  | .waitFor => some ((s.unlock.wait i).setCall i .relock)
  | .relock =>
      if i ∈ s.waiters then none else (s.lock (.call i)).map fun s' => s'.setCall i .read
  | .read => some ((s.record (.read i s.lastResponse)).setCall i (.unlock s.lastResponse))
  | .unlock response => some (s.unlock.setCall i (.returned (some response)))

/-- The statements of `onMessage`. `notify_one` wakes one of the waiters when there are any. -/
def onMessage (s : State) (woken : Option ℕ) : EventLoop → Option State
  | .idle => none
  | .lock message => (s.lock .eventLoop).map fun s' => s'.setEventLoop (.store message)
  | .store message =>
      some (({ s with lastResponse := message }.record (.received message)).setEventLoop .notify)
  | .notify =>
      match woken with
      | some i =>
          if i ∈ s.waiters then some (((s.wake i).record (.notified i)).setEventLoop .unlock)
          else none
      | none => if s.waiters = [] then some (s.setEventLoop .unlock) else none
  | .unlock => some (s.unlock.setEventLoop .idle)

end State

inductive Action where
  /-- A call of `sendCommand` begins. -/
  | call (i : ℕ) (command : Text)
  /-- The next statement of a call. -/
  | run (i : ℕ) (sent : Bool)
  /-- The five seconds are over, or the wake-up is a spurious one. -/
  | wakeUp (i : ℕ)
  /-- A message comes in; `WSEndpoint::onMessage` drops what is no text. -/
  | message (opcode : Opcode) (payload : Text)
  /-- The next statement of the event loop. -/
  | onMessage (woken : Option ℕ)
  deriving DecidableEq, Repr

namespace State

def step (s : State) : Action → Option State
  | .call i command =>
      match s.calls i with
      | .notStarted => some (s.setCall i (.send command))
      | _ => none
  | .run i sent => s.sendCommand i sent (s.calls i)
  | .wakeUp i => if i ∈ s.waiters then some (s.wake i) else none
  | .message opcode payload =>
      match s.eventLoop with
      | .idle => some (if opcode = .text then s.setEventLoop (.lock payload) else s)
      | _ => none
  | .onMessage woken => s.onMessage woken s.eventLoop

def start : State := ⟨none, [], [], fun _ => .notStarted, .idle, []⟩

end State

/-- The calls and the event loop in any order. -/
def system : TransitionSystem State Action where
  init := fun s => s = State.start
  step := State.step

end SoftwareUpdate.WebSockets.CommandInterface
