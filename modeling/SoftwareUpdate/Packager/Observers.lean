import Mathlib.Data.List.Basic
import SoftwareUpdate.Misc.TransitionSystem

/-!
# The observers of the Packager

`Register`, `Unregister` and the two passes over the observers, as seen by the thread that
holds `_adminLock`, with what the observers do from inside their callbacks. The lock can be
taken again by its owner, so a callback that registers or unregisters gets through to the
vector that a pass is iterating over. A range-for keeps two iterators of the vector: after
`push_back` or `erase` the end iterator is invalid, and what the loop does with it is undefined.
-/

namespace SoftwareUpdate.Packager.Observers

open Misc

/-- The functions of `INotification`. -/
inductive Callback where
  | stateChange
  | repositorySynchronize
  deriving DecidableEq, Repr

/-- What happens to observers: `called` is a callback by a pass. -/
inductive Event where
  | addRef (observer : ℕ)
  | release (observer : ℕ)
  | pushBack (observer : ℕ)
  | erase (observer : ℕ)
  | stateChange (observer : ℕ)
  | passBegin (callback : Callback)
  | called (callback : Callback) (observer : ℕ)
  | passEnd (callback : Callback)
  deriving DecidableEq, Repr

/-- Where a range-for is: at the test, or in the callback of the observer at `position`. -/
inductive PassPc where
  | test
  | callback
  deriving DecidableEq, Repr

/-- A function that has been entered and has not returned: a pass, with the position of its
iterator, or a `Register` that is in the callback of the new observer. -/
inductive Frame where
  | pass (callback : Callback) (pc : PassPc) (position : ℕ) (valid : Bool)
  | register (observer : ℕ)
  deriving DecidableEq, Repr

/-- The code of an observer runs on top of the frame. -/
def Frame.inCallback : Frame → Bool
  | pass _ .test _ _ => false
  | pass _ .callback _ _ => true
  | register _ => true

def Frame.isPass : Frame → Bool
  | pass .. => true
  | register _ => false

/-- The frame after `push_back` or `erase`. -/
def Frame.invalidate : Frame → Frame
  | pass callback pc position _ => pass callback pc position false
  | register observer => register observer

/-- `_notifications`, whether `_inProgress.Install` is set, the functions entered, innermost
first, and what has happened, newest first. -/
structure State where
  notifications : List ℕ := []
  inProgress : Bool := false
  frames : List Frame := []
  undefinedBehaviour : Bool := false
  log : List Event := []
  deriving DecidableEq, Repr

/-- What the holder of the lock does: it takes the next step of the function it is in (the
loop, or the return of a callback), or it calls a function. -/
inductive Action where
  | next
  | register (observer : ℕ)
  | unregister (observer : ℕ)
  | notifyStateChange
  | notifyRepoSynced
  | recordInstall
  | clearInstall
  deriving DecidableEq, Repr

/-- Code outside the Packager runs. -/
def State.mayCall (s : State) : Bool :=
  match s.frames with
  | [] => true
  | f :: _ => f.inCallback

/-- A pass is under way. -/
def State.inPass (s : State) : Bool := s.frames.any Frame.isPass

/-- `Register`. -/
def register (s : State) (observer : ℕ) : State :=
  let s := { s with
    notifications := s.notifications ++ [observer]
    frames := s.frames.map Frame.invalidate
    log := .pushBack observer :: .addRef observer :: s.log }
  if s.inProgress then
    { s with frames := .register observer :: s.frames, log := .stateChange observer :: s.log }
  else
    s

/-- `Unregister`; without an item the end iterator is dereferenced. -/
def unregister (s : State) (observer : ℕ) : State :=
  if observer ∈ s.notifications then
    { s with
      notifications := s.notifications.erase observer
      frames := s.frames.map Frame.invalidate
      log := .erase observer :: .release observer :: s.log }
  else
    { s with undefinedBehaviour := true }

/-- `NotifyStateChange` and `NotifyRepoSynced` up to the first test of the loop. -/
def notify (s : State) (callback : Callback) : State :=
  { s with frames := [.pass callback .test 0 true], log := .passBegin callback :: s.log }

/-- The next step of the innermost function. -/
def next (s : State) : Option State :=
  match s.frames with
  | [] => none
  | .register _ :: outer => some { s with frames := outer }
  | .pass callback .callback position valid :: outer =>
      some { s with frames := .pass callback .test (position + 1) valid :: outer }
  | .pass callback .test position valid :: outer =>
      if valid then
        match s.notifications[position]? with
        | some observer => some { s with
            frames := .pass callback .callback position valid :: outer
            log := .called callback observer :: s.log }
        | none => some { s with frames := outer, log := .passEnd callback :: s.log }
      else
        some { s with undefinedBehaviour := true }

def step (s : State) (a : Action) : Option State :=
  if s.undefinedBehaviour then none
  else
    match a with
    | .next => next s
    | .register observer => if s.mayCall then some (register s observer) else none
    | .unregister observer => if s.mayCall then some (unregister s observer) else none
    | .notifyStateChange =>
        if s.frames = [] ∧ s.inProgress then some (notify s .stateChange) else none
    | .notifyRepoSynced => if s.frames = [] then some (notify s .repositorySynchronize) else none
    | .recordInstall => if s.mayCall then some { s with inProgress := true } else none
    | .clearInstall => if s.frames = [] then some { s with inProgress := false } else none

def observers : TransitionSystem State Action where
  init s := s = {}
  step := step

end SoftwareUpdate.Packager.Observers
