import SoftwareUpdate.Misc.Ownership
import SoftwareUpdate.WebSockets.CommandInterface

/-!
# What a command is answered with

`sendCommand` waits without a predicate and then takes whatever `lastResponse_` holds. In every run
that is the message that was received last, at some moment between the sending and the return; only
for a call that was notified, not for one that has waited its five seconds, is it a message received
since the command was sent. No call waits for ever.
-/

namespace SoftwareUpdate.WebSockets.CommandInterface

open Helpers Misc

variable {s s' s₁ : State} {a : Action} {i j : ℕ} {c : Call} {l : EventLoop} {t : Thread}
  {es between history : List Event} {response : Text}

/-- The message received last; before the first one the member is empty. -/
def lastReceived : List Event → Text
  | .received message :: _ => message
  | _ :: earlier => lastReceived earlier
  | [] => []

def Receives (between : List Event) : Prop := ∃ message, .received message ∈ between

/-- This has happened since the command was sent. When the call was notified, a message was
received. -/
structure SentBefore (between : List Event) (i : ℕ) (history : List Event) : Prop where
  history : ∃ earlier, history = between ++ .sent i :: earlier
  notified : .notified i ∈ between → Receives between

/-- The call has read the message that was the last one then. -/
def Answered (history : List Event) (i : ℕ) (response : Text) : Prop :=
  ∃ later between earlier, history = later ++ .read i response :: earlier ∧
    response = lastReceived earlier ∧ SentBefore between i earlier

/-! ## One call -/

/-- What is true when the call is about to execute the statement. -/
def Call.Ok (s : State) (i : ℕ) : Call → Prop
  | .notStarted | .send _ | .returned none => True
  | .lock | .waitFor | .read => ∃ between, SentBefore between i s.history
  | .relock => ∃ between, SentBefore between i s.history ∧
      (i ∈ s.waiters → s.eventLoop = .notify → Receives between)
  | .unlock response | .returned (some response) => Answered s.history i response

theorem Receives.append (h : Receives between) : Receives (es ++ between) := by
  obtain ⟨message, hmem⟩ := h
  exact ⟨message, List.mem_append_right es hmem⟩

theorem SentBefore.append (h : SentBefore between i history)
    (hes : .notified i ∈ es → Receives between) : SentBefore (es ++ between) i (es ++ history) := by
  obtain ⟨⟨earlier, rfl⟩, hnotified⟩ := h
  refine ⟨⟨earlier, (List.append_assoc ..).symm⟩, fun hmem => ?_⟩
  rcases List.mem_append.mp hmem with hmem | hmem
  · exact (hes hmem).append
  · exact (hnotified hmem).append

theorem Answered.append (h : Answered history i response) :
    Answered (es ++ history) i response := by
  obtain ⟨later, between, earlier, rfl, hresponse, hsent⟩ := h
  exact ⟨es ++ later, between, earlier, (List.append_assoc ..).symm, hresponse, hsent⟩

/-- A step of another thread. -/
theorem Call.Ok.keep (h : c.Ok s i) (es : List Event) (hhistory : s'.history = es ++ s.history)
    (hes : .notified i ∉ es) (hwait : i ∈ s'.waiters → s'.eventLoop = .notify →
      i ∈ s.waiters ∧ s.eventLoop = .notify ∨ Receives es) : c.Ok s' i := by
  have hnot {b : List Event} : .notified i ∈ es → Receives b := fun hmem => absurd hmem hes
  cases c with
  | notStarted | send command => trivial
  | lock | waitFor | read =>
    obtain ⟨between, hsent⟩ := h
    exact ⟨es ++ between, hhistory ▸ hsent.append hnot⟩
  | relock =>
    obtain ⟨between, hsent, hreceives⟩ := h
    refine ⟨es ++ between, hhistory ▸ hsent.append hnot, fun hin hloop => ?_⟩
    rcases hwait hin hloop with ⟨hin, hloop⟩ | ⟨message, hmem⟩
    · exact (hreceives hin hloop).append
    · exact ⟨message, List.mem_append_left between hmem⟩
  | unlock response =>
    have hanswered : Answered (es ++ s.history) i response := Answered.append h
    rwa [← hhistory] at hanswered
  | returned response =>
    cases response with
    | none => trivial
    | some response =>
      have hanswered : Answered (es ++ s.history) i response := Answered.append h
      rwa [← hhistory] at hanswered

/-! ## The mutex -/

def Call.holds : Call → Bool
  | .waitFor | .read | .unlock _ => true
  | _ => false

def EventLoop.holds : EventLoop → Bool
  | .store _ | .notify | .unlock => true
  | _ => false

def State.holds (s : State) : Thread → Bool
  | .call i => (s.calls i).holds
  | .eventLoop => s.eventLoop.holds

def State.owner (s : State) : Unit → Option Thread := fun _ => s.responseMutex

/-- The recorded owner of the mutex is the thread whose next statement is under the lock. -/
def State.OwnerAgrees (s : State) : Prop := Owned s.owner fun t _ => s.holds t = true

theorem State.OwnerAgrees.lock (h : s.OwnerAgrees) (hfree : s.responseMutex = none)
    (howner : s'.responseMutex = some t) (hself : s'.holds t = true)
    (hother : ∀ u, u ≠ t → s'.holds u = s.holds u) : s'.OwnerAgrees := by
  have hupdate : s'.owner = Function.update s.owner () (some t) := by
    funext m
    simp [State.owner, howner]
  rw [State.OwnerAgrees, hupdate]
  refine h.acquire hfree (fun m => ?_) fun u hu m => ?_
  · simp [hself]
  · rw [hother u hu]

theorem State.OwnerAgrees.unlock (h : s.OwnerAgrees) (hheld : s.holds t = true)
    (howner : s'.responseMutex = none) (hself : s'.holds t = false)
    (hother : ∀ u, u ≠ t → s'.holds u = s.holds u) : s'.OwnerAgrees := by
  have hupdate : s'.owner = Function.update s.owner () none := by
    funext m
    simp [State.owner, howner]
  rw [State.OwnerAgrees, hupdate]
  refine h.release hheld (fun m => ?_) fun u hu m => ?_
  · simp [hself]
  · rw [hother u hu]

theorem State.OwnerAgrees.keep (h : s.OwnerAgrees) (howner : s'.responseMutex = s.responseMutex)
    (hholds : ∀ u, s'.holds u = s.holds u) : s'.OwnerAgrees := by
  have hsame : s'.owner = s.owner := by
    funext m
    exact howner
  rw [State.OwnerAgrees, hsame]
  exact h.congr fun u _ => by rw [hholds u]

/-! ## The invariant -/

structure State.Ok (s : State) : Prop where
  owner : s.OwnerAgrees
  lastResponse : s.lastResponse = lastReceived s.history
  waiting : ∀ i ∈ s.waiters, s.calls i = .relock
  calls : ∀ i, (s.calls i).Ok s i

theorem ok_start : State.start.Ok where
  owner := by
    intro m t
    cases t <;> simp [State.owner, State.start, State.holds, Call.holds, EventLoop.holds]
  lastResponse := rfl
  waiting := fun i hi => absurd hi List.not_mem_nil
  calls := fun i => trivial

/-- The event is one of a call that sends or reads. -/
def Event.ofCall (i : ℕ) : Event → Prop
  | .sent j | .read j _ => j = i
  | _ => False

theorem lastReceived_append (hes : ∀ e ∈ es, e.ofCall i) :
    lastReceived (es ++ history) = lastReceived history := by
  induction es with
  | nil => rfl
  | cons e es ih =>
    have hrest := ih fun e' he' => hes e' (List.mem_cons_of_mem e he')
    have he := hes e (List.mem_cons_self ..)
    cases e with
    | sent j | read j response => exact hrest
    | received message | notified j => exact he.elim

theorem calls_setCall_self : (s.setCall i c).calls i = c := if_pos rfl

theorem calls_setCall_of_ne (hj : j ≠ i) : (s.setCall i c).calls j = s.calls j := if_neg hj

theorem holds_setCall_self : (s.setCall i c).holds (.call i) = c.holds := by
  simp [State.holds, State.setCall]

theorem holds_setCall_of_ne (hcalls : s₁.calls = s.calls) (hloop : s₁.eventLoop = s.eventLoop)
    (ht : t ≠ .call i) : (s₁.setCall i c).holds t = s.holds t := by
  cases t with
  | eventLoop => exact congrArg EventLoop.holds hloop
  | call j =>
    have hj : j ≠ i := fun hj => ht (by rw [hj])
    simp [State.holds, State.setCall, hj, hcalls]

/-- What a step of a call has to show. -/
theorem State.Ok.ofCall (h : s.Ok) (es : List Event) (hcalls : s₁.calls = s.calls)
    (howner : (s₁.setCall i c).OwnerAgrees) (hlast : s₁.lastResponse = s.lastResponse)
    (hloop : s₁.eventLoop = s.eventLoop) (hhistory : s₁.history = es ++ s.history)
    (hes : ∀ e ∈ es, e.ofCall i) (hwaiters : ∀ j, j ≠ i → j ∈ s₁.waiters → j ∈ s.waiters)
    (hwaiting : i ∈ s₁.waiters → c = .relock) (hself : c.Ok s₁ i) : (s₁.setCall i c).Ok where
  owner := howner
  lastResponse := by
    change s₁.lastResponse = lastReceived s₁.history
    rw [hlast, h.lastResponse, hhistory, lastReceived_append hes]
  waiting := by
    intro j hj
    by_cases hji : j = i
    · subst hji
      exact calls_setCall_self.trans (hwaiting hj)
    · rw [calls_setCall_of_ne hji, hcalls]
      exact h.waiting j (hwaiters j hji hj)
  calls := by
    intro j
    by_cases hji : j = i
    · subst hji
      rw [calls_setCall_self]
      exact hself
    · have hnot : .notified j ∉ es := fun hmem => hes _ hmem
      have hkept : (s.calls j).Ok s₁ j := by
        refine (h.calls j).keep es hhistory hnot fun hin hnotify => .inl ?_
        exact ⟨hwaiters j hji hin, hloop ▸ hnotify⟩
      rw [calls_setCall_of_ne hji, hcalls]
      exact hkept

/-- A statement that neither locks nor unlocks. -/
theorem State.Ok.owner_setCall (h : s.Ok) (hcalls : s₁.calls = s.calls)
    (hloop : s₁.eventLoop = s.eventLoop) (howner : s₁.responseMutex = s.responseMutex)
    (hholds : c.holds = (s.calls i).holds) : (s₁.setCall i c).OwnerAgrees := by
  refine h.owner.keep howner fun u => ?_
  by_cases hu : u = .call i
  · rw [hu, holds_setCall_self, hholds]
    rfl
  · exact holds_setCall_of_ne hcalls hloop hu

theorem State.Ok.owner_lock (h : s.Ok) (hfree : s.responseMutex = none) (hholds : c.holds = true) :
    ({ s with responseMutex := some (.call i) }.setCall i c).OwnerAgrees :=
  h.owner.lock hfree rfl (holds_setCall_self.trans hholds) fun _ hu =>
    holds_setCall_of_ne rfl rfl hu

theorem State.Ok.owner_unlock (h : s.Ok) (hcalls : s₁.calls = s.calls)
    (hloop : s₁.eventLoop = s.eventLoop) (howner : s₁.responseMutex = none)
    (hheld : (s.calls i).holds = true) (hholds : c.holds = false) :
    (s₁.setCall i c).OwnerAgrees :=
  h.owner.unlock (t := .call i) hheld howner (holds_setCall_self.trans hholds) fun _ hu =>
    holds_setCall_of_ne hcalls hloop hu

/-- A call that holds the mutex keeps the event loop from notifying. -/
theorem State.Ok.not_notify (h : s.Ok) (hheld : (s.calls i).holds = true) :
    s.eventLoop ≠ .notify := by
  intro hnotify
  have hloop : s.holds .eventLoop = true := by rw [State.holds, hnotify, EventLoop.holds]
  exact Thread.noConfusion (h.owner.unique (m := ()) (t := .call i) hheld hloop)

/-- The statements of `sendCommand`. -/
theorem State.Ok.sendCommand (h : s.Ok) {sent : Bool}
    (hstep : s.sendCommand i sent (s.calls i) = some s') : s'.Ok := by
  have hok := h.calls i
  have hin : s.calls i ≠ .relock → i ∉ s.waiters := fun hne hi => hne (h.waiting i hi)
  cases hc : s.calls i with
  | notStarted | returned response =>
    rw [hc] at hstep
    cases hstep
  | send command =>
    rw [hc] at hin hstep
    replace hin := hin nofun
    rw [State.sendCommand] at hstep
    split at hstep <;> obtain rfl := Option.some.inj hstep
    · refine h.ofCall [.sent i] rfl (h.owner_setCall rfl rfl rfl ?_) rfl rfl rfl ?_
        (fun j _ hj => hj) (fun hi => absurd hi hin) ?_
      · rw [hc]
        rfl
      · simp [Event.ofCall]
      · exact ⟨[], ⟨s.history, rfl⟩, fun hmem => absurd hmem List.not_mem_nil⟩
    · refine h.ofCall [] rfl (h.owner_setCall rfl rfl rfl ?_) rfl rfl rfl ?_
        (fun j _ hj => hj) (fun hi => absurd hi hin) trivial
      · rw [hc]
        rfl
      · simp
  | lock =>
    rw [hc] at hin hok hstep
    replace hin := hin nofun
    rw [State.sendCommand, State.lock] at hstep
    split at hstep
    case isFalse => cases hstep
    case isTrue hfree =>
      obtain rfl := Option.some.inj hstep
      exact h.ofCall [] rfl (h.owner_lock hfree rfl) rfl rfl rfl (by simp)
        (fun j _ hj => hj) (fun hi => absurd hi hin) hok
  | waitFor =>
    have hheld : (s.calls i).holds = true := by rw [hc]; rfl
    have hnotify := h.not_notify hheld
    rw [hc] at hok hstep
    obtain rfl := Option.some.inj hstep
    obtain ⟨between, hsent⟩ := hok
    refine h.ofCall [] rfl (h.owner_unlock rfl rfl rfl hheld rfl) rfl rfl rfl (by simp) ?_
      (fun _ => rfl) ⟨between, hsent, fun _ hloop => absurd hloop hnotify⟩
    intro j hji hj
    exact (List.mem_cons.mp hj).resolve_left hji
  | relock =>
    rw [hc] at hok hstep
    rw [State.sendCommand] at hstep
    split at hstep
    case isTrue => cases hstep
    case isFalse hwaits =>
      rw [State.lock] at hstep
      split at hstep
      case isFalse => cases hstep
      case isTrue hfree =>
        obtain rfl := Option.some.inj hstep
        obtain ⟨between, hsent, -⟩ := hok
        exact h.ofCall [] rfl (h.owner_lock hfree rfl) rfl rfl rfl (by simp)
          (fun j _ hj => hj) (fun hi => absurd hi hwaits) ⟨between, hsent⟩
  | read =>
    rw [hc] at hin hok hstep
    replace hin := hin nofun
    obtain rfl := Option.some.inj hstep
    obtain ⟨between, hsent⟩ := hok
    refine h.ofCall [.read i s.lastResponse] rfl (h.owner_setCall rfl rfl rfl ?_) rfl rfl
      rfl ?_ (fun j _ hj => hj) (fun hi => absurd hi hin) ?_
    · rw [hc]
      rfl
    · simp [Event.ofCall]
    · exact ⟨[], between, s.history, rfl, h.lastResponse, hsent⟩
  | unlock response =>
    have hheld : (s.calls i).holds = true := by rw [hc]; rfl
    rw [hc] at hin hok hstep
    replace hin := hin nofun
    obtain rfl := Option.some.inj hstep
    exact h.ofCall [] rfl (h.owner_unlock rfl rfl rfl hheld rfl) rfl rfl rfl (by simp)
      (fun j _ hj => hj) (fun hi => absurd hi hin) hok

theorem holds_of_calls (hcalls : s'.calls = s.calls) (ht : t ≠ .eventLoop) :
    s'.holds t = s.holds t := by
  cases t with
  | eventLoop => exact absurd rfl ht
  | call j => rw [State.holds, State.holds, hcalls]

/-- What a step that leaves the calls as they are has to show. -/
theorem State.Ok.ofLoop (h : s.Ok) (howner : s'.OwnerAgrees)
    (hlast : s'.lastResponse = lastReceived s'.history) (hcalls : s'.calls = s.calls)
    (hwaiters : ∀ j ∈ s'.waiters, j ∈ s.waiters) (hok : ∀ j, (s.calls j).Ok s' j) : s'.Ok where
  owner := howner
  lastResponse := hlast
  waiting := fun j hj => hcalls ▸ h.waiting j (hwaiters j hj)
  calls := fun j => hcalls ▸ hok j

/-- Nothing has happened. -/
theorem Call.Ok.quiet (h : c.Ok s i) (hhistory : s'.history = s.history)
    (hwait : i ∈ s'.waiters → s'.eventLoop = .notify → i ∈ s.waiters ∧ s.eventLoop = .notify) :
    c.Ok s' i :=
  h.keep [] hhistory List.not_mem_nil fun hi hloop => .inl (hwait hi hloop)

/-- The statements of `onMessage`. -/
theorem State.Ok.onMessage (h : s.Ok) {woken : Option ℕ}
    (hstep : s.onMessage woken s.eventLoop = some s') : s'.Ok := by
  cases hl : s.eventLoop with
  | idle =>
    rw [hl] at hstep
    cases hstep
  | lock message =>
    rw [hl, State.onMessage, State.lock] at hstep
    split at hstep
    case isFalse => cases hstep
    case isTrue hfree =>
      obtain rfl := Option.some.inj hstep
      refine h.ofLoop ?_ h.lastResponse rfl (fun j hj => hj) fun j => ?_
      · exact h.owner.lock (t := .eventLoop) hfree rfl rfl fun u hu => holds_of_calls rfl hu
      · exact (h.calls j).quiet rfl fun _ hloop => nomatch hloop
  | store message =>
    rw [hl] at hstep
    obtain rfl := Option.some.inj hstep
    refine h.ofLoop ?_ rfl rfl (fun j hj => hj) fun j => ?_
    · refine h.owner.keep rfl fun u => ?_
      by_cases hu : u = .eventLoop
      · rw [hu, State.holds, State.holds, hl]
        rfl
      · exact holds_of_calls rfl hu
    · exact (h.calls j).keep [.received message] rfl (by simp) fun _ _ =>
        .inr ⟨message, List.mem_singleton_self _⟩
  | notify =>
    have howner (s₁ : State) (hcalls : s₁.calls = s.calls)
        (howner : s₁.responseMutex = s.responseMutex) : (s₁.setEventLoop .unlock).OwnerAgrees := by
      refine h.owner.keep howner fun u => ?_
      by_cases hu : u = .eventLoop
      · rw [hu, State.holds, State.holds, hl]
        rfl
      · exact holds_of_calls hcalls hu
    rw [hl] at hstep
    cases woken with
    | none =>
      obtain ⟨-, hs'⟩ := Option.ite_none_right_eq_some.mp hstep
      obtain rfl := Option.some.inj hs'
      exact h.ofLoop (howner s rfl rfl) h.lastResponse rfl (fun j hj => hj) fun j =>
        (h.calls j).quiet rfl fun _ hloop => nomatch hloop
    | some i =>
      obtain ⟨hi, hs'⟩ := Option.ite_none_right_eq_some.mp hstep
      obtain rfl := Option.some.inj hs'
      refine h.ofLoop (howner _ rfl rfl) h.lastResponse rfl
        (fun j hj => List.mem_of_mem_filter hj) fun j => ?_
      by_cases hji : j = i
      · subst hji
        -- the call has been waiting since before the message was stored
        have hok := h.calls j
        rw [h.waiting j hi] at hok ⊢
        obtain ⟨between, hsent, hreceives⟩ := hok
        exact ⟨[.notified j] ++ between, hsent.append fun _ => hreceives hi hl,
          fun _ hloop => nomatch hloop⟩
      · exact (h.calls j).keep [.notified i] rfl (by simp [hji]) fun _ hloop =>
          nomatch hloop
  | unlock =>
    have hheld : s.holds .eventLoop = true := by rw [State.holds, hl]; rfl
    rw [hl] at hstep
    obtain rfl := Option.some.inj hstep
    refine h.ofLoop ?_ h.lastResponse rfl (fun j hj => hj) fun j => ?_
    · exact h.owner.unlock hheld rfl rfl fun u hu => holds_of_calls rfl hu
    · exact (h.calls j).quiet rfl fun _ hloop => nomatch hloop

theorem State.Ok.step (h : s.Ok) (hstep : s.step a = some s') : s'.Ok := by
  cases a with
  | run i sent => exact h.sendCommand hstep
  | onMessage woken => exact h.onMessage hstep
  | call i command =>
    rw [State.step] at hstep
    split at hstep
    case h_2 => cases hstep
    case h_1 hc =>
      obtain rfl := Option.some.inj hstep
      refine h.ofCall [] rfl (h.owner_setCall rfl rfl rfl ?_) rfl rfl rfl (by simp)
        (fun j _ hj => hj) (fun hi => ?_) trivial
      · rw [hc]
        rfl
      · have hwaits := h.waiting i hi
        rw [hc] at hwaits
        cases hwaits
  | wakeUp i =>
    obtain ⟨-, hs'⟩ := Option.ite_none_right_eq_some.mp hstep
    obtain rfl := Option.some.inj hs'
    have hsub (j : ℕ) (hj : j ∈ (s.wake i).waiters) : j ∈ s.waiters := List.mem_of_mem_filter hj
    exact h.ofLoop (h.owner.keep rfl fun _ => rfl) h.lastResponse rfl hsub fun j =>
      (h.calls j).quiet rfl fun hj hloop => ⟨hsub j hj, hloop⟩
  | message opcode payload =>
    rw [State.step] at hstep
    split at hstep
    case h_2 => cases hstep
    case h_1 hl =>
      obtain rfl := Option.some.inj hstep
      split
      case isFalse => exact h
      case isTrue =>
        refine h.ofLoop (h.owner.keep rfl fun u => ?_) h.lastResponse rfl (fun j hj => hj)
          fun j => (h.calls j).quiet rfl fun _ hloop => nomatch hloop
        by_cases hu : u = .eventLoop
        · rw [hu, State.holds, State.holds, hl]
          rfl
        · exact holds_of_calls rfl hu

theorem ok_of_reachable (h : system.Reachable s) : s.Ok :=
  h.invariant (fun _ hs => hs ▸ ok_start) fun _ _ _ _ hok hstep => hok.step hstep

/-- The last message is one of those received since the command was sent, when there are any. -/
theorem Receives.last (h : Receives between) :
    .received (lastReceived (between ++ history)) ∈ between := by
  obtain ⟨message, hmem⟩ := h
  induction between with
  | nil => exact absurd hmem List.not_mem_nil
  | cons e between ih =>
    cases e with
    | received message => exact List.mem_cons_self ..
    | sent j | notified j | read j response =>
      refine List.mem_cons_of_mem _ (ih ?_)
      simpa using hmem

/-- The response of a call that has returned `true` was the last message received at some moment
between the sending of the command and the return, and when the call was notified, it was received
after the command was sent. -/
theorem response_of_returned (h : system.Reachable s)
    (hcall : s.calls i = .returned (some response)) :
    ∃ later between earlier,
      s.history = later ++ .read i response :: (between ++ .sent i :: earlier) ∧
      response = lastReceived (between ++ .sent i :: earlier) ∧
      (.notified i ∈ between → .received response ∈ between) := by
  have hok := (ok_of_reachable h).calls i
  rw [hcall] at hok
  obtain ⟨later, between, -, hhistory, hresponse, ⟨earlier, rfl⟩, hnotified⟩ := hok
  refine ⟨later, between, earlier, hhistory, hresponse, fun hmem => ?_⟩
  rw [hresponse]
  exact (hnotified hmem).last

/-- One call is notified of its answer; the next one, which nobody answers, returns the same. -/
theorem response_of_returned_stale : ∃ s, system.Reachable s ∧
    s.calls 1 = .returned (some "on".toList) ∧ ∃ later between earlier,
      s.history = later ++ .read 1 "on".toList :: (between ++ .sent 1 :: earlier) ∧
      "on".toList = lastReceived (between ++ .sent 1 :: earlier) ∧
      (.notified 1 ∈ between → .received "on".toList ∈ between) := by
  obtain ⟨s, hs, htest⟩ := TransitionSystem.exists_reachable_of_run system State.start
    ([.call 0 "light".toList] ++ List.replicate 3 (.run 0 true) ++
      [.message .text "on".toList, .onMessage none, .onMessage none, .onMessage (some 0),
        .onMessage none] ++ List.replicate 3 (.run 0 true) ++
      [.call 1 "sound".toList] ++ List.replicate 3 (.run 1 true) ++ [.wakeUp 1] ++
      List.replicate 3 (.run 1 true))
    (fun s => s.calls 1 == .returned (some "on".toList)) rfl (by decide +kernel)
  rw [beq_iff_eq] at htest
  exact ⟨s, hs, htest, response_of_returned hs htest⟩

/-! ## No call waits for ever -/

def Call.stepsLeft : Call → ℕ
  | .notStarted | .send _ => 7
  | .lock => 6
  | .waitFor => 5
  | .relock => 3
  | .read => 2
  | .unlock _ => 1
  | .returned _ => 0

/-- How often the call can execute a statement or wake up before it is back. -/
def State.stepsLeft (s : State) (i : ℕ) : ℕ :=
  (s.calls i).stepsLeft + if i ∈ s.waiters then 1 else 0

def Action.isOf (i : ℕ) : Action → Bool
  | .run j _ | .wakeUp j => j == i
  | _ => false

/-- The thread can execute its next statement, or it is a waiter, which wakes up by itself. -/
def GoesOn (s : State) : Thread → Prop
  | .call i => ∃ a : Action, a.isOf i = true ∧ (s.step a).isSome = true
  | .eventLoop => ∃ woken, (s.step (.onMessage woken)).isSome = true

theorem stepsLeft_congr (hcalls : s'.calls = s.calls) (hwaiters : s'.waiters = s.waiters) :
    s'.stepsLeft i = s.stepsLeft i := by
  rw [State.stepsLeft, State.stepsLeft, hcalls, hwaiters]

theorem stepsLeft_setCall_self :
    (s.setCall i c).stepsLeft i = c.stepsLeft + if i ∈ s.waiters then 1 else 0 := by
  rw [State.stepsLeft, calls_setCall_self]
  rfl

theorem stepsLeft_setCall_of_ne (hj : j ≠ i) : (s.setCall i c).stepsLeft j = s.stepsLeft j := by
  rw [State.stepsLeft, calls_setCall_of_ne hj]
  rfl

theorem stepsLeft_wait_of_ne (hj : j ≠ i) : (s.wait i).stepsLeft j = s.stepsLeft j := by
  simp [State.stepsLeft, State.wait, hj]

theorem stepsLeft_wake_le : (s.wake j).stepsLeft i ≤ s.stepsLeft i := by
  simp only [State.stepsLeft, State.wake, List.mem_filter, decide_eq_true_eq]
  split <;> split <;> simp_all

theorem stepsLeft_wake_lt (hi : i ∈ s.waiters) : (s.wake i).stepsLeft i < s.stepsLeft i := by
  simp [State.stepsLeft, State.wake, hi]

/-- The call has come nearer to its return, and no other one has. -/
def Advances (s s' : State) (i : ℕ) : Prop :=
  s'.stepsLeft i < s.stepsLeft i ∧ ∀ j, j ≠ i → s'.stepsLeft j = s.stepsLeft j

theorem advances_setCall (hcalls : s₁.calls = s.calls) (hwaiters : s₁.waiters = s.waiters)
    (hlt : c.stepsLeft < (s.calls i).stepsLeft) : Advances s (s₁.setCall i c) i := by
  refine ⟨?_, fun j hj => (stepsLeft_setCall_of_ne hj).trans (stepsLeft_congr hcalls hwaiters)⟩
  rw [stepsLeft_setCall_self, hwaiters]
  exact Nat.add_lt_add_right hlt _

theorem advances_sendCommand {sent : Bool}
    (hstep : s.sendCommand i sent (s.calls i) = some s') : Advances s s' i := by
  cases hc : s.calls i with
  | notStarted | returned response =>
    rw [hc] at hstep
    cases hstep
  | send command =>
    rw [hc, State.sendCommand] at hstep
    split at hstep <;> obtain rfl := Option.some.inj hstep
    · exact advances_setCall rfl rfl (by simp [hc, Call.stepsLeft])
    · exact advances_setCall rfl rfl (by simp [hc, Call.stepsLeft])
  | lock =>
    rw [hc] at hstep
    obtain ⟨s₁, hlock, rfl⟩ := Option.map_eq_some_iff.mp hstep
    obtain ⟨-, hs₁⟩ := Option.ite_none_right_eq_some.mp hlock
    obtain rfl := Option.some.inj hs₁
    exact advances_setCall rfl rfl (by simp [hc, Call.stepsLeft])
  | waitFor =>
    rw [hc] at hstep
    obtain rfl := Option.some.inj hstep
    refine ⟨?_, fun j hj => (stepsLeft_setCall_of_ne hj).trans (stepsLeft_wait_of_ne hj)⟩
    rw [stepsLeft_setCall_self, State.stepsLeft, hc, State.wait, if_pos (List.mem_cons_self ..)]
    exact Nat.lt_add_right _ (by decide)
  | relock =>
    rw [hc] at hstep
    obtain ⟨-, hmap⟩ := Option.ite_none_left_eq_some.mp hstep
    obtain ⟨s₁, hlock, rfl⟩ := Option.map_eq_some_iff.mp hmap
    obtain ⟨-, hs₁⟩ := Option.ite_none_right_eq_some.mp hlock
    obtain rfl := Option.some.inj hs₁
    exact advances_setCall rfl rfl (by simp [hc, Call.stepsLeft])
  | read | unlock response =>
    rw [hc] at hstep
    obtain rfl := Option.some.inj hstep
    exact advances_setCall rfl rfl (by simp [hc, Call.stepsLeft])

theorem stepsLeft_onMessage {woken : Option ℕ}
    (hstep : s.onMessage woken s.eventLoop = some s') : s'.stepsLeft i ≤ s.stepsLeft i := by
  cases hl : s.eventLoop with
  | idle =>
    rw [hl] at hstep
    cases hstep
  | lock message =>
    rw [hl] at hstep
    obtain ⟨s₁, hlock, rfl⟩ := Option.map_eq_some_iff.mp hstep
    obtain ⟨-, hs₁⟩ := Option.ite_none_right_eq_some.mp hlock
    obtain rfl := Option.some.inj hs₁
    exact Nat.le_refl _
  | store message | unlock =>
    rw [hl] at hstep
    obtain rfl := Option.some.inj hstep
    exact Nat.le_refl _
  | notify =>
    rw [hl] at hstep
    cases woken with
    | none =>
      obtain ⟨-, hs'⟩ := Option.ite_none_right_eq_some.mp hstep
      obtain rfl := Option.some.inj hs'
      exact Nat.le_refl _
    | some j =>
      obtain ⟨-, hs'⟩ := Option.ite_none_right_eq_some.mp hstep
      obtain rfl := Option.some.inj hs'
      have hwake : (s.wake j).stepsLeft i ≤ s.stepsLeft i := stepsLeft_wake_le
      exact hwake

/-- Nothing sets a call back. -/
theorem stepsLeft_step (hstep : s.step a = some s') :
    (if a.isOf i then 1 else 0) + s'.stepsLeft i ≤ s.stepsLeft i := by
  cases a with
  | run j sent =>
    obtain ⟨hself, hother⟩ := advances_sendCommand hstep
    by_cases hj : j = i
    · subst hj
      simp only [Action.isOf, beq_self_eq_true, if_true]
      omega
    · simp [Action.isOf, hj, hother i (Ne.symm hj)]
  | wakeUp j =>
    obtain ⟨hin, hs'⟩ := Option.ite_none_right_eq_some.mp hstep
    obtain rfl := Option.some.inj hs'
    by_cases hj : j = i
    · subst hj
      have hlt := stepsLeft_wake_lt hin
      simp only [Action.isOf, beq_self_eq_true, if_true]
      omega
    · simpa [Action.isOf, hj] using stepsLeft_wake_le
  | call j command =>
    rw [State.step] at hstep
    split at hstep
    case h_2 => cases hstep
    case h_1 hc =>
      obtain rfl := Option.some.inj hstep
      by_cases hj : i = j
      · subst hj
        rw [stepsLeft_setCall_self, State.stepsLeft, hc]
        simp [Action.isOf, Call.stepsLeft]
      · simp [Action.isOf, stepsLeft_setCall_of_ne hj]
  | message opcode payload =>
    rw [State.step] at hstep
    split at hstep
    case h_2 => cases hstep
    case h_1 =>
      obtain rfl := Option.some.inj hstep
      have hsame : (if opcode = .text then s.setEventLoop (.lock payload) else s).stepsLeft i =
          s.stepsLeft i := by
        split <;> rfl
      simp [Action.isOf, hsame]
  | onMessage woken => simpa [Action.isOf] using stepsLeft_onMessage hstep

theorem countP_isOf_le {as : List Action} :
    ∀ {s s' : State}, system.run s as = some s' →
      as.countP (·.isOf i) + s'.stepsLeft i ≤ s.stepsLeft i := by
  induction as with
  | nil =>
    intro s s' hrun
    obtain rfl : s = s' := Option.some.inj hrun
    simp
  | cons a as ih =>
    intro s s' hrun
    rw [TransitionSystem.run_cons] at hrun
    obtain ⟨s₁, hstep, hrest⟩ := Option.bind_eq_some_iff.mp hrun
    have hafter := ih hrest
    have hone := stepsLeft_step (i := i) hstep
    rw [List.countP_cons]
    omega

/-- The owner of the mutex waits for nobody. -/
theorem State.Ok.goesOn_of_owner (h : s.Ok) (howner : s.responseMutex = some t) : GoesOn s t := by
  have hholds : s.holds t = true := (h.owner () t).mp howner
  cases t with
  | call i =>
    have hheld : (s.calls i).holds = true := hholds
    refine ⟨.run i true, beq_self_eq_true i, ?_⟩
    cases hc : s.calls i with
    | waitFor | read | unlock response => simp [State.step, hc, State.sendCommand]
    | notStarted | send command | lock | relock | returned response =>
      rw [hc] at hheld
      cases hheld
  | eventLoop =>
    have hheld : s.eventLoop.holds = true := hholds
    cases hl : s.eventLoop with
    | store message | unlock => exact ⟨none, by simp [State.step, hl, State.onMessage]⟩
    | notify =>
      cases hw : s.waiters with
      | nil => exact ⟨none, by simp [State.step, hl, State.onMessage, hw]⟩
      | cons i waiters => exact ⟨some i, by simp [State.step, hl, State.onMessage, hw]⟩
    | idle | lock message =>
      rw [hl] at hheld
      cases hheld

/-- The call is to lock the mutex. -/
theorem State.Ok.goesOn_of_lock (h : s.Ok)
    (hlock : s.responseMutex = none → (s.step (.run i true)).isSome = true) :
    GoesOn s (.call i) ∨ ∃ u, s.responseMutex = some u ∧ GoesOn s u := by
  cases howner : s.responseMutex with
  | none => exact .inl ⟨.run i true, beq_self_eq_true i, hlock howner⟩
  | some u => exact .inr ⟨u, rfl, h.goesOn_of_owner howner⟩

theorem State.Ok.goesOn (h : s.Ok) (i : ℕ) : s.calls i = .notStarted ∨
    (∃ response, s.calls i = .returned response) ∨ GoesOn s (.call i) ∨
      ∃ u, s.responseMutex = some u ∧ GoesOn s u := by
  cases hc : s.calls i with
  | notStarted => exact .inl rfl
  | returned response => exact .inr (.inl ⟨response, rfl⟩)
  | send command =>
    refine .inr (.inr (.inl ⟨.run i false, beq_self_eq_true i, ?_⟩))
    simp [State.step, hc, State.sendCommand, CommandInterface.send]
  | waitFor | read | unlock response =>
    refine .inr (.inr (.inl ⟨.run i true, beq_self_eq_true i, ?_⟩))
    simp [State.step, hc, State.sendCommand]
  | lock =>
    refine .inr (.inr (h.goesOn_of_lock fun hfree => ?_))
    simp [State.step, hc, State.sendCommand, State.lock, hfree]
  | relock =>
    by_cases hin : i ∈ s.waiters
    · exact .inr (.inr (.inl ⟨.wakeUp i, beq_self_eq_true i, by simp [State.step, hin]⟩))
    · refine .inr (.inr (h.goesOn_of_lock fun hfree => ?_))
      simp [State.step, hc, State.sendCommand, hin, State.lock, hfree]

/-- In every run a call executes at most seven statements and wake-ups. Until it is back it can
execute the next one, or the owner of the mutex can. -/
theorem comesBack_of_run {as : List Action} (hrun : system.run State.start as = some s) (i : ℕ) :
    as.countP (·.isOf i) ≤ 7 ∧ (s.calls i = .notStarted ∨
      (∃ response, s.calls i = .returned response) ∨ GoesOn s (.call i) ∨
        ∃ u, s.responseMutex = some u ∧ GoesOn s u) := by
  have hcount : as.countP (·.isOf i) + s.stepsLeft i ≤ 7 := countP_isOf_le hrun
  have hreach : system.Reachable s :=
    TransitionSystem.ReachableWhere.run (fun _ _ _ _ => trivial) (.init rfl) hrun
  exact ⟨by omega, (ok_of_reachable hreach).goesOn i⟩

/-- A call waits for the mutex, which the event loop holds. -/
theorem comesBack_of_run_waiting : ∃ s : State,
    s.calls 0 = .lock ∧ s.responseMutex = some .eventLoop ∧
      (s.calls 0 = .notStarted ∨ (∃ response, s.calls 0 = .returned response) ∨
        GoesOn s (.call 0) ∨ ∃ u, s.responseMutex = some u ∧ GoesOn s u) := by
  have hrun : ((system.run State.start [.call 0 "light".toList, .run 0 true,
      .message .text "on".toList, .onMessage none]).any fun s =>
        s.calls 0 == .lock && s.responseMutex == some .eventLoop) = true := by decide +kernel
  obtain ⟨hsome, htest⟩ := (Option.any_eq_true_iff_get _ _).mp hrun
  rw [Bool.and_eq_true, beq_iff_eq, beq_iff_eq] at htest
  exact ⟨_, htest.1, htest.2, (comesBack_of_run (Option.some_get hsome).symm 0).2⟩

end SoftwareUpdate.WebSockets.CommandInterface
