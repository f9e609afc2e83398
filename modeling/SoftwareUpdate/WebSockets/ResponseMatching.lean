import SoftwareUpdate.WebSockets.JsonRpcInterface

/-!
# Requests and their responses

What the state holds for one id changes only by the steps of the call with that id and by the
responses that arrive for it (`Exchange.Move`). A promise stays in the map from its fulfilment
until its call removes it, so a second response that arrives in between fulfils it again. When every
call gets at most one response in that time, and no response reaches a call by the narrowing of its
id only, every promise is fulfilled at most once and every call returns `true` on its own response.
-/

namespace SoftwareUpdate.WebSockets

open Misc

variable {s s' : State} {a : Action} {id i : ℕ} {x x' : Exchange} {m : Message}

/-- A message with the id has arrived since a promise for it was created. -/
def answered (id : ℕ) : List Event → Bool
  | [] => false
  | .created i :: earlier => if i = id then false else answered id earlier
  | .arrived i :: earlier => if i = id then true else answered id earlier
  | .setValue _ :: earlier => answered id earlier

/-- What the state holds for one id: the promise, the call, whether a message with the id has
arrived, and how many times `set_value` was called. -/
@[ext] structure Exchange where
  promise : Option Promise
  call : Call
  answered : Bool
  fulfilments : ℕ

namespace State

def exchange (s : State) (id : ℕ) : Exchange :=
  ⟨s.responseToPromise id, s.calls id, answered id s.history, s.history.count (.setValue id)⟩

end State

/-- The id that an action is about. -/
def Action.requestId : Action → ℕ
  | .sendRequest id | .createFutureResponse id | .send id _ | .wake id _ | .removePromise id
  | .processResponse id => id
  | .onMessage m => toUint32 m.number

/-- The steps of the call with the id; a message is a step of no call. -/
def Action.isOf (id : ℕ) : Action → Bool
  | .onMessage _ => false
  | a => a.requestId == id

/-- The promise of the call may be in the map. -/
def Call.isWaiting : Call → Bool
  | .created | .sent | .removing _ => true
  | _ => false

/-- The call may still take a response. -/
def Call.takesResponse : Call → Bool
  | .created | .sent => true
  | _ => false

/-- The `Response` of the message is valid and its result has `success` set. -/
def Message.reportsSuccess (m : Message) : Bool :=
  m.isValid && m.isResult && m.success == some true

/-- The message has the id itself, or its `Response` is no success of a request with the id. -/
def Message.Matches (m : Message) (id : ℕ) : Prop :=
  m.number = id ∨ m.responseId ≠ id ∨ m.reportsSuccess = false

instance : Decidable (m.Matches id) :=
  inferInstanceAs (Decidable (m.number = id ∨ m.responseId ≠ id ∨ m.reportsSuccess = false))

/-- A message that arrives for a call. -/
structure Message.Answers (m : Message) (id : ℕ) (x : Exchange) : Prop where
  /-- It is the first one while the promise is in the map. -/
  once : x.call.isWaiting = true → x.answered = false
  matching : x.call.takesResponse = true → m.Matches id

/-- A response for a call that has its promise in the map is the first one, and it matches the
call if the call may still take it. -/
def AnswersOnce (s : State) : Action → Prop
  | .onMessage m =>
      m.isResponse = true → m.Answers (toUint32 m.number) (s.exchange (toUint32 m.number))
  | _ => True

instance : Decidable (m.Answers id x) :=
  decidable_of_iff ((x.call.isWaiting = true → x.answered = false) ∧
    (x.call.takesResponse = true → m.Matches id)) ⟨fun h => ⟨h.1, h.2⟩, fun h => ⟨h.1, h.2⟩⟩

instance : Decidable (AnswersOnce s a) :=
  match a with
  | .onMessage m =>
      inferInstanceAs (Decidable
        (m.isResponse = true → m.Answers (toUint32 m.number) (s.exchange (toUint32 m.number))))
  | .sendRequest _ | .createFutureResponse _ | .send _ _ | .wake _ _ | .removePromise _
  | .processResponse _ => isTrue trivial

/-- Every promise is fulfilled at most once, every call that has returned `true` did so on the
response with its id, and no promise of a call that has returned is in the map. -/
structure Exact (s : State) : Prop where
  fulfilledOnce : ∀ id, s.history.count (.setValue id) ≤ 1
  ownResponse : ∀ id r, s.calls id = .returned true r →
    ∃ m, r = some m ∧ m.number = id ∧ m.responseId = id
  removed : ∀ id result r, s.calls id = .returned result r → s.responseToPromise id = none

theorem processResponse_eq_true_iff :
    processResponse id m = true ↔ m.responseId = id ∧ m.reportsSuccess = true := by
  unfold processResponse Message.reportsSuccess
  cases m.isValid <;> cases m.success <;> simp

/-- A message that matches the call and makes it succeed has the id of the call. -/
theorem Message.Matches.number_eq (h : m.Matches id) (hresult : processResponse id m = true) :
    m.number = id := by
  obtain ⟨hid, hsuccess⟩ := processResponse_eq_true_iff.mp hresult
  rcases h with h | h | h
  · exact h
  · exact absurd hid h
  · rw [hsuccess] at h
    cases h

/-! ## One id -/

namespace Exchange

/-- The steps of the call with the id, and the responses that arrive for it. -/
inductive Move (id : ℕ) : Exchange → Action → Exchange → Prop
  | checked {b : Bool} {n : ℕ} :
      Move id ⟨none, .notStarted, b, n⟩ (.sendRequest id) ⟨none, .checked, b, n⟩
  | ongoing {p : Promise} {b : Bool} {n : ℕ} :
      Move id ⟨some p, .notStarted, b, n⟩ (.sendRequest id) ⟨some p, .returned false none, b, n⟩
  | created {b : Bool} {n : ℕ} :
      Move id ⟨none, .checked, b, n⟩ (.createFutureResponse id) ⟨some none, .created, false, n⟩
  | alreadySaved {p : Promise} {b : Bool} {n : ℕ} :
      Move id ⟨some p, .checked, b, n⟩ (.createFutureResponse id)
        ⟨some p, .returned false none, b, n⟩
  | sent {p : Option Promise} {b : Bool} {n : ℕ} :
      Move id ⟨p, .created, b, n⟩ (.send id true) ⟨p, .sent, b, n⟩
  | notSent {p : Option Promise} {b : Bool} {n : ℕ} :
      Move id ⟨p, .created, b, n⟩ (.send id false) ⟨p, .removing none, b, n⟩
  | ready {m : Message} {b : Bool} {n : ℕ} :
      Move id ⟨some (some m), .sent, b, n⟩ (.wake id .ready)
        ⟨some (some m), .removing (some m), b, n⟩
  | timeout {b : Bool} {n : ℕ} :
      Move id ⟨some none, .sent, b, n⟩ (.wake id .timeout) ⟨some none, .removing none, b, n⟩
  | deferred {p : Option Promise} {b : Bool} {n : ℕ} :
      Move id ⟨p, .sent, b, n⟩ (.wake id .deferred) ⟨p, .removing none, b, n⟩
  | removed {p : Option Promise} {b : Bool} {n : ℕ} :
      Move id ⟨p, .removing none, b, n⟩ (.removePromise id) ⟨none, .returned false none, b, n⟩
  | taken {p : Option Promise} {m : Message} {b : Bool} {n : ℕ} :
      Move id ⟨p, .removing (some m), b, n⟩ (.removePromise id) ⟨none, .processing m, b, n⟩
  | processed {p : Option Promise} {m : Message} {b : Bool} {n : ℕ} :
      Move id ⟨p, .processing m, b, n⟩ (.processResponse id)
        ⟨p, .returned (processResponse id m) (some m), b, n⟩
  | dropped {m : Message} {c : Call} {b : Bool} {n : ℕ} (hm : m.isResponse = true)
      (hid : toUint32 m.number = id) :
      Move id ⟨none, c, b, n⟩ (.onMessage m) ⟨none, c, true, n⟩
  | fulfilled {m : Message} {c : Call} {b : Bool} {n : ℕ} (hm : m.isResponse = true)
      (hid : toUint32 m.number = id) :
      Move id ⟨some none, c, b, n⟩ (.onMessage m) ⟨some (some m), c, true, n + 1⟩
  | thrown {m m' : Message} {c : Call} {b : Bool} {n : ℕ} (hm : m.isResponse = true)
      (hid : toUint32 m.number = id) :
      Move id ⟨some (some m'), c, b, n⟩ (.onMessage m) ⟨some (some m'), c, true, n + 1⟩

/-- What holds for an id in every run in which each call gets one response. -/
inductive Good (id : ℕ) : Exchange → Prop
  | idle {c : Call} {b : Bool} (hc : c = .notStarted ∨ c = .checked) : Good id ⟨none, c, b, 0⟩
  | pending {c : Call} (hc : c = .created ∨ c = .sent ∨ c = .removing none) :
      Good id ⟨some none, c, false, 0⟩
  | fulfilled {m : Message} {c : Call}
      (hc : c = .created ∨ c = .sent ∨ c = .removing (some m)) (hm : m.Matches id) :
      Good id ⟨some (some m), c, true, 1⟩
  | late {m : Message} : Good id ⟨some (some m), .removing none, true, 1⟩
  | processing {m : Message} {b : Bool} (hm : m.Matches id) : Good id ⟨none, .processing m, b, 1⟩
  | failed {r : Option Message} {b : Bool} {n : ℕ} (hn : n ≤ 1) :
      Good id ⟨none, .returned false r, b, n⟩
  | succeeded {m : Message} {b : Bool} (hnumber : m.number = id) (hm : m.responseId = id) :
      Good id ⟨none, .returned true (some m), b, 1⟩

theorem Move.isResponse (h : Move id x a x') (ha : a = .onMessage m) : m.isResponse = true := by
  subst ha
  cases h <;> assumption

theorem Good.fulfilments_le (h : Good id x) : x.fulfilments ≤ 1 := by
  cases h with
  | idle => exact Nat.zero_le 1
  | pending => exact Nat.zero_le 1
  | fulfilled => exact Nat.le_refl 1
  | late => exact Nat.le_refl 1
  | processing => exact Nat.le_refl 1
  | failed hn => exact hn
  | succeeded => exact Nat.le_refl 1

theorem Good.of_returned_true {r : Option Message} (h : Good id x)
    (hcall : x.call = .returned true r) :
    ∃ m, r = some m ∧ m.number = id ∧ m.responseId = id := by
  cases h with
  | idle hc => rcases hc with rfl | rfl <;> cases hcall
  | pending hc => rcases hc with rfl | rfl | rfl <;> cases hcall
  | fulfilled hc => rcases hc with rfl | rfl | rfl <;> cases hcall
  | late => cases hcall
  | processing => cases hcall
  | failed => cases hcall
  | @succeeded m _ hnumber hm =>
    cases hcall
    exact ⟨m, rfl, hnumber, hm⟩

theorem Good.promise_of_returned {result : Bool} {r : Option Message} (h : Good id x)
    (hcall : x.call = .returned result r) : x.promise = none := by
  cases h with
  | pending hc => rcases hc with rfl | rfl | rfl <;> cases hcall
  | fulfilled hc => rcases hc with rfl | rfl | rfl <;> cases hcall
  | late => cases hcall
  | _ => rfl

theorem Good.of_answered (h : Good id x) (hwaiting : x.call.isWaiting = true)
    (ha : x.answered = true) : ∃ m, x.promise = some (some m) ∧ x.fulfilments = 1 := by
  cases h with
  | idle hc => rcases hc with rfl | rfl <;> cases hwaiting
  | pending => cases ha
  | @fulfilled m => exact ⟨m, rfl, rfl⟩
  | @late m => exact ⟨m, rfl, rfl⟩
  | _ => cases hwaiting

theorem Good.of_not_answered (h : Good id x) (htakes : x.call.takesResponse = true)
    (ha : x.answered = false) : x.promise = some none := by
  cases h with
  | idle hc => rcases hc with rfl | rfl <;> cases htakes
  | pending => rfl
  | fulfilled => cases ha
  | late => cases htakes
  | _ => cases htakes

theorem Good.of_processed {b : Bool} (hm : m.Matches id) :
    Good id ⟨none, .returned (processResponse id m) (some m), b, 1⟩ := by
  cases hresult : processResponse id m with
  | false => exact .failed (Nat.le_refl 1)
  | true =>
    exact .succeeded (hm.number_eq hresult) (processResponse_eq_true_iff.mp hresult).1

theorem Good.move (h : Good id x) (hmove : Move id x a x')
    (ha : ∀ m, a = .onMessage m → m.Answers id x) : Good id x' := by
  cases hmove with
  | checked =>
    cases h with
    | idle => exact .idle (.inr rfl)
  | created =>
    cases h with
    | idle => exact .pending (.inl rfl)
  | ongoing =>
    cases h with
    | pending hc => simp at hc
    | fulfilled hc => simp at hc
  | alreadySaved =>
    cases h with
    | pending hc => simp at hc
    | fulfilled hc => simp at hc
  | sent =>
    cases h with
    | idle hc => simp at hc
    | pending => exact .pending (.inr (.inl rfl))
    | fulfilled _ hm => exact .fulfilled (.inr (.inl rfl)) hm
  | notSent =>
    cases h with
    | idle hc => simp at hc
    | pending => exact .pending (.inr (.inr rfl))
    | fulfilled => exact .late
  | ready =>
    cases h with
    | fulfilled _ hm => exact .fulfilled (.inr (.inr rfl)) hm
  | timeout =>
    cases h with
    | pending => exact .pending (.inr (.inr rfl))
  | deferred =>
    cases h with
    | idle hc => simp at hc
    | pending => exact .pending (.inr (.inr rfl))
    | fulfilled => exact .late
  | removed =>
    cases h with
    | idle hc => simp at hc
    | pending => exact .failed (Nat.zero_le 1)
    | fulfilled hc => simp at hc
    | late => exact .failed (Nat.le_refl 1)
  | taken =>
    cases h with
    | idle hc => simp at hc
    | pending hc => simp at hc
    | fulfilled hc hm =>
      obtain rfl : _ = _ := by simpa using hc
      exact .processing hm
  | processed =>
    cases h with
    | idle hc => simp at hc
    | pending hc => simp at hc
    | fulfilled hc => simp at hc
    | processing hm => exact .of_processed hm
  | dropped =>
    cases h with
    | idle hc => exact .idle hc
    | processing hm => exact .processing hm
    | failed hn => exact .failed hn
    | succeeded hnumber hm => exact .succeeded hnumber hm
  | @fulfilled m c b n =>
    have hanswers := ha m rfl
    cases h with
    | pending hc =>
      rcases hc with rfl | rfl | rfl
      · exact .fulfilled (.inl rfl) (hanswers.matching rfl)
      · exact .fulfilled (.inr (.inl rfl)) (hanswers.matching rfl)
      · exact .late
  | @thrown m m' c b n =>
    -- The promise is fulfilled by an earlier response.
    have hanswers := ha m rfl
    cases h with
    | fulfilled hc => rcases hc with rfl | rfl | rfl <;> cases hanswers.once rfl
    | late => cases hanswers.once rfl

end Exchange

/-! ## The steps, seen from one id -/

namespace State

@[simp] theorem exchange_setCall {c : Call} :
    (s.setCall id c).exchange id = { s.exchange id with call := c } := by
  simp [exchange, setCall]

theorem exchange_setCall_ne {c : Call} (h : id ≠ i) :
    (s.setCall i c).exchange id = s.exchange id := by
  simp [exchange, setCall, h]

@[simp] theorem exchange_setPromise {p : Option Promise} :
    (s.setPromise id p).exchange id = { s.exchange id with promise := p } := by
  simp [exchange, setPromise]

theorem exchange_setPromise_ne {p : Option Promise} (h : id ≠ i) :
    (s.setPromise i p).exchange id = s.exchange id := by
  simp [exchange, setPromise, h]

@[simp] theorem exchange_created :
    (s.record (.created id)).exchange id = { s.exchange id with answered := false } := by
  simp [exchange, record, answered]

theorem exchange_created_ne (h : id ≠ i) :
    (s.record (.created i)).exchange id = s.exchange id := by
  simp [exchange, record, answered, h.symm]

@[simp] theorem exchange_arrived :
    (s.record (.arrived id)).exchange id = { s.exchange id with answered := true } := by
  simp [exchange, record, answered]

theorem exchange_arrived_ne (h : id ≠ i) :
    (s.record (.arrived i)).exchange id = s.exchange id := by
  simp [exchange, record, answered, h.symm]

@[simp] theorem exchange_setValue :
    (s.record (.setValue id)).exchange id =
      { s.exchange id with fulfilments := (s.exchange id).fulfilments + 1 } := by
  simp [exchange, record, answered]

theorem exchange_setValue_ne (h : id ≠ i) :
    (s.record (.setValue i)).exchange id = s.exchange id := by
  simp [exchange, record, answered, h.symm]

theorem exchange_handleResponse_ne (h : id ≠ i) :
    (s.handleResponse i m).exchange id = s.exchange id := by
  unfold handleResponse
  split
  · exact exchange_arrived_ne h
  · rw [exchange_setValue_ne h, exchange_setPromise_ne h, exchange_arrived_ne h]
  · rw [exchange_setValue_ne h, exchange_arrived_ne h]

/-- A step about another id. -/
theorem exchange_step_ne (h : s.step a = some s') (hid : id ≠ a.requestId) :
    s'.exchange id = s.exchange id := by
  cases a with
  | sendRequest i =>
    simp only [step] at h
    split at h
    · split at h
      · split at h <;> cases h <;> exact exchange_setCall_ne hid
      · cases h
    · cases h
  | createFutureResponse i =>
    simp only [step] at h
    split at h
    · cases h
      unfold createFutureResponse
      split
      · exact exchange_setCall_ne hid
      · change id ≠ i at hid
        rw [exchange_created_ne hid, exchange_setCall_ne hid, exchange_setPromise_ne hid]
    · cases h
  | send i sent =>
    simp only [step] at h
    split at h <;> cases h
    exact exchange_setCall_ne hid
  | wake i status =>
    simp only [step] at h
    split at h
    · cases status <;> simp only [wake] at h
      · split at h <;> cases h
        exact exchange_setCall_ne hid
      · split at h <;> cases h
        exact exchange_setCall_ne hid
      · cases h
        exact exchange_setCall_ne hid
    · cases h
  | removePromise i =>
    simp only [step] at h
    change id ≠ i at hid
    split at h <;> cases h <;> rw [exchange_setCall_ne hid, exchange_setPromise_ne hid]
  | processResponse i =>
    simp only [step] at h
    split at h <;> cases h
    exact exchange_setCall_ne hid
  | onMessage m =>
    cases h
    unfold onMessage
    split
    · exact exchange_handleResponse_ne hid
    · rfl

theorem exchange_eq {p : Option Promise} {c : Call} (hp : s.responseToPromise id = p)
    (hc : s.calls id = c) :
    s.exchange id = ⟨p, c, answered id s.history, s.history.count (.setValue id)⟩ := by
  subst hp hc
  rfl

theorem move_handleResponse (hm : m.isResponse = true) (hid : toUint32 m.number = id) :
    Exchange.Move id (s.exchange id) (.onMessage m) ((s.handleResponse id m).exchange id) := by
  unfold handleResponse
  split
  · next hpromise =>
    rw [exchange_arrived, exchange_eq hpromise rfl]
    exact .dropped hm hid
  · next hpromise =>
    rw [exchange_setValue, exchange_setPromise, exchange_arrived, exchange_eq hpromise rfl]
    exact .fulfilled hm hid
  · next hpromise =>
    rw [exchange_setValue, exchange_arrived, exchange_eq hpromise rfl]
    exact .thrown hm hid

/-- A step about the id is one of the moves, or a message that is no response. -/
theorem move_step (h : s.step a = some s') (hid : a.requestId = id) :
    s'.exchange id = s.exchange id ∨ Exchange.Move id (s.exchange id) a (s'.exchange id) := by
  cases a with
  | sendRequest i =>
    obtain rfl : i = id := hid
    simp only [step] at h
    split at h
    · next hcall =>
      split at h
      · split at h
        · next hongoing =>
          cases h
          obtain ⟨p, hp⟩ := Option.isSome_iff_exists.mp hongoing
          rw [exchange_setCall, exchange_eq hp hcall]
          exact .inr .ongoing
        · next hongoing =>
          cases h
          have hp : s.responseToPromise i = none := by
            simpa [isRequestProcessingOngoing] using hongoing
          rw [exchange_setCall, exchange_eq hp hcall]
          exact .inr .checked
      · cases h
    · cases h
  | createFutureResponse i =>
    obtain rfl : i = id := hid
    simp only [step] at h
    split at h
    · next hcall =>
      cases h
      unfold createFutureResponse
      split
      · next hp =>
        rw [exchange_setCall, exchange_eq hp hcall]
        exact .inr .alreadySaved
      · next hp =>
        rw [exchange_created, exchange_setCall, exchange_setPromise, exchange_eq hp hcall]
        exact .inr .created
    · cases h
  | send i sent =>
    obtain rfl : i = id := hid
    simp only [step] at h
    split at h
    · next hcall =>
      cases h
      rw [exchange_setCall, exchange_eq rfl hcall]
      cases sent with
      | false => exact .inr .notSent
      | true => exact .inr .sent
    · cases h
  | wake i status =>
    obtain rfl : i = id := hid
    simp only [step] at h
    split at h
    · next hcall =>
      cases status with
      | ready =>
        simp only [wake] at h
        split at h
        · next hp =>
          cases h
          rw [exchange_setCall, exchange_eq hp hcall]
          exact .inr .ready
        · cases h
      | timeout =>
        simp only [wake] at h
        split at h
        · next hp =>
          cases h
          rw [exchange_setCall, exchange_eq hp hcall]
          exact .inr .timeout
        · cases h
      | deferred =>
        cases h
        rw [exchange_setCall, exchange_eq rfl hcall]
        exact .inr .deferred
    · cases h
  | removePromise i =>
    obtain rfl : i = id := hid
    simp only [step] at h
    split at h
    · next hcall =>
      cases h
      rw [exchange_setCall, exchange_setPromise, exchange_eq rfl hcall]
      exact .inr .taken
    · next hcall =>
      cases h
      rw [exchange_setCall, exchange_setPromise, exchange_eq rfl hcall]
      exact .inr .removed
    · cases h
  | processResponse i =>
    obtain rfl : i = id := hid
    simp only [step] at h
    split at h
    · next hcall =>
      cases h
      rw [exchange_setCall, exchange_eq rfl hcall]
      exact .inr .processed
    · cases h
  | onMessage m =>
    cases h
    unfold onMessage
    split
    · next hm =>
      obtain rfl : toUint32 m.number = id := hid
      exact .inr (move_handleResponse hm rfl)
    · exact .inl rfl

end State

/-! ## Whole runs -/

/-- In every run in which every call gets at most one response while its promise is in the map, what
the state holds for an id is good. -/
theorem good_exchange (h : system.ReachableWhere AnswersOnce s) (id : ℕ) :
    Exchange.Good id (s.exchange id) := by
  induction h with
  | init hs =>
    subst hs
    exact .idle (.inl rfl)
  | @step s s' a _ ha hstep ih =>
    by_cases hid : a.requestId = id
    · rcases State.move_step hstep hid with heq | hmove
      · rw [heq]
        exact ih
      · refine ih.move hmove ?_
        rintro m rfl
        subst hid
        exact ha (hmove.isResponse rfl)
    · rw [State.exchange_step_ne hstep (Ne.symm hid)]
      exact ih

theorem exact_of_answersOnce (h : system.ReachableWhere AnswersOnce s) : Exact s := by
  refine ⟨?_, ?_, ?_⟩
  · intro id
    exact (good_exchange h id).fulfilments_le
  · intro id r hcall
    exact (good_exchange h id).of_returned_true hcall
  · intro id result r hcall
    exact (good_exchange h id).promise_of_returned hcall

/-- A response to the request 1 that reports success. -/
def reply : Message := ⟨true, false, true, true, 1, true, 1, true, some true⟩

/-- The request 1 is sent. -/
def sendOne : List Action := [.sendRequest 1, .createFutureResponse 1, .send 1 true]

theorem exact_of_answersOnce_reply :
    ∃ s, system.ReachableWhere AnswersOnce s ∧ s.calls 1 = .returned true (some reply) ∧
      Exact s := by
  have hrun : (system.runWhere (fun s a => decide (AnswersOnce s a)) State.start
      (sendOne ++ [.onMessage reply, .wake 1 .ready, .removePromise 1, .processResponse 1])).any
      (fun s => s.calls 1 == .returned true (some reply)) = true := by
    decide
  obtain ⟨s, hs, hcall⟩ := TransitionSystem.exists_reachableWhere_of_run (P := AnswersOnce)
    (fun _ _ _ h => of_decide_eq_true h) rfl hrun
  exact ⟨s, hs, beq_iff_eq.mp hcall, exact_of_answersOnce hs⟩

/-- The response arrives twice before the call wakes up. -/
theorem not_exact_twice : ¬ ∀ s, system.Reachable s → Exact s := by
  intro h
  obtain ⟨s, hs, hcount⟩ := TransitionSystem.exists_reachable_of_run system State.start
    (sendOne ++ [.onMessage reply, .onMessage reply])
    (fun s => s.history.count (.setValue 1) == 2) rfl (by decide)
  have hle := (h s hs).fulfilledOnce 1
  rw [beq_iff_eq.mp hcount] at hle
  exact absurd hle (by decide)

/-! ## A response that does not answer its call once -/

theorem Call.isWaiting_of_takesResponse {c : Call} (h : c.takesResponse = true) :
    c.isWaiting = true := by
  cases c with
  | created => rfl
  | sent => rfl
  | _ => cases h

theorem Message.not_answers (h : ¬ m.Answers id x) :
    (x.call.isWaiting = true ∧ x.answered = true) ∨
      (x.call.takesResponse = true ∧ x.answered = false ∧ ¬ m.Matches id) := by
  by_cases honce : x.call.isWaiting = true → x.answered = false
  · obtain ⟨htakes, hmatch⟩ : x.call.takesResponse = true ∧ ¬ m.Matches id :=
      Classical.not_imp.mp fun hmatching => h ⟨honce, hmatching⟩
    exact .inr ⟨htakes, honce (Call.isWaiting_of_takesResponse htakes), hmatch⟩
  · obtain ⟨hwaiting, hanswered⟩ := Classical.not_imp.mp honce
    exact .inl ⟨hwaiting, Bool.of_not_eq_false hanswered⟩

/-- The promise for the id has been fulfilled twice, or the call with the id has returned `true` on
a response that has another id. -/
def State.Mismatched (s : State) (id : ℕ) : Prop :=
  1 < s.history.count (.setValue id) ∨
    ∃ m, s.calls id = .returned true (some m) ∧ m.number ≠ id

/-- A call that waits for a future that is ready can go on to process the response. -/
theorem leads_returned_of_sent (hcall : s.calls id = .sent)
    (hp : s.responseToPromise id = some (some m)) :
    ∃ s', system.Leads (fun _ a => a.isOf id = true) s s' ∧
      s'.calls id = .returned (processResponse id m) (some m) := by
  let woken := s.setCall id (.removing (some m))
  let removed := (woken.setPromise id none).setCall id (.processing m)
  have hwake : system.step s (.wake id .ready) = some woken := by
    simp [system, State.step, State.wake, hcall, hp, woken]
  have hremove : system.step woken (.removePromise id) = some removed := by
    simp [system, State.step, State.setCall, woken, removed]
  have hprocess : system.step removed (.processResponse id) =
      some (removed.setCall id (.returned (processResponse id m) (some m))) := by
    simp [system, State.step, State.setCall, removed]
  have hown : (Action.wake id .ready).isOf id = true ∧ (Action.removePromise id).isOf id = true ∧
      (Action.processResponse id).isOf id = true := by
    simp [Action.isOf, Action.requestId]
  refine ⟨_, .tail (.tail (.tail .refl hown.1 hwake) hown.2.1 hremove) hown.2.2 hprocess, ?_⟩
  simp [State.setCall]

theorem leads_returned (hcall : (s.calls id).takesResponse = true)
    (hp : s.responseToPromise id = some (some m)) :
    ∃ s', system.Leads (fun _ a => a.isOf id = true) s s' ∧
      s'.calls id = .returned (processResponse id m) (some m) := by
  cases hc : s.calls id with
  | created =>
    have hsend : system.step s (.send id true) = some (s.setCall id .sent) := by
      simp [system, State.step, hc]
    obtain ⟨s', hs', hreturned⟩ := leads_returned_of_sent (s := s.setCall id .sent) (m := m)
      (by simp [State.setCall]) hp
    have hfirst : system.Leads (fun _ a => a.isOf id = true) s (s.setCall id .sent) :=
      .single (by simp [Action.isOf, Action.requestId]) hsend
    exact ⟨s', hfirst.trans hs', hreturned⟩
  | sent => exact leads_returned_of_sent hc hp
  | _ =>
    rw [hc] at hcall
    cases hcall

/-- A response that reaches a call again before its promise is removed, or by the narrowing of its
id only, can end in a mismatch of that call, by the steps of the call alone. -/
theorem leads_mismatched (h : system.ReachableWhere AnswersOnce s)
    (ha : ¬ AnswersOnce s (.onMessage m)) :
    ∃ s', system.Leads (fun _ a => a.isOf (toUint32 m.number) = true) (s.onMessage m) s' ∧
      s'.Mismatched (toUint32 m.number) := by
  obtain ⟨hm, hanswers⟩ := Classical.not_imp.mp ha
  have hgood := good_exchange h (toUint32 m.number)
  have hmessage : s.onMessage m = s.handleResponse (toUint32 m.number) m := by
    simp [State.onMessage, hm]
  rw [hmessage]
  generalize toUint32 m.number = id at hgood hanswers
  rcases Message.not_answers hanswers with ⟨hwaiting, hanswered⟩ | ⟨htakes, hanswered, hmatch⟩
  · obtain ⟨m', hp, hcount⟩ := hgood.of_answered hwaiting hanswered
    have hfulfilled : s.responseToPromise id = some (some m') := hp
    have htwice : ((s.handleResponse id m).exchange id).fulfilments = 2 := by
      simp [State.handleResponse, hfulfilled, hcount]
    exact ⟨_, .refl, .inl (Nat.lt_of_lt_of_eq Nat.one_lt_two htwice.symm)⟩
  · have hpending : s.responseToPromise id = some none := hgood.of_not_answered htakes hanswered
    have hcall : (s.handleResponse id m).calls id = s.calls id := by
      simp [State.handleResponse, hpending, State.record, State.setPromise]
    have hfulfilled : (s.handleResponse id m).responseToPromise id = some (some m) := by
      simp [State.handleResponse, hpending, State.record, State.setPromise]
    obtain ⟨s', hs', hreturned⟩ := leads_returned (hcall.symm ▸ htakes) hfulfilled
    obtain ⟨hother, hmatch⟩ := not_or.mp hmatch
    obtain ⟨hid, hsuccess⟩ := not_or.mp hmatch
    have hresult : processResponse id m = true :=
      processResponse_eq_true_iff.mpr ⟨not_not.mp hid, Bool.of_not_eq_false hsuccess⟩
    rw [hresult] at hreturned
    exact ⟨s', hs', .inr ⟨m, hreturned, hother⟩⟩

theorem Exact.not_mismatched (h : Exact s) (id : ℕ) : ¬ s.Mismatched id := by
  rintro (hcount | ⟨m, hcall, hnumber⟩)
  · exact absurd (h.fulfilledOnce id) (Nat.not_le_of_lt hcount)
  · obtain ⟨m', hm', hown, -⟩ := h.ownResponse id _ hcall
    cases hm'
    exact hnumber hown

theorem answersOnce_of_isOf (h : a.isOf id = true) : AnswersOnce s a := by
  cases a with
  | onMessage m => cases h
  | _ => trivial

/-- As long as every call is answered once, a message can end in a mismatch of the call that it is
for, by the steps of that call alone, exactly when it does not answer it once. -/
theorem leads_mismatched_iff (h : system.ReachableWhere AnswersOnce s) :
    (∃ s', system.Leads (fun _ a => a.isOf (toUint32 m.number) = true) (s.onMessage m) s' ∧
      s'.Mismatched (toUint32 m.number)) ↔ ¬ AnswersOnce s (.onMessage m) := by
  constructor
  · rintro ⟨s', hleads, hmismatched⟩ hanswers
    have hs : system.ReachableWhere AnswersOnce (s.onMessage m) := .step h hanswers rfl
    have hs' := hleads.reachableWhere (fun _ _ hown => answersOnce_of_isOf hown) hs
    exact (exact_of_answersOnce hs').not_mismatched _ hmismatched
  · exact leads_mismatched h

/-- The response arrives again before the call wakes up. -/
theorem leads_mismatched_iff_again :
    ∃ s, system.ReachableWhere AnswersOnce s ∧ ¬ AnswersOnce s (.onMessage reply) ∧
      ∃ s', system.Leads (fun _ a => a.isOf 1 = true) (s.onMessage reply) s' ∧ s'.Mismatched 1 := by
  have hrun : (system.runWhere (fun s a => decide (AnswersOnce s a)) State.start
      (sendOne ++ [.onMessage reply])).any
      (fun s => ! decide (AnswersOnce s (.onMessage reply))) = true := by
    decide
  obtain ⟨s, hs, hagain⟩ := TransitionSystem.exists_reachableWhere_of_run (P := AnswersOnce)
    (fun _ _ _ h => of_decide_eq_true h) rfl hrun
  have hnot : ¬ AnswersOnce s (.onMessage reply) := by simpa using hagain
  exact ⟨s, hs, hnot, (leads_mismatched_iff hs).mpr hnot⟩

end SoftwareUpdate.WebSockets
