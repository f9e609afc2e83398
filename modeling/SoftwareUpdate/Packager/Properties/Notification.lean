import Mathlib.Data.List.Count
import Mathlib.Tactic.Common
import SoftwareUpdate.Packager.Observers

/-!
# Observers are notified once

What the passes owe to the observers is kept in a ledger, which is computed from what has
happened alone: a registration that is there when a pass begins waits for its turn until the
pass calls its observer or the observer is unregistered. The ledger has no account of a pass
that calls an observer without a registration or twice for one, or that ends while a registration
waits. A pass whose callbacks leave the vector alone keeps to it. A callback that registers or
unregisters leaves the pass with an invalid iterator.
-/

namespace SoftwareUpdate.Packager.Observers

open Misc

/-! ## The ledger -/

/-- What the pass under way owes to a registration: `over` when it has called the observer,
`none` when it has begun without it. -/
inductive Turn where
  | none
  | waits
  | over
  deriving DecidableEq, Repr

abbrev Ledger := List (ℕ × Turn)

/-- The turn of the first registration of the observer that has not been called yet. -/
def Ledger.call (observer : ℕ) : Ledger → Option Ledger
  | [] => .none
  | (o, turn) :: l =>
      if o = observer ∧ turn ≠ .over then some ((o, .over) :: l)
      else (Ledger.call observer l).map fun l => (o, turn) :: l

def Ledger.record (l : Ledger) : Event → Option Ledger
  | .addRef _ | .release _ => some l
  | .pushBack observer => some (l ++ [(observer, .none)])
  | .erase observer => some (l.eraseP fun r => r.1 = observer)
  | .stateChange observer => if observer ∈ l.map Prod.fst then some l else .none
  | .passBegin _ => some (l.map fun r => (r.1, .waits))
  | .called _ observer => l.call observer
  | .passEnd _ => if ∃ r ∈ l, r.2 = .waits then .none else some l

/-- The ledger after what has happened. -/
def ledger : List Event → Option Ledger
  | [] => some []
  | e :: log => (ledger log).bind fun l => l.record e

/-- Every pass and every callback agrees with the ledger, and the references that are held on an
observer are as many as its registrations. -/
structure Served (s : State) : Prop where
  defined : s.undefinedBehaviour = false
  notified : ledger s.log ≠ none
  balanced : ∀ observer, s.log.count (.addRef observer) =
    s.log.count (.release observer) + s.notifications.count observer

/-- No callback of a pass registers or unregisters, and only a registered observer is
unregistered. -/
def LeavesPassAlone (s : State) : Action → Bool
  | .register _ => !s.inPass
  | .unregister observer => !s.inPass && decide (observer ∈ s.notifications)
  | _ => true

variable {s s' : State} {a : Action} {as : List Action} {l : Ledger} {ns : List ℕ}
  {observer k : ℕ} {callback : Callback}

/-! ## A pass in the ledger -/

/-- A registration of each observer, with the same turn. -/
def marked (turn : Turn) (ns : List ℕ) : Ledger := ns.map fun o => (o, turn)

/-- The ledger of a pass that has called the first `k` observers. -/
def passLedger (ns : List ℕ) (k : ℕ) : Ledger :=
  marked .over (ns.take k) ++ marked .waits (ns.drop k)

theorem snd_of_mem_marked {turn : Turn} {r : ℕ × Turn} (h : r ∈ marked turn ns) :
    r.2 = turn := by
  obtain ⟨o, -, rfl⟩ := List.mem_map.mp h
  rfl

theorem fst_marked {turn : Turn} : (marked turn ns).map Prod.fst = ns := by
  simp [marked, Function.comp_def]

theorem fst_passLedger : (passLedger ns k).map Prod.fst = ns := by
  rw [passLedger, List.map_append, fst_marked, fst_marked, List.take_append_drop]

theorem call_append (h : ∀ r ∈ l, r.2 = .over) (l' : Ledger) :
    (l ++ l').call observer = (l'.call observer).map fun l' => l ++ l' := by
  induction l with
  | nil => simp
  | cons r l ih =>
    obtain ⟨o, turn⟩ := r
    obtain rfl : turn = .over := h _ List.mem_cons_self
    have hrest := ih fun r hr => h r (List.mem_cons_of_mem _ hr)
    simp [Ledger.call, hrest, Function.comp_def]

/-- The next call of a pass is the turn of the next registration. -/
theorem call_passLedger (h : ns[k]? = some observer) :
    (passLedger ns k).call observer = some (passLedger ns (k + 1)) := by
  obtain ⟨hk, hget⟩ := List.getElem?_eq_some_iff.mp h
  have htake : marked .over (ns.take (k + 1)) =
      marked .over (ns.take k) ++ [(observer, .over)] := by
    simp [marked, List.take_add_one, h]
  have hdrop : marked .waits (ns.drop k) =
      (observer, .waits) :: marked .waits (ns.drop (k + 1)) := by
    simp only [marked, List.drop_eq_getElem_cons hk, List.map_cons, hget]
  rw [passLedger, call_append fun r hr => snd_of_mem_marked hr, passLedger, htake, hdrop]
  simp [Ledger.call]

theorem passLedger_of_length_le (h : ns.length ≤ k) : passLedger ns k = marked .over ns := by
  simp [passLedger, marked, List.drop_of_length_le h, List.take_of_length_le h]

/-! ## Every run that leaves the passes alone -/

/-- How many observers the pass has called. -/
def Frame.turns : Frame → ℕ
  | pass _ .test position _ => position
  | pass _ .callback position _ => position + 1
  | register _ => 0

/-- What holds of the ledger, the vector and the frames in such a run: a pass is the outermost
function, its iterators are valid, and the ledger is the one of its position. -/
structure Agrees (s : State) (l : Ledger) : Prop where
  defined : s.undefinedBehaviour = false
  ledger : ledger s.log = some l
  registered : l.map Prod.fst = s.notifications
  valid : ∀ callback pc position valid, .pass callback pc position valid ∈ s.frames →
    s.frames = [.pass callback pc position valid] ∧ valid = true ∧
      l = passLedger s.notifications (Frame.pass callback pc position valid).turns
  balanced : ∀ observer, s.log.count (.addRef observer) =
    s.log.count (.release observer) + s.notifications.count observer

theorem Agrees.served (h : Agrees s l) : Served s where
  defined := h.defined
  notified := by rw [h.ledger]; exact Option.some_ne_none l
  balanced := h.balanced

theorem agrees_init : Agrees {} [] := by
  constructor
  · rfl
  · rfl
  · rfl
  · intro callback pc position valid hmem
    cases hmem
  · intro observer
    rfl

theorem not_mem_frames (h : s.inPass = false) (callback : Callback) (pc : PassPc) (k : ℕ)
    (valid : Bool) : .pass callback pc k valid ∉ s.frames := by
  intro hmem
  have hin : s.inPass = true := List.any_eq_true.mpr ⟨_, hmem, rfl⟩
  rw [h] at hin
  cases hin

theorem map_invalidate (h : s.inPass = false) : s.frames.map Frame.invalidate = s.frames := by
  refine List.map_congr_left ?_ |>.trans (List.map_id _)
  intro f hf
  cases f with
  | pass callback pc position valid => exact absurd hf (not_mem_frames h _ _ _ _)
  | register observer => rfl

/-- `Register` outside a pass. -/
theorem Agrees.register (h : Agrees s l) (hpass : s.inPass = false) :
    Agrees (register s observer) (l ++ [(observer, .none)]) := by
  have hno := not_mem_frames hpass
  unfold Observers.register
  rw [map_invalidate hpass]
  dsimp only
  split
  · constructor
    · exact h.defined
    · simp [Observers.ledger, h.ledger, Ledger.record]
    · simp [h.registered]
    · intro callback pc position valid hmem
      rcases List.mem_cons.mp hmem with heq | hmem
      · cases heq
      · exact absurd hmem (hno _ _ _ _)
    · intro o
      have hbalanced := h.balanced o
      simp [List.count_cons, List.count_append]
      omega
  · constructor
    · exact h.defined
    · simp [Observers.ledger, h.ledger, Ledger.record]
    · simp [h.registered]
    · intro callback pc position valid hmem
      exact absurd hmem (hno _ _ _ _)
    · intro o
      have hbalanced := h.balanced o
      simp [List.count_cons, List.count_append]
      omega

theorem fst_eraseP : (l.eraseP fun r => r.1 = observer).map Prod.fst =
    (l.map Prod.fst).erase observer := by
  induction l with
  | nil => rfl
  | cons r l ih =>
    by_cases hr : r.1 = observer
    · simp [hr]
    · simp [hr, List.erase_cons_tail, ih]

/-- `Unregister` of a registered observer outside a pass. -/
theorem Agrees.unregister (h : Agrees s l) (hpass : s.inPass = false)
    (hmem : observer ∈ s.notifications) :
    Agrees (unregister s observer) (l.eraseP fun r => r.1 = observer) := by
  unfold Observers.unregister
  rw [if_pos hmem, map_invalidate hpass]
  constructor
  · exact h.defined
  · simp [Observers.ledger, h.ledger, Ledger.record]
  · rw [fst_eraseP, h.registered]
  · intro callback pc position valid hframe
    exact absurd hframe (not_mem_frames hpass _ _ _ _)
  · intro o
    have hbalanced := h.balanced o
    have hpos : 0 < s.notifications.count observer := List.count_pos_iff.mpr hmem
    by_cases ho : observer = o
    · subst ho
      simp [List.count_erase_self]
      omega
    · simp [List.count_erase_of_ne (Ne.symm ho), ho]
      omega

/-- A pass begins with every registration waiting. -/
theorem Agrees.notify (h : Agrees s l) :
    Agrees (notify s callback) (marked .waits s.notifications) := by
  have hmarked : l.map (fun r => (r.1, Turn.waits)) = marked .waits s.notifications := by
    rw [← h.registered, marked, List.map_map]
    rfl
  constructor
  · exact h.defined
  · simp [Observers.notify, Observers.ledger, h.ledger, Ledger.record, hmarked]
  · exact fst_marked
  · intro c pc position valid hmem
    obtain ⟨rfl, rfl, rfl, rfl⟩ : c = callback ∧ pc = .test ∧ position = 0 ∧ valid = true := by
      simpa [Observers.notify] using hmem
    exact ⟨rfl, rfl, by simp [passLedger, Frame.turns, marked, Observers.notify]⟩
  · intro o
    have hbalanced := h.balanced o
    simpa [Observers.notify, List.count_cons] using hbalanced

/-- The next step of a pass, or the return into a `Register`. -/
theorem Agrees.next (h : Agrees s l) (hnext : next s = some s') : ∃ l', Agrees s' l' := by
  unfold Observers.next at hnext
  split at hnext
  · cases hnext
  · next o outer hframes =>
    obtain rfl := Option.some.inj hnext
    refine ⟨l, h.defined, h.ledger, h.registered, ?_, h.balanced⟩
    intro callback pc position valid hmem
    have hin : Frame.pass callback pc position valid ∈ s.frames :=
      hframes ▸ List.mem_cons_of_mem _ hmem
    have honly := (h.valid _ _ _ _ hin).1
    rw [hframes] at honly
    cases honly
  · next callback position valid outer hframes =>
    obtain rfl := Option.some.inj hnext
    have hin : Frame.pass callback .callback position valid ∈ s.frames := by simp [hframes]
    obtain ⟨honly, hvalid, hledger⟩ := h.valid _ _ _ _ hin
    obtain ⟨-, rfl⟩ := List.cons.inj (hframes.symm.trans honly)
    refine ⟨l, h.defined, h.ledger, h.registered, ?_, h.balanced⟩
    intro c pc p v hmem
    obtain ⟨rfl, rfl, rfl, rfl⟩ : c = callback ∧ pc = .test ∧ p = position + 1 ∧ v = valid := by
      simpa using hmem
    exact ⟨rfl, hvalid, hledger⟩
  · next callback position valid outer hframes =>
    have hin : Frame.pass callback .test position valid ∈ s.frames := by simp [hframes]
    obtain ⟨honly, rfl, rfl⟩ := h.valid _ _ _ _ hin
    obtain ⟨-, rfl⟩ := List.cons.inj (hframes.symm.trans honly)
    rw [if_pos rfl] at hnext
    split at hnext
    · next observer hget =>
      obtain rfl := Option.some.inj hnext
      refine ⟨passLedger s.notifications (position + 1), h.defined, ?_, fst_passLedger, ?_, ?_⟩
      · have hcall := call_passLedger hget
        simp [Observers.ledger, h.ledger, Ledger.record, Frame.turns, hcall]
      · intro c pc p v hmem
        obtain ⟨rfl, rfl, rfl, rfl⟩ : c = callback ∧ pc = .callback ∧ p = position ∧ v = true := by
          simpa using hmem
        exact ⟨rfl, rfl, rfl⟩
      · intro o
        have hbalanced := h.balanced o
        simpa [List.count_cons] using hbalanced
    · next hget =>
      obtain rfl := Option.some.inj hnext
      have hover : ¬ ∃ r ∈ passLedger s.notifications position, r.2 = .waits := by
        rw [passLedger_of_length_le (List.getElem?_eq_none_iff.mp hget)]
        rintro ⟨r, hr, hwaits⟩
        rw [snd_of_mem_marked hr] at hwaits
        cases hwaits
      refine ⟨_, h.defined, ?_, h.registered, ?_, ?_⟩
      · simp only [Observers.ledger, h.ledger, Option.bind_some, Ledger.record, Frame.turns,
          if_neg hover]
      · intro c pc p v hmem
        cases hmem
      · intro o
        have hbalanced := h.balanced o
        simpa [List.count_cons] using hbalanced

/-- What a step does. -/
inductive Does (s : State) : Action → State → Prop
  | next {s' : State} : next s = some s' → Does s .next s'
  | register (observer : ℕ) : Does s (.register observer) (register s observer)
  | unregister (observer : ℕ) : Does s (.unregister observer) (unregister s observer)
  | notify {a : Action} (callback : Callback) (hframes : s.frames = [])
      (hok : LeavesPassAlone s a = true) : Does s a (notify s callback)
  | setInProgress {a : Action} (inProgress : Bool) (hok : LeavesPassAlone s a = true) :
      Does s a { s with inProgress := inProgress }

theorem step_does (h : observers.step s a = some s') :
    s.undefinedBehaviour = false ∧ Does s a s' := by
  replace h : Observers.step s a = some s' := h
  unfold Observers.step at h
  split at h
  · cases h
  · next hdefined =>
    refine ⟨Bool.not_eq_true _ ▸ hdefined, ?_⟩
    cases a with
    | next => exact .next h
    | register observer =>
      obtain ⟨-, heq⟩ := Option.ite_none_right_eq_some.mp h
      exact Option.some.inj heq ▸ .register observer
    | unregister observer =>
      obtain ⟨-, heq⟩ := Option.ite_none_right_eq_some.mp h
      exact Option.some.inj heq ▸ .unregister observer
    | notifyStateChange =>
      obtain ⟨hframes, heq⟩ := Option.ite_none_right_eq_some.mp h
      exact Option.some.inj heq ▸ .notify .stateChange hframes.1 rfl
    | notifyRepoSynced =>
      obtain ⟨hframes, heq⟩ := Option.ite_none_right_eq_some.mp h
      exact Option.some.inj heq ▸ .notify .repositorySynchronize hframes rfl
    | recordInstall =>
      obtain ⟨-, heq⟩ := Option.ite_none_right_eq_some.mp h
      exact Option.some.inj heq ▸ .setInProgress true rfl
    | clearInstall =>
      obtain ⟨-, heq⟩ := Option.ite_none_right_eq_some.mp h
      exact Option.some.inj heq ▸ .setInProgress false rfl

theorem Agrees.step (h : Agrees s l) (hok : LeavesPassAlone s a = true)
    (hstep : observers.step s a = some s') : ∃ l', Agrees s' l' := by
  cases (step_does hstep).2 with
  | next hnext => exact h.next hnext
  | register observer => exact ⟨_, h.register (by simpa [LeavesPassAlone] using hok)⟩
  | unregister observer =>
    obtain ⟨hpass, hmem⟩ : s.inPass = false ∧ observer ∈ s.notifications := by
      simpa [LeavesPassAlone] using hok
    exact ⟨_, h.unregister hpass hmem⟩
  | notify callback => exact ⟨_, h.notify⟩
  | setInProgress inProgress =>
    exact ⟨l, h.defined, h.ledger, h.registered, h.valid, h.balanced⟩

theorem served_of_runWhere (h : observers.runWhere LeavesPassAlone {} as = some s) : Served s := by
  have hreach : observers.ReachableWhere (fun s a => LeavesPassAlone s a = true) s :=
    TransitionSystem.ReachableWhere.run (fun _ _ _ hok => hok) (.init rfl) h
  obtain ⟨l, hl⟩ := hreach.invariant (I := fun s => ∃ l, Agrees s l)
    (by rintro s rfl; exact ⟨[], agrees_init⟩)
    (by rintro s a s' - ⟨l, hl⟩ hok hstep; exact hl.step hok hstep)
  exact hl.served

/-! ## A pass whose vector was changed -/

/-- Something undefined has happened, or will when the pass goes on: its iterators are invalid. -/
def Broken (s : State) : Prop :=
  s.undefinedBehaviour = true ∨ ∃ callback pc position, .pass callback pc position false ∈ s.frames

theorem mem_invalidate {callback : Callback} {pc : PassPc} {position : ℕ} {valid : Bool}
    (h : .pass callback pc position valid ∈ s.frames) :
    .pass callback pc position false ∈ s.frames.map Frame.invalidate :=
  List.mem_map_of_mem (f := Frame.invalidate) h

theorem mem_frames_register {f : Frame} (h : f ∈ s.frames.map Frame.invalidate) :
    f ∈ (register s observer).frames := by
  unfold register
  dsimp only
  split
  · exact List.mem_cons_of_mem _ h
  · exact h

/-- A step that meddles with a pass breaks it. -/
theorem broken_of_meddling (hok : LeavesPassAlone s a = false)
    (hstep : observers.step s a = some s') : Broken s' := by
  have hpass (h : s.inPass = true) :
      ∃ callback pc position, .pass callback pc position false ∈ s.frames.map Frame.invalidate := by
    obtain ⟨f, hf, hpass⟩ := List.any_eq_true.mp h
    cases f with
    | pass callback pc position valid => exact ⟨_, _, _, mem_invalidate hf⟩
    | register observer => cases hpass
  cases (step_does hstep).2 with
  | next hnext => cases hok
  | register observer =>
    obtain ⟨callback, pc, position, hmem⟩ := hpass (by simpa [LeavesPassAlone] using hok)
    exact .inr ⟨_, _, _, mem_frames_register hmem⟩
  | unregister observer =>
    unfold unregister
    split
    · next hmem =>
      obtain ⟨callback, pc, position, hmem⟩ := hpass (by simpa [LeavesPassAlone, hmem] using hok)
      exact .inr ⟨_, _, _, hmem⟩
    · exact .inl rfl
  | notify callback _ hok' => exact absurd (hok.symm.trans hok') Bool.false_ne_true
  | setInProgress inProgress hok' => exact absurd (hok.symm.trans hok') Bool.false_ne_true

theorem Broken.next (h : Broken s) (hdefined : s.undefinedBehaviour = false)
    (hnext : next s = some s') : Broken s' := by
  obtain ⟨callback, pc, position, hmem⟩ := h.resolve_left (by simp [hdefined])
  unfold Observers.next at hnext
  split at hnext
  · cases hnext
  · next hframes =>
    obtain rfl := Option.some.inj hnext
    rw [hframes] at hmem
    rcases List.mem_cons.mp hmem with heq | hmem
    · cases heq
    · exact .inr ⟨_, _, _, hmem⟩
  · next hframes =>
    obtain rfl := Option.some.inj hnext
    rw [hframes] at hmem
    rcases List.mem_cons.mp hmem with heq | hmem
    · cases heq
      exact .inr ⟨_, _, _, List.mem_cons_self⟩
    · exact .inr ⟨_, _, _, List.mem_cons_of_mem _ hmem⟩
  · next valid outer hframes =>
    rw [hframes] at hmem
    split at hnext
    · next hvalid =>
      have houter : .pass callback pc position false ∈ outer := by
        rcases List.mem_cons.mp hmem with heq | hmem
        · cases heq
          cases hvalid
        · exact hmem
      split at hnext
      · obtain rfl := Option.some.inj hnext
        exact .inr ⟨_, _, _, List.mem_cons_of_mem _ houter⟩
      · obtain rfl := Option.some.inj hnext
        exact .inr ⟨_, _, _, houter⟩
    · obtain rfl := Option.some.inj hnext
      exact .inl rfl

theorem Broken.step (h : Broken s) (hstep : observers.step s a = some s') : Broken s' := by
  obtain ⟨hdefined, hdoes⟩ := step_does hstep
  obtain ⟨callback, pc, position, hmem⟩ := h.resolve_left (by simp [hdefined])
  cases hdoes with
  | next hnext => exact h.next hdefined hnext
  | register observer => exact .inr ⟨_, _, _, mem_frames_register (mem_invalidate hmem)⟩
  | unregister observer =>
    unfold unregister
    split
    · exact .inr ⟨_, _, _, mem_invalidate hmem⟩
    · exact .inl rfl
  | notify callback hframes =>
    rw [hframes] at hmem
    cases hmem
  | setInProgress inProgress => exact .inr ⟨_, _, _, hmem⟩

theorem Broken.run (h : Broken s) (hrun : observers.run s as = some s') : Broken s' :=
  (TransitionSystem.Leads.of_runWhere (P := fun _ _ => True) (fun _ _ _ => trivial) hrun).invariant
    h fun _ _ _ hb _ hstep => hb.step hstep

/-- A run leaves every pass alone, or it ends broken. -/
theorem runWhere_or_broken (hrun : observers.run s as = some s') :
    observers.runWhere LeavesPassAlone s as = some s' ∨ Broken s' := by
  induction as generalizing s with
  | nil => exact .inl hrun
  | cons a as ih =>
    obtain ⟨s₁, hstep, hrest⟩ := Option.bind_eq_some_iff.mp hrun
    by_cases hok : LeavesPassAlone s a = true
    · refine (ih hrest).imp_left fun hwhere => ?_
      simp [TransitionSystem.runWhere, hok, hstep, hwhere]
    · exact .inr ((broken_of_meddling (Bool.not_eq_true _ ▸ hok) hstep).run hrest)

/-- Every pass of a run serves the observers when no callback of a pass registers or unregisters
and only registered observers are unregistered; and a run that does not end within a pass
serves them only then. -/
theorem served_of_run (hrun : observers.run {} as = some s) :
    (observers.runWhere LeavesPassAlone {} as = some s → Served s) ∧
      (s.inPass = false → Served s → observers.runWhere LeavesPassAlone {} as = some s) := by
  refine ⟨served_of_runWhere, ?_⟩
  intro hpass hserved
  rcases runWhere_or_broken hrun with hwhere | hundefined | ⟨callback, pc, position, hmem⟩
  · exact hwhere
  · rw [hserved.defined] at hundefined
    cases hundefined
  · exact absurd hmem (not_mem_frames hpass _ _ _ _)

/-- Two observers, the first of which is registered twice, and a pass over them. -/
def onePass : List Action :=
  [.register 0, .register 1, .register 0, .notifyRepoSynced] ++ List.replicate 7 .next

theorem served_of_run_onePass : ∃ s, observers.run {} onePass = some s ∧ Served s ∧
    s.log.count (.called .repositorySynchronize 0) = 2 :=
  by
  obtain ⟨s, hrun, hcount, hwhere⟩ : ∃ s, observers.run {} onePass = some s ∧
      s.log.count (.called .repositorySynchronize 0) = 2 ∧
      observers.runWhere LeavesPassAlone {} onePass = some s := ⟨_, rfl, rfl, rfl⟩
  exact ⟨s, hrun, (served_of_run hrun).1 hwhere, hcount⟩

/-- The first of three observers unregisters itself in its callback. -/
def unregistersItself : List Action :=
  [.register 0, .register 1, .register 2, .notifyRepoSynced, .next, .unregister 0, .next, .next]

/-- The pass goes on with an invalid iterator, and the second observer has not been called. -/
theorem not_served_unregistersItself : ∃ s, observers.run {} unregistersItself = some s ∧
    s.undefinedBehaviour = true ∧ .called .repositorySynchronize 1 ∉ s.log ∧ ¬ Served s :=
  ⟨_, rfl, rfl, by decide, fun h => absurd h.defined (by decide)⟩

end SoftwareUpdate.Packager.Observers
