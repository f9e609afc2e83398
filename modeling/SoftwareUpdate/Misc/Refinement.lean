import SoftwareUpdate.Misc.TransitionSystem

/-!
# Refinement

A concrete system refines an abstract one when an abstraction function takes every step to the
step of the event it stands for, or to no step at all. What the events of a run do to the
abstract state is then what the run does to the abstraction of the concrete one. The abstract
system used here is a slot that holds one item at a time: items are put in and taken out in
turn.
-/

namespace SoftwareUpdate.Misc

namespace TransitionSystem

variable {σ α τ β : Type*} {conc : TransitionSystem σ α} {abst : TransitionSystem τ β}
  {f : σ → τ} {event : σ → α → Option β}

/-- By `f`, every step out of a reached state is the step of its event, or it leaves the
abstract state as it is. -/
structure Refines (conc : TransitionSystem σ α) (abst : TransitionSystem τ β) (f : σ → τ)
    (event : σ → α → Option β) : Prop where
  init : ∀ s, conc.init s → abst.init (f s)
  step : ∀ s a s', conc.Reachable s → conc.step s a = some s' →
    (event s a).elim (some (f s)) (abst.step (f s)) = some (f s')

/-- The events of a run. -/
def events (conc : TransitionSystem σ α) (event : σ → α → Option β) (s : σ) : List α → List β
  | [] => []
  | a :: as => (event s a).toList ++ (conc.step s a).elim [] fun s' => events conc event s' as

/-- The events of a run take the abstract state where the run takes the concrete one. -/
theorem Refines.run (h : Refines conc abst f event) {as : List α} :
    ∀ {s s' : σ}, conc.Reachable s → conc.run s as = some s' →
      abst.run (f s) (conc.events event s as) = some (f s') := by
  induction as with
  | nil =>
    intro s s' _ hrun
    obtain rfl : s = s' := Option.some.inj hrun
    rfl
  | cons a as ih =>
    intro s s' hs hrun
    rw [run_cons] at hrun
    obtain ⟨s₁, hstep, hrest⟩ := Option.bind_eq_some_iff.mp hrun
    have habst := h.step s a s₁ hs hstep
    have hafter := ih (.step hs trivial hstep) hrest
    simp only [events, hstep, Option.elim_some]
    cases hevent : event s a with
    | none =>
      rw [hevent, Option.elim_none, Option.some.injEq] at habst
      rw [habst]
      exact hafter
    | some b =>
      rw [hevent, Option.elim_some] at habst
      rw [Option.toList_some, List.singleton_append, run_cons, habst]
      exact hafter

/-- What every step keeps, with the event it adds, is kept by a run. -/
theorem invariant_events {I : σ → List β → Prop} (keep : ∀ s a s' evs, conc.Reachable s →
      I s evs → conc.step s a = some s' → I s' (evs ++ (event s a).toList)) {as : List α} :
    ∀ {s s' : σ} {evs : List β}, conc.Reachable s → I s evs → conc.run s as = some s' →
      I s' (evs ++ conc.events event s as) := by
  induction as with
  | nil =>
    intro s s' evs _ hi hrun
    obtain rfl : s = s' := Option.some.inj hrun
    simpa [events] using hi
  | cons a as ih =>
    intro s s' evs hs hi hrun
    rw [run_cons] at hrun
    obtain ⟨s₁, hstep, hrest⟩ := Option.bind_eq_some_iff.mp hrun
    have hafter := ih (.step hs trivial hstep) (keep s a s₁ evs hs hi hstep) hrest
    rw [List.append_assoc] at hafter
    simpa only [events, hstep, Option.elim_some] using hafter

/-! ## Systems that take every action -/

/-- The steps are those of a function. -/
def ofFun (init : σ → Prop) (f : σ → α → σ) : TransitionSystem σ α where
  init := init
  step s a := some (f s a)

section OfFun

variable {init : σ → Prop} {init' : τ → Prop} {g : σ → α → σ} {g' : τ → β → τ}
  {ev : α → Option β} {as : List α}

theorem run_ofFun {s : σ} : (ofFun init g).run s as = some (as.foldl g s) := by
  induction as generalizing s with
  | nil => rfl
  | cons a as ih =>
    rw [run_cons]
    exact ih

theorem events_ofFun {s : σ} :
    (ofFun init g).events (fun _ => ev) s as = as.filterMap ev := by
  induction as generalizing s with
  | nil => rfl
  | cons a as ih =>
    have hstep : (ofFun init g).step s a = some (g s a) := rfl
    rw [events, hstep, Option.elim_some, ih, List.filterMap_cons]
    cases ev a <;> rfl

/-- The events of the actions take the abstract state where the actions take the concrete one. -/
theorem Refines.foldl (h : (ofFun init g).Refines (ofFun init' g') f fun _ => ev) {s : σ}
    (hs : init s) (as : List α) : (as.filterMap ev).foldl g' (f s) = f (as.foldl g s) := by
  have hend : (ofFun init g).run s as = some (as.foldl g s) := run_ofFun
  have hrun := h.run (.init hs) hend
  rw [events_ofFun, run_ofFun] at hrun
  exact Option.some.inj hrun

theorem reachable_ofFun {s : σ} (hs : (ofFun init g).Reachable s) (as : List α) :
    (ofFun init g).Reachable (as.foldl g s) := by
  induction as generalizing s with
  | nil => exact hs
  | cons a as ih => exact ih (.step hs trivial rfl)

end OfFun

end TransitionSystem

/-! ## A slot for one item -/

inductive SlotEvent (ρ : Type*) where
  | put (r : ρ)
  | take
  deriving DecidableEq, Repr

variable {ρ : Type*}

/-- An item is put into the empty slot, and taken out of the full one. -/
def oneSlot (ρ : Type*) : TransitionSystem (Option ρ) (SlotEvent ρ) where
  init slot := slot = none
  step
    | none, .put r => some (some r)
    | some _, .take => some none
    | _, _ => none

/-- The items have gone through the slot one by one, but for the one that is in it. -/
theorem oneSlot_run {evs : List (SlotEvent ρ)} :
    ∀ {slot slot' : Option ρ}, (oneSlot ρ).run slot evs = some slot' →
      ∃ served : List ρ, slot.toList.map .put ++ evs =
        served.flatMap (fun r => [.put r, .take]) ++ slot'.toList.map .put := by
  induction evs with
  | nil =>
    intro slot slot' hrun
    obtain rfl : slot = slot' := Option.some.inj hrun
    exact ⟨[], by simp⟩
  | cons ev evs ih =>
    intro slot slot' hrun
    rw [TransitionSystem.run_cons] at hrun
    obtain ⟨slot₁, hstep, hrest⟩ := Option.bind_eq_some_iff.mp hrun
    obtain ⟨served, hserved⟩ := ih hrest
    cases slot with
    | none =>
      cases ev with
      | put r =>
        obtain rfl : some r = slot₁ := Option.some.inj hstep
        exact ⟨served, hserved⟩
      | take => cases hstep
    | some r =>
      cases ev with
      | put r' => cases hstep
      | take =>
        obtain rfl : none = slot₁ := Option.some.inj hstep
        refine ⟨r :: served, ?_⟩
        simpa using hserved

end SoftwareUpdate.Misc
