import Mathlib.Data.Option.Basic

/-!
# Transition systems with computed steps

A system has initial states and a partial step function: `step s a = some s'` when action
`a` is enabled in `s`. A safety claim is about the states its runs reach; a claim that
holds under a condition is about the runs all of whose steps meet the condition
(`ReachableWhere`). What happens after some state is about the states it `Leads` to. Because
steps are computed, a run on a concrete list of actions is evaluated (`run`) and then counts as
a proof of reachability.
-/

namespace SoftwareUpdate.Misc

/-- Initial states and a partial step function. -/
structure TransitionSystem (σ α : Type*) where
  init : σ → Prop
  step : σ → α → Option σ

namespace TransitionSystem

variable {σ α : Type*} (sys : TransitionSystem σ α)

/-- The states reached by the runs in which every step `s —a→ s'` satisfies `P s a`. -/
inductive ReachableWhere (P : σ → α → Prop) : σ → Prop
  | init {s : σ} : sys.init s → ReachableWhere P s
  | step {s s' : σ} {a : α} :
      ReachableWhere P s → P s a → sys.step s a = some s' → ReachableWhere P s'

/-- The states reached by any run. -/
def Reachable : σ → Prop := sys.ReachableWhere fun _ _ => True

/-- The state after the actions `as`, when every one of them passes the test `ok` and is
enabled in its turn. -/
def runWhere (ok : σ → α → Bool) (s : σ) : List α → Option σ
  | [] => some s
  | a :: as => if ok s a then (sys.step s a).bind fun s' => runWhere ok s' as else none

/-- The state after the actions `as`, when every one of them is enabled in its turn. -/
def run (s : σ) (as : List α) : Option σ := sys.runWhere (fun _ _ => true) s as

variable {sys}

theorem run_cons {s : σ} {a : α} {as : List α} :
    sys.run s (a :: as) = (sys.step s a).bind fun s' => sys.run s' as := by
  simp [TransitionSystem.run, runWhere]

/-- A predicate that holds initially and that every admitted step out of a reached state
keeps, holds in every reached state. -/
theorem ReachableWhere.invariant {P : σ → α → Prop} {I : σ → Prop}
    (start : ∀ s, sys.init s → I s)
    (keep : ∀ s a s', sys.ReachableWhere P s → I s → P s a → sys.step s a = some s' → I s')
    {s : σ} (h : sys.ReachableWhere P s) : I s := by
  induction h with
  | init hs => exact start _ hs
  | step hs ha hstep ih => exact keep _ _ _ hs ih ha hstep

theorem ReachableWhere.mono {P Q : σ → α → Prop} (hPQ : ∀ s a, P s a → Q s a) {s : σ}
    (h : sys.ReachableWhere P s) : sys.ReachableWhere Q s := by
  induction h with
  | init hs => exact .init hs
  | step _ ha hstep ih => exact .step ih (hPQ _ _ ha) hstep

/-- A conditional run is a run. -/
theorem ReachableWhere.reachable {P : σ → α → Prop} {s : σ} (h : sys.ReachableWhere P s) :
    sys.Reachable s :=
  h.mono fun _ _ _ => trivial

/-- A computed run from a reached state ends in a reached state. -/
theorem ReachableWhere.run {P : σ → α → Prop} {ok : σ → α → Bool}
    (hok : ∀ s a, sys.ReachableWhere P s → ok s a = true → P s a) {as : List α} :
    ∀ {s s' : σ}, sys.ReachableWhere P s → sys.runWhere ok s as = some s' →
      sys.ReachableWhere P s' := by
  induction as with
  | nil =>
    intro s s' h hrun
    obtain rfl : s = s' := by simpa [runWhere] using hrun
    exact h
  | cons a as ih =>
    intro s s' h hrun
    simp only [runWhere] at hrun
    split at hrun
    case isTrue ha =>
      obtain ⟨s₁, hstep, hrest⟩ := Option.bind_eq_some_iff.mp hrun
      exact ih (.step h (hok s a h ha) hstep) hrest
    case isFalse => cases hrun

/-- An invariant of every run, stated for a step relation that may use reachability. -/
theorem Reachable.invariant {I : σ → Prop} (start : ∀ s, sys.init s → I s)
    (keep : ∀ s a s', sys.Reachable s → I s → sys.step s a = some s' → I s')
    {s : σ} (h : sys.Reachable s) : I s :=
  ReachableWhere.invariant start (fun s a s' hs hi _ hstep => keep s a s' hs hi hstep) h

/-- A test that succeeds at the end of a computed run is met by a reached state. -/
theorem exists_reachableWhere_of_run {P : σ → α → Prop} {ok : σ → α → Bool}
    (hok : ∀ s a, sys.ReachableWhere P s → ok s a = true → P s a) {s : σ} {as : List α}
    {test : σ → Bool} (hs : sys.init s) (h : (sys.runWhere ok s as).any test = true) :
    ∃ s', sys.ReachableWhere P s' ∧ test s' = true := by
  obtain ⟨hsome, htest⟩ := (Option.any_eq_true_iff_get _ _).mp h
  exact ⟨_, ReachableWhere.run hok (.init hs) (Option.some_get hsome).symm, htest⟩

theorem exists_reachable_of_run (sys : TransitionSystem σ α) (s : σ) (as : List α)
    (test : σ → Bool) (hs : sys.init s) (h : (sys.run s as).any test = true) :
    ∃ s', sys.Reachable s' ∧ test s' = true :=
  exists_reachableWhere_of_run (fun _ _ _ _ => trivial) hs h

/-! ## From one state to a later one -/

variable (sys) in
/-- The states that `s` leads to by steps that satisfy `P`. -/
inductive Leads (P : σ → α → Prop) (s : σ) : σ → Prop
  | refl : Leads P s s
  | tail {s' s'' : σ} {a : α} :
      Leads P s s' → P s' a → sys.step s' a = some s'' → Leads P s s''

namespace Leads

variable {P : σ → α → Prop} {s s' s'' : σ}

/-- What holds at the start and is kept by every admitted step holds at the end. -/
theorem invariant {I : σ → Prop} (h : sys.Leads P s s') (start : I s)
    (keep : ∀ s₁ a s₂, I s₁ → P s₁ a → sys.step s₁ a = some s₂ → I s₂) : I s' := by
  induction h with
  | refl => exact start
  | tail _ ha hstep ih => exact keep _ _ _ ih ha hstep

theorem mono {Q : σ → α → Prop} (hPQ : ∀ s a, P s a → Q s a) (h : sys.Leads P s s') :
    sys.Leads Q s s' := by
  induction h with
  | refl => exact .refl
  | tail _ ha hstep ih => exact .tail ih (hPQ _ _ ha) hstep

theorem trans (h : sys.Leads P s s') (h' : sys.Leads P s' s'') : sys.Leads P s s'' := by
  induction h' with
  | refl => exact h
  | tail _ ha hstep ih => exact .tail ih ha hstep

theorem single {a : α} (ha : P s a) (hstep : sys.step s a = some s') : sys.Leads P s s' :=
  .tail .refl ha hstep

/-- What a reached state leads to is reached. -/
theorem reachableWhere {Q : σ → α → Prop} (h : sys.Leads P s s') (hPQ : ∀ s a, P s a → Q s a)
    (hs : sys.ReachableWhere Q s) : sys.ReachableWhere Q s' := by
  induction h with
  | refl => exact hs
  | tail _ ha hstep ih => exact .step ih (hPQ _ _ ha) hstep

/-- A computed run leads from its first state to its last. -/
theorem of_runWhere {ok : σ → α → Bool} (hok : ∀ s a, ok s a = true → P s a) {as : List α} :
    ∀ {s s' : σ}, sys.runWhere ok s as = some s' → sys.Leads P s s' := by
  induction as with
  | nil =>
    intro s s' hrun
    obtain rfl : s = s' := by simpa [runWhere] using hrun
    exact .refl
  | cons a as ih =>
    intro s s' hrun
    simp only [runWhere] at hrun
    split at hrun
    case isTrue ha =>
      obtain ⟨s₁, hstep, hrest⟩ := Option.bind_eq_some_iff.mp hrun
      exact (single (hok s a ha) hstep).trans (ih hrest)
    case isFalse => cases hrun

end Leads

end TransitionSystem

end SoftwareUpdate.Misc
