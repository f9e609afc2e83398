import SoftwareUpdate.MaintenanceManager.Proofs.Lifecycle

/-!
# Runs

Induction over the runs of the plugin, with the invariant of every run at hand, and the
states that computed runs reach.
-/

namespace SoftwareUpdate.MaintenanceManager

open Misc

variable {cfg : Config} {s s' : Sys} {t u : Tid} {l : Thread} {e : Effect}
  {C : Sys → Tid → Thread → Effect → Prop}

theorem ReachedWhere.reachable (h : ReachedWhere cfg C s) : (plugin cfg).Reachable s :=
  TransitionSystem.ReachableWhere.reachable h

theorem ReachedWhere.ok (h : ReachedWhere cfg C s) : SysOk cfg s := sysOk_of_reachable h.reachable

theorem ReachedWhere.mono {D : Sys → Tid → Thread → Effect → Prop}
    (hCD : ∀ s t l e, C s t l e → D s t l e) (h : ReachedWhere cfg C s) : ReachedWhere cfg D s :=
  TransitionSystem.ReachableWhere.mono (fun _ _ ha t l e ho => hCD _ _ _ _ (ha t l e ho)) h

theorem reachedWhere_of_reachable (h : (plugin cfg).Reachable s) :
    ReachedWhere cfg (fun _ _ _ _ => True) s :=
  TransitionSystem.ReachableWhere.mono (fun _ _ _ _ _ _ _ => trivial) h

/-! ## Induction -/

/-- What holds after boot-up and is kept by every move that meets the condition. -/
theorem ReachedWhere.induct {I : Sys → Prop}
    (boot : ∀ threadCreated, I (maintenanceManagerOnBootup cfg threadCreated))
    (step : ∀ {s t l e}, ReachedWhere cfg C s → SysOk cfg s → I s → Move cfg s t l e →
      e.enabled s t = true → C s t l e → I (s.commit cfg t l e))
    (h : ReachedWhere cfg C s) : I s := by
  refine TransitionSystem.ReachableWhere.invariant ?_ ?_ h
  · rintro s ⟨threadCreated, rfl⟩
    exact boot threadCreated
  · intro s a s' hs hi ha hstep
    obtain ⟨t, l, e, hoffer, hen, rfl⟩ := step_commit hstep
    exact step hs (ReachedWhere.ok hs) hi (offer_move hoffer) hen (ha t l e hoffer)

/-- An assertion `A s u l` about every thread `u` at its program point `l`, kept by the thread
that moves (`own`), by the others (`other`), and true of a new worker. -/
theorem ReachedWhere.forall_threads {A : Sys → Tid → Thread → Prop}
    (boot : ∀ threadCreated u, A (maintenanceManagerOnBootup cfg threadCreated) u
      ((maintenanceManagerOnBootup cfg threadCreated).thread u))
    (own : ∀ {s t l e}, ReachedWhere cfg C s → SysOk cfg s → A s t (s.thread t) →
      Move cfg s t l e → e.enabled s t = true → C s t l e → A (s.commit cfg t l e) t l)
    (other : ∀ {s t l e u}, ReachedWhere cfg C s → SysOk cfg s → A s u (s.thread u) →
      Move cfg s t l e → e.enabled s t = true → C s t l e → u ≠ t →
      A (s.commit cfg t l e) u (s.thread u))
    (new : ∀ {s t l w}, ReachedWhere cfg C s → SysOk cfg s → Move cfg s t l (.create w) →
      A (s.commit cfg t l (.create w)) w (.worker (Worker.create cfg)))
    (h : ReachedWhere cfg C s) (u : Tid) : A s u (s.thread u) := by
  refine h.induct (I := fun s => ∀ u, A s u (s.thread u)) boot ?_ u
  intro s t l e hs hok hall hmove hen hc
  refine forall_threads_commit hall (own hs hok (hall t) hmove hen hc)
    (fun u hu ha => other hs hok ha hmove hen hc hu) ?_
  rintro w rfl
  exact new hs hok hmove

/-- After boot-up there is the worker, if it could be created. -/
theorem boot_thread (threadCreated : Bool) (u : Tid) :
    (maintenanceManagerOnBootup cfg threadCreated).thread u = .idle ∨
      (maintenanceManagerOnBootup cfg threadCreated).thread u = .worker (Worker.create cfg) := by
  by_cases hu : u = 0 <;> cases threadCreated <;> simp [maintenanceManagerOnBootup, hu]

/-- An assertion `A s pc` about every handler at its program point, true when the handler is
entered (`entry`), kept by its statements (`own`), by what moves no thread (`still`) and by
the other threads (`other`). -/
theorem ReachedWhere.forall_handlers {A : Sys → EventPc → Prop}
    (entry : ∀ s ev, A s (.testInstance ev))
    (own : ∀ {s t pc pc' c e}, ReachedWhere cfg C s → A s pc → s.thread t = .event pc →
      iarmEventHandler cfg s pc c = (.event pc', e) → C s t (.event pc') e →
      A (s.commit cfg t (.event pc') e) pc')
    (still : ∀ {s t pc e}, A s pc → e = .spuriousWakeUp ∨ e = .timerExpires →
      A (s.commit cfg t (.event pc) e) pc)
    (other : ∀ {s t l e u pc}, ReachedWhere cfg C s → SysOk cfg s → A s pc →
      s.thread u = .event pc → Move cfg s t l e → C s t l e → u ≠ t →
      A (s.commit cfg t l e) pc)
    (h : ReachedWhere cfg C s) {pc : EventPc} (hthread : s.thread u = .event pc) : A s pc := by
  refine h.forall_threads (A := fun s _ l => ∀ pc, l = .event pc → A s pc) ?_ ?_ ?_ ?_ u pc hthread
  · intro threadCreated u pc hpc
    rcases boot_thread threadCreated u with hu | hu <;> cases hu.symm.trans hpc
  · intro s t l e hreach _ ha hmove _ hcond pc hl
    subst hl
    by_cases hentry : ∃ ev, pc = .testInstance ev
    · obtain ⟨ev, rfl⟩ := hentry
      exact entry _ ev
    · rcases hmove.event fun ev hev => hentry ⟨ev, hev⟩ with ⟨pc₀, c, hp, hst⟩ | ⟨hp, he⟩
      · exact own hreach (ha pc₀ hp) hp hst hcond
      · exact still (ha pc hp) he
  · intro s t l e u hreach hok ha hmove _ hcond hu pc hp
    exact other hreach hok (ha pc hp) hp hmove hcond hu
  · intro s t l w _ _ _ pc hl
    cases hl

/-- The same for `stopMaintenanceTasks`, called by `stopMaintenance` or by `Deinitialize`. -/
theorem ReachedWhere.forall_stops {A : Sys → Bool → StopPc → Prop}
    (entry : ∀ s, A s false .lock ∧ A s true .deleteTimer)
    (own : ∀ {s t d pc pc' c e}, ReachedWhere cfg C s → SysOk cfg s → A s d pc →
      s.thread t = .stop d pc → stopMaintenanceTasks s d pc c = (.stop d pc', e) →
      Move cfg s t (.stop d pc') e → e.enabled s t = true → C s t (.stop d pc') e →
      A (s.commit cfg t (.stop d pc') e) d pc')
    (still : ∀ {s t d pc e}, ReachedWhere cfg C s → SysOk cfg s → A s d pc →
      s.thread t = .stop d pc → Move cfg s t (.stop d pc) e → e.enabled s t = true →
      C s t (.stop d pc) e → e = .spuriousWakeUp ∨ e = .timerExpires →
      A (s.commit cfg t (.stop d pc) e) d pc)
    (other : ∀ {s t l e u d pc}, ReachedWhere cfg C s → SysOk cfg s → A s d pc →
      s.thread u = .stop d pc → Move cfg s t l e → e.enabled s t = true → C s t l e → u ≠ t →
      A (s.commit cfg t l e) d pc)
    (h : ReachedWhere cfg C s) {d : Bool} {pc : StopPc} (hthread : s.thread u = .stop d pc) :
    A s d pc := by
  refine h.forall_threads (A := fun s _ l => ∀ d pc, l = .stop d pc → A s d pc) ?_ ?_ ?_ ?_ u d pc
    hthread
  · intro threadCreated u d pc hpc
    rcases boot_thread threadCreated u with hu | hu <;> cases hu.symm.trans hpc
  · intro s t l e hreach hok ha hmove hen hcond d pc hl
    subst hl
    by_cases hentry : ∃ r : Request, Thread.stop d pc = r.entry
    · obtain ⟨r, hr⟩ := hentry
      cases r <;> cases hr
      · exact (entry _).1
      · exact (entry _).2
    · rcases hmove.stop fun r hr => hentry ⟨r, hr⟩ with ⟨pc₀, c, hp, hst⟩ | ⟨hp, he⟩
      · exact own hreach hok (ha d pc₀ hp) hp hst hmove hen hcond
      · exact still hreach hok (ha d pc hp) hp hmove hen hcond he
  · intro s t l e u hreach hok ha hmove hen hcond hu d pc hp
    exact other hreach hok (ha d pc hp) hp hmove hen hcond hu
  · intro s t l w _ _ _ d pc hl
    cases hl

/-! ## From one state to a later one -/

/-- What `s` leads to by moves that meet the condition `C`. -/
def LeadsWhere (cfg : Config) (C : Sys → Tid → Thread → Effect → Prop) : Sys → Sys → Prop :=
  (plugin cfg).Leads fun s a => ∀ t l e, offer cfg s a = some (t, l, e) → C s t l e

/-- What holds at the start and is kept by every move that meets the condition. -/
theorem LeadsWhere.induct {I : Sys → Prop} (h : LeadsWhere cfg C s s') (hok : SysOk cfg s)
    (start : I s)
    (step : ∀ {s t l e}, SysOk cfg s → I s → Move cfg s t l e → e.enabled s t = true →
      C s t l e → I (s.commit cfg t l e)) : I s' := by
  refine (TransitionSystem.Leads.invariant (I := fun s => SysOk cfg s ∧ I s) h ⟨hok, start⟩ ?_).2
  rintro s₁ a s₂ ⟨hok₁, hi⟩ ha hstep
  obtain ⟨t, l, e, hoffer, hen, rfl⟩ := step_commit hstep
  have hmove := offer_move hoffer
  exact ⟨hok₁.step hmove hen, step hok₁ hi hmove hen (ha t l e hoffer)⟩

theorem LeadsWhere.mono {D : Sys → Tid → Thread → Effect → Prop}
    (hCD : ∀ s t l e, C s t l e → D s t l e) (h : LeadsWhere cfg C s s') : LeadsWhere cfg D s s' :=
  TransitionSystem.Leads.mono (fun _ _ ha t l e ho => hCD _ _ _ _ (ha t l e ho)) h

theorem LeadsWhere.reached {D : Sys → Tid → Thread → Effect → Prop} (h : LeadsWhere cfg C s s')
    (hCD : ∀ s t l e, C s t l e → D s t l e) (hs : ReachedWhere cfg D s) : ReachedWhere cfg D s' :=
  TransitionSystem.Leads.reachableWhere h (fun _ _ ha t l e ho => hCD _ _ _ _ (ha t l e ho)) hs

/-! ## Computed runs -/

/-- A computed run whose moves pass a test that implies the condition. -/
theorem exists_reachedWhere_of_run (cfg : Config) (C : Sys → Tid → Thread → Effect → Prop)
    (threadCreated : Bool) (as : List Action) (test : Sys → Bool)
    (ok : Sys → Tid → Thread → Effect → Bool)
    (hok : ∀ s t l e, SysOk cfg s → ok s t l e = true → C s t l e)
    (h : ((plugin cfg).runWhere
      (fun s a => (offer cfg s a).all fun p => ok s p.1 p.2.1 p.2.2)
      (maintenanceManagerOnBootup cfg threadCreated) as).any test = true) :
    ∃ s, ReachedWhere cfg C s ∧ test s = true := by
  refine TransitionSystem.exists_reachableWhere_of_run (fun s a hs ha t l e hoffer => ?_)
    ⟨threadCreated, rfl⟩ h
  rw [hoffer] at ha
  exact hok s t l e (ReachedWhere.ok hs) ha

/-- A computed run leads to its last state. -/
theorem leadsWhere_of_run {as : List Action} {ok : Sys → Tid → Thread → Effect → Bool}
    (hok : ∀ s t l e, ok s t l e = true → C s t l e)
    (h : (plugin cfg).runWhere (fun s a => (offer cfg s a).all fun p => ok s p.1 p.2.1 p.2.2) s as =
      some s') : LeadsWhere cfg C s s' := by
  refine TransitionSystem.Leads.of_runWhere (fun s a ha t l e hoffer => ?_) h
  rw [hoffer] at ha
  exact hok s t l e ha

/-- A test of a thread: it is a worker that passes `p`. -/
def Thread.isWorker (p : Worker → Bool) : Thread → Bool
  | .worker w => p w
  | _ => false

theorem Thread.isWorker_iff {p : Worker → Bool} :
    l.isWorker p = true ↔ ∃ w, l = .worker w ∧ p w = true := by
  cases l <;> simp [isWorker]

/-- A test of a thread: it is a handler that is about to report `v`. -/
def Thread.isReporting (v : NotifyStatus) : Thread → Bool
  | .event (.notify u) => u == v
  | _ => false

theorem Thread.isReporting_iff {v : NotifyStatus} :
    l.isReporting v = true ↔ l = .event (.notify v) := by
  cases l with
  | event pc => cases pc <;> simp [isReporting]
  | _ => simp [isReporting]

/-- A test of a thread: `stopMaintenanceTasks` is about to return true. -/
def Thread.isReturning : Thread → Bool
  | .stop false (.unlock true) => true
  | _ => false

theorem Thread.isReturning_iff : l.isReturning = true ↔ l = .stop false (.unlock true) := by
  constructor
  · intro h
    unfold isReturning at h
    split at h
    case h_1 => rfl
    case h_2 => cases h
  · rintro rfl
    rfl

/-- The threads an action can move or create are below `n`. -/
def Action.below (n : ℕ) : Action → Bool
  | .run t c => t < n && c.thread.all (· < n)
  | .call t _ | .wakeUp t | .signal t => t < n
  | .timerExpires => 0 < n

theorem Action.below_offer {n : ℕ} {a : Action} (ha : a.below n = true)
    (h : offer cfg s a = some (t, l, e)) : t < n ∧ ∀ w, e = .create w → w < n := by
  cases a with
  | run t' c =>
    simp only [Action.below, Bool.and_eq_true, decide_eq_true_eq] at ha
    simp only [offer] at h
    split at h
    case isTrue => cases h
    case isFalse =>
      obtain ⟨⟨l', e'⟩, hst, heq⟩ := Option.map_eq_some_iff.mp h
      cases heq
      refine ⟨ha.1, ?_⟩
      rintro w rfl
      obtain ⟨prev, hp⟩ := statement_origin hst
      rw [hp] at hst
      simp only [statement, startMaintenance] at hst
      split at hst <;> cases hst
      rename_i hw
      simpa [hw] using ha.2
  | call t' r =>
    simp only [offer] at h
    split at h <;> cases h
    exact ⟨by simpa [Action.below] using ha, by simp⟩
  | wakeUp t' =>
    cases h
    exact ⟨by simpa [Action.below] using ha, by simp⟩
  | timerExpires =>
    cases h
    exact ⟨by simpa [Action.below] using ha, by simp⟩
  | signal t' =>
    simp only [offer] at h
    split at h <;> cases h
    exact ⟨by simpa [Action.below] using ha, by simp⟩

/-- The threads a move does not mention do nothing. -/
theorem idle_commit {n : ℕ} {a : Action} (ha : a.below n = true)
    (hs : ∀ u, n ≤ u → s.thread u = .idle) (h : offer cfg s a = some (t, l, e)) (u : Tid)
    (hu : n ≤ u) : (s.commit cfg t l e).thread u = .idle := by
  obtain ⟨ht, hcreate⟩ := Action.below_offer ha h
  rw [commit_thread_of_ne (Nat.lt_of_lt_of_le ht hu).ne']
  cases e with
  | create w =>
    have huw : u ≠ w := (Nat.lt_of_lt_of_le (hcreate w rfl) hu).ne'
    simpa [Effect.apply, huw] using hs u hu
  | _ => exact hs u hu

/-- The threads a computed run does not mention do nothing, which a test of the condition may
use. -/
theorem reachedWhere_idle_of_run {n : ℕ} {as : List Action}
    {ok : Sys → Tid → Thread → Effect → Bool}
    (hok : ∀ s t l e, SysOk cfg s → (∀ u, n ≤ u → s.thread u = .idle) → ok s t l e = true →
      C s t l e) :
    ∀ {s s' : Sys}, ReachedWhere cfg C s → (∀ u, n ≤ u → s.thread u = .idle) →
      as.all (Action.below n) = true →
      (plugin cfg).runWhere (fun s a => (offer cfg s a).all fun p => ok s p.1 p.2.1 p.2.2) s as =
        some s' →
      ReachedWhere cfg C s' ∧ ∀ u, n ≤ u → s'.thread u = .idle := by
  induction as with
  | nil =>
    intro s s' hs hidle _ hrun
    obtain rfl : s = s' := by simpa [TransitionSystem.runWhere] using hrun
    exact ⟨hs, hidle⟩
  | cons a as ih =>
    intro s s' hs hidle hall hrun
    simp only [List.all_cons, Bool.and_eq_true] at hall
    simp only [TransitionSystem.runWhere] at hrun
    split at hrun
    case isTrue htest =>
      obtain ⟨s₁, hstep, hrest⟩ := Option.bind_eq_some_iff.mp hrun
      have hcond (t : Tid) (l : Thread) (e : Effect) (hoffer : offer cfg s a = some (t, l, e)) :
          C s t l e := by
        rw [hoffer] at htest
        exact hok s t l e hs.ok hidle htest
      refine ih (.step hs hcond hstep) ?_ hall.2 hrest
      obtain ⟨t, l, e, hoffer, -, rfl⟩ := step_commit hstep
      exact idle_commit hall.1 hidle hoffer
    case isFalse => cases hrun

theorem idle_boot {n : ℕ} (hn : 0 < n) (threadCreated : Bool) (u : Tid) (hu : n ≤ u) :
    (maintenanceManagerOnBootup cfg threadCreated).thread u = .idle := by
  have hu0 : u ≠ 0 := (Nat.lt_of_lt_of_le hn hu).ne'
  simp [maintenanceManagerOnBootup, hu0]

/-- A computed run on the threads below `n`, whose moves pass a test that implies the
condition. -/
theorem exists_reachedWhere_idle_of_run (cfg : Config)
    (C : Sys → Tid → Thread → Effect → Prop) (n : ℕ) (as : List Action) (test : Sys → Bool)
    (ok : Sys → Tid → Thread → Effect → Bool)
    (hok : ∀ s t l e, SysOk cfg s → (∀ u, n ≤ u → s.thread u = .idle) → ok s t l e = true →
      C s t l e)
    (hn : 0 < n) (hall : as.all (Action.below n) = true)
    (h : ((plugin cfg).runWhere
      (fun s a => (offer cfg s a).all fun p => ok s p.1 p.2.1 p.2.2)
      (maintenanceManagerOnBootup cfg true) as).any test = true) :
    ∃ s, ReachedWhere cfg C s ∧ test s = true ∧ ∀ u, n ≤ u → s.thread u = .idle := by
  obtain ⟨s, hrun, htest⟩ := (Option.any_eq_true _ _).mp h
  obtain ⟨hs, hidle⟩ := reachedWhere_idle_of_run hok (.init ⟨true, rfl⟩) (idle_boot hn true) hall
    hrun
  exact ⟨s, hs, htest, hidle⟩

/-- A computed run, with all threads that do nothing in its last state. -/
theorem exists_reachable_idle_of_run (cfg : Config) (n : ℕ) (as : List Action)
    (test : Sys → Bool) (hn : 0 < n) (hall : as.all (Action.below n) = true)
    (h : ((plugin cfg).run (maintenanceManagerOnBootup cfg true) as).any test = true) :
    ∃ s, (plugin cfg).Reachable s ∧ test s = true ∧ ∀ t, n ≤ t → s.thread t = .idle := by
  obtain ⟨s, hs, htest⟩ := exists_reachedWhere_idle_of_run cfg (fun _ _ _ _ => True) n as test
    (fun _ _ _ _ => true) (fun _ _ _ _ _ _ _ => trivial) hn hall
    (by simpa [TransitionSystem.run] using h)
  exact ⟨s, hs.reachable, htest⟩

end SoftwareUpdate.MaintenanceManager
