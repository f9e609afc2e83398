import SoftwareUpdate.MaintenanceManager.Properties.OneCycle
import SoftwareUpdate.MaintenanceManager.Proofs.Handlers

/-!
# Finished cycles are reported

The COMPLETE bits are set by the event handler, by the timer and by the worker, but only the
handler looks at all three of them afterwards. A cycle stays STARTED for ever when the last
of the bits is set by one of the others and no handler is there to see it.
-/

namespace SoftwareUpdate.MaintenanceManager

open Misc Misc.BitField

variable {cfg : Config} {s s' : Sys} {t u : Tid} {l : Thread} {e : Effect} {w : Worker}

/-- No worker is left, every task is resolved, no event is in the plugin and no stop has been
accepted, and the status is still STARTED. -/
def Stuck (s : Sys) : Prop :=
  s.notifyStatus = .started ∧ tasksCompleted s.taskStatus = true ∧
    (∀ t w, s.thread t ≠ .worker w) ∧ (∀ t pc, s.thread t ≠ .event pc) ∧
    ∀ t, (s.thread t).stopping = false

/-- The thread reports a terminal status, or tests whether one is due. -/
def Thread.settles (l : Thread) : Bool := l.handling || l.stopping

/-- A cycle has been opened and STARTED is still to be posted. -/
def Thread.opens : Thread → Bool
  | .start .setType => true
  | .start pc => (Thread.start pc).solicits
  | .worker w => w.phase == .starting
  | _ => false

/-- A cycle has been opened and no terminal status has been posted for it. -/
def Sys.underway (s : Sys) : Prop :=
  s.notifyStatus = .started ∨ ∃ u, (s.thread u).opens = true

def Cause.isEvent : Cause → Bool
  | .event _ => true
  | _ => false

/-- The last COMPLETE bit of a cycle is set by an event, or while a handler or a stop is under
way; and the two reads of a concluding handler agree. -/
structure LastOutcomeSeen (s : Sys) (t : Tid) (l : Thread) (e : Effect) : Prop where
  seen : ∀ n cause, e = .setStatus n cause → cause.isEvent = false →
    tasksCompleted (raise s.taskStatus n) = true → tasksCompleted s.taskStatus = false →
      s.underway → ∃ u, (s.thread u).settles = true
  reread : RereadsAgree s t l e

theorem Thread.settles_iff : l.settles = true ↔ l.handling = true ∨ l.stopping = true := by
  simp [settles]

theorem ThreadOk.started_of_settles (h : ThreadOk cfg s t l) (hl : l.settles = true) :
    s.notifyStatus = .started := by
  rcases Thread.settles_iff.mp hl with hh | hs
  · exact (h.handling hh).1
  · exact h.stopping hs

/-- A settling thread goes on, posts a status, or finds a task unresolved. -/
theorem Move.settles (h : Move cfg s t l e) (hl : (s.thread t).settles = true) :
    l.settles = true ∨ (∃ v, e = .onMaintenanceStatusChange v) ∨
      tasksCompleted s.taskStatus = false := by
  cases h with
  | run c _ hst =>
    cases hthread : s.thread t with
    | event pc =>
      rw [hthread] at hst hl
      obtain rfl : (iarmEventHandler cfg s pc c).1 = l := congrArg Prod.fst (Option.some.inj hst)
      obtain rfl : (iarmEventHandler cfg s pc c).2 = e := congrArg Prod.snd (Option.some.inj hst)
      clear hst
      fun_cases iarmEventHandler cfg s pc c
      all_goals first
        | exact .inl rfl
        | exact .inr (.inl ⟨_, rfl⟩)
        | cases hl; done
        | simp_all
    | stop d pc =>
      rw [hthread] at hst hl
      obtain rfl : (stopMaintenanceTasks s d pc c).1 = l := congrArg Prod.fst (Option.some.inj hst)
      obtain rfl : (stopMaintenanceTasks s d pc c).2 = e := congrArg Prod.snd (Option.some.inj hst)
      clear hst
      fun_cases stopMaintenanceTasks s d pc c
      all_goals first
        | exact .inl rfl
        | exact .inr (.inl ⟨_, rfl⟩)
        | cases hl
    | _ => rw [hthread] at hl; cases hl
  | call r hidle | signal hidle =>
    rw [hidle] at hl
    cases hl
  | wakeUp | timerExpires => exact .inl hl

/-- A cycle is opened by clearing the bit field. -/
theorem Move.opens (h : Move cfg s t l e) (hok : SysOk cfg s) (hl : l.opens = true) :
    (s.thread t).opens = true ∨ e = .clearTaskStatus := by
  cases l with
  | start pc =>
    rcases h.start (by rintro rfl; cases hl) with ⟨pc₀, c, hthread, hst⟩ | ⟨hthread, -⟩
    · rw [hthread]
      revert hst hl
      fun_cases startMaintenance s pc₀ c <;>
        simp only [Prod.mk.injEq, Thread.start.injEq, reduceCtorEq, false_and,
          IsEmpty.forall_iff, implies_true] <;>
        rintro hl ⟨rfl, rfl⟩ <;> simp_all [Thread.opens, Thread.solicits]
    · rw [hthread]
      exact .inl hl
  | worker w' =>
    rcases h.worker with ⟨w, -, hthread, hstep⟩ | ⟨hthread, -⟩
    · rw [hthread]
      have hstart : w'.phase = .starting := by simpa [Thread.opens] using hl
      rcases hstep.phase (hok.worker hthread).exiting with ⟨hp, -⟩ | ⟨-, hp, -⟩ | ⟨hp, -⟩
      · exact .inl (by simpa [Thread.opens, ← hp] using hl)
      · rw [hp] at hstart
        cases hstart
      · rw [hp] at hstart
        cases hstart
    · rw [hthread]
      exact .inl hl
  | _ => cases hl

theorem underway_of_commit (hreach : ReachedWhere cfg RereadsAgree s) (h : Move cfg s t l e)
    (hen : e.enabled s t = true) (hu : (s.commit cfg t l e).underway) :
    s.underway ∨ e = .clearTaskStatus := by
  have hok := hreach.ok
  rcases hu with hstatus | ⟨u, hu⟩
  · left
    by_cases he : ∃ v, e = .onMaintenanceStatusChange v
    · obtain ⟨v, rfl⟩ := he
      obtain rfl : v = .started := hstatus
      rcases posted_cases hreach h with ⟨-, hne⟩ | ⟨hv, -⟩ | ⟨hv, -⟩
      · rcases h.origin with ⟨w, hw, ⟨hpc, -⟩ | ⟨-, hv⟩⟩ | ⟨d, -, hv⟩ | hp
        · exact .inr ⟨t, by rw [hw]; simp [Thread.opens, Worker.phase, hpc]⟩
        · cases hv
        · cases hv
        · exact .inl ((hok.threads t).handling (by rw [hp]; rfl)).1
      · cases hv
      · cases hv
    · rw [commit_notifyStatus, apply_notifyStatus fun v hv => he ⟨v, hv⟩] at hstatus
      exact .inl hstatus
  · by_cases hut : u = t
    · subst hut
      rw [commit_thread_self] at hu
      exact (h.opens hok hu).imp_left fun ho => .inr ⟨u, ho⟩
    · left
      by_cases hc : e = .create u
      · subst hc
        obtain ⟨prev, hp⟩ := h.origin
        exact .inr ⟨t, by rw [hp]; rfl⟩
      · refine .inr ⟨u, ?_⟩
        rw [commit_thread_of_ne hut] at hu
        cases e with
        | create w =>
          have huw : u ≠ w := fun heq => hc (by rw [heq])
          simpa [Effect.apply, huw] using hu
        | _ => exact hu

theorem ThreadOk.not_started_of_opens (h : ThreadOk cfg s t l) (hl : l.opens = true) :
    s.notifyStatus ≠ .started := by
  cases l with
  | start pc => exact (h.opening (by cases pc <;> first | rfl | cases hl)).1
  | worker w =>
    have hstatus := (h.worker w rfl).status
    rwa [show w.phase = .starting by simpa [Thread.opens] using hl] at hstatus
  | _ => cases hl

/-- While a cycle is under way with every task resolved, somebody is about to notice. -/
theorem settles_of_reached (h : ReachedWhere cfg LastOutcomeSeen s) (hunder : s.underway)
    (hdone : tasksCompleted s.taskStatus = true) : ∃ u, (s.thread u).settles = true := by
  refine h.induct (I := fun s => s.underway → tasksCompleted s.taskStatus = true →
    ∃ u, (s.thread u).settles = true) ?_ ?_ hunder hdone
  · intro threadCreated _ hdone
    have hzero : tasksCompleted 0 = true := hdone
    rw [tasksCompleted_zero] at hzero
    cases hzero
  · intro s t l e hreach hok ih hmove hen hc hunder hdone
    have hreread : ReachedWhere cfg RereadsAgree s := hreach.mono fun _ _ _ _ hx => hx.reread
    have hkeep {u : Tid} (hut : u ≠ t) (hu : (s.thread u).settles = true) :
        ∃ u, ((s.commit cfg t l e).thread u).settles = true := by
      refine ⟨u, ?_⟩
      rw [commit_thread_of_not_idle hen hut (by rintro hidle; rw [hidle] at hu; cases hu)]
      exact hu
    rcases underway_of_commit hreread hmove hen hunder with hbefore | rfl
    · cases hprev : tasksCompleted s.taskStatus with
      | true =>
        obtain ⟨u, hu⟩ := ih hbefore hprev
        by_cases hut : u = t
        · subst hut
          rcases hmove.settles hu with hl | ⟨v, rfl⟩ | hopen
          · exact ⟨u, by rw [commit_thread_self]; exact hl⟩
          · -- the status is terminal now, and nobody has opened a cycle meanwhile
            exfalso
            have hstarted := (hok.threads u).started_of_settles hu
            rcases hunder with hstatus | ⟨x, hx⟩
            · obtain rfl : v = .started := hstatus
              rcases posted_cases hreread hmove with ⟨-, hne⟩ | ⟨hv, -⟩ | ⟨hv, -⟩
              · exact hne hstarted
              · cases hv
              · cases hv
            · by_cases hxu : x = u
              · subst hxu
                rw [commit_thread_self] at hx
                rcases hmove.opens hok hx with hopens | hclear
                · exact (hok.threads x).not_started_of_opens hopens hstarted
                · cases hclear
              · rw [commit_thread_other hxu (by simp)] at hx
                exact (hok.threads x).not_started_of_opens hx hstarted
          · rw [hprev] at hopen
            cases hopen
        · exact hkeep hut hu
      | false =>
        by_cases he : ∃ n cause, e = .setStatus n cause
        · obtain ⟨n, cause, rfl⟩ := he
          have horigin := hmove.origin
          cases hcause : cause.isEvent with
          | true =>
            rcases horigin with ⟨status, rest, hp, -⟩ | ⟨x, -, -, rfl⟩ | ⟨w, x, -, -, -, -, rfl⟩ |
              ⟨w, -, rfl, -⟩
            · refine ⟨t, ?_⟩
              rw [commit_thread_self]
              cases hmove with
              | run c _ hst =>
                rw [hp] at hst
                cases hst
                rfl
            · cases hcause
            · cases hcause
            · cases hcause
          | false =>
            obtain ⟨u, hu⟩ := hc.seen n cause rfl hcause hdone hprev hbefore
            refine hkeep ?_ hu
            rintro rfl
            rcases horigin with ⟨status, rest, -, rfl⟩ | ⟨x, hp, -, -⟩ | ⟨w, x, hp, -, -, -, -⟩ |
              ⟨w, hp, -, -⟩
            · cases hcause
            · rw [hp] at hu
              cases hu
            · rw [hp] at hu
              cases hu
            · rw [hp] at hu
              cases hu
        · have hsame : tasksCompleted s.taskStatus = true := by
            rw [commit_taskStatus] at hdone
            cases e with
            | setStatus n cause => exact absurd ⟨n, cause, rfl⟩ he
            | clearTaskStatus =>
              have hzero : tasksCompleted 0 = true := hdone
              rw [tasksCompleted_zero] at hzero
              cases hzero
            | _ => exact hdone
          rw [hprev] at hsame
          cases hsame
    · have hzero : tasksCompleted 0 = true := hdone
      rw [tasksCompleted_zero] at hzero
      cases hzero

/-- In every run in which the last outcome of a cycle is seen, no cycle stays STARTED after it
has finished. -/
theorem notStuck_of_reached (h : ReachedWhere cfg LastOutcomeSeen s) : ¬ Stuck s := by
  rintro ⟨hstatus, hdone, -, hevent, hstop⟩
  obtain ⟨u, hu⟩ := settles_of_reached h (.inl hstatus) hdone
  rcases Thread.settles_iff.mp hu with hh | hs
  · cases hthread : s.thread u with
    | event pc => exact hevent u pc hthread
    | _ => rw [hthread] at hh; cases hh
  · rw [hstop u] at hs
    cases hs

theorem lastOutcomeSeen_of_test (hok : SysOk cfg s) (h : setByHandler s t e = true) :
    LastOutcomeSeen s t l e := by
  constructor
  · intro n cause he hcause
    subst he
    obtain ⟨⟨status, rfl⟩, -⟩ := handler_of_setByHandler h
    cases hcause
  · intro n cause he _ u hu
    subst he
    cases not_concluding_of_setByHandler hok h hu

/-- All three tasks complete, and the cycle is reported as complete. -/
theorem notStuck_of_reached_complete : ∃ s,
    ReachedWhere (device false false) LastOutcomeSeen s ∧ s.notifyStatus = .complete ∧
      ¬ Stuck s := by
  obtain ⟨s, hs, htest⟩ := exists_reachedWhere_of_run (device false false) LastOutcomeSeen true
    (allComplete ++ runs 1 5) (fun s => s.notifyStatus == .complete)
    (fun s t _ e => setByHandler s t e)
    (fun _ _ _ _ hok h => lastOutcomeSeen_of_test hok h) (by decide +kernel)
  exact ⟨s, hs, by simpa using htest, notStuck_of_reached hs⟩

/-- All three tasks time out. -/
def timeoutSchedule : List Action :=
  startsUp 0 ++ launches 0 ++ timesOut 0 1 ++ launches 0 ++ timesOut 0 1 ++
    launches 0 ++ timesOut 0 1 ++ runs 0 4

/-- The worker has returned, every task is resolved, and the status is STARTED. -/
theorem stuck_timeouts : ∃ s, (plugin (device false false)).Reachable s ∧ Stuck s := by
  obtain ⟨s, hs, htest, hidle⟩ := exists_reachable_idle_of_run (device false false) 2
    timeoutSchedule
    (fun s => (s.thread 0).isFinished && (s.thread 1).isIdle && s.notifyStatus == .started &&
      tasksCompleted s.taskStatus) (by decide) (by decide) (by decide +kernel)
  simp only [Bool.and_eq_true, beq_iff_eq] at htest
  obtain ⟨⟨⟨hfinished, hcaller⟩, hstatus⟩, hdone⟩ := htest
  have hthread (t : Tid) : s.thread t = .idle ∨ s.thread t = .finished := by
    match t with
    | 0 => exact .inr (Thread.isFinished_iff.mp hfinished)
    | 1 => exact .inl (Thread.isIdle_iff.mp hcaller)
    | t + 2 => exact .inl (hidle (t + 2) (by omega))
  refine ⟨s, hs, hstatus, hdone, fun t w hw => ?_, fun t pc hpc => ?_, fun t => ?_⟩
  · rcases hthread t with h | h <;> rw [h] at hw <;> cases hw
  · rcases hthread t with h | h <;> rw [h] at hpc <;> cases hpc
  · rcases hthread t with h | h <;> rw [h] <;> rfl

end SoftwareUpdate.MaintenanceManager
