import SoftwareUpdate.MaintenanceManager.History
import SoftwareUpdate.MaintenanceManager.Proofs.Conclusion

/-!
# One cycle at a time

At most one worker runs, `m_thread` is assigned only when it is not joinable, and
`startMaintenance` is accepted only between cycles. The status notifications are bracketed,
except after a race: the handler that concludes a cycle reads `g_task_status` twice, and when
the worker marks the firmware task as successful in between, neither branch assigns
`notify_status` and STARTED is posted at the end of the cycle.
-/

namespace SoftwareUpdate.MaintenanceManager

open Misc Misc.BitField

variable {cfg : Config} {s s' : Sys} {t u : Tid} {l : Thread} {e : Effect} {pc : EventPc}

/-- IDLE, at most one ERROR of a boot cycle that never started, and then STARTED and a
terminal status in turn. -/
def WellBracketed (ns : List NotifyStatus) : Prop :=
  ∃ boot ends last : List NotifyStatus, (boot = [] ∨ boot = [.error]) ∧ (∀ v ∈ ends, v.terminal = true) ∧
    (last = [] ∨ last = [.started]) ∧
    ns = .idle :: boot ++ ends.flatMap (fun v => [.started, v]) ++ last

/-- The boot cycle has reported a terminal status. -/
def Sys.bootOver (s : Sys) : Prop := ∃ v ∈ s.notifications, v.terminal = true

structure OneCycle (cfg : Config) (s : Sys) : Prop where
  worker : ∀ t u w v, s.thread t = .worker w → s.thread u = .worker v → t = u
  assigned : ∀ a t l w, offer cfg s a = some (t, l, .create w) → s.mThread = none
  accepted : ∀ t c e, s.thread t = .start .guard →
    startMaintenance s .guard c = (.start .lockCall, e) →
      s.notifyStatus ≠ .started ∧ s.bootOver
  brackets : WellBracketed s.notifications

/-- No step sets the last bit of `ALL_TASKS_SUCCESS` between a handler's two reads of
`g_task_status`. -/
def RereadsAgree (s : Sys) (_ : Tid) (_ : Thread) (e : Effect) : Prop :=
  ∀ n cause, e = .setStatus n cause → allTasksSuccess (raise s.taskStatus n) = true →
    ∀ u, s.thread u ≠ .event .testNotSuccess

/-! ## The handler's verdict -/

/-- Between the two reads not all tasks are successful, and STARTED is never the verdict. -/
structure Steady (s : Sys) (pc : EventPc) : Prop where
  reread : pc = .testNotSuccess → allTasksSuccess s.taskStatus = false
  verdict : pc.verdict ≠ some .started

theorem iarmEventHandler_steady {c : Choice} {pc' : EventPc} (hok : Steady s pc)
    (h : iarmEventHandler cfg s pc c = (.event pc', e)) :
    Steady (s.commit cfg t (.event pc') e) pc' := by
  obtain ⟨hread, hverdict⟩ := hok
  revert h
  fun_cases iarmEventHandler cfg s pc c
  all_goals
    simp only [Prod.mk.injEq, Thread.event.injEq, reduceCtorEq, false_and, IsEmpty.forall_iff]
    try rintro ⟨rfl, rfl⟩
  all_goals constructor <;> simp_all [EventPc.verdict, Effect.apply]

theorem Steady.other (hs : Steady s pc) (hok : SysOk cfg s) (hc : Concludes s pc)
    (h : Move cfg s t l e) (hu : u ≠ t) (hthread : s.thread u = .event pc)
    (hagree : RereadsAgree s t l e) : Steady (s.commit cfg t l e) pc := by
  refine ⟨fun hpc => ?_, hs.verdict⟩
  have hconcl : pc.concluding = true := by rw [hpc]; rfl
  rcases hok.taskStatus_of_concluding h hu hthread hconcl (hc.completed hconcl) with heq | rfl
  · rw [commit_taskStatus, heq]
    exact hs.reread hpc
  · by_contra hall
    exact hagree _ _ rfl (by simpa [Effect.apply] using hall) u (by rw [hthread, hpc])

theorem steady_of_reached (h : ReachedWhere cfg RereadsAgree s) (hthread : s.thread u = .event pc) :
    Steady s pc := by
  refine h.forall_handlers (A := Steady) ?_ ?_ ?_ ?_ hthread
  · intro s ev
    exact ⟨fun hpc => (by cases hpc), fun hv => (by cases hv)⟩
  · intro s t pc pc' c e _ hs _ hst _
    exact iarmEventHandler_steady hs hst
  · intro s t pc e hs he
    rcases he with rfl | rfl <;> exact ⟨hs.reread, hs.verdict⟩
  · intro s t l e u pc hreach hok hs hthread hmove hagree hu
    exact hs.other hok (concludes_of_reachable hreach.reachable hthread) hmove hu hthread hagree

/-! ## The notifications -/

/-- What is posted in which state. -/
theorem posted_cases {v : NotifyStatus} (hreach : ReachedWhere cfg RereadsAgree s)
    (h : Move cfg s t l (.onMaintenanceStatusChange v)) :
    (v = .started ∧ s.notifyStatus ≠ .started) ∨ (v = .error ∧ s.notifyStatus = .idle) ∨
      (v.terminal = true ∧ s.notifyStatus = .started) := by
  have hok := hreach.ok
  have hself := hok.threads t
  rcases h.origin with ⟨w, hw, ⟨hpc, rfl⟩ | ⟨hpc, rfl⟩⟩ | ⟨d, hd, rfl⟩ | hv
  · have hstatus := (hok.worker hw).status
    simp only [Worker.phase, hpc, Phase.agrees] at hstatus
    exact .inl ⟨rfl, hstatus⟩
  · have hworker := hok.worker hw
    cases hdelay : w.delayMaintenanceStarted with
    | true =>
      have hstart : w.phase = .starting := by simp [Worker.phase, hpc, hdelay]
      exact .inr (.inl ⟨rfl, hworker.boot hstart (hworker.delayed hstart hdelay)⟩)
    | false =>
      have hstatus := hworker.status
      simp only [Worker.phase, hpc, hdelay, Phase.agrees] at hstatus
      exact .inr (.inr ⟨rfl, hstatus⟩)
  · exact .inr (.inr ⟨rfl, hself.stopping (by rw [hd]; rfl)⟩)
  · have hnotStarted := (steady_of_reached hreach hv).verdict
    have hnotIdle := (concludes_of_reachable hreach.reachable hv).verdict
    refine .inr (.inr ⟨?_, (hself.handling (by rw [hv]; rfl)).1⟩)
    cases v <;> simp_all [EventPc.verdict, NotifyStatus.terminal]

/-- The sequence of notifications, by the status posted last. -/
inductive Posted : NotifyStatus → List NotifyStatus → Prop
  | idle : Posted .idle [.idle]
  | started (boot ends : List NotifyStatus) (hboot : boot = [] ∨ boot = [.error])
      (hends : ∀ v ∈ ends, v.terminal = true) :
      Posted .started (.idle :: boot ++ ends.flatMap (fun v => [.started, v]) ++ [.started])
  | ended (boot ends : List NotifyStatus) (v : NotifyStatus) (hboot : boot = [] ∨ boot = [.error])
      (hends : ∀ v ∈ ends, v.terminal = true) (hv : v.terminal = true)
      (hlast : v ∈ boot ++ ends) :
      Posted v (.idle :: boot ++ ends.flatMap (fun v => [.started, v]))

theorem Posted.wellBracketed {v : NotifyStatus} {ns : List NotifyStatus} (h : Posted v ns) :
    WellBracketed ns := by
  cases h with
  | idle => exact ⟨[], [], [], .inl rfl, by simp, .inl rfl, rfl⟩
  | started boot ends hboot hends => exact ⟨boot, ends, [.started], hboot, hends, .inr rfl, rfl⟩
  | ended boot ends _ hboot hends => exact ⟨boot, ends, [], hboot, hends, .inl rfl, by simp⟩

theorem Posted.mem_of_terminal {v : NotifyStatus} {ns : List NotifyStatus} (h : Posted v ns)
    (hv : v.terminal = true) : v ∈ ns := by
  cases h with
  | idle | started => cases hv
  | ended boot ends _ hboot hends hterm hlast =>
    rcases List.mem_append.mp hlast with hmem | hmem
    · simp [hmem]
    · have hflat : v ∈ ends.flatMap fun v => [.started, v] :=
        List.mem_flatMap.mpr ⟨v, hmem, by simp⟩
      simp [hflat]

theorem Posted.post {v v' : NotifyStatus} {ns : List NotifyStatus} (h : Posted v ns)
    (hv : (v' = .started ∧ v ≠ .started) ∨ (v' = .error ∧ v = .idle) ∨
      (v'.terminal = true ∧ v = .started)) : Posted v' (ns ++ [v']) := by
  rcases hv with ⟨rfl, hne⟩ | ⟨rfl, rfl⟩ | ⟨hv', rfl⟩
  · cases h with
    | idle => exact .started [] [] (.inl rfl) (by simp)
    | started => exact absurd rfl hne
    | ended boot ends _ hboot hends => exact .started boot ends hboot hends
  · cases h with
    | idle => exact .ended [.error] [] .error (.inr rfl) (by simp) rfl (by simp)
    | ended _ _ _ _ _ hterm => cases hterm
  · cases h with
    | started boot ends hboot hends =>
      have hends' : ∀ v ∈ ends ++ [v'], v.terminal = true := by
        intro v hmem
        rcases List.mem_append.mp hmem with hin | hin
        · exact hends v hin
        · rw [List.mem_singleton.mp hin]
          exact hv'
      simpa using Posted.ended boot (ends ++ [v']) v' hboot hends' hv' (by simp)
    | ended _ _ _ _ _ hterm => cases hterm

theorem posted_of_reached (h : ReachedWhere cfg RereadsAgree s) :
    Posted s.notifyStatus s.notifications := by
  refine h.induct (I := fun s => Posted s.notifyStatus s.notifications) ?_ ?_
  · rintro (_ | _)
    · exact .ended [.error] [] .error (.inr rfl) (by simp) rfl (by simp)
    · exact .idle
  · intro s t l e hreach _ hp hmove _ _
    by_cases he : ∃ v, e = .onMaintenanceStatusChange v
    · obtain ⟨v, rfl⟩ := he
      rw [notifications_commit]
      exact hp.post (posted_cases hreach hmove)
    · have hne : ∀ v, e ≠ .onMaintenanceStatusChange v := fun v hv => he ⟨v, hv⟩
      rw [notifications_commit_of_ne hne, commit_notifyStatus, apply_notifyStatus hne]
      exact hp

/-! ## The end of the boot cycle -/

theorem bootOver_commit (h : s.bootOver) : (s.commit cfg t l e).bootOver := by
  obtain ⟨v, hmem, hv⟩ := h
  exact ⟨v, by rw [notifications_commit]; exact List.mem_append_left _ hmem, hv⟩

/-- The thread is about to post the status that ends a cycle. -/
def Thread.posting : Thread → Bool
  | .stop _ .notifyError | .event (.notify _) => true
  | _ => false

theorem Thread.posting_cases (h : l.posting = true) :
    (∃ d, l = .stop d .notifyError) ∨ ∃ v, l = .event (.notify v) := by
  cases l with
  | stop d pc => cases pc <;> simp_all [Thread.posting]
  | event pc => cases pc <;> simp_all [Thread.posting]
  | _ => cases h

theorem ThreadOk.started_of_posting (h : ThreadOk cfg s t l) (hp : l.posting = true) :
    s.notifyStatus = .started := by
  rcases Thread.posting_cases hp with ⟨d, rfl⟩ | ⟨v, rfl⟩
  · exact h.stopping rfl
  · exact (h.handling rfl).1

theorem Move.posting (h : Move cfg s t l e) (hp : (s.thread t).posting = true) :
    (∃ v, e = .onMaintenanceStatusChange v) ∨ l.posting = true := by
  cases h with
  | run c _ hst =>
    left
    rcases Thread.posting_cases hp with ⟨d, hthread⟩ | ⟨v, hthread⟩ <;> rw [hthread] at hst <;>
      cases hst
    · exact ⟨.error, rfl⟩
    · exact ⟨v, rfl⟩
  | call r hidle | signal hidle =>
    rw [hidle] at hp
    cases hp
  | wakeUp | timerExpires => exact .inr hp

/-- `g_unsolicited_complete` is set when the boot cycle has been reported, or by a thread that
is about to report it. -/
theorem bootOver_of_reached (h : ReachedWhere cfg RereadsAgree s)
    (hcomplete : s.unsolicitedComplete = true) :
    s.bootOver ∨ ∃ u, (s.thread u).posting = true := by
  refine h.induct (I := fun s => s.unsolicitedComplete = true →
    s.bootOver ∨ ∃ u, (s.thread u).posting = true) ?_ ?_ hcomplete
  · rintro (_ | _) hc
    · exact .inl ⟨.error, by simp [Sys.notifications, maintenanceManagerOnBootup, Effect.posted], rfl⟩
    · cases hc
  · intro s t l e hreach hok ih hmove hen _ hc
    by_cases he : e = .setUnsolicitedComplete
    · subst he
      rcases hmove.origin with ⟨w, hw, hpc⟩ | ⟨d, hd⟩ | ⟨v, hv⟩
      · -- the worker reports ERROR before it sets the flag
        have hstatus := (hok.worker hw).status
        simp only [Worker.phase, hpc, Phase.agrees] at hstatus
        have hmem := (posted_of_reached hreach).mem_of_terminal (by rw [hstatus]; rfl)
        exact .inl (bootOver_commit ⟨_, hmem, by rw [hstatus]; rfl⟩)
      · refine .inr ⟨t, ?_⟩
        cases hmove with
        | run c _ hst =>
          rw [hd] at hst
          cases hst
          rw [commit_thread_self]
          rfl
      · refine .inr ⟨t, ?_⟩
        cases hmove with
        | run c _ hst =>
          rw [hv] at hst
          cases hst
          rw [commit_thread_self]
          rfl
    · rw [commit_unsolicitedComplete, apply_unsolicitedComplete he] at hc
      rcases ih hc with hover | ⟨u, hu⟩
      · exact .inl (bootOver_commit hover)
      · by_cases hut : u = t
        · subst hut
          rcases hmove.posting hu with ⟨v, rfl⟩ | hl
          · refine .inl ⟨v, ?_, ?_⟩
            · rw [notifications_commit]
              exact List.mem_append_right _ (by simp [Effect.posted])
            · have hstarted := (hok.threads u).started_of_posting hu
              rcases posted_cases hreach hmove with ⟨-, hne⟩ | ⟨-, hidle⟩ | ⟨hv, -⟩
              · exact absurd hstarted hne
              · rw [hstarted] at hidle
                cases hidle
              · exact hv
          · exact .inr ⟨u, by rw [commit_thread_self]; exact hl⟩
        · refine .inr ⟨u, ?_⟩
          rw [commit_thread_of_not_idle hen hut (by rintro hidle; rw [hidle] at hu; cases hu)]
          exact hu

/-- In every run in which the two reads of a handler agree, there is one cycle at a time and
its notifications are bracketed. -/
theorem oneCycle_of_reached (h : ReachedWhere cfg RereadsAgree s) : OneCycle cfg s where
  worker t u w v ht hu := h.ok.worker_unique ht hu
  assigned a t l w hoffer := by
    have hmove := offer_move hoffer
    obtain ⟨prev, hp⟩ := hmove.origin
    exact (h.ok.threads t).joined (by rw [hp]; rfl)
  accepted t c e hthread hst := by
    simp only [startMaintenance] at hst
    split at hst
    case isTrue hguard =>
      refine ⟨hguard.1, (bootOver_of_reached h hguard.2).resolve_right ?_⟩
      rintro ⟨u, hu⟩
      -- the thread would hold the mutex that `startMaintenance` holds
      have hheld : (s.thread u).holds .status = true := by
        rcases Thread.posting_cases hu with ⟨d, hd⟩ | ⟨v, hv⟩
        · rw [hd]
          rfl
        · rw [hv]
          rfl
      have heq : u = t := h.ok.owners.unique hheld (by rw [hthread]; rfl)
      rw [heq, hthread] at hu
      cases hu
    case isFalse => cases hst
  brackets := (posted_of_reached h).wellBracketed

/-- A test of the condition: no bit is set at all. -/
def rereadsAgree : Effect → Bool
  | .setStatus _ _ => false
  | _ => true

theorem rereadsAgree_of_test (h : rereadsAgree e = true) : RereadsAgree s t l e := by
  rintro n cause rfl
  cases h

/-- Boot-up without network, and `startMaintenance` after it. -/
def restartSchedule : List Action :=
  runs 0 16 ++ .call 1 .startMaintenance :: runs 1 11 ++
    [.run 1 { thread := some 2 }, .run 1 {}] ++ runs 2 4

/-- The boot cycle ends without network, and the cycle `startMaintenance` opens has started. -/
theorem oneCycle_of_reached_restarted : ∃ s, ReachedWhere (device false false) RereadsAgree s ∧
    s.notifications = [.idle, .started, .error, .started] ∧ OneCycle (device false false) s := by
  obtain ⟨s, hs, htest⟩ := exists_reachedWhere_of_run (device false false) RereadsAgree true
    restartSchedule (fun s => s.notifications == [.idle, .started, .error, .started])
    (fun _ _ _ e => rereadsAgree e) (fun _ _ _ _ _ h => rereadsAgree_of_test h)
    (by decide +kernel)
  exact ⟨s, hs, by simpa using htest, oneCycle_of_reached hs⟩

/-- Two cycles cannot start in a row. -/
theorem not_wellBracketed_started_started : ¬ WellBracketed [.idle, .started, .started] := by
  rintro ⟨boot, ends, last, rfl | rfl, hends, hlast, heq⟩
  · cases ends with
    | nil => rcases hlast with rfl | rfl <;> cases heq
    | cons v ends =>
      simp only [List.flatMap_cons, List.cons_append, List.nil_append, List.cons.injEq] at heq
      obtain ⟨-, -, rfl, -⟩ := heq
      exact absurd (hends .started (by simp)) (by decide)
  · cases heq

/-- A device that suppresses maintenance is not activated, RFC and log upload complete while
the worker checks the network, and the firmware download is aborted. The worker marks the
firmware task as successful between the handler's two reads. -/
def rereadSchedule : List Action :=
  runs 0 6 ++ .run 0 { activation := .notActivated } :: succeeds 0 ++ runs 0 3 ++
    delivers 1 (.inprogress .rfc) 9 ++ delivers 1 (.complete .rfc) 12 ++
    delivers 1 (.inprogress .logupload) 9 ++ delivers 1 (.complete .logupload) 12 ++
    delivers 1 .fwdownloadAborted 12 ++ runs 0 1 ++ runs 1 2 ++ runs 0 3 ++
    launches 0 ++ timesOut 0 2 ++ launches 0 ++ timesOut 0 2 ++ runs 0 4 ++ runs 1 4

/-- STARTED is posted at the end of the cycle. -/
theorem brackets_broken : ∃ s, (plugin (device false true)).Reachable s ∧
    ¬ WellBracketed s.notifications := by
  obtain ⟨s, hs, htest⟩ := TransitionSystem.exists_reachable_of_run (plugin (device false true))
    (maintenanceManagerOnBootup (device false true) true) rereadSchedule
    (fun s => s.notifications == [.idle, .started, .started]) ⟨true, rfl⟩ (by decide +kernel)
  refine ⟨s, hs, ?_⟩
  rw [beq_iff_eq.mp htest]
  exact not_wellBracketed_started_started

end SoftwareUpdate.MaintenanceManager
