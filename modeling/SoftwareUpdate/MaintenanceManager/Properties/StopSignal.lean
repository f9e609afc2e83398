import SoftwareUpdate.MaintenanceManager.Proofs.Handlers
import SoftwareUpdate.MaintenanceManager.Proofs.Quiet
import SoftwareUpdate.MaintenanceManager.Proofs.Running

/-!
# The task that `stopMaintenance` signals

When `stopMaintenanceTasks` returns true, every task launched in the cycle is to be over or to
have been signalled. The function signals one task: the first whose entry was true when the
entries were read, one after another, while the worker, the timer and nobody else go on
writing them. That is enough in the runs in which the stop finds no other launched task
without an outcome, and in which nothing moves under the reading.
-/

namespace SoftwareUpdate.MaintenanceManager

open Misc Misc.BitField Misc.History

variable {cfg : Config} {s s' : Sys} {t u : Tid} {l : Thread} {e : Effect} {v : Task}
  {d : Bool} {pc pc' : StopPc}

/-- `m_abort_flag = true` in `stopMaintenanceTasks`. -/
def Effect.beginsStop : Effect → Bool
  | .setAbortFlag b => b
  | _ => false

/-- The effect sets the COMPLETE bit of the task. -/
def Effect.completes (v : Task) : Effect → Bool
  | .setStatus n _ => n == completeBit v
  | _ => false

/-- The effect is a call of `abortTask` for the task, whether or not the kill succeeds. -/
def Effect.signals (v : Task) : Effect → Bool
  | .abortTask x _ => x == v
  | _ => false

/-- The task has been launched in the current cycle. -/
def Sys.launched (s : Sys) (v : Task) : Bool := s.inCycle (· == .system v true)

/-- The COMPLETE bit of the task was set in the cycle before the last stop began. -/
def Sys.doneBeforeStop (s : Sys) (v : Task) : Bool :=
  since (fun x => x.2.beginsCycle) (fun x => x.2.completes v)
    (priorTo (fun x => x.2.beginsStop) s.log)

/-- `abortTask` has been called for the task since the last stop began. -/
def Sys.signalled (s : Sys) (v : Task) : Bool :=
  since (fun x => x.2.beginsStop) (fun x => x.2.signals v) s.log

/-- The task has been launched in the cycle, and the last stop found it without outcome. -/
def Sys.outstanding (s : Sys) (v : Task) : Prop :=
  s.launched v = true ∧ s.doneBeforeStop v = false

/-- A stop that returns true has signalled every launched task that had no outcome before,
and the task it signals is the one the worker waits for, unless that one is over. -/
structure StopSignals (s : Sys) : Prop where
  returned : ∀ t d, s.thread t = .stop d (.unlock true) → ∀ v, s.launched v = true →
    s.doneBeforeStop v = true ∨ s.signalled v = true
  waiting : ∀ t d v u w x, s.thread t = .stop d (.abortTask v) → s.thread u = .worker w →
    w.pc = .wakeTask → s.tasks[w.i]? = some x → s.doneBeforeStop x = false → v = x

/-- The stop is going to signal the task, or has signalled it. -/
def StopPc.targets (s : Sys) (v : Task) : StopPc → Prop
  | .readMap _ _ => firstRunning s.taskMap = some v
  | .abortTask x => x = v
  | _ => s.signalled v = true

/-- An accepted stop finds every launched task without outcome first among the entries that
are true, no step changes which entry that is while the entries are read, and nothing but the
task to be signalled is launched before the worker has been joined. -/
structure StopFindsTask (s : Sys) (_ : Tid) (_ : Thread) (e : Effect) : Prop where
  found : e = .setAbortFlag true → ∀ v, s.launched v = true → s.completed v = false →
    firstRunning s.taskMap = some v
  reading : ∀ u d x read v b, s.thread u = .stop d (.readMap x read) → e = .setTaskMap v b →
    firstRunning (Function.update s.taskMap v b) = firstRunning s.taskMap
  launching : ∀ u d pc v, s.thread u = .stop d pc → pc.accepted = true → e = .system v true →
    pc.targets s v

/-! ## The history of a stop -/

theorem launched_commit : (s.commit cfg t l e).launched v =
    (!e.beginsCycle && (e == .system v true || s.launched v)) :=
  inCycle_commit

theorem doneBeforeStop_commit : (s.commit cfg t l e).doneBeforeStop v =
    if e.beginsStop then s.inCycle (·.completes v) else s.doneBeforeStop v := by
  rw [Sys.doneBeforeStop, commit_log, priorTo_cons]
  cases e.beginsStop <;> rfl

theorem signalled_commit : (s.commit cfg t l e).signalled v =
    (!e.beginsStop && (e.signals v || s.signalled v)) := by
  rw [Sys.signalled, commit_log, since_cons]
  rfl

theorem signalled_mono (hs : e.beginsStop = false) (h : s.signalled v = true) :
    (s.commit cfg t l e).signalled v = true := by
  simp [signalled_commit, hs, h]

/-- A COMPLETE bit that is set has been set in the cycle. -/
theorem inCycle_completes (h : (plugin cfg).Reachable s) (v : Task)
    (hv : s.completed v = true) : s.inCycle (·.completes v) = true := by
  revert v
  refine (reachedWhere_of_reachable h).induct
    (I := fun s => ∀ v, s.completed v = true → s.inCycle (·.completes v) = true) ?_ ?_
  · intro threadCreated v hv
    simp [Sys.completed, maintenanceManagerOnBootup] at hv
  · intro s t l e _ _ hi _ _ _ v hv
    obtain ⟨hb, hold | ⟨cause, rfl⟩⟩ := getLsbD_of_commit hv
    · exact inCycle_commit_mono hb (hi v hold)
    · simp [Effect.completes, Effect.beginsCycle]

/-! ## Reading the entries -/

/-- The entries that are read before the one of the task. -/
def readBefore : Task → List Task
  | .rfc => []
  | .swupdate => [.rfc]
  | .logupload => [.rfc, .swupdate]

/-- Two searches of a list without duplicates that agree find the same in its first part. -/
theorem find?_append_left {α : Type*} {p q : α → Bool} {xs ys : List α}
    (hdisjoint : ∀ y ∈ xs, y ∉ ys) (h : (xs ++ ys).find? p = (xs ++ ys).find? q) :
    xs.find? p = xs.find? q := by
  rw [List.find?_append, List.find?_append] at h
  cases hp : xs.find? p with
  | some y =>
    cases hq : xs.find? q with
    | some z => simpa [hp, hq] using h
    | none =>
      have hy : ys.find? q = some y := by simpa [hp, hq] using h.symm
      exact absurd (List.mem_of_find?_eq_some hy) (hdisjoint y (List.mem_of_find?_eq_some hp))
  | none =>
    cases hq : xs.find? q with
    | some z =>
      have hz : ys.find? p = some z := by simpa [hp, hq] using h
      exact absurd (List.mem_of_find?_eq_some hz) (hdisjoint z (List.mem_of_find?_eq_some hq))
    | none => rfl

/-- What the first entries say depends on the first entry that is true. -/
theorem find_readBefore {map map' : Task → Bool} (h : firstRunning map = firstRunning map')
    (x : Task) : (readBefore x).find? map = (readBefore x).find? map' := by
  obtain ⟨ys, hys, hdisjoint⟩ : ∃ ys, readBefore x ++ ys = [.rfc, .swupdate, .logupload] ∧
      ∀ y ∈ readBefore x, y ∉ ys := by
    cases x with
    | rfc => exact ⟨[.rfc, .swupdate, .logupload], rfl, by decide⟩
    | swupdate => exact ⟨[.swupdate, .logupload], rfl, by decide⟩
    | logupload => exact ⟨[.logupload], rfl, by decide⟩
  refine find?_append_left hdisjoint ?_
  rw [hys]
  exact h

/-- One more entry has been read. -/
theorem find_readBefore_update {map read : Task → Bool} {x : Task}
    (h : (readBefore x).find? read = (readBefore x).find? map) :
    (readBefore x ++ [x]).find? (Function.update read x (map x)) =
      (readBefore x ++ [x]).find? map := by
  have hsame : (readBefore x).find? (Function.update read x (map x)) = (readBefore x).find? read := by
    cases x <;> simp [readBefore, List.find?]
  rw [List.find?_append, List.find?_append, hsame, h]
  simp [List.find?]

/-- All entries have been read. -/
theorem firstRunning_update {map read : Task → Bool}
    (h : (readBefore .logupload).find? read = (readBefore .logupload).find? map) :
    firstRunning (Function.update read .logupload (map .logupload)) = firstRunning map :=
  find_readBefore_update h

/-! ## What a stop knows -/

theorem outstanding_of_commit (hs : e.beginsStop = false)
    (h : (s.commit cfg t l e).outstanding v) : s.outstanding v ∨ e = .system v true := by
  obtain ⟨hlaunched, hopen⟩ := h
  rw [launched_commit] at hlaunched
  rw [doneBeforeStop_commit, hs] at hopen
  simp only [Bool.and_eq_true, Bool.or_eq_true, beq_iff_eq] at hlaunched
  exact hlaunched.2.symm.imp_left fun hl => ⟨hl, hopen⟩

/-- Every launched task that had no outcome when the stop began is its target, and the entries
read so far agree with the map. -/
structure StopOk (s : Sys) (pc : StopPc) : Prop where
  targets : pc.accepted = true → ∀ v, s.outstanding v → pc.targets s v
  read : ∀ x read, pc = .readMap x read →
    (readBefore x).find? read = (readBefore x).find? s.taskMap

theorem StopOk.of_not_accepted (h : pc.accepted = false) : StopOk s pc := by
  refine ⟨fun ha => absurd ha (by simp [h]), fun x read hx => ?_⟩
  subst hx
  cases h

/-- The stop goes on with the target it had. -/
theorem StopOk.goOn (h : StopOk s pc) (hs : e.beginsStop = false) (he : ∀ v, e ≠ .system v true)
    (haccepted : pc'.accepted = true → pc.accepted = true)
    (htargets : ∀ v, pc.targets s v → pc'.targets (s.commit cfg t l e) v)
    (hread : ∀ x read, pc' ≠ .readMap x read) : StopOk (s.commit cfg t l e) pc' := by
  refine ⟨fun ha v hv => ?_, fun x read hx => absurd hx (hread x read)⟩
  rcases outstanding_of_commit hs hv with hold | hsystem
  · exact htargets v (h.targets (haccepted ha) v hold)
  · exact absurd hsystem (he v)

/-- The stop reads one more entry. -/
theorem StopOk.readNext {x y : Task} {read : Task → Bool} (h : StopOk s (.readMap x read))
    (hy : readBefore y = readBefore x ++ [x]) :
    StopOk (s.commit cfg t l .tau) (.readMap y (Function.update read x (s.taskMap x))) := by
  refine ⟨fun _ v hv => ?_, fun z read' hz => ?_⟩
  · rcases outstanding_of_commit rfl hv with hold | hsystem
    · exact h.targets rfl v hold
    · cases hsystem
  · cases hz
    rw [hy]
    exact find_readBefore_update (h.read x read rfl)

/-- The accepted stop finds the task among the entries. -/
theorem stopOk_accept (hreach : (plugin cfg).Reachable s) {read : Task → Bool}
    (hfound : ∀ v, s.launched v = true → s.completed v = false →
      firstRunning s.taskMap = some v) :
    StopOk (s.commit cfg t l (.setAbortFlag true)) (.readMap .rfc read) := by
  refine ⟨fun _ v hv => ?_, fun x read' hx => by cases hx; rfl⟩
  obtain ⟨hlaunched, hopen⟩ := hv
  rw [doneBeforeStop_commit] at hopen
  refine hfound v (by simpa [launched_commit, Effect.beginsCycle] using hlaunched) ?_
  by_contra hdone
  have hrecorded := inCycle_completes hreach v (by simpa using hdone)
  rw [show s.inCycle (·.completes v) = false from hopen] at hrecorded
  cases hrecorded

theorem stopMaintenanceTasks_stopOk {c : Choice} (hreach : (plugin cfg).Reachable s)
    (hok : StopOk s pc) (hfound : pc = .setAbort → ∀ v, s.launched v = true →
      s.completed v = false → firstRunning s.taskMap = some v)
    (h : stopMaintenanceTasks s d pc c = (.stop d pc', e)) :
    StopOk (s.commit cfg t (.stop d pc') e) pc' := by
  revert h
  fun_cases stopMaintenanceTasks s d pc c
  all_goals
    simp only [Prod.mk.injEq, Thread.stop.injEq, reduceCtorEq, false_and, IsEmpty.forall_iff]
    try rintro ⟨⟨-, rfl⟩, rfl⟩
  case case5 => exact stopOk_accept hreach (hfound rfl)
  case case6 | case7 => exact hok.readNext rfl
  case case8 x hfirst =>
    refine ⟨fun _ v hv => ?_, fun y read hy => by cases hy⟩
    have hv := hok.targets rfl v ((outstanding_of_commit rfl hv).resolve_right (by simp))
    rw [firstRunning_update (hok.read _ _ rfl)] at hfirst
    exact Option.some.inj (hfirst.symm.trans hv)
  case case9 hfirst =>
    refine ⟨fun _ v hv => ?_, fun y read hy => by cases hy⟩
    have hv := hok.targets rfl v ((outstanding_of_commit rfl hv).resolve_right (by simp))
    rw [firstRunning_update (hok.read _ _ rfl)] at hfirst
    cases hfirst.symm.trans hv
  case case10 | case11 =>
    refine hok.goOn rfl (by simp) (fun _ => rfl) (fun v hv => ?_) (by simp)
    obtain rfl := hv
    simp [StopPc.targets, signalled_commit, Effect.beginsStop, Effect.signals]
  all_goals first
    | exact StopOk.of_not_accepted rfl
    | exact hok.goOn rfl (by simp) (fun _ => rfl) (fun v hv => signalled_mono rfl hv) (by simp)

/-- Under an accepted stop no other thread begins a stop or a cycle. -/
theorem StopOk.other (h : StopOk s pc) (hok : SysOk cfg s) (hmove : Move cfg s t l e)
    (hu : u ≠ t) (hthread : s.thread u = .stop d pc) (hcond : StopFindsTask s t l e) :
    StopOk (s.commit cfg t l e) pc := by
  by_cases ha : pc.accepted = true
  case neg => exact StopOk.of_not_accepted (by simpa using ha)
  have hheld : (s.thread u).holds .status = true := by
    rw [hthread]
    cases pc <;> first | rfl | cases ha
  have hs : e.beginsStop = false := by
    cases e with
    | setAbortFlag b =>
      cases b with
      | true =>
        obtain ⟨d', hp⟩ := hmove.origin
        exact absurd (hok.owners.unique hheld (by rw [hp]; rfl)) hu
      | false => rfl
    | _ => rfl
  have hfirst (hread : ∃ x read, pc = .readMap x read) :
      firstRunning (e.apply cfg t s).taskMap = firstRunning s.taskMap := by
    obtain ⟨x, read, rfl⟩ := hread
    cases e with
    | setTaskMap v b => exact hcond.reading u d x read v b hthread rfl
    | _ => rfl
  have htargets (v : Task) (hv : pc.targets s v) : pc.targets (s.commit cfg t l e) v := by
    cases pc with
    | readMap x read => exact (hfirst ⟨x, read, rfl⟩).trans hv
    | abortTask x => exact hv
    | _ => exact signalled_mono hs hv
  refine ⟨fun _ v hv => ?_, fun x read hx => ?_⟩
  · rcases outstanding_of_commit hs hv with hold | hsystem
    · exact htargets v (h.targets ha v hold)
    · exact htargets v (hcond.launching u d pc v hthread ha hsystem)
  · rw [h.read x read hx]
    exact (find_readBefore (hfirst ⟨x, read, hx⟩) x).symm

theorem stopOk_of_reached (h : ReachedWhere cfg StopFindsTask s) (hthread : s.thread u = .stop d pc) :
    StopOk s pc := by
  refine h.forall_stops (A := fun s _ pc => StopOk s pc) ?_ ?_ ?_ ?_ hthread
  · intro s
    exact ⟨StopOk.of_not_accepted rfl, StopOk.of_not_accepted rfl⟩
  · intro s t d pc pc' c e hreach _ hs _ hst _ _ hcond
    refine stopMaintenanceTasks_stopOk hreach.reachable hs (fun hpc => ?_) hst
    subst hpc
    cases hst
    exact hcond.found rfl
  · intro s t d pc e _ _ hs _ _ _ _ he
    rcases he with rfl | rfl <;> exact ⟨hs.targets, hs.read⟩
  · intro s t l e u d pc _ hok hs hthread hmove _ hcond hu
    exact hs.other hok hmove hu hthread hcond

/-- A worker that waits for a task has launched it in the current cycle. -/
theorem launched_of_waiting (h : (plugin cfg).Reachable s) {w : Worker}
    (hw : s.thread u = .worker w) (hpc : w.pc = .waitTask ∨ w.pc = .wakeTask)
    (hv : s.tasks[w.i]? = some v) : s.launched v = true := by
  refine (reachedWhere_of_reachable h).forall_threads
    (A := fun s _ l => ∀ w v, l = .worker w → w.pc = .waitTask ∨ w.pc = .wakeTask →
      s.tasks[w.i]? = some v → s.launched v = true) ?_ ?_ ?_ ?_ u w v hw hpc hv
  · intro threadCreated u w v hl hpc
    rcases boot_thread threadCreated u with hu | hu <;> cases hu.symm.trans hl
    simp [Worker.create] at hpc
  · intro s t l e _ _ hwait hmove _ _ w' v hl hpc hv
    subst hl
    rcases hmove.worker with ⟨w, -, hw, hstep⟩ | ⟨hw, rfl | rfl⟩
    · cases hstep with
      | launched hp x hx =>
        obtain rfl : x = v := Option.some.inj (hx.symm.trans hv)
        simp [launched_commit, Effect.beginsCycle]
      | waitTask hp => exact inCycle_commit_mono rfl (hwait w v hw (.inl hp) hv)
      | _ => rcases hpc with hpc | hpc <;> cases hpc
    · exact inCycle_commit_mono rfl (hwait w' v hw hpc hv)
    · exact inCycle_commit_mono rfl (hwait w' v hw hpc hv)
  · intro s t l e u _ hok hwait hmove _ _ hu w v hw hpc hv
    have hphase : w.phase = .running := by rcases hpc with hp | hp <;> simp [Worker.phase, hp]
    have hb : e.beginsCycle = false := by
      cases e with
      | clearTaskStatus =>
        have hopening := hok.not_opening (t := t) hw hphase
        have hp : s.thread t = .start .clearTaskStatus := hmove.origin
        rw [hp] at hopening
        cases hopening
      | _ => rfl
    rw [(hok.undisturbed hw hphase hmove hu).tasks] at hv
    exact inCycle_commit_mono hb (hwait w v hw hpc hv)
  · intro s t l w' _ _ _ w v hl hpc
    cases hl
    simp [Worker.create] at hpc

/-- In every run in which the accepted stops find their task, they signal every launched task
without outcome. -/
theorem stopSignals_of_reached (h : ReachedWhere cfg StopFindsTask s) : StopSignals s where
  returned t d hthread v hlaunched := by
    by_cases hdone : s.doneBeforeStop v = true
    · exact .inl hdone
    · exact .inr ((stopOk_of_reached h hthread).targets rfl v ⟨hlaunched, by simpa using hdone⟩)
  waiting t d v u w x hthread hw hpc hx hopen := by
    have hlaunched := launched_of_waiting h.reachable hw (.inr hpc) hx
    exact (stopOk_of_reached h hthread).targets rfl x ⟨hlaunched, hopen⟩

/-- The stop that holds `m_statusMutex`, if there is one. -/
def Sys.stopping (s : Sys) : Option StopPc :=
  (s.owner .status).bind fun u => match s.thread u with | .stop _ pc => some pc | _ => none

/-- A test of the condition, in which nothing is written under the reading. -/
def stopFindsTask (s : Sys) (e : Effect) : Bool :=
  match e with
  | .setAbortFlag true => [Task.rfc, .swupdate, .logupload].all fun v =>
      !s.launched v || s.completed v || firstRunning s.taskMap == some v
  | .setTaskMap _ _ => match s.stopping with | some (.readMap _ _) => false | _ => true
  | .system _ true => s.stopping.all fun pc => !pc.accepted
  | _ => true

theorem stopFindsTask_of_test (hok : SysOk cfg s) (h : stopFindsTask s e = true) :
    StopFindsTask s t l e := by
  have hstopping {u d pc} (hthread : s.thread u = .stop d pc) (ha : pc.accepted = true) :
      s.stopping = some pc := by
    have hheld : (s.thread u).holds .status = true := by
      rw [hthread]
      cases pc <;> first | rfl | cases ha
    simp [Sys.stopping, (hok.owners .status u).mpr hheld, hthread]
  constructor
  · rintro rfl v hlaunched hopen
    have hv := List.all_eq_true.mp h v (by cases v <;> simp)
    simpa [hlaunched, hopen] using hv
  · rintro u d x read v b hthread rfl
    simp [stopFindsTask, hstopping hthread rfl] at h
  · rintro u d pc v hthread ha rfl
    simp [stopFindsTask, hstopping hthread ha, ha] at h

/-- Thread 1 stops the cycle while the worker 0 waits: the kill succeeds, the worker leaves
its loop, and the function is about to return true. -/
def stops : List Action :=
  .call 1 .stopMaintenance :: runs 1 6 ++ succeeds 1 ++ runs 1 2 ++
    .run 1 { woken := some 0 } :: runs 1 1 ++ runs 0 8 ++ runs 1 4

/-- The RFC task is running when the cycle is stopped, and it is signalled. -/
theorem stopSignals_of_reached_running : ∃ s, ReachedWhere (device false false) StopFindsTask s ∧
    s.thread 1 = .stop false (.unlock true) ∧ s.launched .rfc = true ∧
    s.signalled .rfc = true ∧ StopSignals s := by
  obtain ⟨s, hs, htest⟩ := exists_reachedWhere_of_run (device false false) StopFindsTask true
    (startsUp 0 ++ launches 0 ++ stops)
    (fun s => s.launched .rfc && s.signalled .rfc && (s.thread 1).isReturning)
    (fun s _ _ e => stopFindsTask s e)
    (fun _ _ _ _ hok h => stopFindsTask_of_test hok h) (by decide +kernel)
  simp only [Bool.and_eq_true] at htest
  obtain ⟨⟨hlaunched, hsignalled⟩, hthread⟩ := htest
  exact ⟨s, hs, Thread.isReturning_iff.mp hthread, hlaunched, hsignalled, stopSignals_of_reached hs⟩

/-- After an error of the RFC task, the cycle is stopped during the firmware download: the
download goes on. -/
theorem stop_missesTask : ∃ s, (plugin (device false false)).Reachable s ∧ ¬ StopSignals s := by
  obtain ⟨s, hs, htest⟩ := TransitionSystem.exists_reachable_of_run (plugin (device false false))
    (maintenanceManagerOnBootup (device false false) true)
    (startsUp 0 ++ launches 0 ++ deliversOutcome 1 (.error .rfc) 0 ++ runs 0 2 ++ launches 0 ++
      stops)
    (fun s => s.launched .swupdate && !s.doneBeforeStop .swupdate && !s.signalled .swupdate &&
      (s.thread 1).isReturning)
    ⟨true, rfl⟩ (by decide +kernel)
  simp only [Bool.and_eq_true, Bool.not_eq_true'] at htest
  obtain ⟨⟨⟨hlaunched, hopen⟩, hmissed⟩, hthread⟩ := htest
  refine ⟨s, hs, fun hsignals => ?_⟩
  rcases hsignals.returned 1 false (Thread.isReturning_iff.mp hthread) .swupdate hlaunched with
    hdone | hsignalled
  · rw [hopen] at hdone
    cases hdone
  · rw [hmissed] at hsignalled
    cases hsignalled

end SoftwareUpdate.MaintenanceManager
