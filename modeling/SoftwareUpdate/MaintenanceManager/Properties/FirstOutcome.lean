import SoftwareUpdate.MaintenanceManager.Proofs.Handlers

/-!
# The first outcome of a task

Once a task has an outcome in a cycle, the events that still come for it are to change
nothing, and a task whose outcome is an error is not to count as successful. The only guard
is the task's entry of the map, which an error sets to true again and which an abort does not
test. Outcomes stay final in the runs in which no such event is accepted and in which no
timeout or exhausted launch records an outcome ahead of a handler that is setting bits.
-/

namespace SoftwareUpdate.MaintenanceManager

open Misc Misc.BitField Misc.History

variable {cfg : Config} {s s' : Sys} {t u : Tid} {l : Thread} {e : Effect} {v : Task}
  {status : ModuleStatus} {rest : List CaseStmt} {n : ℕ} {cause : Cause}

/-- The outcome of the task that a statement records. A firmware task that is left out has
none. -/
def Effect.outcome (v : Task) : Effect → Option Cause
  | .setStatus n cause => if n = completeBit v ∧ cause ≠ .firmwareSkipped then some cause else none
  | _ => none

/-- The first outcome of the task in the current cycle. -/
def Sys.outcome (s : Sys) (v : Task) : Option Cause :=
  firstSince (fun x => x.2.beginsCycle) (fun x => x.2.outcome v) s.log

/-- The worker has left the firmware task out in the current cycle. -/
def Sys.firmwareSkipped (s : Sys) : Bool :=
  s.inCycle (· == .setStatus (successBit .swupdate) .firmwareSkipped)

/-- The first outcome of a task is final, and an error is no success. -/
structure OutcomesFinal (cfg : Config) (s : Sys) : Prop where
  events : ∀ a t l n status v, offer cfg s a = some (t, l, .setStatus n (.event status)) →
    status.about v = true → (s.outcome v).isSome = true → raise s.taskStatus n = s.taskStatus
  errors : ∀ v, s.outcome v = some (.event (.error v)) →
    s.taskStatus.getLsbD (successBit v) = false
  verdict : ∀ t pc, s.thread t = .event pc → pc.verdict = some .complete →
    ∀ v, s.outcome v ≠ some (.event (.error v))

/-- An event that comes after the outcome finds the task's entry false or has no bit left to
set; so does the handler that a timeout or an exhausted launch overtakes; and the firmware
task is not left out in a cycle in which its outcome is an error. -/
structure FirstOutcomeStands (s : Sys) (_ : Tid) (_ : Thread) (e : Effect) : Prop where
  complete : ∀ v, e = .handle (.complete v) → (s.outcome v).isSome = true →
    s.taskMap v = false ∨ s.taskStatus.getLsbD (successBit v) = true
  aborted : e = .handle .fwdownloadAborted → (s.outcome .swupdate).isSome = true →
    s.taskStatus.getLsbD taskSkippedBit = true
  overtaken : ∀ v cause, e = .setStatus (completeBit v) cause →
    cause = .timeout ∨ cause = .launchFailed → s.outcome v = none →
      ∀ u status rest n, s.thread u = .event (.body status rest) → status.about v = true →
        .setStatus n ∈ rest → n = completeBit v ∨ s.taskStatus.getLsbD n = true
  skipped : e = .setStatus (successBit .swupdate) .firmwareSkipped →
    s.outcome .swupdate ≠ some (.event (.error .swupdate))
  errored : e = .setStatus (completeBit .swupdate) (.event (.error .swupdate)) →
    s.outcome .swupdate = none → s.firmwareSkipped = false

/-! ## How the outcome changes -/

theorem outcome_commit : (s.commit cfg t l e).outcome v =
    if e.beginsCycle then none else (s.outcome v).or (e.outcome v) := by
  rw [Sys.outcome, commit_log, firstSince_cons]
  rfl

theorem outcome_commit_of_isSome (hb : e.beginsCycle = false) (h : (s.outcome v).isSome = true) :
    (s.commit cfg t l e).outcome v = s.outcome v := by
  obtain ⟨c, hc⟩ := Option.isSome_iff_exists.mp h
  simp [outcome_commit, hb, hc]

/-- A task has an outcome after a step when it had one, or when the step records it. -/
theorem isSome_outcome_commit (h : ((s.commit cfg t l e).outcome v).isSome = true) :
    e.beginsCycle = false ∧ ((s.outcome v).isSome = true ∨
      s.outcome v = none ∧ ∃ cause, e = .setStatus (completeBit v) cause ∧
        cause ≠ .firmwareSkipped) := by
  rw [outcome_commit] at h
  split at h
  case isTrue => cases h
  case isFalse hb =>
    refine ⟨by simpa using hb, ?_⟩
    cases hs : s.outcome v with
    | some c => exact .inl rfl
    | none =>
      refine .inr ⟨rfl, ?_⟩
      rw [hs] at h
      cases e with
      | setStatus n cause =>
        simp only [Effect.outcome, Option.none_or] at h
        split at h
        case isTrue hn => exact ⟨cause, by rw [hn.1], hn.2⟩
        case isFalse => cases h
      | _ => cases h

/-- A task with an outcome has its COMPLETE bit set. -/
theorem completeBit_of_outcome (h : (plugin cfg).Reachable s) (v : Task)
    (hv : (s.outcome v).isSome = true) : s.taskStatus.getLsbD (completeBit v) = true := by
  revert v
  refine (reachedWhere_of_reachable h).induct (I := fun s => ∀ v, (s.outcome v).isSome = true →
    s.taskStatus.getLsbD (completeBit v) = true) ?_ ?_
  · intro threadCreated v hv
    cases threadCreated <;> cases hv
  · intro s t l e _ _ hi _ _ _ v hv
    obtain ⟨hb, hold | ⟨-, cause, rfl, -⟩⟩ := isSome_outcome_commit hv
    · exact getLsbD_commit hb (hi v hold)
    · rw [commit_taskStatus]
      exact getLsbD_raise_self (completeBit_lt v)

/-! ## The bits a handler has left to set -/

/-- A case entered for a task that has an outcome sets no new bit. -/
theorem eventCase_sets_nothing (hv : status.about v = true)
    (hcomplete : s.taskStatus.getLsbD (completeBit v) = true)
    (hcond : FirstOutcomeStands s t l (.handle status)) (hout : (s.outcome v).isSome = true)
    (hn : .setStatus n ∈ eventCase s.taskMap status) : s.taskStatus.getLsbD n = true := by
  cases status with
  | complete u =>
    obtain rfl : u = v := by simpa [ModuleStatus.about] using hv
    simp only [eventCase, completeCase] at hn
    split at hn
    case isTrue hentry =>
      rcases hcond.complete u rfl hout with hfalse | hsuccess
      · rw [hentry] at hfalse
        cases hfalse
      · simp only [List.mem_cons, CaseStmt.setStatus.injEq, reduceCtorEq, List.not_mem_nil,
          or_false] at hn
        rcases hn with rfl | rfl
        · exact hsuccess
        · exact hcomplete
    case isFalse => cases hn
  | error u =>
    obtain rfl : u = v := by simpa [ModuleStatus.about] using hv
    simp only [eventCase, errorCase] at hn
    split at hn
    case isTrue =>
      obtain rfl : n = completeBit u := by simpa using hn
      exact hcomplete
    case isFalse => cases hn
  | fwdownloadAborted =>
    obtain rfl : v = .swupdate := by simpa [ModuleStatus.about] using hv
    obtain rfl | rfl : n = taskSkippedBit ∨ n = completeBit .swupdate := by
      simpa [eventCase] using hn
    · exact hcond.aborted rfl hout
    · exact hcomplete
  | _ => cases hv

/-- Once the task has an outcome, a handler of one of its events sets no new bit. -/
def Settled (s : Sys) (l : Thread) : Prop :=
  ∀ status rest v n, l = .event (.body status rest) → status.about v = true →
    (s.outcome v).isSome = true → .setStatus n ∈ rest → s.taskStatus.getLsbD n = true

theorem settled_own (hreach : (plugin cfg).Reachable s) (h : Settled s (s.thread t))
    (hmove : Move cfg s t l e) (hcond : FirstOutcomeStands s t l e) :
    Settled (s.commit cfg t l e) l := by
  intro status rest v n hl hv hout hn
  subst hl
  obtain ⟨hb, hold | ⟨-, cause, rfl, -⟩⟩ := isSome_outcome_commit hout
  · refine getLsbD_commit hb ?_
    rcases hmove.body with ⟨-, rfl, rfl⟩ | ⟨x, c, hp, -⟩ | ⟨hp, -⟩
    · exact eventCase_sets_nothing hv (completeBit_of_outcome hreach v hold) hcond hold hn
    · exact h status _ v n hp hv hold (List.mem_cons_of_mem x hn)
    · exact h status rest v n hp hv hold hn
  · rcases hmove.body with ⟨-, hx, -⟩ | ⟨x, c, hp, hx⟩ | ⟨-, hx | hx⟩
    · cases hx
    · -- the statement that records the outcome sets the last bit of its case
      obtain rfl := CaseStmt.effect_eq_setStatus hx.symm
      obtain ⟨taskMap, hsuffix⟩ := (inCase_of_reachable hreach hp).suffix
      exact absurd hn (not_setStatus_after_complete hsuffix n)
    · cases hx
    · cases hx

theorem settled_other (hok : SysOk cfg s) (h : Settled s (s.thread u))
    (hmove : Move cfg s t l e) (hcond : FirstOutcomeStands s t l e) (hu : u ≠ t) :
    Settled (s.commit cfg t l e) (s.thread u) := by
  intro status rest v n hthread hv hout hn
  obtain ⟨hb, hold | ⟨hnone, cause, rfl, hcause⟩⟩ := isSome_outcome_commit hout
  · exact getLsbD_commit hb (h status rest v n hthread hv hold hn)
  · have hset (hx : cause = .timeout ∨ cause = .launchFailed) :
        (s.commit cfg t l (.setStatus (completeBit v) cause)).taskStatus.getLsbD n = true := by
      rcases hcond.overtaken v cause rfl hx hnone u status rest n hthread hv hn with rfl | hbit
      · rw [commit_taskStatus]
        exact getLsbD_raise_self (completeBit_lt v)
      · exact getLsbD_commit rfl hbit
    rcases hmove.origin with ⟨status', rest', hp, -⟩ | ⟨x, -, -, hx⟩ | ⟨w, x, -, -, -, -, hx⟩ |
      ⟨w, -, hx, -⟩
    · exact absurd (hok.owners.unique (m := .status) (by rw [hthread]; rfl) (by rw [hp]; rfl)) hu
    · exact hset (.inl hx)
    · exact hset (.inr hx)
    · exact absurd hx hcause

theorem settled_of_reached (h : ReachedWhere cfg FirstOutcomeStands s) (u : Tid) :
    Settled s (s.thread u) := by
  refine h.forall_threads (A := fun s _ l => Settled s l) ?_ ?_ ?_ ?_ u
  · intro threadCreated u status rest v n hthread
    rcases boot_thread threadCreated u with hu | hu <;> cases hu.symm.trans hthread
  · intro s t l e hreach _ hs hmove _ hcond
    exact settled_own hreach.reachable hs hmove hcond
  · intro s t l e u _ hok hs hmove _ hcond hu
    exact settled_other hok hs hmove hcond hu
  · intro s t l w _ _ _ status rest v n hthread
    cases hthread

/-! ## Errors are no successes -/

/-- Who sets a SUCCESS bit: the handler of the completion, or the worker that leaves the
firmware task out. -/
theorem setSuccess_cases (hreach : (plugin cfg).Reachable s)
    (h : Move cfg s t l (.setStatus (successBit v) cause)) :
    (∃ rest, s.thread t = .event (.body (.complete v) (.setStatus (successBit v) :: rest)) ∧
      .setStatus (completeBit v) ∈ rest) ∨
    v = .swupdate ∧ cause = .firmwareSkipped := by
  have hne (u : Task) : successBit v ≠ completeBit u := (completeBit_ne_successBit u v).symm
  rcases h.origin with ⟨status, rest, hp, -⟩ | ⟨x, -, hn, -⟩ | ⟨w, x, -, -, -, hn, -⟩ |
    ⟨w, -, hcause, ⟨-, hn⟩ | ⟨-, hn⟩⟩
  · obtain ⟨taskMap, hsuffix⟩ := (inCase_of_reachable hreach hp).suffix
    obtain ⟨rfl, hmem⟩ := setStatus_complete_after_success hsuffix
    exact .inl ⟨rest, hp, hmem⟩
  · exact absurd hn (hne x)
  · exact absurd hn (hne x)
  · exact .inr ⟨successBit_inj hn, hcause⟩
  · exact absurd hn (hne .swupdate)

/-- A handler of a completion has set the SUCCESS bit and still has to set the COMPLETE bit. -/
def Sys.completing (s : Sys) (v : Task) : Prop :=
  ∃ u rest, s.thread u = .event (.body (.complete v) rest) ∧ .setStatus (completeBit v) ∈ rest

/-- A completing handler goes on until the outcome is recorded. -/
theorem completing_commit (h : s.completing v) (hmove : Move cfg s t l e)
    (hen : e.enabled s t = true) (hb : e.beginsCycle = false) :
    ((s.commit cfg t l e).outcome v).isSome = true ∨ (s.commit cfg t l e).completing v := by
  obtain ⟨u, rest, hthread, hmem⟩ := h
  by_cases hu : u = t
  · subst hu
    rcases hmove.of_body hthread with ⟨rfl, -⟩ | ⟨x, rest', c, rfl, rfl, rfl⟩ | ⟨rfl, -⟩
    · cases hmem
    · rcases List.mem_cons.mp hmem with rfl | hrest
      · left
        simp [outcome_commit, CaseStmt.effect, Effect.outcome, Effect.beginsCycle]
      · exact .inr ⟨u, rest', commit_thread_self, hrest⟩
    · exact .inr ⟨u, rest, commit_thread_self, hmem⟩
  · right
    exact ⟨u, rest, commit_thread_stays hen hu hthread (by simp), hmem⟩

/-- Where a SUCCESS bit comes from. -/
theorem success_cases (h : (plugin cfg).Reachable s) (v : Task)
    (hv : s.taskStatus.getLsbD (successBit v) = true) :
    (s.outcome v).isSome = true ∨ s.completing v ∨ v = .swupdate ∧ s.firmwareSkipped = true := by
  revert v
  refine (reachedWhere_of_reachable h).induct
    (I := fun s => ∀ v, s.taskStatus.getLsbD (successBit v) = true →
      (s.outcome v).isSome = true ∨ s.completing v ∨ v = .swupdate ∧ s.firmwareSkipped = true)
    ?_ ?_
  · intro threadCreated v hv
    simp [maintenanceManagerOnBootup] at hv
  · intro s t l e hreach hok hi hmove hen _ v hv
    obtain ⟨hb, hold | ⟨cause, rfl⟩⟩ := getLsbD_of_commit hv
    · rcases hi v hold with hout | hcompleting | ⟨hsw, hskip⟩
      · left
        rwa [outcome_commit_of_isSome hb hout]
      · exact (completing_commit hcompleting hmove hen hb).imp id .inl
      · refine .inr (.inr ⟨hsw, ?_⟩)
        rw [Sys.firmwareSkipped, inCycle_commit, hb]
        exact Bool.or_eq_true_iff.mpr (.inr hskip)
    · rcases setSuccess_cases hreach.reachable hmove with ⟨rest, hp, hmem⟩ | ⟨rfl, rfl⟩
      · rcases hmove.of_body hp with ⟨hnil, -⟩ | ⟨x, rest', c, hcons, rfl, -⟩ | ⟨-, he | he⟩
        · cases hnil
        · cases hcons
          exact .inr (.inl ⟨t, rest, commit_thread_self, hmem⟩)
        · cases he
        · cases he
      · refine .inr (.inr ⟨rfl, ?_⟩)
        simp [Sys.firmwareSkipped, Effect.beginsCycle]

/-- A task whose outcome is an error has its SUCCESS bit clear. -/
def ErrorsFail (s : Sys) : Prop :=
  ∀ v, s.outcome v = some (.event (.error v)) → s.taskStatus.getLsbD (successBit v) = false

/-- No SUCCESS bit is set after the error. -/
theorem errorsFail_old (hreach : ReachedWhere cfg FirstOutcomeStands s) (hi : ErrorsFail s)
    (hmove : Move cfg s t l e) (hcond : FirstOutcomeStands s t l e) (hb : e.beginsCycle = false)
    (hv : s.outcome v = some (.event (.error v))) :
    (s.commit cfg t l e).taskStatus.getLsbD (successBit v) = false := by
  have hfalse := hi v hv
  by_contra hsuccess
  obtain ⟨-, hbit | ⟨cause, rfl⟩⟩ := getLsbD_of_commit (Bool.not_eq_false _ ▸ hsuccess)
  · rw [hfalse] at hbit
    cases hbit
  · rcases setSuccess_cases hreach.reachable hmove with ⟨rest, hp, -⟩ | ⟨rfl, rfl⟩
    · have hbit := settled_of_reached hreach t _ _ v (successBit v) hp
        (by simp [ModuleStatus.about]) (by rw [hv]; rfl) (List.mem_cons_self ..)
      rw [hfalse] at hbit
      cases hbit
    · exact hcond.skipped rfl hv

/-- No SUCCESS bit is set when the error is recorded. -/
theorem errorsFail_new (hreach : (plugin cfg).Reachable s) (hok : SysOk cfg s)
    (hmove : Move cfg s t l (.setStatus (completeBit v) (.event (.error v))))
    (hcond : FirstOutcomeStands s t l (.setStatus (completeBit v) (.event (.error v))))
    (hnone : s.outcome v = none) : s.taskStatus.getLsbD (successBit v) = false := by
  obtain ⟨rest, hp⟩ : ∃ rest, s.thread t = .event (.body (.error v) rest) := by
    rcases hmove.origin with ⟨status, rest, hp, hst⟩ | ⟨x, -, -, hst⟩ |
      ⟨w, x, -, -, -, -, hst⟩ | ⟨w, -, hst, -⟩
    · cases hst
      exact ⟨_, hp⟩
    all_goals cases hst
  by_contra hbit
  rcases success_cases hreach v (by simpa using hbit) with hout | ⟨u, rest', hthread, -⟩ |
    ⟨rfl, hskip⟩
  · rw [hnone] at hout
    cases hout
  · have hut := hok.owners.unique (m := .status) (t := u) (u := t) (by rw [hthread]; rfl)
      (by rw [hp]; rfl)
    rw [hut, hp] at hthread
    cases hthread
  · rw [hcond.errored rfl hnone] at hskip
    cases hskip

theorem errorsFail_of_reached (h : ReachedWhere cfg FirstOutcomeStands s) : ErrorsFail s := by
  refine h.induct (I := ErrorsFail) ?_ ?_
  · intro threadCreated v hv
    simp [maintenanceManagerOnBootup]
  · intro s t l e hreach hok hi hmove _ hcond v hv
    obtain ⟨hb, hold | ⟨hnone, cause, rfl, hcause⟩⟩ := isSome_outcome_commit (by rw [hv]; rfl)
    · rw [outcome_commit_of_isSome hb hold] at hv
      exact errorsFail_old hreach hi hmove hcond hb hv
    · obtain rfl : cause = .event (.error v) := by
        simpa [outcome_commit, hnone, Effect.outcome, Effect.beginsCycle, hcause] using hv
      rw [commit_taskStatus, Effect.apply,
        getLsbD_raise_of_ne (completeBit_ne_successBit v v).symm]
      exact errorsFail_new hreach.reachable hok hmove hcond hnone

/-- In every run in which the first outcomes stand, they are final. -/
theorem outcomesFinal_of_reached (h : ReachedWhere cfg FirstOutcomeStands s) :
    OutcomesFinal cfg s where
  events a t l n status v hoffer hv hout := by
    rcases (offer_move hoffer).origin with ⟨status', rest, hp, hst⟩ | ⟨x, -, -, hst⟩ |
      ⟨w, x, -, -, -, -, hst⟩ | ⟨w, -, hst, -⟩
    · cases hst
      exact raise_eq_self (settled_of_reached h t status _ v n hp hv hout (List.mem_cons_self ..))
    all_goals cases hst
  errors := errorsFail_of_reached h
  verdict t pc hthread hpc v hv := by
    have hall := (concludes_of_reachable h.reachable hthread).success hpc
    have hsuccess := (allTasksSuccess_iff.mp hall).2 v
    rw [errorsFail_of_reached h v hv] at hsuccess
    cases hsuccess

/-- A test of the condition: only handlers set bits, an error only when the firmware task has
not been left out, and no task that has an outcome completes or is aborted. -/
def firstOutcomeStands (s : Sys) (t : Tid) (e : Effect) : Bool :=
  setByHandler s t e && match e with
    | .handle (.complete v) => (s.outcome v).isNone
    | .handle .fwdownloadAborted => (s.outcome .swupdate).isNone
    | .setStatus _ (.event (.error _)) => !s.firmwareSkipped
    | _ => true

theorem firstOutcomeStands_of_test (h : firstOutcomeStands s t e = true) :
    FirstOutcomeStands s t l e := by
  simp only [firstOutcomeStands, Bool.and_eq_true] at h
  obtain ⟨hset, htest⟩ := h
  have hevent {n : ℕ} {cause : Cause} (he : e = .setStatus n cause) :
      ∃ status, cause = .event status := by
    subst he
    exact (handler_of_setByHandler hset).1
  constructor
  · intro v he hout
    subst he
    simp [Option.isNone_iff_eq_none.mp htest] at hout
  · intro he hout
    subst he
    simp [Option.isNone_iff_eq_none.mp htest] at hout
  · intro v cause he hcause
    obtain ⟨status, rfl⟩ := hevent he
    rcases hcause with hx | hx <;> cases hx
  · intro he
    obtain ⟨status, hx⟩ := hevent he
    cases hx
  · intro he _
    subst he
    simpa using htest

/-- The RFC task fails twice and the others complete: the cycle is reported as an error. -/
theorem outcomesFinal_of_reached_failed : ∃ s,
    ReachedWhere (device false false) FirstOutcomeStands s ∧
      s.outcome .rfc = some (.event (.error .rfc)) ∧ s.thread 1 = .event (.notify .error) ∧
      OutcomesFinal (device false false) s := by
  obtain ⟨s, hs, htest⟩ := exists_reachedWhere_of_run (device false false) FirstOutcomeStands true
    (startsUp 0 ++ launches 0 ++ deliversOutcome 1 (.error .rfc) 0 ++
      delivers 1 (.error .rfc) 11 ++ runs 0 2 ++
      launches 0 ++ deliversOutcome 1 (.complete .swupdate) 0 ++ runs 0 2 ++
      launches 0 ++ deliversOutcome 1 (.complete .logupload) 0 ++ runs 1 3 ++ runs 0 6 ++ runs 1 3)
    (fun s => s.outcome .rfc == some (.event (.error .rfc)) && (s.thread 1).isReporting .error)
    (fun s t _ e => firstOutcomeStands s t e)
    (fun _ _ _ _ _ h => firstOutcomeStands_of_test h) (by decide +kernel)
  simp only [Bool.and_eq_true, beq_iff_eq] at htest
  exact ⟨s, hs, htest.1, Thread.isReporting_iff.mp htest.2, outcomesFinal_of_reached hs⟩

/-- The RFC task reports an error and then, still running, its completion; the others
complete. -/
def errorThenCompleteSchedule : List Action :=
  startsUp 0 ++ launches 0 ++ deliversOutcome 1 (.error .rfc) 0 ++
    delivers 1 (.complete .rfc) 12 ++ runs 0 2 ++
    launches 0 ++ deliversOutcome 1 (.complete .swupdate) 0 ++ runs 0 2 ++
    launches 0 ++ deliversOutcome 1 (.complete .logupload) 0 ++ runs 1 2 ++ runs 0 6 ++ runs 1 3

/-- The cycle is reported as complete. -/
theorem outcome_overwritten : ∃ s, (plugin (device false false)).Reachable s ∧
    ¬ OutcomesFinal (device false false) s := by
  obtain ⟨s, hs, htest⟩ := TransitionSystem.exists_reachable_of_run (plugin (device false false))
    (maintenanceManagerOnBootup (device false false) true) errorThenCompleteSchedule
    (fun s => s.outcome .rfc == some (.event (.error .rfc)) && (s.thread 1).isReporting .complete)
    ⟨true, rfl⟩ (by decide +kernel)
  simp only [Bool.and_eq_true, beq_iff_eq] at htest
  obtain ⟨herror, hthread⟩ := htest
  refine ⟨s, hs, fun hfinal => ?_⟩
  exact hfinal.verdict 1 _ (Thread.isReporting_iff.mp hthread) rfl .rfc herror

end SoftwareUpdate.MaintenanceManager
