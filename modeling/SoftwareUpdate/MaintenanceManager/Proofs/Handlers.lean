import SoftwareUpdate.MaintenanceManager.History
import SoftwareUpdate.MaintenanceManager.Proofs.Conclusion

/-!
# What a handler does with an event

A handler that is in the middle of a case has handled its event in the current cycle, and
what is left to execute is the rest of that case.
-/

namespace SoftwareUpdate.MaintenanceManager

open Misc Misc.BitField

variable {cfg : Config} {s s' : Sys} {t u : Tid} {l : Thread} {e : Effect} {v : Task} {n : ℕ}
  {status : ModuleStatus} {rest : List CaseStmt} {cause : Cause}

/-- The module statuses that report on the task. -/
def ModuleStatus.about (v : Task) : ModuleStatus → Bool
  | .complete u | .error u => u == v
  | .fwdownloadAborted => v == .swupdate
  | _ => false

/-- The bits the handler of a module status sets. -/
def ModuleStatus.sets (n : ℕ) : ModuleStatus → Bool
  | .complete v => n == successBit v || n == completeBit v
  | .error v => n == completeBit v
  | .fwdownloadAborted => n == taskSkippedBit || n == completeBit .swupdate
  | .rebootRequired => n == rebootRequiredBit
  | _ => false

/-- A handler's remaining statements shrink, or it has just entered its case. -/
theorem Move.body (h : Move cfg s t (.event (.body status rest)) e) :
    (s.thread t = .event (.dispatch status) ∧ e = .handle status ∧
      rest = eventCase s.taskMap status) ∨
    (∃ x c, s.thread t = .event (.body status (x :: rest)) ∧ e = x.effect status c) ∨
    (s.thread t = .event (.body status rest) ∧ (e = .spuriousWakeUp ∨ e = .timerExpires)) := by
  rcases h.event (by simp) with ⟨pc₀, c, hthread, hst⟩ | hstay
  · revert hst
    fun_cases iarmEventHandler cfg s pc₀ c <;> simp only [Prod.mk.injEq, Thread.event.injEq,
      EventPc.body.injEq, reduceCtorEq, false_and, IsEmpty.forall_iff]
    case case7 status' =>
      rintro ⟨⟨rfl, rfl⟩, rfl⟩
      exact .inl ⟨hthread, rfl, rfl⟩
    case case9 status' x rest' =>
      rintro ⟨⟨rfl, rfl⟩, rfl⟩
      exact .inr (.inl ⟨x, c, hthread, rfl⟩)
  · exact .inr (.inr hstay)

/-- A handler in the middle of a case executes the next statement of the case. -/
theorem Move.of_body (h : Move cfg s t l e) (ht : s.thread t = .event (.body status rest)) :
    (rest = [] ∧ e = .tau) ∨
    (∃ x rest' c, rest = x :: rest' ∧ l = .event (.body status rest') ∧ e = x.effect status c) ∨
    (l = .event (.body status rest) ∧ (e = .spuriousWakeUp ∨ e = .timerExpires)) := by
  cases h with
  | run c _ hst =>
    rw [ht] at hst
    cases rest with
    | nil => cases hst; exact .inl ⟨rfl, rfl⟩
    | cons x rest' => cases hst; exact .inr (.inl ⟨x, rest', c, rfl, rfl, rfl⟩)
  | call r hidle | signal hidle =>
    rw [ht] at hidle
    cases hidle
  | wakeUp => exact .inr (.inr ⟨ht, .inl rfl⟩)
  | timerExpires => exact .inr (.inr ⟨ht, .inr rfl⟩)

theorem CaseStmt.effect_eq_setStatus {x : CaseStmt} {c : Choice}
    (h : x.effect status c = .setStatus n cause) : x = .setStatus n := by
  cases x with
  | setStatus m => cases h; rfl
  | _ => cases h

/-- The COMPLETE bit is the last one a case sets. -/
theorem not_setStatus_after_complete {taskMap : Task → Bool}
    (h : .setStatus (completeBit v) :: rest <:+ eventCase taskMap status)
    (n : ℕ) : .setStatus n ∉ rest := by
  cases status <;> simp only [eventCase, completeCase, errorCase] at h <;> (try split at h) <;>
    simp_all [List.suffix_cons_iff, completeBit_ne_successBit]
  case fwdownloadAborted =>
    rcases h with ⟨hbit, -⟩ | ⟨-, rfl⟩
    · cases v <;> cases hbit
    · simp

/-- The COMPLETE bit follows the SUCCESS bit. -/
theorem setStatus_complete_after_success {taskMap : Task → Bool}
    (h : .setStatus (successBit v) :: rest <:+ eventCase taskMap status) :
    status = .complete v ∧ .setStatus (completeBit v) ∈ rest := by
  have hne (u : Task) : successBit v ≠ completeBit u := (completeBit_ne_successBit u v).symm
  have hother : successBit v ≠ rebootRequiredBit ∧ successBit v ≠ taskSkippedBit := by
    cases v <;> decide
  cases status <;> simp only [eventCase, completeCase, errorCase] at h <;> (try split at h) <;>
    simp_all [List.suffix_cons_iff]
  case complete.isTrue u htrue =>
    obtain rfl := successBit_inj h.1
    exact ⟨rfl, by simp⟩

theorem sets_of_mem_eventCase {taskMap : Task → Bool}
    (h : .setStatus n ∈ eventCase taskMap status) : status.sets n = true := by
  cases status <;> simp only [eventCase, completeCase, errorCase] at h <;>
    (try split at h) <;> simp_all [ModuleStatus.sets]

/-- While a thread holds `m_statusMutex`, no other one begins a cycle. -/
theorem Move.beginsCycle_of_other (h : Move cfg s t l e) (hok : SysOk cfg s) (hu : u ≠ t)
    (hheld : (s.thread u).holds .status = true) : e.beginsCycle = false := by
  have hnot := h.not_cyclic_of_other hok.owners hu hheld
  cases e <;> first | rfl | cases hnot

/-- What is left of a case, whose event has been handled in the current cycle. -/
structure InCase (s : Sys) (status : ModuleStatus) (rest : List CaseStmt) : Prop where
  suffix : ∃ taskMap, rest <:+ eventCase taskMap status
  handled : s.inCycle (· == .handle status) = true

theorem InCase.sets (h : InCase s status rest) (hn : .setStatus n ∈ rest) : status.sets n = true := by
  obtain ⟨taskMap, hsuffix⟩ := h.suffix
  exact sets_of_mem_eventCase (hsuffix.subset hn)

theorem inCase_of_reachable (h : (plugin cfg).Reachable s)
    (hthread : s.thread u = .event (.body status rest)) :
    InCase s status rest := by
  refine (reachedWhere_of_reachable h).forall_threads
    (A := fun s _ l => ∀ status rest, l = .event (.body status rest) → InCase s status rest)
    ?_ ?_ ?_ ?_ u status rest hthread
  · intro threadCreated u status rest hl
    rcases boot_thread threadCreated u with hu | hu <;> cases hu.symm.trans hl
  · intro s t l e _ _ hc hmove _ _ status rest hl
    subst hl
    rcases hmove.body with ⟨-, rfl, rfl⟩ | ⟨x, c, hp, rfl⟩ | ⟨hp, rfl | rfl⟩
    · exact ⟨⟨s.taskMap, List.suffix_rfl⟩, by simp [Effect.beginsCycle]⟩
    · obtain ⟨⟨taskMap, hsuffix⟩, hhandled⟩ := hc status _ hp
      refine ⟨⟨taskMap, (List.suffix_cons x rest).trans hsuffix⟩, ?_⟩
      rw [inCycle_commit, hhandled]
      cases x <;> simp [CaseStmt.effect, Effect.beginsCycle]
    · exact ⟨(hc status rest hp).suffix, by simp [(hc status rest hp).handled, Effect.beginsCycle]⟩
    · exact ⟨(hc status rest hp).suffix, by simp [(hc status rest hp).handled, Effect.beginsCycle]⟩
  · intro s t l e u _ hok hc hmove _ _ hu status rest hp
    obtain ⟨hsuffix, hhandled⟩ := hc status rest hp
    refine ⟨hsuffix, ?_⟩
    have hbegins := hmove.beginsCycle_of_other hok hu (by rw [hp]; rfl)
    simp [hbegins, hhandled]
  · intro s t l w _ _ _ status rest hl
    cases hl

/-! ## The bits -/

/-- A bit stays set until a cycle begins. -/
theorem getLsbD_commit (hb : e.beginsCycle = false) (h : s.taskStatus.getLsbD n = true) :
    (s.commit cfg t l e).taskStatus.getLsbD n = true := by
  rw [commit_taskStatus]
  cases e with
  | setStatus m cause => exact getLsbD_raise_of_getLsbD h
  | clearTaskStatus => cases hb
  | _ => exact h

/-- A bit that a step sets is the one it names. -/
theorem getLsbD_of_commit (h : (s.commit cfg t l e).taskStatus.getLsbD n = true) :
    e.beginsCycle = false ∧
      (s.taskStatus.getLsbD n = true ∨ ∃ cause, e = .setStatus n cause) := by
  rw [commit_taskStatus] at h
  cases e with
  | setStatus m cause =>
    refine ⟨rfl, ?_⟩
    by_cases hm : n = m
    · exact .inr ⟨cause, by rw [hm]⟩
    · exact .inl (by rwa [Effect.apply, getLsbD_raise_of_ne hm] at h)
  | clearTaskStatus => simp [Effect.apply] at h
  | _ => exact ⟨rfl, .inl h⟩

/-- Every statement of the plugin sets a bit below the ninth. -/
theorem setStatus_le (hreach : (plugin cfg).Reachable s)
    (h : Move cfg s t l (.setStatus n cause)) : n ≤ taskSkippedBit := by
  have hcomplete (v : Task) : completeBit v ≤ taskSkippedBit := by cases v <;> decide
  rcases h.origin with ⟨status, rest, hp, -⟩ | ⟨x, -, rfl, -⟩ | ⟨w, x, -, -, -, rfl, -⟩ |
    ⟨w, -, -, ⟨-, rfl⟩ | ⟨-, rfl⟩⟩
  · have hsets := (inCase_of_reachable hreach hp).sets (List.mem_cons_self ..)
    cases status with
    | complete v | error v => cases v <;> simp [ModuleStatus.sets, successBit, completeBit] at hsets <;>
        simp [taskSkippedBit] <;> omega
    | _ => simp [ModuleStatus.sets, rebootRequiredBit, completeBit, taskSkippedBit] at hsets <;>
        simp [taskSkippedBit] <;> omega
  · exact hcomplete x
  · exact hcomplete x
  · decide
  · decide

/-- The bit of the mask `MAINTENANCE_TASK_SKIPPED` is never set. -/
theorem not_maintenanceTaskSkipped (h : (plugin cfg).Reachable s) :
    maintenanceTaskSkipped s.taskStatus = false := by
  suffices hbit : s.taskStatus.getLsbD 9 = false by
    by_contra hskip
    rw [maintenanceTaskSkipped_iff.mp (by simpa using hskip)] at hbit
    cases hbit
  refine (reachedWhere_of_reachable h).induct (I := fun s => s.taskStatus.getLsbD 9 = false) ?_ ?_
  · intro threadCreated
    simp [maintenanceManagerOnBootup]
  · intro s t l e hreach _ hbit hmove _ _
    rw [commit_taskStatus]
    cases e with
    | setStatus n cause =>
      have hn := setStatus_le hreach.reachable hmove
      have hne : 9 ≠ n := by
        rintro rfl
        exact absurd hn (by decide)
      rw [Effect.apply, getLsbD_raise_of_ne hne]
      exact hbit
    | clearTaskStatus => simp [Effect.apply]
    | _ => exact hbit

/-! ## Runs in which only handlers set bits -/

/-- A test that a bit is set by no other statement than one of a handler. -/
def setByHandler (s : Sys) (t : Tid) : Effect → Bool
  | .setStatus _ (.event _) => match s.thread t with | .event (.body _ _) => true | _ => false
  | .setStatus _ _ => false
  | _ => true

theorem handler_of_setByHandler (h : setByHandler s t (.setStatus n cause) = true) :
    (∃ status, cause = .event status) ∧ ∃ status rest, s.thread t = .event (.body status rest) := by
  cases cause with
  | event status =>
    refine ⟨⟨status, rfl⟩, ?_⟩
    simp only [setByHandler] at h
    split at h
    case h_1 status rest hthread => exact ⟨status, rest, hthread⟩
    case h_2 => cases h
  | _ => cases h

/-- No handler concludes a cycle while another one sets a bit. -/
theorem not_concluding_of_setByHandler (hok : SysOk cfg s) {pc : EventPc}
    (h : setByHandler s t (.setStatus n cause) = true) (hthread : s.thread u = .event pc) :
    pc.concluding = false := by
  obtain ⟨-, status, rest, ht⟩ := handler_of_setByHandler h
  by_contra hpc
  have hheld : (s.thread u).holds .status = true := by
    rw [hthread]
    exact EventPc.holds_of_concluding (by simpa using hpc)
  have hut : u = t := hok.owners.unique hheld (by rw [ht]; rfl)
  rw [hut, ht] at hthread
  cases hthread
  exact hpc rfl

end SoftwareUpdate.MaintenanceManager
