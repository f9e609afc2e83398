import SoftwareUpdate.MaintenanceManager.Proofs.Runs

/-!
# How an event handler concludes a cycle

Once a handler has found all COMPLETE bits set it goes on to report a status. It holds
`m_statusMutex` until then, so the bit field only changes under it by what does not take the
mutex: the COMPLETE bits are set already, and what is left is the SUCCESS bit of the firmware
task, which the worker raises when it leaves that task out.
-/

namespace SoftwareUpdate.MaintenanceManager

open Misc Misc.BitField

variable {cfg : Config} {s s' : Sys} {t u : Tid} {l : Thread} {e : Effect} {pc : EventPc}

/-- The handler has found `TASKS_COMPLETED`. -/
def EventPc.concluding : EventPc → Bool
  | .testSuccess | .testNotSuccess | .testSkipped | .storeTime | .testJoinable _ | .join _ _
  | .branchUnsolicited _ | .setUnsolicited _ | .notify _ => true
  | _ => false

/-- `notify_status` once it has been assigned. -/
def EventPc.verdict : EventPc → Option NotifyStatus
  | .storeTime => some .complete
  | .testJoinable v | .join _ v | .branchUnsolicited v | .setUnsolicited v | .notify v => some v
  | _ => none

theorem EventPc.holds_of_concluding (h : pc.concluding = true) :
    (Thread.event pc).holds .status = true := by
  cases pc <;> first | rfl | cases h

theorem EventPc.concluding_of_verdict {v : NotifyStatus} (h : pc.verdict = some v) :
    pc.concluding = true := by
  cases pc <;> first | rfl | cases h

/-- Under a concluding handler only the SUCCESS bit of the firmware task can still be set. -/
theorem SysOk.taskStatus_of_concluding (hok : SysOk cfg s) (h : Move cfg s t l e) (hu : u ≠ t)
    (hthread : s.thread u = .event pc) (hpc : pc.concluding = true)
    (hdone : tasksCompleted s.taskStatus = true) :
    (e.apply cfg t s).taskStatus = s.taskStatus ∨
      e = .setStatus (successBit .swupdate) .firmwareSkipped := by
  have hheld : (s.thread u).holds .status = true := by
    rw [hthread]
    exact EventPc.holds_of_concluding hpc
  have hset (n : ℕ) (v : Task) (hn : n = completeBit v) : raise s.taskStatus n = s.taskStatus := by
    rw [hn]
    exact raise_eq_self (tasksCompleted_iff.mp hdone v)
  have horigin := h.origin
  cases e with
  | clearTaskStatus =>
    have hc := h.not_cyclic_of_other hok.owners hu hheld
    cases hc
  | setStatus n cause =>
    rcases horigin with ⟨status, rest, hp, -⟩ | ⟨v, -, hn, -⟩ | ⟨w, v, -, -, -, hn, -⟩ |
      ⟨w, -, rfl, ⟨-, rfl⟩ | ⟨-, hn⟩⟩
    · have ht : (s.thread t).holds .status = true := by rw [hp]; rfl
      exact absurd (hok.owners.unique hheld ht) hu
    · exact .inl (hset n v hn)
    · exact .inl (hset n v hn)
    · exact .inr rfl
    · exact .inl (hset n .swupdate hn)
  | _ => exact .inl rfl

/-! ## What the handler has found -/

structure Concludes (s : Sys) (pc : EventPc) : Prop where
  completed : pc.concluding = true → tasksCompleted s.taskStatus = true
  success : pc.verdict = some .complete → allTasksSuccess s.taskStatus = true
  verdict : pc.verdict ≠ some .idle

theorem Concludes.congr (h : Concludes s pc) (hs : s'.taskStatus = s.taskStatus) :
    Concludes s' pc :=
  ⟨fun hx => hs ▸ h.completed hx, fun hx => hs ▸ h.success hx, h.verdict⟩

theorem Concludes.of_not_concluding (h : pc.concluding = false) : Concludes s pc := by
  have hv {v : NotifyStatus} (hx : pc.verdict = some v) : False := by
    rw [EventPc.concluding_of_verdict hx] at h
    cases h
  exact ⟨fun hx => absurd hx (by simp [h]), fun hx => (hv hx).elim, fun hx => hv hx⟩

theorem iarmEventHandler_concludes {c : Choice} {pc' : EventPc} (hok : Concludes s pc)
    (h : iarmEventHandler cfg s pc c = (.event pc', e)) :
    Concludes (s.commit cfg t (.event pc') e) pc' := by
  obtain ⟨hdone, hsuccess, hverdict⟩ := hok
  revert h
  fun_cases iarmEventHandler cfg s pc c
  all_goals
    simp only [Prod.mk.injEq, Thread.event.injEq, reduceCtorEq, false_and, IsEmpty.forall_iff]
    try rintro ⟨rfl, rfl⟩
  all_goals constructor <;> simp_all [EventPc.concluding, EventPc.verdict, Effect.apply]

theorem Concludes.other (hc : Concludes s pc) (hok : SysOk cfg s) (h : Move cfg s t l e)
    (hu : u ≠ t) (hthread : s.thread u = .event pc) : Concludes (s.commit cfg t l e) pc := by
  cases hpc : pc.concluding with
  | false => exact Concludes.of_not_concluding hpc
  | true =>
    have hdone := hc.completed hpc
    rcases hok.taskStatus_of_concluding h hu hthread hpc hdone with heq | rfl
    · exact hc.congr heq
    · exact ⟨fun _ => covers_raise hdone, fun hv => covers_raise (hc.success hv), hc.verdict⟩

theorem concludes_of_reachable (h : (plugin cfg).Reachable s) (hthread : s.thread u = .event pc) :
    Concludes s pc := by
  refine (reachedWhere_of_reachable h).forall_handlers (A := Concludes) ?_ ?_ ?_ ?_ hthread
  · intro s ev
    exact Concludes.of_not_concluding rfl
  · intro s t pc pc' c e _ hc _ hst _
    exact iarmEventHandler_concludes hc hst
  · intro s t pc e hc he
    rcases he with rfl | rfl <;> exact hc.congr rfl
  · intro s t l e u pc _ hok hc hthread hmove _ hu
    exact hc.other hok hmove hu hthread

end SoftwareUpdate.MaintenanceManager
