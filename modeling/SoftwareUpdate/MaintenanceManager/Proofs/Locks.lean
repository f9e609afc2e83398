import SoftwareUpdate.Misc.Ownership
import SoftwareUpdate.MaintenanceManager.Proofs.Moves

/-!
# Which mutexes a thread holds

The program point of a thread says which of the three mutexes it holds, and in every
reachable state the owners recorded in the state are those threads. What a cycle is made of
(`m_notify_status`, `m_thread`, `g_maintenance_type`) is changed only under `m_statusMutex`.
-/

namespace SoftwareUpdate.MaintenanceManager

open Misc

variable {cfg : Config} {s s' : Sys} {t u : Tid} {l : Thread} {e : Effect}

/-- The worker holds `m_waiMutex` throughout, `m_callMutex` in the loop, and `m_statusMutex`
around a status notification; inside a wait it has given up the mutex it waits with. -/
def WorkerPc.holds : Mutex → WorkerPc → Bool
  | .status, .notifyStarted | .status, .unlockStarted | .status, .notifyError
  | .status, .unlockError => true
  | .status, _ => false
  | .wai, .lockWai | .wai, .wakeContext => false
  | .wai, _ => true
  | .call, .loopTest | .call, .setCurrent | .call, .abortTest | .call, .startTimer
  | .call, .setMap | .call, .launch | .call, .clearMap | .call, .failComplete
  | .call, .waitTask | .call, .stopTimer | .call, .abortEnd | .call, .clearAbort
  | .call, .stopTimerEnd | .call, .unlockCall => true
  | .call, _ => false

def StartPc.holds : Mutex → StartPc → Bool
  | .status, .lock => false
  | .status, _ => true
  | .call, .unlockCall => true
  | _, _ => false

def StopPc.holds : Mutex → StopPc → Bool
  | .status, .deleteTimer | .status, .lock | .status, .removeEventHandler
  | .status, .clearInstance | .status, .clearService => false
  | .status, _ => true
  | _, _ => false

def EventPc.holds : Mutex → EventPc → Bool
  | .status, .testInstance _ | .status, .enter _ | .status, .lock _ => false
  | .status, _ => true
  | _, _ => false

def ModePc.holds : Mutex → ModePc → Bool
  | .call, .unlockCall => true
  | _, _ => false

def Thread.holds (m : Mutex) : Thread → Bool
  | .worker w => w.pc.holds m
  | .start pc => pc.holds m
  | .stop _ pc => pc.holds m
  | .event pc => pc.holds m
  | .mode pc => pc.holds m
  | _ => false

/-- What holding `m` becomes with the effect. -/
def Effect.holdsAfter (m : Mutex) (b : Bool) : Effect → Bool
  | .lock m' => if m' = m then true else b
  | .unlock m' | .wait m' => if m' = m then false else b
  | _ => b

/-- The mutex an effect gives up. -/
def Effect.released : Effect → Option Mutex
  | .unlock m | .wait m => some m
  | _ => none

theorem Effect.holdsAfter_of_released {m k : Mutex} {b : Bool} (h : e.released = some m) :
    e.holdsAfter k b = if m = k then false else b := by
  cases e <;> cases h <;> rfl

theorem Effect.holdsAfter_eq {k : Mutex} {b : Bool} (hl : ∀ m, e ≠ .lock m)
    (hr : e.released = none) : e.holdsAfter k b = b := by
  cases e with
  | lock m => exact absurd rfl (hl m)
  | unlock m | wait m => cases hr
  | _ => rfl

/-- The effects on the state of a cycle that are under `m_statusMutex` wherever they occur. -/
def Effect.cyclic : Effect → Bool
  | .onMaintenanceStatusChange _ | .join _ | .create _ | .setMaintenanceType _
  | .clearTaskStatus | .setAbortFlag true => true
  | _ => false

/-- A statement changes what its thread holds exactly as its effect says, it releases what
the thread holds, and it changes the state of the cycle only under `m_statusMutex`. -/
structure Disciplined (l : Thread) (l' : Thread) (e : Effect) : Prop where
  after : ∀ m, l'.holds m = e.holdsAfter m (l.holds m)
  released : ∀ m, e.released = some m → l.holds m = true
  cyclic : e.cyclic = true → l.holds .status = true

theorem WorkerStep.disciplined {w : Worker} (h : WorkerStep cfg s w l e) :
    Disciplined (.worker w) l e := by
  constructor
  · intro m
    cases h with
    | _ hpc =>
      simp only [Thread.holds, hpc]
      cases m <;> rfl
  · intro m hm
    cases h with
    | _ hpc =>
      simp only [Thread.holds, hpc]
      cases hm <;> rfl
  · intro hc
    cases h with
    | _ hpc =>
      simp only [Thread.holds, hpc]
      first | rfl | cases hc

theorem startMaintenance_disciplined (pc : StartPc) (c : Choice) :
    Disciplined (.start pc) (startMaintenance s pc c).1 (startMaintenance s pc c).2 := by
  fun_cases startMaintenance s pc c <;> constructor <;> intro m <;> try cases m
  all_goals simp_all [Thread.holds, StartPc.holds, Effect.holdsAfter, Effect.released]

theorem stopMaintenanceTasks_disciplined (deinit : Bool) (pc : StopPc) (c : Choice) :
    Disciplined (.stop deinit pc) (stopMaintenanceTasks s deinit pc c).1
      (stopMaintenanceTasks s deinit pc c).2 := by
  fun_cases stopMaintenanceTasks s deinit pc c <;> constructor <;> intro m <;> try cases m
  all_goals simp_all [Thread.holds, StopPc.holds, Effect.holdsAfter, Effect.released]

theorem CaseStmt.disciplined (x : CaseStmt) (status : ModuleStatus) (rest : List CaseStmt)
    (c : Choice) : Disciplined (.event (.body status (x :: rest))) (.event (.body status rest))
      (x.effect status c) := by
  cases x <;> constructor <;> intro m <;> try cases m
  all_goals simp_all [Thread.holds, EventPc.holds, CaseStmt.effect, Effect.holdsAfter,
    Effect.released]

theorem iarmEventHandler_disciplined (pc : EventPc) (c : Choice) :
    Disciplined (.event pc) (iarmEventHandler cfg s pc c).1 (iarmEventHandler cfg s pc c).2 := by
  fun_cases iarmEventHandler cfg s pc c
  case case9 status x rest => exact x.disciplined status rest c
  all_goals constructor <;> intro m <;> try cases m
  all_goals simp_all [Thread.holds, EventPc.holds, Effect.holdsAfter, Effect.released]

theorem timerHandler_disciplined (pc : TimerPc) (c : Choice) :
    Disciplined (.timer pc) (timerHandler s pc c).1 (timerHandler s pc c).2 := by
  fun_cases timerHandler s pc c <;> constructor <;> intro m <;>
    simp_all [Thread.holds, Effect.holdsAfter, Effect.released, Effect.cyclic]

theorem deviceContext_disciplined (pc : ContextPc) (c : Choice) :
    Disciplined (.context pc) (deviceInitializationContextEventHandler s pc c).1
      (deviceInitializationContextEventHandler s pc c).2 := by
  fun_cases deviceInitializationContextEventHandler s pc c <;> constructor <;> intro m <;>
    simp_all [Thread.holds, Effect.holdsAfter, Effect.released, Effect.cyclic]

theorem internetStatus_disciplined (pc : InternetPc) :
    Disciplined (.internet pc) (internetStatusChangeEventHandler s pc).1
      (internetStatusChangeEventHandler s pc).2 := by
  fun_cases internetStatusChangeEventHandler s pc <;> constructor <;> intro m <;>
    simp_all [Thread.holds, Effect.holdsAfter, Effect.released, Effect.cyclic]

theorem maintenanceMode_disciplined (pc : ModePc) :
    Disciplined (.mode pc) (maintenanceMode pc).1 (maintenanceMode pc).2 := by
  fun_cases maintenanceMode pc <;> constructor <;> intro m <;> try cases m
  all_goals simp_all [Thread.holds, ModePc.holds, Effect.holdsAfter, Effect.released]

theorem statement_disciplined {c : Choice} {l₀ : Thread} (h : statement cfg s c l₀ = some (l, e)) :
    Disciplined l₀ l e := by
  have of_eq {p : Thread × Effect} (hd : Disciplined l₀ p.1 p.2) (hp : some p = some (l, e)) :
      Disciplined l₀ l e := by
    rwa [Option.some.inj hp] at hd
  cases l₀ with
  | idle | finished => cases h
  | worker w => exact (taskExecutionThread_step h).disciplined
  | start pc => exact of_eq (startMaintenance_disciplined pc c) h
  | stop deinit pc => exact of_eq (stopMaintenanceTasks_disciplined deinit pc c) h
  | event pc => exact of_eq (iarmEventHandler_disciplined pc c) h
  | timer pc => exact of_eq (timerHandler_disciplined pc c) h
  | context pc => exact of_eq (deviceContext_disciplined pc c) h
  | internet pc => exact of_eq (internetStatus_disciplined pc) h
  | mode pc => exact of_eq (maintenanceMode_disciplined pc) h

theorem Move.disciplined (h : Move cfg s t l e) : Disciplined (s.thread t) l e := by
  cases h with
  | run c _ h => exact statement_disciplined h
  | call r hidle =>
    rw [hidle]
    constructor
    · intro m
      cases r <;> cases m <;> rfl
    · intro m hm
      cases hm
    · intro hc
      cases hc
  | wakeUp =>
    constructor <;> intro m <;> simp_all [Effect.holdsAfter, Effect.released, Effect.cyclic]
  | timerExpires =>
    constructor <;> intro m <;> simp_all [Effect.holdsAfter, Effect.released, Effect.cyclic]
  | signal hidle =>
    rw [hidle]
    constructor <;> intro m <;>
      simp_all [Thread.holds, Effect.holdsAfter, Effect.released, Effect.cyclic]

/-! ## The recorded owners -/

/-- The owners of the mutexes are the threads whose program points hold them. -/
def OwnersAgree (s : Sys) : Prop := Owned s.owner fun t m => (s.thread t).holds m = true

/-- No step changes what the other threads hold; a new worker holds nothing. -/
theorem commit_holds_other (hen : e.enabled s t = true) (hu : u ≠ t) (m : Mutex) :
    ((s.commit cfg t l e).thread u).holds m = (s.thread u).holds m := by
  by_cases he : ∃ w, e = .create w
  · obtain ⟨w, rfl⟩ := he
    by_cases hw : u = w
    · subst hw
      have hidle : s.thread u = .idle := Thread.isIdle_iff.mp hen
      rw [commit_thread_create hu, hidle]
      cases m <;> rfl
    · rw [commit_thread_create_of_ne hu hw]
  · rw [commit_thread_other hu fun w hw => he ⟨w, hw⟩]

theorem Move.ownersAgree (h : Move cfg s t l e) (hen : e.enabled s t = true)
    (ho : OwnersAgree s) : OwnersAgree (s.commit cfg t l e) := by
  have hd := h.disciplined
  have hother : ∀ u, u ≠ t → ∀ k, ((s.commit cfg t l e).thread u).holds k = true ↔
      (s.thread u).holds k = true :=
    fun u hu k => by rw [commit_holds_other hen hu k]
  have hself : ∀ k, ((s.commit cfg t l e).thread t).holds k = true ↔
      e.holdsAfter k ((s.thread t).holds k) = true :=
    fun k => by rw [commit_thread_self, hd.after k]
  by_cases hl : ∃ m, e = .lock m
  · obtain ⟨m, rfl⟩ := hl
    refine Owned.acquire ho (Option.isNone_iff_eq_none.mp hen) (fun k => ?_) hother
    rw [hself k]
    by_cases hk : k = m
    · simp [Effect.holdsAfter, hk]
    · simp [Effect.holdsAfter, hk, Ne.symm hk]
  · by_cases hr : ∃ m, e.released = some m
    · obtain ⟨m, hm⟩ := hr
      have howner : (s.commit cfg t l e).owner = Function.update s.owner m none := by
        cases e <;> cases hm <;> rfl
      unfold OwnersAgree
      rw [howner]
      refine Owned.release ho (hd.released m hm) (fun k => ?_) hother
      rw [hself k, Effect.holdsAfter_of_released hm]
      by_cases hk : k = m
      · simp [hk]
      · simp [hk, Ne.symm hk]
    · have howner : (s.commit cfg t l e).owner = s.owner :=
        apply_owner (fun m he => hl ⟨m, he⟩) (fun m he => hr ⟨m, by rw [he]; rfl⟩)
          (fun m he => hr ⟨m, by rw [he]; rfl⟩)
      unfold OwnersAgree
      rw [howner]
      refine Owned.congr ho fun u k => ?_
      by_cases hu : u = t
      · subst hu
        rw [hself k, Effect.holdsAfter_eq (fun m he => hl ⟨m, he⟩)
          (Option.eq_none_iff_forall_ne_some.mpr fun m hm => hr ⟨m, hm⟩)]
      · exact hother u hu k

theorem ownersAgree_onBootup (threadCreated : Bool) :
    OwnersAgree (maintenanceManagerOnBootup cfg threadCreated) := by
  intro m t
  cases threadCreated <;> cases m <;>
    by_cases ht : t = 0 <;>
      simp [maintenanceManagerOnBootup, Thread.holds, Worker.create, WorkerPc.holds, ht]

/-- While a thread holds `m_statusMutex`, no other thread changes the state of the cycle. -/
theorem Move.not_cyclic_of_other (h : Move cfg s t l e) (ho : OwnersAgree s) (hu : u ≠ t)
    (hheld : (s.thread u).holds .status = true) : e.cyclic = false := by
  by_contra hc
  have ht : (s.thread t).holds .status = true := h.disciplined.cyclic (by simpa using hc)
  exact hu (ho.unique hheld ht)

end SoftwareUpdate.MaintenanceManager
