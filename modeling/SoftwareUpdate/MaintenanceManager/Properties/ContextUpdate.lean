import SoftwareUpdate.MaintenanceManager.Proofs.Runs

/-!
# The device context that arrives during the handshake

An unsolicited worker that gets no context from SecManager raises
`g_listen_to_deviceContextUpdate` and waits until an event has brought the context. The event
handler takes no mutex: it drops an event while the flag is down, and it lowers the flag and
notifies whatever the worker does. A context is lost in two windows, between the answer of
SecManager and the flag, and between the worker's look at the flag and its wait; nothing is
lost in the runs that keep out of them.
-/

namespace SoftwareUpdate.MaintenanceManager

open Misc

variable {cfg : Config} {s s' : Sys} {t u v : Tid} {l : Thread} {e : Effect} {w : Worker}
  {C : Sys → Tid → Thread → Effect → Prop}

/-- SecManager has been asked, and the handshake is not over. -/
def WorkerPc.awaitsContext : WorkerPc → Bool
  | .branchContext | .listenContext | .testContext | .waitContext | .wakeContext => true
  | _ => false

/-- Worker `v` is between the answer of SecManager and the end of its wait. -/
def Sys.awaitsContext (s : Sys) (v : Tid) : Prop :=
  ∃ w, s.thread v = .worker w ∧ w.pc.awaitsContext = true

/-- Worker `v` is blocked in the wait for the context. -/
def Sys.blockedForContext (s : Sys) (v : Tid) : Prop :=
  ∃ w, s.thread v = .worker w ∧ w.pc = .wakeContext ∧ v ∈ s.waiters

/-- The context that thread `t` handles is complete: setting it succeeds. -/
def CompleteContext (s : Sys) (t u : Tid) (l : Thread) : Prop :=
  u = t → s.thread t = .context .setContext → l ≠ .idle

/-- In a run whose moves meet `C` an update is lost: after SecManager's answer to worker `v`, thread
`t` receives an event with a complete context and handles it to the end; later, still in the same
handshake, the worker is blocked in its wait and no event is being handled. -/
def ContextLost (cfg : Config) (C : Sys → Tid → Thread → Effect → Prop) (s : Sys) : Prop :=
  ∃ v t s₁ s₂ s₃, ReachedWhere cfg C s₁ ∧ s₁.awaitsContext v ∧
    (plugin cfg).step s₁ (.call t (.deviceContext true)) = some s₂ ∧
    LeadsWhere cfg (fun s u l e => C s u l e ∧ s.awaitsContext v ∧ CompleteContext s t u l) s₂ s₃ ∧
    s₃.thread t = .idle ∧
    LeadsWhere cfg (fun s u l e => C s u l e ∧ s.awaitsContext v) s₃ s ∧
    s.blockedForContext v ∧ ∀ x pc, s.thread x ≠ .context pc

/-- The worker will raise the flag and wait. -/
def Worker.willListen (w : Worker) : Prop :=
  w.pc = .listenContext ∨
    w.pc = .branchContext ∧ w.whoAmIStatus = false ∧ w.activationStatus ≠ .activated

/-- No event is examined between the answer of SecManager and the flag, and no handler
notifies between the worker's look at the flag and its wait. -/
def HandshakeInTime (s : Sys) (t : Tid) (_ : Thread) (e : Effect) : Prop :=
  ∀ v w, s.thread v = .worker w →
    (e = .tau → s.thread t = .context (.test true) → ¬ w.willListen) ∧
    (∀ woken, e = .notifyOne woken → s.thread t = .context .notify → w.pc ≠ .waitContext)

/-! ## The steps of a handler -/

theorem Move.of_context {pc : ContextPc} (h : Move cfg s t l e) (hok : SysOk cfg s)
    (hen : e.enabled s t = true) (ht : s.thread t = .context pc) :
    (∃ c, deviceInitializationContextEventHandler s pc c = (l, e)) ∨
      l = .context pc ∧ e = .timerExpires := by
  cases h with
  | run c _ hst =>
    rw [ht] at hst
    exact .inl ⟨c, Option.some.inj hst⟩
  | call r hidle => rw [ht] at hidle; cases hidle
  | wakeUp =>
    obtain ⟨w, hw, -⟩ := hok.waiting t (by simpa [Effect.enabled] using hen)
    rw [ht] at hw
    cases hw
  | timerExpires => exact .inr ⟨ht, rfl⟩
  | signal hidle => rw [ht] at hidle; cases hidle

/-- A handler that is about to notify has lowered the flag. -/
theorem lowersListen (h : Move cfg s t l (.setListenContext false)) (hok : SysOk cfg s)
    (hw : s.thread v = .worker w) (hvt : v ≠ t) : l = .context .notify := by
  rcases h.origin with ⟨w', hw'⟩ | hp
  · exact absurd (hok.worker_unique hw hw') hvt
  · rcases h.of_context hok rfl hp with ⟨c, hst⟩ | ⟨-, he⟩
    · cases hst
      rfl
    · cases he

/-! ## A worker that waits has been listening, or will be notified -/

/-- The worker has looked at the flag and found it raised, and waits or is about to. -/
def Sys.waitsForContext (s : Sys) (v : Tid) (w : Worker) : Prop :=
  w.pc = .waitContext ∨ w.pc = .wakeContext ∧ v ∈ s.waiters

theorem WorkerStep.to_waitContext {w' : Worker} (h : WorkerStep cfg s w (.worker w') e)
    (hpc : w'.pc = .waitContext) : s.listenToDeviceContextUpdate = true ∧ e = .tau := by
  cases h <;> cases hpc
  exact ⟨‹_›, rfl⟩

theorem WorkerStep.to_wakeContext {w' : Worker} (h : WorkerStep cfg s w (.worker w') e)
    (hpc : w'.pc = .wakeContext) : w.pc = .waitContext ∧ e = .wait .wai := by
  cases h <;> cases hpc
  exact ⟨‹_›, rfl⟩

/-- A step of the worker itself that neither creates a thread nor touches the flag. -/
theorem listening_own (hthread : s.thread v = .worker w) (hcreate : ∀ y, e ≠ .create y)
    (hflag : (e.apply cfg v s).listenToDeviceContextUpdate = s.listenToDeviceContextUpdate)
    (h : s.listenToDeviceContextUpdate = true ∨ ∃ x, s.thread x = .context .notify) :
    (s.commit cfg v l e).listenToDeviceContextUpdate = true ∨
      ∃ x, (s.commit cfg v l e).thread x = .context .notify := by
  refine h.imp hflag.trans fun ⟨x, hx⟩ => ⟨x, ?_⟩
  rwa [commit_thread_other (by rintro rfl; cases hthread.symm.trans hx) hcreate]

/-- A step of another thread. -/
theorem listening_other (hok : SysOk cfg s) (hmove : Move cfg s t l e)
    (hen : e.enabled s t = true) (hcond : HandshakeInTime s t l e) (hvt : v ≠ t)
    (hthread : s.thread v = .worker w) (hwaits : (s.commit cfg t l e).waitsForContext v w)
    (h : s.listenToDeviceContextUpdate = true ∨ ∃ x, s.thread x = .context .notify) :
    (s.commit cfg t l e).listenToDeviceContextUpdate = true ∨
      ∃ x, (s.commit cfg t l e).thread x = .context .notify := by
  rcases h with hflag | ⟨x, hx⟩
  · by_cases he : e = .setListenContext false
    · subst he
      exact .inr ⟨t, by rw [commit_thread_self, lowersListen hmove hok hthread hvt]⟩
    · refine .inl ?_
      cases e with
      | setListenContext b =>
        cases b with
        | true => rfl
        | false => exact absurd rfl he
      | _ => exact hflag
  · by_cases hxt : x = t
    · subst hxt
      rcases hmove.of_context hok hen hx with ⟨c, hst⟩ | ⟨rfl, -⟩
      · -- the notification finds the worker inside `wait`, and no other thread waits
        cases hst
        have hnot := (hcond v w hthread).2 c.woken rfl hx
        obtain ⟨-, hin⟩ := hwaits.resolve_left hnot
        cases hwoken : c.woken with
        | none =>
          rw [hwoken] at hen hin
          have hin' : v ∈ s.waiters := hin
          rw [List.isEmpty_iff.mp hen] at hin'
          cases hin'
        | some y =>
          rw [hwoken] at hen hin
          obtain ⟨w', hw', -⟩ := hok.waiting y (by simpa [Effect.enabled] using hen)
          obtain rfl := hok.worker_unique hw' hthread
          exact absurd hin hok.nodup.not_mem_erase
      · exact .inr ⟨x, commit_thread_self⟩
    · exact .inr ⟨x, commit_thread_stays hen hxt hx (by simp)⟩

theorem listening_of_reached (h : ReachedWhere cfg HandshakeInTime s)
    (hw : s.thread v = .worker w) (hwaits : s.waitsForContext v w) :
    s.listenToDeviceContextUpdate = true ∨ ∃ x, s.thread x = .context .notify := by
  refine h.forall_threads (A := fun s v l => ∀ w, l = .worker w → s.waitsForContext v w →
    s.listenToDeviceContextUpdate = true ∨ ∃ x, s.thread x = .context .notify) ?_ ?_ ?_ ?_ v w hw
    hwaits
  · intro threadCreated v w hw hwaits
    rcases boot_thread threadCreated v with hv | hv <;> cases hv.symm.trans hw
    rcases hwaits with hpc | ⟨hpc, -⟩ <;> cases hpc
  · intro s v l e _ hok ih hmove _ _ w hw hwaits
    subst hw
    rcases hmove.worker with ⟨w₀, hnot, hthread, hstep⟩ | ⟨hthread, rfl | rfl⟩
    · rcases hwaits with hpc | ⟨hpc, -⟩
      · obtain ⟨hflag, rfl⟩ := hstep.to_waitContext hpc
        exact .inl hflag
      · obtain ⟨hpc₀, rfl⟩ := hstep.to_wakeContext hpc
        exact listening_own hthread nofun rfl (ih w₀ hthread (.inl hpc₀))
    · rcases hwaits with hpc | ⟨-, hin⟩
      · exact listening_own hthread nofun rfl (ih w hthread (.inl hpc))
      · exact absurd hin hok.nodup.not_mem_erase
    · exact listening_own hthread nofun rfl (ih w hthread hwaits)
  · intro s t l e v _ hok ih hmove hen hcond hvt w hw hwaits
    refine listening_other hok hmove hen hcond hvt hw hwaits (ih w hw ?_)
    refine hwaits.imp id fun ⟨hpc, hin⟩ => ⟨hpc, ?_⟩
    exact (mem_waiters_apply hin).resolve_right fun heq => hvt heq.1
  · intro s t l w _ _ _ w' hw' hwaits
    cases hw'
    rcases hwaits with hpc | ⟨hpc, -⟩ <;> cases hpc

/-! ## The event is heard -/

/-- The worker has raised the flag. -/
def WorkerPc.listened : WorkerPc → Bool
  | .testContext | .waitContext | .wakeContext => true
  | _ => false

/-- The worker `v` does not wait, or has raised the flag and an event has lowered it. -/
def Sys.heard (s : Sys) (v : Tid) : Prop :=
  ∃ w, s.thread v = .worker w ∧ (w.pc = .branchContext ∧ ¬ w.willListen ∨
    w.pc.listened = true ∧ s.listenToDeviceContextUpdate = false)

/-- The event is being handled by thread `t`, or it has been handled. -/
def Sys.hears (s : Sys) (v t : Tid) : Prop :=
  s.heard v ∨ (∃ w, s.thread v = .worker w ∧ s.thread t = .context (.test true)) ∨
    ∃ w, s.thread v = .worker w ∧ w.pc.listened = true ∧
      (s.thread t = .context .setContext ∨ s.thread t = .context .clearListen)

/-- No thread but the worker raises the flag. -/
theorem lowered_other (hok : SysOk cfg s) (hmove : Move cfg s t l e) (hvt : v ≠ t)
    (hthread : s.thread v = .worker w) (h : s.listenToDeviceContextUpdate = false) :
    (s.commit cfg t l e).listenToDeviceContextUpdate = false := by
  cases e with
  | setListenContext b =>
    rcases hmove.origin with ⟨w', hw'⟩ | hp
    · exact absurd (hok.worker_unique hthread hw') hvt
    · rcases hmove.of_context hok rfl hp with ⟨c, hst⟩ | ⟨-, he⟩
      · cases hst
        rfl
      · cases he
  | _ => exact h

/-- The worker's own steps between the flag and the end of the wait. -/
theorem WorkerStep.listened {w' : Worker} (h : WorkerStep cfg s w (.worker w') e)
    (hw : w.pc.listened = true) (hw' : w'.pc.awaitsContext = true) :
    w'.pc.listened = true ∧ (∀ y, e ≠ .create y) ∧
      (e.apply cfg t s).listenToDeviceContextUpdate = s.listenToDeviceContextUpdate := by
  cases h <;> simp_all [WorkerPc.listened, WorkerPc.awaitsContext, Effect.apply]

theorem WorkerStep.not_willListen {w' : Worker} (h : WorkerStep cfg s w (.worker w') e)
    (hpc : w.pc = .branchContext) (hw : ¬ w.willListen) : w'.pc.awaitsContext = false := by
  cases h <;> simp_all [Worker.willListen, WorkerPc.awaitsContext]

theorem heard_step (hok : SysOk cfg s) (hmove : Move cfg s t l e) (hen : e.enabled s t = true)
    (hawaits : (s.commit cfg t l e).awaitsContext v) (h : s.heard v) :
    (s.commit cfg t l e).heard v := by
  obtain ⟨w, hthread, h⟩ := h
  obtain ⟨w', hthread', hw'⟩ := hawaits
  by_cases hvt : v = t
  · subst hvt
    rw [commit_thread_self] at hthread'
    subst hthread'
    refine ⟨w', commit_thread_self, ?_⟩
    rcases hmove.of_worker hthread with hstep | ⟨hstay, he⟩
    · rcases h with ⟨hpc, hno⟩ | ⟨hpc, hflag⟩
      · rw [hstep.not_willListen hpc hno] at hw'
        cases hw'
      · obtain ⟨hpc', -, hsame⟩ := hstep.listened (t := v) hpc hw'
        exact .inr ⟨hpc', hsame.trans hflag⟩
    · cases hstay
      refine h.imp id fun ⟨hpc, hflag⟩ => ⟨hpc, ?_⟩
      rcases he with rfl | rfl <;> exact hflag
  · refine ⟨w, ?_, h.imp id fun ⟨hpc, hflag⟩ => ⟨hpc, lowered_other hok hmove hvt hthread hflag⟩⟩
    exact commit_thread_stays hen hvt hthread (by simp)

/-- The worker waits on behalf of the boot cycle, which is unsolicited. -/
theorem SysOk.unsolicited (hok : SysOk cfg s) (hthread : s.thread v = .worker w)
    (hw : w.pc.awaitsContext = true) : s.maintenanceType = .unsolicited := by
  have hworker := hok.worker hthread
  have hasks : w.pc.asks = true := by
    revert hw
    cases w.pc <;> simp [WorkerPc.awaitsContext, WorkerPc.asks]
  have hdelayed := hworker.asks hasks
  refine hworker.delayed ?_ hdelayed
  revert hasks
  unfold Worker.phase
  cases w.pc <;> simp [WorkerPc.asks, hdelayed]

/-- The statements of the handler of thread `t`. -/
theorem hears_own (hok : SysOk cfg s) (hmove : Move cfg s t l e) (hen : e.enabled s t = true)
    (hcond : HandshakeInTime s t l e) (hcomplete : CompleteContext s t t l)
    (hthread : s.thread v = .worker w) (hw : w.pc.awaitsContext = true)
    (hv : (s.commit cfg t l e).thread v = .worker w) {pc : ContextPc}
    (ht : s.thread t = .context pc)
    (hpc : pc = .test true ∨
      w.pc.listened = true ∧ (pc = .setContext ∨ pc = .clearListen)) :
    (s.commit cfg t l e).hears v t := by
  rcases hmove.of_context hok hen ht with ⟨c, hst⟩ | ⟨rfl, rfl⟩
  · rcases hpc with rfl | ⟨hlistened, rfl | rfl⟩
    · simp only [deviceInitializationContextEventHandler] at hst
      have hunsolicited := hok.unsolicited hthread hw
      split at hst
      case isTrue =>
        cases hst
        have hno := (hcond v w hthread).1 rfl ht
        cases hbranch : w.pc with
        | branchContext => exact .inl ⟨w, hv, .inl ⟨hbranch, hno⟩⟩
        | listenContext => exact absurd (.inl hbranch) hno
        | testContext | waitContext | wakeContext =>
          exact .inr (.inr ⟨w, hv, by rw [hbranch]; rfl, .inl commit_thread_self⟩)
        | _ => rw [hbranch] at hw; cases hw
      case isFalse hdropped =>
        cases hst
        have hno := (hcond v w hthread).1 rfl ht
        have hflag : s.listenToDeviceContextUpdate = false := by
          by_contra hraised
          exact hdropped ⟨by simpa using hraised, hunsolicited, trivial⟩
        cases hbranch : w.pc with
        | branchContext => exact .inl ⟨w, hv, .inl ⟨hbranch, hno⟩⟩
        | listenContext => exact absurd (.inl hbranch) hno
        | testContext | waitContext | wakeContext =>
          exact .inl ⟨w, hv, .inr ⟨by rw [hbranch]; rfl, hflag⟩⟩
        | _ => rw [hbranch] at hw; cases hw
    · simp only [deviceInitializationContextEventHandler] at hst
      split at hst <;> cases hst
      · exact .inr (.inr ⟨w, hv, hlistened, .inr commit_thread_self⟩)
      · exact absurd rfl (hcomplete rfl ht)
    · cases hst
      exact .inl ⟨w, hv, .inr ⟨hlistened, rfl⟩⟩
  · rcases hpc with rfl | ⟨hlistened, rfl | rfl⟩
    · exact .inr (.inl ⟨w, hv, commit_thread_self⟩)
    · exact .inr (.inr ⟨w, hv, hlistened, .inl commit_thread_self⟩)
    · exact .inr (.inr ⟨w, hv, hlistened, .inr commit_thread_self⟩)

/-- A step while thread `t` handles the event. -/
theorem hears_step (hok : SysOk cfg s) (hmove : Move cfg s u l e) (hen : e.enabled s u = true)
    (hcond : HandshakeInTime s u l e) (hcomplete : CompleteContext s t u l)
    (hawaits : s.awaitsContext v) (hawaits' : (s.commit cfg u l e).awaitsContext v)
    (h : s.hears v t) : (s.commit cfg u l e).hears v t := by
  obtain ⟨w₀, hthread, hw⟩ := hawaits
  have hcontext {pc : ContextPc} (ht : s.thread t = .context pc)
      (hpc : pc = .test true ∨
        w₀.pc.listened = true ∧ (pc = .setContext ∨ pc = .clearListen)) :
      (s.commit cfg u l e).hears v t := by
    have hvt : v ≠ t := by
      rintro rfl
      cases hthread.symm.trans ht
    by_cases hut : u = t
    · subst hut
      refine hears_own hok hmove hen hcond hcomplete hthread hw ?_ ht hpc
      exact commit_thread_stays hen hvt hthread (by simp)
    · have ht' : (s.commit cfg u l e).thread t = .context pc :=
        commit_thread_stays hen (Ne.symm hut) ht (by simp)
      obtain ⟨w, hthread', hw'⟩ := hawaits'
      rcases hpc with rfl | ⟨hlistened, hpc⟩
      · exact .inr (.inl ⟨w, hthread', ht'⟩)
      · refine .inr (.inr ⟨w, hthread', ?_, ?_⟩)
        · by_cases hvu : v = u
          · subst hvu
            rw [commit_thread_self] at hthread'
            subst hthread'
            rcases hmove.of_worker hthread with hstep | ⟨hstay, -⟩
            · exact (hstep.listened (t := v) hlistened hw').1
            · cases hstay
              exact hlistened
          · rw [commit_thread_stays hen hvu hthread (by simp)] at hthread'
            cases hthread'
            exact hlistened
        · rcases hpc with rfl | rfl
          · exact .inl ht'
          · exact .inr ht'
  rcases h with hheard | ⟨w, -, ht⟩ | ⟨w, hv, hlistened, ht⟩
  · exact .inl (heard_step hok hmove hen hawaits' hheard)
  · exact hcontext ht (.inl rfl)
  · cases hthread.symm.trans hv
    rcases ht with ht | ht
    · exact hcontext ht (.inr ⟨hlistened, .inl rfl⟩)
    · exact hcontext ht (.inr ⟨hlistened, .inr rfl⟩)

/-- The call of an event is no move that the condition speaks of. -/
theorem reached_of_call {r : Request} (h : ReachedWhere cfg HandshakeInTime s)
    (hcall : (plugin cfg).step s (.call t r) = some s') : ReachedWhere cfg HandshakeInTime s' := by
  refine .step h (fun t' l e hoffer v w _ => ?_) hcall
  simp only [offer] at hoffer
  split at hoffer
  · cases hoffer
    constructor
    · intro he
      cases he
    · intro _ he
      cases he
  · cases hoffer

/-- The event that has been received is about to be examined. -/
theorem hears_of_call (hawaits : s.awaitsContext v)
    (hcall : (plugin cfg).step s (.call t (.deviceContext true)) = some s') : s'.hears v t := by
  obtain ⟨w, hthread, -⟩ := hawaits
  obtain ⟨t', l, e, hoffer, hen, rfl⟩ := step_commit hcall
  simp only [offer] at hoffer
  split at hoffer
  · rename_i hidle
    cases hoffer
    refine .inr (.inl ⟨w, ?_, commit_thread_self⟩)
    have hvt : v ≠ t := by
      rintro rfl
      cases hthread.symm.trans (Thread.isIdle_iff.mp hidle)
    exact commit_thread_stays hen hvt hthread (by simp)
  · cases hoffer

/-- In the runs that keep out of the two windows no device context is lost. -/
theorem not_contextLost : ¬ ContextLost cfg HandshakeInTime s := by
  rintro ⟨v, t, s₁, s₂, s₃, hs₁, hawaits, hcall, hhandled, hidle, hlater, hblocked, hquiet⟩
  have hs₂ := reached_of_call hs₁ hcall
  have hs₃ := hhandled.reached (fun _ _ _ _ hc => hc.1) hs₂
  have hs := hlater.reached (fun _ _ _ _ hc => hc.1) hs₃
  have hhears : s₃.awaitsContext v → s₃.hears v t := by
    refine hhandled.induct (I := fun s => s.awaitsContext v → s.hears v t) hs₂.ok
      (fun _ => hears_of_call hawaits hcall) ?_
    intro s u l e hok ih hmove hen ⟨hcond, hpre, hcomplete⟩ hpost
    exact hears_step hok hmove hen hcond hcomplete hpre hpost (ih hpre)
  have hheard : s.awaitsContext v → s.heard v := by
    refine hlater.induct (I := fun s => s.awaitsContext v → s.heard v) hs₃.ok ?_ ?_
    · intro hpre
      rcases hhears hpre with h | ⟨w, -, ht⟩ | ⟨w, -, -, ht | ht⟩
      · exact h
      all_goals cases hidle.symm.trans ht
    · intro s u l e hok ih hmove hen ⟨_, hpre⟩ hpost
      exact heard_step hok hmove hen hpost (ih hpre)
  obtain ⟨w, hthread, hpc, hin⟩ := hblocked
  have hlowered : s.listenToDeviceContextUpdate = false := by
    obtain ⟨w', hthread', h⟩ := hheard ⟨w, hthread, by rw [hpc]; rfl⟩
    cases hthread.symm.trans hthread'
    rcases h with ⟨hbranch, -⟩ | ⟨-, hflag⟩
    · cases hpc.symm.trans hbranch
    · exact hflag
  rcases listening_of_reached hs hthread (.inr ⟨hpc, hin⟩) with hraised | ⟨x, hx⟩
  · exact Bool.false_ne_true (hlowered.symm.trans hraised)
  · exact hquiet x .notify hx

/-- The boot worker of a WhoAmI device up to the answer of SecManager, which has no context. -/
def asksSecManager : List Action := runs 0 3 ++ succeeds 0 ++ runs 0 3

/-- Worker 0 is in its handshake, and thread 1 sets no context. -/
def inHandshake (s : Sys) (_ : Tid) (_ : Thread) (_ : Effect) : Bool :=
  (s.thread 0).isWorker (fun w => w.pc.awaitsContext) &&
    match s.thread 1 with
    | .context .setContext => false
    | _ => true

theorem inHandshake_sound (h : inHandshake s t l e = true) :
    s.awaitsContext 0 ∧ CompleteContext s 1 t l := by
  simp only [inHandshake, Bool.and_eq_true] at h
  obtain ⟨hworker, hthread⟩ := h
  refine ⟨Thread.isWorker_iff.mp hworker, fun _ hset => ?_⟩
  rw [hset] at hthread
  cases hthread

/-- A computed run of the device, whose moves pass a test. -/
def deviceRun (ok : Sys → Tid → Thread → Effect → Bool) (s : Sys) (as : List Action) :
    Option Sys :=
  (plugin (device true false)).runWhere
    (fun s a => (offer (device true false) s a).all fun p => ok s p.1 p.2.1 p.2.2) s as

/-- No thread but the worker and the handler ever does anything. -/
theorem deviceRun_idle {ok : Sys → Tid → Thread → Effect → Bool} {as : List Action}
    (h : ReachedWhere (device true false) (fun _ _ _ _ => True) s)
    (hidle : ∀ u, 2 ≤ u → s.thread u = .idle) (hall : as.all (Action.below 2) = true)
    (hrun : deviceRun ok s as = some s') :
    ReachedWhere (device true false) (fun _ _ _ _ => True) s' ∧ ∀ u, 2 ≤ u → s'.thread u = .idle :=
  reachedWhere_idle_of_run (fun _ _ _ _ _ _ _ => trivial) h hidle hall hrun

theorem deviceRun_leads {ok : Sys → Tid → Thread → Effect → Bool} {as : List Action}
    (hok : ∀ s t l e, ok s t l e = true → C s t l e) (hrun : deviceRun ok s as = some s') :
    LeadsWhere (device true false) C s s' := leadsWhere_of_run hok hrun

/-- A complete context that arrives right after SecManager's answer is dropped, and the worker
blocks although nothing else is going to happen. -/
theorem contextLost_afterAnswer :
    ∃ s, ContextLost (device true false) (fun _ _ _ _ => True) s := by
  have hrun : (deviceRun (fun _ _ _ _ => true)
      (maintenanceManagerOnBootup (device true false) true) asksSecManager).any (fun s₁ =>
        (s₁.thread 0).isWorker (fun w => w.pc.awaitsContext) &&
        ((plugin (device true false)).step s₁ (.call 1 (.deviceContext true))).any fun s₂ =>
          (deviceRun inHandshake s₂ (runs 1 1)).any fun s₃ => (s₃.thread 1).isIdle &&
            (deviceRun inHandshake s₃ (runs 0 4)).any fun s =>
              (s.thread 0).isWorker (fun w => w.pc == .wakeContext) && s.waiters.contains 0 &&
                (s.thread 1).isIdle) = true := by
    decide +kernel
  obtain ⟨s₁, hasks, hrun⟩ := (Option.any_eq_true _ _).mp hrun
  obtain ⟨hawaits, hrun⟩ := Bool.and_eq_true_iff.mp hrun
  obtain ⟨s₂, hcall, hrun⟩ := (Option.any_eq_true _ _).mp hrun
  obtain ⟨s₃, hhandled, hrun⟩ := (Option.any_eq_true _ _).mp hrun
  obtain ⟨hidle, hrun⟩ := Bool.and_eq_true_iff.mp hrun
  obtain ⟨s, hlater, hrun⟩ := (Option.any_eq_true _ _).mp hrun
  simp only [Bool.and_eq_true] at hrun
  obtain ⟨⟨hblocked, hwaits⟩, hquiet⟩ := hrun
  have hreach₁ := deviceRun_idle (.init ⟨true, rfl⟩) (idle_boot (by decide) true) rfl hasks
  have hreach₂ : ReachedWhere (device true false) (fun _ _ _ _ => True) s₂ ∧
      ∀ u, 2 ≤ u → s₂.thread u = .idle := by
    refine ⟨.step hreach₁.1 (fun _ _ _ _ => trivial) hcall, ?_⟩
    obtain ⟨t, l, e, hoffer, -, rfl⟩ := step_commit hcall
    exact idle_commit (by decide) hreach₁.2 hoffer
  have hreach₃ := deviceRun_idle hreach₂.1 hreach₂.2 rfl hhandled
  have hreach := deviceRun_idle hreach₃.1 hreach₃.2 rfl hlater
  obtain ⟨w, hthread, hpc⟩ := Thread.isWorker_iff.mp hblocked
  refine ⟨s, 0, 1, s₁, s₂, s₃, hreach₁.1, Thread.isWorker_iff.mp hawaits, hcall, ?_,
    Thread.isIdle_iff.mp hidle, ?_, ⟨w, hthread, by simpa using hpc, by simpa using hwaits⟩, ?_⟩
  · exact deviceRun_leads (fun _ _ _ _ h => ⟨trivial, inHandshake_sound h⟩) hhandled
  · exact deviceRun_leads (fun _ _ _ _ h => ⟨trivial, (inHandshake_sound h).1⟩) hlater
  · intro x pc hx
    match x, hx with
    | 0, hx => cases hthread.symm.trans hx
    | 1, hx => cases (Thread.isIdle_iff.mp hquiet).symm.trans hx
    | x + 2, hx => cases (hreach.2 (x + 2) (Nat.le_add_left 2 x)).symm.trans hx

end SoftwareUpdate.MaintenanceManager
