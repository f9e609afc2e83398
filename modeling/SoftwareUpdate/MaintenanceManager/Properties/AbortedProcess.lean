import SoftwareUpdate.MaintenanceManager.Processes

/-!
# The process that a stop ends

`abortTask` sends one signal, to the first process in the order of `/proc` whose command line
mentions the name of the task, whatever the program and in whichever argument; it sends none
when there is no such process.
-/

namespace SoftwareUpdate.MaintenanceManager

open Helpers Misc

/-- A process, with its command line when that can be read: the arguments, a null character behind
each. -/
structure Process where
  pid : ℕ
  cmdline : Option Text
  deriving DecidableEq

def Process.Mentions (p : Process) (taskname : Text) : Prop :=
  ∃ content, p.cmdline = some content ∧ taskname <:+: content

/-- `/proc` lists the processes by their numbers, among names that are no numbers. -/
structure ProcDir.Lists (proc : ProcDir) (ps : List Process) : Prop where
  entries : proc.entries.filter (fun name => (strtolEnd name).2 = []) =
    ps.map fun p => formatInt 0 p.pid
  cmdline : ∀ p ∈ ps, proc.cmdline p.pid = p.cmdline
  pid : ∀ p ∈ ps, p.pid < 2 ^ 31

/-- The first process of the list that mentions the name. -/
def FirstMention (taskname : Text) (ps : List Process) (p : Process) : Prop :=
  ∃ before behind, ps = before ++ p :: behind ∧ p.Mentions taskname ∧
    ∀ q ∈ before, ¬ q.Mentions taskname

/-- The signal that ends a task. -/
def taskSignal (rfcManager : Bool) : Task → Signal
  | .rfc => if rfcManager then .sigusr1 else .sigabrt
  | .swupdate => .sigusr1
  | .logupload => .sigabrt

variable {proc : ProcDir} {ps : List Process} {p : Process} {taskname content name : Text}
  {rfcManager : Bool} {t : Task}

/-! ## One process -/

theorem mentions_iff (hne : taskname ≠ []) (hnull : '\x00' ∉ taskname) :
    mentions taskname content = true ↔ taskname <:+: content := by
  simp only [mentions, List.any_eq_true, decide_eq_true_eq]
  exact exists_infix_lines_iff hne hnull

theorem strtolEnd_formatInt {pid : ℕ} (h : pid < 2 ^ 31) :
    strtolEnd (formatInt 0 pid) = ((pid : ℤ), []) := by
  have hsat : saturate pid = pid := by
    unfold saturate
    omega
  rw [strtolEnd, readInt_formatInt_nil]
  exact congrArg (·, []) hsat

theorem taskName_ok (rfcManager : Bool) (t : Task) :
    taskName rfcManager t ≠ [] ∧ '\x00' ∉ taskName rfcManager t := by
  cases t <;> cases rfcManager <;> decide

/-! ## The search -/

/-- Names that are no numbers are passed over. -/
theorem getTaskPIDFrom_filter {entries : List Text} : getTaskPIDFrom proc taskname entries =
    getTaskPIDFrom proc taskname (entries.filter fun name => (strtolEnd name).2 = []) := by
  induction entries with
  | nil => rfl
  | cons name entries ih =>
    by_cases hnumber : (strtolEnd name).2 = []
    · rw [List.filter_cons_of_pos (by simpa using hnumber)]
      simp only [getTaskPIDFrom, hnumber, ih]
    · rw [List.filter_cons_of_neg (by simpa using hnumber), ← ih]
      simp [getTaskPIDFrom, hnumber]

/-- What the search does at the entry of a process. -/
theorem getTaskPIDFrom_cons (hcmdline : proc.cmdline p.pid = p.cmdline) (hpid : p.pid < 2 ^ 31)
    (hname : taskname ≠ [] ∧ '\x00' ∉ taskname) {entries : List Text} :
    getTaskPIDFrom proc taskname (formatInt 0 p.pid :: entries) = Int32.ofInt p.pid ∧
        p.Mentions taskname ∨
      getTaskPIDFrom proc taskname (formatInt 0 p.pid :: entries) =
        getTaskPIDFrom proc taskname entries ∧ ¬ p.Mentions taskname := by
  simp only [getTaskPIDFrom, strtolEnd_formatInt hpid, hcmdline, ne_eq, not_true, if_false]
  cases hcontent : p.cmdline with
  | none => exact .inr ⟨rfl, fun ⟨content, hc, _⟩ => by rw [hcontent] at hc; cases hc⟩
  | some content =>
    have hmentions : p.Mentions taskname ↔ mentions taskname content = true := by
      rw [mentions_iff hname.1 hname.2]
      simp [Process.Mentions, hcontent]
    by_cases h : mentions taskname content = true
    · exact .inl ⟨if_pos h, hmentions.mpr h⟩
    · exact .inr ⟨if_neg h, fun hp => h (hmentions.mp hp)⟩

theorem getTaskPIDFrom_map (hcmdline : ∀ p ∈ ps, proc.cmdline p.pid = p.cmdline)
    (hpid : ∀ p ∈ ps, p.pid < 2 ^ 31) (hname : taskname ≠ [] ∧ '\x00' ∉ taskname) :
    (∃ p, FirstMention taskname ps p ∧
      getTaskPIDFrom proc taskname (ps.map fun p => formatInt 0 p.pid) = Int32.ofInt p.pid) ∨
    (∀ p ∈ ps, ¬ p.Mentions taskname) ∧
      getTaskPIDFrom proc taskname (ps.map fun p => formatInt 0 p.pid) = -1 := by
  induction ps with
  | nil => exact .inr ⟨by simp, rfl⟩
  | cons p ps ih =>
    simp only [List.forall_mem_cons] at hcmdline hpid
    rw [List.map_cons]
    rcases getTaskPIDFrom_cons hcmdline.1 hpid.1 hname with ⟨heq, hp⟩ | ⟨heq, hp⟩
    · exact .inl ⟨p, ⟨[], ps, rfl, hp, by simp⟩, heq⟩
    · rw [heq]
      rcases ih hcmdline.2 hpid.2 with ⟨q, ⟨before, behind, hps, hq, hno⟩, hpid'⟩ | ⟨hno, hnone⟩
      · refine .inl ⟨q, ⟨p :: before, behind, by rw [hps]; rfl, hq, ?_⟩, hpid'⟩
        exact List.forall_mem_cons.mpr ⟨hp, hno⟩
      · exact .inr ⟨List.forall_mem_cons.mpr ⟨hp, hno⟩, hnone⟩

theorem FirstMention.unique {q : Process} (hp : FirstMention taskname ps p)
    (hq : FirstMention taskname ps q) : p = q := by
  obtain ⟨before, behind, rfl, hmp, hnp⟩ := hp
  obtain ⟨before', behind', heq, hmq, hnq⟩ := hq
  rcases List.append_eq_append_iff.mp heq with ⟨d, rfl, hd⟩ | ⟨d, rfl, hd⟩
  · cases d with
    | nil => exact (List.cons.inj hd).1
    | cons x d =>
      cases hd
      exact absurd hmp (hnq p (by simp))
  · cases d with
    | nil => exact (List.cons.inj hd).1.symm
    | cons x d =>
      cases hd
      exact absurd hmq (hnp q (by simp))

/-! ## The signal -/

/-- What comes of the call of `abortTask` for a task. -/
structure Aborts (rfcManager : Bool) (ps : List Process) (t : Task) (a : Aborted) : Prop where
  sent_iff : ∀ pid sig, a.sent = some (pid, sig) ↔
    (∃ p, FirstMention (taskName rfcManager t) ps p ∧ pid.toInt = p.pid) ∧
      sig = taskSignal rfcManager t
  none_iff : a.sent = none ↔ ∀ p ∈ ps, ¬ p.Mentions (taskName rfcManager t)
  einval : a.sent = none → a.ret = EINVAL

theorem signal_eq :
    (if rfcManager = true ∧ "rfcMgr".toList <:+: taskName rfcManager t then Signal.sigusr1
      else if "rdkvfwupgrader".toList <:+: taskName rfcManager t then .sigusr1 else .sigabrt) =
      taskSignal rfcManager t := by
  cases t <;> cases rfcManager <;> decide

theorem abortTask_of_found {kill : Int32 → Signal → ℤ} {pid : Int32}
    (hfound : getTaskPID proc (taskName rfcManager t) = pid) (hpid : pid ≠ -1) :
    abortTask rfcManager proc kill (taskName rfcManager t) .sigabrt =
      { ret := kill pid (taskSignal rfcManager t)
        sent := some (pid, taskSignal rfcManager t) } := by
  unfold abortTask
  rw [hfound, signal_eq]
  exact if_pos hpid

/-- `abortTask` sends its signal to the first process that mentions the task, and none when there
is no such process. -/
theorem aborts_of_lists {kill : Int32 → Signal → ℤ} (h : proc.Lists ps) :
    Aborts rfcManager ps t
      (abortTask rfcManager proc kill (taskName rfcManager t) .sigabrt) := by
  have hsearch : getTaskPID proc (taskName rfcManager t) =
      getTaskPIDFrom proc (taskName rfcManager t) (ps.map fun p => formatInt 0 p.pid) := by
    rw [← h.entries, ← getTaskPIDFrom_filter]
    rfl
  rcases getTaskPIDFrom_map h.cmdline h.pid (taskName_ok rfcManager t) with
    ⟨p, hfirst, hpid⟩ | ⟨hno, hpid⟩
  · have hmem : p ∈ ps := by
      obtain ⟨before, behind, rfl, -, -⟩ := hfirst
      simp
    have hbound := h.pid p hmem
    have htoInt : (Int32.ofInt p.pid).toInt = p.pid := toInt_ofInt (by omega)
    have hne : Int32.ofInt p.pid ≠ -1 := by
      intro heq
      rw [heq] at htoInt
      have hminus : (-1 : Int32).toInt = -1 := by decide
      omega
    rw [abortTask_of_found (hsearch.trans hpid) hne]
    constructor
    · intro pid sig
      simp only [Option.some.injEq, Prod.mk.injEq]
      constructor
      · rintro ⟨rfl, rfl⟩
        exact ⟨⟨p, hfirst, htoInt⟩, rfl⟩
      · rintro ⟨⟨q, hq, hpid'⟩, rfl⟩
        obtain rfl := hfirst.unique hq
        exact ⟨Int32.toInt_inj.mp (htoInt.trans hpid'.symm), rfl⟩
    · obtain ⟨before, behind, rfl, hmentions, -⟩ := hfirst
      exact ⟨fun hnone => (by cases hnone), fun hall => absurd hmentions (hall p (by simp))⟩
    · intro hnone
      cases hnone
  · have habort : abortTask rfcManager proc kill (taskName rfcManager t) .sigabrt =
        { ret := EINVAL, sent := none } := by
      unfold abortTask
      rw [hsearch, hpid]
      rfl
    rw [habort]
    constructor
    · intro pid sig
      refine ⟨fun hsome => (by cases hsome), ?_⟩
      rintro ⟨⟨q, ⟨before, behind, rfl, hq, -⟩, -⟩, -⟩
      exact absurd hq (hno q (by simp))
    · exact ⟨fun _ => hno, fun _ => rfl⟩
    · exact fun _ => rfl

/-- An editor that has the upload script open comes before the script itself. -/
def editedProc : ProcDir where
  entries := [".", "..", "1", "310", "712", "self"].map String.toList
  cmdline pid :=
    if pid = 310 then some "vi\x00/lib/rdk/uploadSTBLogs.sh\x00".toList
    else if pid = 712 then some "/bin/sh\x00/lib/rdk/uploadSTBLogs.sh\x00".toList
    else none

theorem aborts_of_lists_edited :
    (abortTask false editedProc (fun _ _ => 0) (taskName false .logupload) .sigabrt).sent =
      some (310, .sigabrt) ∧
    Aborts false [⟨1, editedProc.cmdline 1⟩, ⟨310, editedProc.cmdline 310⟩,
      ⟨712, editedProc.cmdline 712⟩] .logupload
      (abortTask false editedProc (fun _ _ => 0) (taskName false .logupload) .sigabrt) := by
  refine ⟨by decide, aborts_of_lists ⟨by decide, ?_, ?_⟩⟩
  · simp
  · simp

end SoftwareUpdate.MaintenanceManager
