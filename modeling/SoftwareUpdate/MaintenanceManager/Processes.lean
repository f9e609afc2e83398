import Mathlib.Data.List.Infix
import SoftwareUpdate.Helpers.CLibrary
import SoftwareUpdate.Misc.Split
import SoftwareUpdate.MaintenanceManager.Status

/-!
# The processes of the tasks

`stopMaintenanceTasks` ends a task by a signal to its process, which `abortTask` looks for in
`/proc`: the first one whose command line mentions the name of the task.
-/

namespace SoftwareUpdate.MaintenanceManager

open Helpers Misc

/-- `task_names`; `rfcManager` is the build option `ENABLE_RFC_MANAGER`. -/
def taskName (rfcManager : Bool) : Task → Text
  | .rfc => if rfcManager then "rfcMgr".toList else "RFCbase.sh".toList
  | .swupdate => "rdkvfwupgrader".toList
  | .logupload => "uploadSTBLogs.sh".toList

inductive Signal where
  | sigabrt
  | sigusr1
  deriving DecidableEq, Repr

/-- `/proc`: the names that `readdir` gives, and what is in the file `cmdline` of a number when it
can be opened. -/
structure ProcDir where
  entries : List Text
  cmdline : ℤ → Option Text

/-- `strtol`, and where `endptr` points to behind the number. -/
def strtolEnd (s : Text) : ℤ × Text :=
  match readInt s with
  | some (n, rest) => (saturate n, rest)
  | none => (0, s)

/-- The loop over `getdelim`, which reads one argument after another; `strstr` looks for the
name in each. -/
def mentions (taskname content : Text) : Bool :=
  (lines '\x00' content).any fun arg => decide (taskname <:+: arg)

/-- The loop of `getTaskPID` over the entries. -/
def getTaskPIDFrom (proc : ProcDir) (taskname : Text) : List Text → Int32
  | [] => -1
  | name :: entries =>
      let (lpid, endptr) := strtolEnd name
      if endptr ≠ [] then getTaskPIDFrom proc taskname entries
      else
        match proc.cmdline lpid with
        | some content =>
            if mentions taskname content then Int32.ofInt lpid
            else getTaskPIDFrom proc taskname entries
        | none => getTaskPIDFrom proc taskname entries

def getTaskPID (proc : ProcDir) (taskname : Text) : Int32 :=
  getTaskPIDFrom proc taskname proc.entries

def EINVAL : ℤ := 22

/-- What `abortTask` returns, and the call of `kill` it has made. -/
structure Aborted where
  ret : ℤ
  sent : Option (Int32 × Signal)
  deriving DecidableEq

def abortTask (rfcManager : Bool) (proc : ProcDir) (kill : Int32 → Signal → ℤ) (taskname : Text)
    (sig : Signal) : Aborted :=
  let pid := getTaskPID proc taskname
  if pid ≠ -1 then
    let sig :=
      if rfcManager ∧ "rfcMgr".toList <:+: taskname then .sigusr1
      else if "rdkvfwupgrader".toList <:+: taskname then .sigusr1
      else sig
    { ret := kill pid sig, sent := some (pid, sig) }
  else
    { ret := EINVAL, sent := none }

end SoftwareUpdate.MaintenanceManager
