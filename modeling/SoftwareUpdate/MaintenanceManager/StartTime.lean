import SoftwareUpdate.MaintenanceManager.TimeZone

/-!
# The start time of the maintenance

`CalculateStartTime` and `getMaintenanceStartTime`. In the local time of the zone the current
time, the date and the epoch of the start are asked of `date` commands; in UTC they are
calculated. The commands and what they print are those of one call of the function.
-/

namespace SoftwareUpdate.MaintenanceManager

open Misc Helpers

/-- What a call of `CalculateStartTime` depends on. `popen` gives what the n-th command prints,
none when it cannot be run; `mktime` normalises a broken-down time. -/
structure StartTimeEnv where
  maintConf : Option Text
  zoneFiles : TimeZoneFiles
  rawtime : ℤ
  popen : ℕ → Text → Option Text
  mktime : Tm → Tm

/-- How `CalculateStartTime` is left: by an error exit, by behaviour that C++ leaves undefined, or
with a `start_epoch`. -/
inductive StartOutcome where
  | error
  | undefined
  | startEpoch (epoch : ℤ)
  deriving DecidableEq, Repr

/-- A call: the commands it passed to `popen` and how it was left. -/
structure StartTimeRun where
  commands : List Text
  outcome : StartOutcome
  deriving DecidableEq, Repr

/-- `start_hr`, `start_min` and `tz_mode`. -/
structure StartConfig where
  startHr : Int32
  startMin : Int32
  tzMode : Text
  deriving DecidableEq, Repr

def localTimeMode : Text := "Local time".toList

def utcMode : Text := "UTC".toList

/-- The `fscanf` of the configuration file; none unless all three fields are read. -/
def readStartConfig (conf : Text) : Option StartConfig := do
  let s ← scanText "start_hr=\x22".toList conf
  let (startHr, s) ← scanInt s
  let s ← scanText "\x22".toList s
  let s ← scanText "start_min=\x22".toList (scanSpace s)
  let (startMin, s) ← scanInt s
  let s ← scanText "\x22".toList s
  let s ← scanText "tz_mode=\x22".toList (scanSpace s)
  -- `%19[^\x22]`, which takes at least one character
  let mode := (s.takeWhile (· ≠ '\x22')).take 19
  if mode = [] then none else some ⟨startHr, startMin, cStr mode⟩

/-- The checks of the configuration. -/
def StartConfig.Valid (conf : StartConfig) : Prop :=
  (0 ≤ conf.startHr.toInt ∧ conf.startHr.toInt ≤ 23) ∧
    (0 ≤ conf.startMin.toInt ∧ conf.startMin.toInt ≤ 59) ∧
    (conf.tzMode = localTimeMode ∨ conf.tzMode = utcMode)

instance {conf : StartConfig} : Decidable conf.Valid := inferInstanceAs (Decidable (_ ∧ _))

/-- The letters, digits and signs that `IsValidTimeZone` lets pass. -/
def isZoneChar (c : Char) : Bool :=
  c.isAlphanum || c == '_' || c == '.' || c == '/' || c == '+' || c == '-'

def isValidTimeZone (tz : Text) : Bool := tz.all isZoneChar

/-- `long` arithmetic. -/
def toLong (n : ℤ) : ℤ := (Int64.ofInt n).toInt

/-- Seconds from `rawtime` to the start are too few. -/
def tooClose (epoch rawtime : ℤ) : Prop := toLong (epoch - rawtime) < 10

instance {epoch rawtime : ℤ} : Decidable (tooClose epoch rawtime) :=
  inferInstanceAs (Decidable (_ < _))

/-! ## The commands -/

def currentTimeCommand (zone : Text) : Text :=
  snprintf 256 ("TZ=".toList ++ zone ++ " date +%H%M".toList)

def currentDateCommand (zone : Text) : Text :=
  snprintf 256 ("TZ=".toList ++ zone ++ " date +%Y-%m-%d".toList)

/-- `scheduled_date` and `next_date`. -/
def scheduledDate (tm : Tm) : Text :=
  snprintf 32 (formatInt 4 (tm.tmYear + 1900).toInt ++ '-' :: formatInt 2 (tm.tmMon + 1).toInt ++
    '-' :: formatInt 2 tm.tmMday.toInt)

def epochCommand (zone : Text) (tm : Tm) (conf : StartConfig) : Text :=
  snprintf 256 ("TZ=".toList ++ zone ++ " date -d '".toList ++ scheduledDate tm ++
    ' ' :: formatInt 2 conf.startHr.toInt ++ ':' :: formatInt 2 conf.startMin.toInt ++
    ":00' +%s".toList)

/-- The string that `fgets` reads of what the n-th command prints; none when the command cannot
be run or prints nothing. -/
def readCommand (env : StartTimeEnv) (n size : ℕ) (cmd : Text) : Option Text :=
  match env.popen n cmd with
  | some output => if output = [] then none else some (cStr (fgetsPiece size output))
  | none => none

/-- The `sscanf` of `today_date_str`, and `date_tm` with the three fields. -/
def readDate (s : Text) : Option Tm := do
  let (year, s) ← scanInt s
  let s ← scanText "-".toList s
  let (mon, s) ← scanInt s
  let s ← scanText "-".toList s
  let (mday, _) ← scanInt s
  return ⟨year - 1900, mon - 1, mday, 0, 0, 0, -1⟩

/-- The day after; `mktime` normalises the day overflow. -/
def nextDay (env : StartTimeEnv) (tm : Tm) : Tm := env.mktime { tm with tmMday := tm.tmMday + 1 }

/-! ## `CalculateStartTime` -/

/-- The statements behind a `date -d` command: an epoch that is not positive is an error. -/
def readEpoch (env : StartTimeEnv) (n : ℕ) (cmd : Text) : Option ℤ :=
  match readCommand env n 32 cmd with
  | some epochStr => if strtol epochStr ≤ 0 then none else some (strtol epochStr)
  | none => none

/-- The epoch of the start on the date, and on the day after it when that is too close. -/
def scheduleFrom (env : StartTimeEnv) (zone : Text) (conf : StartConfig) (tm : Tm)
    (commands : List Text) : StartTimeRun :=
  let scheduled := epochCommand zone tm conf
  match readEpoch env 2 scheduled with
  | some epoch =>
      if tooClose epoch env.rawtime then
        let next := epochCommand zone (nextDay env tm) conf
        match readEpoch env 3 next with
        | some epoch => ⟨commands ++ [scheduled, next], .startEpoch epoch⟩
        | none => ⟨commands ++ [scheduled, next], .error⟩
      else
        ⟨commands ++ [scheduled], .startEpoch epoch⟩
  | none => ⟨commands ++ [scheduled], .error⟩

/-- The branch for local time. -/
def localStartTime (env : StartTimeEnv) (zone : Text) (conf : StartConfig) : StartTimeRun :=
  if isValidTimeZone zone = false then
    ⟨[], .error⟩
  else
    match readCommand env 0 8 (currentTimeCommand zone) with
    | some hhmm =>
        let today := conf.startHr.toInt * 100 + conf.startMin.toInt > (atoi hhmm).toInt
        match readCommand env 1 16 (currentDateCommand zone) with
        | some date =>
            match readDate (date.takeWhile (· ≠ '\n')) with
            | some tm =>
                scheduleFrom env zone conf (if today then tm else nextDay env tm)
                  [currentTimeCommand zone, currentDateCommand zone]
            | none => ⟨[currentTimeCommand zone, currentDateCommand zone], .error⟩
        | none => ⟨[currentTimeCommand zone, currentDateCommand zone], .error⟩
    | none => ⟨[currentTimeCommand zone], .error⟩

/-- The branch for UTC; without a broken-down time the fields of `utc_tm` are undefined. -/
def utcStartTime (rawtime : ℤ) (conf : StartConfig) : StartOutcome :=
  match gmtime rawtime with
  | some tm =>
      let epoch := timegm { tm with tmHour := conf.startHr, tmMin := conf.startMin, tmSec := 0 }
      if tooClose epoch rawtime then .startEpoch (epoch + 86400) else .startEpoch epoch
  | none => .undefined

def runStartTime (env : StartTimeEnv) : StartTimeRun :=
  match env.maintConf.bind readStartConfig with
  | some conf =>
      if conf.Valid then
        match getTimeZone bufferSize [] ZoneBuffers.zero env.zoneFiles with
        | some b =>
            if conf.tzMode = localTimeMode then
              localStartTime env (cStr b.zoneValue) conf
            else
              ⟨[], utcStartTime env.rawtime conf⟩
        | none => ⟨[], .undefined⟩
      else
        ⟨[], .error⟩
  | none => ⟨[], .error⟩

/-- The `int` that `CalculateStartTime` returns; none when its behaviour is undefined. -/
def calculateStartTime (env : StartTimeEnv) : Option Int32 :=
  match (runStartTime env).outcome with
  | .error => some (-1)
  | .undefined => none
  | .startEpoch epoch => some (Int32.ofInt epoch)

/-- The `maintenanceStartTime` of the response of `getMaintenanceStartTime`. -/
def getMaintenanceStartTime (env : StartTimeEnv) : Option ℤ :=
  (calculateStartTime env).map Int32.toInt

end SoftwareUpdate.MaintenanceManager
