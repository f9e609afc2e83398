import SoftwareUpdate.Helpers.CLibrary

/-!
# The time zone of the device

`getTimeZone` of the plugin, which reads the device name, the zone and its offset from three
files into buffers of the caller. A file that cannot be opened is `none`.
-/

namespace SoftwareUpdate.MaintenanceManager

open Misc Helpers

/-- `BUFFER_SIZE`. -/
def bufferSize : ℕ := 50

/-- `/etc/device.properties`, `/opt/persistent/timeZoneDST` and `/etc/timeZone_offset_map`. -/
structure TimeZoneFiles where
  deviceProperties : Option Text
  timeZoneDST : Option Text
  timeZoneOffsetMap : Option Text
  deriving DecidableEq, Repr

/-- The buffers that `getTimeZone` writes. -/
structure ZoneBuffers where
  zoneValue : Text
  timeZone : Text
  timeZoneOffset : Text
  deriving DecidableEq, Repr

def deviceNameKey : Text := "DEVICE_NAME".toList

def newYorkTime : Text := "America/New_York".toList

def usEast : Text := "US/Eastern".toList

def platco : Text := "PLATCO".toList

/-- What a further `strtok` of a line is left with; nothing when there was no token. -/
def strtokRest (delim : Char) (s : Text) : Text := ((strtok delim s).map Prod.snd).getD []

/-- The line begins with the key. -/
def isDeviceNameLine (line : Text) : Bool := strncmpEq line deviceNameKey deviceNameKey.length

/-- The loop over the device properties: the pointer `deviceName` behind it, none for a null
pointer. The buffer of the caller is not written, the pointer is moved to a token of the line. -/
def findDeviceName (deviceName : Text) : List Text → Option Text
  | [] => some deviceName
  | line :: lines =>
      if isDeviceNameLine line then
        match strtok '=' (cStr line) with
        | some (_, rest) => (strtok '\n' rest).map Prod.fst
        | none => findDeviceName deviceName lines
      else
        findDeviceName deviceName lines

/-- The first line of the file, without its newline; the buffer stays when the file is empty. -/
def readFirstLine (size : ℕ) (buffer content : Text) : Text :=
  match fgets size buffer content with
  | some buffer => stripNewline buffer
  | none => buffer

/-- The zone of a PLATCO device, `NYtime` when the file has none. -/
def readTimeZone (size : ℕ) (buffer : Text) (timeZoneDST : Option Text) : Text :=
  match timeZoneDST with
  | some content =>
      let buffer := readFirstLine size buffer content
      if cStr buffer = [] then copyText size buffer newYorkTime else buffer
  | none => copyText size buffer newYorkTime

/-- The second and the third token of the line of the zone. -/
def readZoneLine (size : ℕ) (b : ZoneBuffers) (line : Text) : ZoneBuffers :=
  match strtok ':' (strtokRest ':' line) with
  | some (zone, rest) =>
      let b := { b with zoneValue := copyText size b.zoneValue zone }
      match strtok ':' rest with
      | some (offset, _) =>
          { b with timeZoneOffset := copyText size b.timeZoneOffset offset }
      | none => b
  | none => b

/-- The line is for the zone. -/
def isZoneLine (timeZone line : Text) : Bool :=
  strncmpEq line timeZone (cStr timeZone).length &&
    line.getD (cStr timeZone).length '\x00' == ':'

/-- The loop over the offset map. -/
def findZone (size : ℕ) (b : ZoneBuffers) : List Text → ZoneBuffers
  | [] => b
  | line :: lines =>
      let line := stripNewline (line ++ ['\x00'])
      if isZoneLine b.timeZone line then readZoneLine size b (cStr line) else findZone size b lines

/-- The zone of a PLATCO device and what the offset map has for it. -/
def lookUpZone (size : ℕ) (b : ZoneBuffers) (files : TimeZoneFiles) : ZoneBuffers :=
  let b := { b with timeZone := readTimeZone size b.timeZone files.timeZoneDST }
  match files.timeZoneOffsetMap with
  | some content => findZone size b (fgetsPieces 128 content)
  | none => b

/-- The branch of `getTimeZone` for PLATCO devices. -/
def platcoTimeZone (size : ℕ) (b : ZoneBuffers) (files : TimeZoneFiles) : ZoneBuffers :=
  let b := lookUpZone size b files
  if cStr b.zoneValue = [] ∨ cStr b.timeZoneOffset = [] then
    { b with
      zoneValue := copyText size b.zoneValue usEast
      timeZoneOffset := copyText size b.timeZoneOffset "0".toList }
  else
    b

/-- The branch for all other devices. -/
def otherTimeZone (size : ℕ) (b : ZoneBuffers) (files : TimeZoneFiles) : ZoneBuffers :=
  match files.timeZoneDST with
  | some content => { b with zoneValue := readFirstLine size b.zoneValue content }
  | none => b

/-- The string that `deviceName` points to when it is compared with `PLATCO`, none for a null
pointer, when the device properties can be opened. -/
def comparedDeviceName (deviceName : Text) (properties : Text) : Option Text :=
  findDeviceName deviceName (fgetsPieces 128 properties)

/-- None when a null pointer is passed to `strcmp`. -/
def getTimeZone (size : ℕ) (deviceName : Text) (b : ZoneBuffers) (files : TimeZoneFiles) :
    Option ZoneBuffers :=
  match files.deviceProperties with
  | some properties =>
      match comparedDeviceName deviceName properties with
      | some name =>
          if name = platco then some (platcoTimeZone size b files)
          else some (otherTimeZone size b files)
      | none => none
  | none => some b

/-- `zoneValue`, `timeZone` and `timeZoneOffset` of `CalculateStartTime` before the call. -/
def ZoneBuffers.zero : ZoneBuffers where
  zoneValue := List.replicate bufferSize '\x00'
  timeZone := List.replicate bufferSize '\x00'
  timeZoneOffset := List.replicate bufferSize '\x00'

end SoftwareUpdate.MaintenanceManager
