import SoftwareUpdate.Helpers.CSettings

/-!
# The device initialization context

`setDeviceInitializationContext` takes the partner id, the OS class and the regional
configuration service out of the context and writes each to its RFC parameter, the partner id
to the AuthService as well. What the services answer is a parameter; what they are asked is
recorded.
-/

namespace SoftwareUpdate.MaintenanceManager

open Helpers

/-- `WDMP_STATUS`: `WDMP_SUCCESS` or one of the error codes. -/
inductive WdmpStatus where
  | success
  | err (code : ℕ)
  deriving DecidableEq, Repr

/-- The `DATA_TYPE`s in use. -/
inductive DataType where
  | wdmpString
  deriving DecidableEq, Repr

/-- A call of `setRFCParameter` and its answer. -/
structure RfcWrite where
  callerId : Text
  rfc : Text
  value : Text
  dataType : DataType
  status : WdmpStatus
  deriving DecidableEq, Repr

/-- `kDeviceInitContextKeyVals`. -/
inductive ContextKey where
  | partnerId
  | osClass
  | regionalConfigService
  deriving DecidableEq, Repr

namespace ContextKey

def all : List ContextKey := [.partnerId, .osClass, .regionalConfigService]

/-- The label of the key in the context. -/
def label : ContextKey → Text
  | partnerId => "partnerId".toList
  | osClass => "osClass".toList
  | regionalConfigService => "regionalConfigService".toList

/-- `m_param_map[key]`. -/
def param : ContextKey → Text
  | partnerId => "Device.DeviceInfo.X_RDKCENTRAL-COM_RFC.Bootstrap.PartnerName".toList
  | osClass => "Device.DeviceInfo.X_RDKCENTRAL-COM_RFC.Bootstrap.OsClass".toList
  | regionalConfigService => "Device.DeviceInfo.X_RDKCENTRAL-COM_RFC.Bootstrap.XconfUrl".toList

/-- `m_paramType_map[key]`. -/
def paramType : ContextKey → DataType
  | _ => .wdmpString

theorem mem_all (key : ContextKey) : key ∈ all := by
  cases key <;> simp [all]

theorem param_injective {key key' : ContextKey} (h : key.param = key'.param) : key = key' := by
  revert h
  cases key <;> cases key' <;> decide

end ContextKey

/-- The services that the context is written to. -/
structure Services where
  /-- The status that the n-th call of `setRFCParameter` returns. -/
  setRFCParameter : ℕ → WdmpStatus
  /-- Whether `queryIAuthService` gets an interface. -/
  authService : Bool
  /-- `String()` of a label that the object does not have. -/
  absentLabel : Text

/-- What the services were asked, oldest first. -/
structure Written where
  rfcWrites : List RfcWrite
  partnerIds : List Text
  deriving DecidableEq, Repr

def MAINTENANCE_MANAGER_RFC_CALLER_ID : Text := "MaintenanceManager".toList

/-- `setRFC` and its result. -/
def setRFC (services : Services) (w : Written) (rfc value : Text) (dataType : DataType) :
    Written × Bool :=
  let status := services.setRFCParameter w.rfcWrites.length
  let call : RfcWrite := ⟨MAINTENANCE_MANAGER_RFC_CALLER_ID, cStr rfc, cStr value, dataType, status⟩
  ({ w with rfcWrites := w.rfcWrites ++ [call] }, status = .success)

def setPartnerId (services : Services) (w : Written) (partnerid : Text) : Written :=
  if services.authService then { w with partnerIds := w.partnerIds ++ [partnerid] } else w

/-- `context[label].String()`. -/
def labelString (services : Services) (context : JsonObject) (label : Text) : Text :=
  (context.get? label).getD services.absentLabel

/-- One turn of the loop over the keys, with `paramEmpty` as the second component. -/
def setContextKey (services : Services) (context : JsonObject) (s : Written × Bool)
    (key : ContextKey) : Written × Bool :=
  let paramValue := labelString services context key.label
  if paramValue ≠ [] then
    let paramValue :=
      if key = .regionalConfigService then "https://".toList ++ paramValue else paramValue
    -- the result of `setRFC` is not looked at
    let w := (setRFC services s.1 key.param paramValue key.paramType).1
    (if key = .partnerId then setPartnerId services w paramValue else w, s.2)
  else
    (s.1, true)

/-- `setDeviceInitializationContext` on the object under `deviceInitializationContext`: what it
writes and what it returns. -/
def setDeviceInitializationContext (services : Services) (context : JsonObject) : Written × Bool :=
  let (w, paramEmpty) := ContextKey.all.foldl (setContextKey services context) (⟨[], []⟩, false)
  (w, !paramEmpty)

end SoftwareUpdate.MaintenanceManager
