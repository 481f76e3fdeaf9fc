import Mathlib.Data.FinEnum
import Nlink.GenlRequest
import Nlink.WireguardConfig

namespace Nlink.Devlink

open Foundation Netlink
open Nftables (fromUtf8 trimEndNul)

/-!
# Parameters and health reporters of devlink

The requests that set a parameter, configure a reporter and let it recover; the
messages of a dump and what is parsed of them; and the kernel's side of both.
-/

/-!
## Identifiers
-/

def DEVLINK_GENL_VERSION : UInt8 := 1

def DEVLINK_CMD_PARAM_SET : UInt8 := 39
def DEVLINK_CMD_HEALTH_REPORTER_SET : UInt8 := 53
def DEVLINK_CMD_HEALTH_REPORTER_RECOVER : UInt8 := 54

def DEVLINK_ATTR_BUS_NAME : Nat := 1
def DEVLINK_ATTR_DEV_NAME : Nat := 2
def DEVLINK_ATTR_PARAM : Nat := 80
def DEVLINK_ATTR_PARAM_NAME : Nat := 81
def DEVLINK_ATTR_PARAM_GENERIC : Nat := 82
def DEVLINK_ATTR_PARAM_TYPE : Nat := 83
def DEVLINK_ATTR_PARAM_VALUES_LIST : Nat := 84
def DEVLINK_ATTR_PARAM_VALUE : Nat := 85
def DEVLINK_ATTR_PARAM_VALUE_DATA : Nat := 86
def DEVLINK_ATTR_PARAM_VALUE_CMODE : Nat := 87
def DEVLINK_ATTR_HEALTH_REPORTER : Nat := 114
def DEVLINK_ATTR_HEALTH_REPORTER_NAME : Nat := 115
def DEVLINK_ATTR_HEALTH_REPORTER_STATE : Nat := 116
def DEVLINK_ATTR_HEALTH_REPORTER_ERR_COUNT : Nat := 117
def DEVLINK_ATTR_HEALTH_REPORTER_RECOVER_COUNT : Nat := 118
def DEVLINK_ATTR_HEALTH_REPORTER_DUMP_TS : Nat := 119
def DEVLINK_ATTR_HEALTH_REPORTER_GRACEFUL_PERIOD : Nat := 120
def DEVLINK_ATTR_HEALTH_REPORTER_AUTO_RECOVER : Nat := 121
def DEVLINK_ATTR_HEALTH_REPORTER_AUTO_DUMP : Nat := 136

attribute [simp] DEVLINK_ATTR_BUS_NAME DEVLINK_ATTR_DEV_NAME DEVLINK_ATTR_PARAM
  DEVLINK_ATTR_PARAM_NAME DEVLINK_ATTR_PARAM_GENERIC DEVLINK_ATTR_PARAM_TYPE
  DEVLINK_ATTR_PARAM_VALUES_LIST DEVLINK_ATTR_PARAM_VALUE
  DEVLINK_ATTR_PARAM_VALUE_DATA DEVLINK_ATTR_PARAM_VALUE_CMODE
  DEVLINK_ATTR_HEALTH_REPORTER DEVLINK_ATTR_HEALTH_REPORTER_NAME
  DEVLINK_ATTR_HEALTH_REPORTER_STATE DEVLINK_ATTR_HEALTH_REPORTER_ERR_COUNT
  DEVLINK_ATTR_HEALTH_REPORTER_RECOVER_COUNT
  DEVLINK_ATTR_HEALTH_REPORTER_DUMP_TS
  DEVLINK_ATTR_HEALTH_REPORTER_GRACEFUL_PERIOD
  DEVLINK_ATTR_HEALTH_REPORTER_AUTO_RECOVER
  DEVLINK_ATTR_HEALTH_REPORTER_AUTO_DUMP

/-!
## What is sent
-/

inductive ConfigMode where
  | runtime
  | driverinit
  | permanent
  deriving DecidableEq

def ConfigMode.asU8 : ConfigMode → UInt8
  | .runtime => 0
  | .driverinit => 1
  | .permanent => 2

/-- `ConfigMode::try_from`, without the text of its error. -/
def ConfigMode.tryFrom (value : UInt8) : Option ConfigMode :=
  match value with
  | 0 => some .runtime
  | 1 => some .driverinit
  | 2 => some .permanent
  | _ => none

/-- `u8::from`. -/
def u8From (value : Bool) : UInt8 :=
  if value then 1 else 0

inductive ParamData where
  | u8 (value : BitVec 8)
  | u16 (value : BitVec 16)
  | u32 (value : BitVec 32)
  | string (value : String)
  | bool (value : Bool)

def ParamData.typeId : ParamData → UInt8
  | .u8 _ => 1
  | .u16 _ => 2
  | .u32 _ => 3
  | .string _ => 5
  | .bool _ => 6

def ParamData.toBytes (order : ByteOrder) : ParamData → List UInt8
  | .u8 value => [.ofBitVec value]
  | .u16 value => order.toBytes 2 value.toNat
  | .u32 value => order.toBytes 4 value.toNat
  | .string value => asBytes value ++ [0]
  | .bool value => [u8From value]

/-- The calls that change something. -/
inductive Call where
  | setParam (name : String) (cmode : ConfigMode) (data : ParamData)
  | setHealthReporter (reporter : String) (autoRecover autoDump : Option Bool)
      (gracefulPeriodMs : Option (BitVec 64))
  | healthReporterRecover (reporter : String)

section Send

open Writer

variable {order : ByteOrder}

/-- The command of a call, and its attributes behind those of the device. -/
def Call.request : Call → UInt8 × Writer order
  | .setParam name cmode data =>
      (DEVLINK_CMD_PARAM_SET, all
          [str DEVLINK_ATTR_PARAM_NAME name, attr DEVLINK_ATTR_PARAM_TYPE [data.typeId],
            nest DEVLINK_ATTR_PARAM_VALUES_LIST
              (nest DEVLINK_ATTR_PARAM_VALUE (all [attr DEVLINK_ATTR_PARAM_VALUE_CMODE [cmode.asU8],
                    attr DEVLINK_ATTR_PARAM_VALUE_DATA (data.toBytes order)]))])
  | .setHealthReporter reporter autoRecover autoDump gracefulPeriodMs =>
      (DEVLINK_CMD_HEALTH_REPORTER_SET, nest DEVLINK_ATTR_HEALTH_REPORTER (all
            [str DEVLINK_ATTR_HEALTH_REPORTER_NAME reporter, whenSome autoRecover fun value =>
                attr DEVLINK_ATTR_HEALTH_REPORTER_AUTO_RECOVER [u8From value],
              whenSome autoDump fun value =>
                attr DEVLINK_ATTR_HEALTH_REPORTER_AUTO_DUMP [u8From value],
              whenSome gracefulPeriodMs fun ms =>
                attr DEVLINK_ATTR_HEALTH_REPORTER_GRACEFUL_PERIOD (order.toBytes 8 ms.toNat)]))
  | .healthReporterRecover reporter =>
      (DEVLINK_CMD_HEALTH_REPORTER_RECOVER, nest DEVLINK_ATTR_HEALTH_REPORTER
          (str DEVLINK_ATTR_HEALTH_REPORTER_NAME reporter))

/-- What `devlink_cmd_builder` and a call write. -/
def Call.attrs (bus device : String) (call : Call) : Writer order :=
  all [str DEVLINK_ATTR_BUS_NAME bus, str DEVLINK_ATTR_DEV_NAME device, call.request.2]

end Send

/-- A call on a device. -/
structure Request where
  bus : String
  device : String
  call : Call

def devlinkCommand (order : ByteOrder) (familyId : BitVec 16) (request : Request) :
    MessageBuilder :=
  let (cmd, _) : UInt8 × Writer order := request.call.request
  genlRequest order familyId (.ofNat 16 (NLM_F_REQUEST ||| NLM_F_ACK)) cmd
    DEVLINK_GENL_VERSION (request.call.attrs request.bus request.device)

/-!
## What is parsed
-/

structure ParamValue where
  cmode : ConfigMode
  data : ParamData

structure DevlinkParam where
  bus : String
  device : String
  name : String
  generic : Bool
  values : List ParamValue

inductive HealthState where
  | healthy
  | error

/-- `HealthState::try_from`, without the text of its error. -/
def HealthState.tryFrom (value : UInt8) : Option HealthState :=
  match value with
  | 0 => some .healthy
  | 1 => some .error
  | _ => none

structure HealthReporter where
  bus : String
  device : String
  name : String
  state : HealthState
  errorCount : BitVec 64
  recoverCount : BitVec 64
  autoRecover : Bool
  autoDump : Bool
  gracefulPeriodMs : Option (BitVec 64)
  dumpTsJiffies : Option (BitVec 64)

/-- `attr_str`. -/
def attrStr (payload : List UInt8) : Option String :=
  if payload.isEmpty then
    none
  else
    let s := trimEndNul ((fromUtf8 payload).getD "")
    if s.isEmpty then none else some s

section Parse

variable (order : ByteOrder)

/-- `u64::from_ne_bytes` of the first eight bytes. -/
def u64FromNeBytes (payload : List UInt8) : BitVec 64 :=
  BitVec.ofNat 64 (order.ofBytes (payload.take 8))

/-- The data of a value under the type that its parameter has so far. -/
def paramData (paramType : Option UInt8) (raw : List UInt8) : ParamData :=
  let other : ParamData := .u32 (if 4 ≤ raw.length then readU32 order raw else 0)
  match paramType with
  | some 1 => if raw.isEmpty then other else .u8 (readU8 raw)
  | some 2 => if 2 ≤ raw.length then .u16 (readU16 order raw) else other
  | some 3 => if 4 ≤ raw.length then .u32 (readU32 order raw) else other
  | some 5 => .string ((attrStr raw).getD "")
  | some 6 => if raw.isEmpty then other else .bool (readU8 raw ≠ 0)
  | _ => other

def parseParamValue (data : List UInt8) (paramType : Option UInt8) : Option ParamValue := do
  let (cmode, valueData) := (attrIter order data).foldl step (none, none)
  return { cmode := ← cmode, data := paramData order paramType (← valueData) }
where
  step (found : Option ConfigMode × Option (List UInt8)) (attr : Attribute) :
      Option ConfigMode × Option (List UInt8) :=
    if attr.1 = DEVLINK_ATTR_PARAM_VALUE_CMODE ∧ ¬ attr.2.isEmpty then
      (ConfigMode.tryFrom (attr.2.headD 0), found.2)
    else if attr.1 = DEVLINK_ATTR_PARAM_VALUE_DATA then
      (found.1, some attr.2)
    else
      found

/-- The loop of `parse_param`: the parameter and its type so far. -/
def parseParam (bus device : String) (data : List UInt8) : Option DevlinkParam :=
  let param : DevlinkParam :=
    { bus := bus, device := device, name := "", generic := false, values := [] }
  let (param, _) := (attrIter order data).foldl step (param, none)
  if param.name.isEmpty then none else some param
where
  step (found : DevlinkParam × Option UInt8) (attr : Attribute) : DevlinkParam × Option UInt8 :=
    let (param, paramType) := found
    if attr.1 = DEVLINK_ATTR_PARAM_NAME then
      ({ param with name := (attrStr attr.2).getD "" }, paramType)
    else if attr.1 = DEVLINK_ATTR_PARAM_GENERIC then
      ({ param with generic := true }, paramType)
    else if attr.1 = DEVLINK_ATTR_PARAM_TYPE ∧ ¬ attr.2.isEmpty then
      (param, some (attr.2.headD 0))
    else if attr.1 = DEVLINK_ATTR_PARAM_VALUES_LIST then
      ({ param with
          values := param.values ++ (attrIter order attr.2).filterMap
            fun entry => parseParamValue order entry.2 paramType },
        paramType)
    else
      found

/-- `parse_param_response`: the first parameter. -/
def parseParamResponse (bus device : String) (data : List UInt8) : Option DevlinkParam :=
  ((attrIter order data).find? (·.1 = DEVLINK_ATTR_PARAM)).bind
    fun attr => parseParam order bus device attr.2

def parseHealthReporter (bus device : String) (data : List UInt8) : Option HealthReporter :=
  let reporter : HealthReporter :=
    { bus := bus, device := device, name := "", state := .healthy,
      errorCount := 0, recoverCount := 0, autoRecover := false,
      autoDump := false, gracefulPeriodMs := none, dumpTsJiffies := none }
  let reporter := (attrIter order data).foldl step reporter
  if reporter.name.isEmpty then none else some reporter
where
  step (reporter : HealthReporter) (attr : Attribute) : HealthReporter :=
    let (attrType, payload) := attr
    if attrType = DEVLINK_ATTR_HEALTH_REPORTER_NAME then
      { reporter with name := (attrStr payload).getD "" }
    else if attrType = DEVLINK_ATTR_HEALTH_REPORTER_STATE ∧ ¬ payload.isEmpty then
      { reporter with state := (HealthState.tryFrom (payload.headD 0)).getD .healthy }
    else if attrType = DEVLINK_ATTR_HEALTH_REPORTER_ERR_COUNT ∧ 8 ≤ payload.length then
      { reporter with errorCount := u64FromNeBytes order payload }
    else if attrType = DEVLINK_ATTR_HEALTH_REPORTER_RECOVER_COUNT ∧ 8 ≤ payload.length then
      { reporter with recoverCount := u64FromNeBytes order payload }
    else if attrType = DEVLINK_ATTR_HEALTH_REPORTER_AUTO_RECOVER ∧ ¬ payload.isEmpty then
      { reporter with autoRecover := payload.headD 0 ≠ 0 }
    else if attrType = DEVLINK_ATTR_HEALTH_REPORTER_AUTO_DUMP ∧ ¬ payload.isEmpty then
      { reporter with autoDump := payload.headD 0 ≠ 0 }
    else if attrType = DEVLINK_ATTR_HEALTH_REPORTER_GRACEFUL_PERIOD ∧ 8 ≤ payload.length then
      { reporter with gracefulPeriodMs := some (u64FromNeBytes order payload) }
    else if attrType = DEVLINK_ATTR_HEALTH_REPORTER_DUMP_TS ∧ 8 ≤ payload.length then
      { reporter with dumpTsJiffies := some (u64FromNeBytes order payload) }
    else
      reporter

/-- `parse_health_response`: the first reporter. -/
def parseHealthResponse (bus device : String) (data : List UInt8) : Option HealthReporter :=
  ((attrIter order data).find? (·.1 = DEVLINK_ATTR_HEALTH_REPORTER)).bind
    fun attr => parseHealthReporter order bus device attr.2

/-- `get_params`, from the payloads of a dump. -/
def getParams (bus device : String) (responses : List (List UInt8)) : List DevlinkParam :=
  responses.filterMap fun payload =>
    if payload.length < GENL_HDRLEN then
      none
    else
      parseParamResponse order bus device (payload.drop GENL_HDRLEN)

/-- `get_health_reporters`, from the payloads of a dump. -/
def getHealthReporters (bus device : String) (responses : List (List UInt8)) :
    List HealthReporter :=
  responses.filterMap fun payload =>
    if payload.length < GENL_HDRLEN then
      none
    else
      parseHealthResponse order bus device (payload.drop GENL_HDRLEN)

end Parse

/-!
## The kernel's side
-/

/-- A text of the kernel: a C string of at most so many bytes. -/
structure CString (limit : Nat) where
  text : String
  ends : ∀ byte ∈ asBytes text, byte ≠ 0
  short : (asBytes text).length ≤ limit

/-- The name of a device, a parameter or a reporter.  It is not empty, and fits a
message. -/
structure Name extends CString 60000 where
  ne_empty : text ≠ ""

inductive ParamType where
  | u8
  | u16
  | u32
  | u64
  | string
  | flag
  deriving DecidableEq

def ParamType.id : ParamType → UInt8
  | .u8 => 1
  | .u16 => 2
  | .u32 => 3
  | .u64 => 4
  | .string => 5
  | .flag => 6

/-- The values of a type.  A string has room for its terminator in 32 bytes. -/
def ParamType.Value : ParamType → Type
  | .u8 => BitVec 8
  | .u16 => BitVec 16
  | .u32 => BitVec 32
  | .u64 => BitVec 64
  | .string => CString 31
  | .flag => Bool

/-- A parameter, with its values in the modes that it supports. -/
structure Param where
  name : Name
  generic : Bool
  type : ParamType
  values : ConfigMode → Option type.Value

/-- A reporter.  Only one that can recover has a graceful period and recovers by
itself, and only one that can dump dumps by itself. -/
structure Reporter where
  name : Name
  state : HealthState
  errorCount : BitVec 64
  recoverCount : BitVec 64
  recovery : Option (BitVec 64 × Bool)
  autoDump : Option Bool
  dumpTs : Option (BitVec 64)

structure Device where
  bus : Name
  name : Name
  params : List Param
  reporters : List Reporter

def Param.set (param : Param) (mode : ConfigMode) (value : param.type.Value) : Except Nat Param :=
  if (param.values mode).isSome then
    .ok { param with values := Function.update param.values mode (some value) }
  else
    .error EOPNOTSUPP

def Reporter.configure (reporter : Reporter) (autoRecover autoDump : Option Bool)
    (gracefulPeriod : Option (BitVec 64)) : Except Nat Reporter :=
  if reporter.recovery.isNone ∧ (gracefulPeriod.isSome ∨ autoRecover.isSome) ∨
      reporter.autoDump.isNone ∧ autoDump.isSome then
    .error EOPNOTSUPP
  else
    .ok
      { reporter with
        recovery := reporter.recovery.map fun (period, recovers) =>
          (gracefulPeriod.getD period, autoRecover.getD recovers)
        autoDump := reporter.autoDump.map autoDump.getD }

/-- A reporter without an error has nothing to recover from. -/
def Reporter.recover (reporter : Reporter) : Except Nat Reporter :=
  match reporter.state with
  | .healthy => .ok reporter
  | .error =>
      if reporter.recovery.isSome then
        .ok
          { reporter with
            state := .healthy
            recoverCount := reporter.recoverCount + 1 }
      else
        .error EOPNOTSUPP

/-- Change the first item that is meant; it is an error if there is none. -/
def changeFirst {α : Type} (meant : α → Bool) (change : α → Except Nat α) :
    List α → Except Nat (List α)
  | [] => .error EINVAL
  | item :: rest =>
      if meant item then
        (change item).map (· :: rest)
      else
        (changeFirst meant change rest).map (item :: ·)

section Read

variable (order : ByteOrder)

/-- The bytes of a name are found under a type. -/
def Name.under (name : Name) (attrs : List Attribute) (attrType : Nat) : Bool :=
  (lastOf attrs attrType).any (·.takeWhile (· != 0) = asBytes name.text)

/-- The data of a value, which must have the size of its type. -/
def readValue : (type : ParamType) → Option (List UInt8) → Option type.Value
  | .flag, none => some false
  | .flag, some payload => if payload.isEmpty then some true else none
  | _, none => none
  | .u8, some payload => if payload.length = 1 then some (readU8 payload) else none
  | .u16, some payload => if payload.length = 2 then some (readU16 order payload) else none
  | .u32, some payload => if payload.length = 4 then some (readU32 order payload) else none
  | .u64, some payload => if payload.length = 8 then some (u64FromNeBytes order payload) else none
  | .string, some payload => do
      let text ← fromUtf8 (payload.takeWhile (· != 0))
      if fits : (∀ byte ∈ asBytes text, byte ≠ 0) ∧
          (asBytes text).length ≤ 31 ∧ (asBytes text).length < payload.length
      then
        some ⟨text, fits.1, fits.2.1⟩
      else
        none

/-- A parameter is set to the value of a request. -/
def Param.setFrom (param : Param) (attrs : List Attribute) : Except Nat Param :=
  if (lastOf attrs 83).map readU8 ≠ some param.type.id.toBitVec then
    .error EINVAL
  else
    match readValue order param.type (lastOf attrs 86), lastOf attrs 87 with
    | some value, some payload =>
        match ConfigMode.tryFrom (payload.headD 0) with
        | some mode => param.set mode value
        | none => .error EOPNOTSUPP
    | _, _ => .error EINVAL

/-- A reporter gets the settings that a request has. -/
def Reporter.configureFrom (reporter : Reporter) (attrs : List Attribute) : Except Nat Reporter :=
  reporter.configure ((lastOf attrs 121).map (·.headD 0 != 0))
    ((lastOf attrs 141).map (·.headD 0 != 0)) ((lastOf attrs 120).map (u64FromNeBytes order))

/-- What a request does to a device, or its error. -/
def Device.handle (device : Device) (message : MessageBuilder) : Except Nat Device :=
  let (cmd, attrs) := genlReceived order message
  if ¬ (device.bus.under attrs 1 ∧ device.name.under attrs 2) then
    .error ENODEV
  else
    match cmd with
    | 39 =>
        (changeFirst (·.name.under attrs 81) (·.setFrom order attrs)
          device.params).map fun params => { device with params := params }
    | 53 =>
        (changeFirst (·.name.under attrs 115) (·.configureFrom order attrs)
          device.reporters).map fun reporters => { device with reporters := reporters }
    | 54 =>
        (changeFirst (·.name.under attrs 115) Reporter.recover
          device.reporters).map fun reporters => { device with reporters := reporters }
    | _ => .error EOPNOTSUPP

end Read

/-!
## Messages of a dump
-/

section Dump

open Writer

variable {order : ByteOrder}

/-- The data of a value.  A flag that is set has an empty one, and one that is not
set has none. -/
def ParamType.data (order : ByteOrder) : (type : ParamType) → type.Value → Option (List UInt8)
  | .u8, value => some [.ofBitVec value]
  | .u16, value => some (order.toBytes 2 (BitVec.toNat value))
  | .u32, value => some (order.toBytes 4 (BitVec.toNat value))
  | .u64, value => some (order.toBytes 8 (BitVec.toNat value))
  | .string, value => some (asBytes value.text ++ [0])
  | .flag, true => some []
  | .flag, false => none

/-- The values that there are, with their modes. -/
def Param.present (param : Param) : List (ConfigMode × param.type.Value) :=
  [.runtime, .driverinit, .permanent].filterMap fun mode => (param.values mode).map (mode, ·)

def Param.nested (param : Param) : Writer order :=
  all
    [str 81 param.name.text, when param.generic (flag 82), attr 83 [param.type.id], plainNest 84
        (all (param.present.map fun (mode, value) =>
          plainNest 85
            (all [attr 87 [mode.asU8], whenSome (param.type.data order value) (attr 86)])))]

def HealthState.asU8 : HealthState → UInt8
  | .healthy => 0
  | .error => 1

def Reporter.nested (reporter : Reporter) : Writer order :=
  all
    [str 115 reporter.name.text, attr 116 [reporter.state.asU8], u64 117 reporter.errorCount,
      u64 118 reporter.recoverCount,
      whenSome reporter.recovery fun (period, _) => u64 120 period,
      whenSome reporter.recovery fun (_, recovers) => attr 121 [u8From recovers],
      whenSome reporter.dumpTs (u64 119),
      whenSome reporter.autoDump fun dumps => attr 141 [u8From dumps]]

/-- The payload of a message: the header of the family, the device, and a nest. -/
def Device.message (device : Device) (header : Vector UInt8 GENL_HDRLEN)
    (attrType : Nat) (nested : Writer order) : List UInt8 :=
  let body : Writer order :=
    all [str 1 device.bus.text, str 2 device.name.text, plainNest attrType nested]
  header.toList ++ encodeAll order body.attrs

variable (order)

def Device.dumpParams (device : Device) (header : Vector UInt8 GENL_HDRLEN) : List (List UInt8) :=
  device.params.map fun param => device.message header 80 (param.nested : Writer order)

def Device.dumpReporters (device : Device) (header : Vector UInt8 GENL_HDRLEN) :
    List (List UInt8) :=
  device.reporters.map fun reporter => device.message header 114 (reporter.nested : Writer order)

end Dump

end Nlink.Devlink
