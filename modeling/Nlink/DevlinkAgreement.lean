import Mathlib.Data.Vector.Defs
import Nlink.Devlink
import Nlink.Foundation.Collect
import Nlink.Foundation.Execution

namespace Nlink.Devlink

open Foundation Netlink Writer
open List hiding Vector
open Nftables (fromUtf8 trimEndNul fromUtf8_asBytes asBytes_append trimEndNul_terminated)

/-!
# What a device is set to, and what is read of it

A parameter's value and the name of a reporter are sent in nests where the kernel
reads no nests, so no call that the device could follow is followed.  What is read
of a parameter is right but for numbers of 64 bits and flags, and what is read of
a reporter is right unless it dumps by itself.
-/

/-!
## What calls declare
-/

def ParamData.value : (type : ParamType) → ParamData → Option type.Value
  | .u8, .u8 value => some value
  | .u16, .u16 value => some value
  | .u32, .u32 value => some value
  | .string, .string text =>
      if fits : (∀ byte ∈ asBytes text, byte ≠ 0) ∧ (asBytes text).length ≤ 31
      then
        some ⟨text, fits.1, fits.2⟩
      else
        none
  | .flag, .bool value => some value
  | _, _ => none

def Param.declared (param : Param) (cmode : ConfigMode) (data : ParamData) : Except Nat Param :=
  match data.value param.type with
  | some value => param.set cmode value
  | none => .error EINVAL

/-- What a call declares for a device; `none` where it does not name a parameter
or a reporter of the device, or declares what this one cannot be set to. -/
def Call.asked (call : Call) (device : Device) : Option Device :=
  match call with
  | .setParam name cmode data =>
      (changeFirst (·.name.text = name) (·.declared cmode data)
        device.params).toOption.map fun params => { device with params := params }
  | .setHealthReporter reporter autoRecover autoDump gracefulPeriodMs =>
      (changeFirst (·.name.text = reporter) (·.configure autoRecover autoDump gracefulPeriodMs)
        device.reporters).toOption.map fun reporters => { device with reporters := reporters }
  | .healthReporterRecover reporter =>
      (changeFirst (·.name.text = reporter) Reporter.recover
        device.reporters).toOption.map fun reporters => { device with reporters := reporters }

def Request.asked (request : Request) (device : Device) : Option Device :=
  if request.bus = device.bus.text ∧ request.device = device.name.text then
    request.call.asked device
  else
    none

def ParamData.Is : (type : ParamType) → type.Value → ParamData → Prop
  | .u8, value, .u8 read => read = value
  | .u16, value, .u16 read => read = value
  | .u32, value, .u32 read => read = value
  | .string, value, .string read => read = value.text
  | .flag, value, .bool read => read = value
  | _, _, _ => False

/-- What is read is a parameter, with all its values. -/
structure DevlinkParam.Describes
    (device : Device) (read : DevlinkParam) (param : Param) : Prop where
  bus : read.bus = device.bus.text
  device : read.device = device.name.text
  name : read.name = param.name.text
  generic : read.generic = param.generic
  values : List.Forall₂
    (fun (value : ParamValue) (found : ConfigMode × param.type.Value) =>
      value.cmode = found.1 ∧ value.data.Is param.type found.2)
    read.values param.present

/-- What a reporter is to be read as. -/
def Reporter.asRead (device : Device) (reporter : Reporter) : HealthReporter where
  bus := device.bus.text
  device := device.name.text
  name := reporter.name.text
  state := reporter.state
  errorCount := reporter.errorCount
  recoverCount := reporter.recoverCount
  autoRecover := (reporter.recovery.map Prod.snd).getD false
  autoDump := reporter.autoDump.getD false
  gracefulPeriodMs := reporter.recovery.map Prod.fst
  dumpTsJiffies := reporter.dumpTs

section Agreement

variable (order : ByteOrder) (familyId : BitVec 16)

/-- The parameters of a device are read as they are. -/
def ReturnsParams (device : Device) : Prop :=
  ∀ header, List.Forall₂ (DevlinkParam.Describes device)
      (getParams order device.bus.text device.name.text (device.dumpParams order header))
      device.params

/-- The reporters of a device are read as they are. -/
def ReturnsReporters (device : Device) : Prop :=
  ∀ header, getHealthReporters order device.bus.text device.name.text
        (device.dumpReporters order header) =
      device.reporters.map (·.asRead device)

/-- A request that the device can follow is accepted, and has exactly the effect
that it declares. -/
def Effective (device : Device) (request : Request) : Prop :=
  ∀ next, request.asked device = some next →
    device.handle order (devlinkCommand order familyId request) = .ok next

/-- The device behind a request: as the kernel leaves it. -/
def afterRequest (device : Device) (request : Request) : Device :=
  (device.handle order (devlinkCommand order familyId request)).toOption.getD device

/-!
## Requests are refused
-/

theorem exists_of_changeFirst {α : Type} {meant : α → Bool} {change : α → Except Nat α}
    {items changed : List α} (isOk : changeFirst meant change items = .ok changed) :
    ∃ item, meant item = true ∧ ∃ next, change item = .ok next := by
  induction items generalizing changed with
  | nil => cases isOk
  | cons item rest ih =>
      rw [changeFirst] at isOk
      split at isOk
      case isTrue isMeant =>
        obtain ⟨next, isNext, -⟩ := exists_of_map_ok isOk
        exact ⟨item, isMeant, next, isNext⟩
      case isFalse =>
        obtain ⟨later, isLater, -⟩ := exists_of_map_ok isOk
        exact ih isLater

theorem changeFirst_eq_error {α : Type} {meant : α → Bool} {change : α → Except Nat α}
    (items : List α) (invalid : ∀ item, meant item → change item = .error EINVAL) :
    changeFirst meant change items = .error EINVAL := by
  induction items with
  | nil => rfl
  | cons item rest ih =>
      rw [changeFirst]
      split
      case isTrue isMeant =>
        rw [invalid item isMeant]
        rfl
      case isFalse =>
        rw [ih]
        rfl

variable {order}

/-- The name that a call sends has at most as many bytes as names have, and so
does the value. -/
def Call.Short : Call → Prop
  | .setParam name _ data => (asBytes name).length ≤ 60000 ∧ (data.toBytes order).length ≤ 32
  | .setHealthReporter reporter _ _ _ => (asBytes reporter).length ≤ 60000
  | .healthReporterRecover reporter => (asBytes reporter).length ≤ 60000

variable {type : ParamType}

theorem length_toBytes_of_value {data : ParamData} {value : type.Value}
    (isValue : data.value type = some value) : (data.toBytes order).length ≤ 32 := by
  cases data with
  | string text =>
      cases type with
      | string =>
          rw [ParamData.value] at isValue
          split at isValue
          case isTrue fits =>
            rw [ParamData.toBytes, length_append]
            exact Nat.succ_le_succ fits.2
          case isFalse => cases isValue
      | _ => cases isValue
  | _ => simp [ParamData.toBytes]

variable {call : Call}

theorem short_of_asked {device next : Device} (asked : call.asked device = some next) :
    @Call.Short order call := by
  cases call with
  | setParam name cmode data =>
      obtain ⟨params, changed, -⟩ := Option.map_eq_some_iff.mp asked
      obtain ⟨param, isNamed, set, isSet⟩ := exists_of_changeFirst (ok_of_toOption changed)
      obtain rfl := of_decide_eq_true isNamed
      refine ⟨param.name.short, ?_⟩
      rw [Param.declared] at isSet
      split at isSet
      case h_1 value isValue => exact length_toBytes_of_value isValue
      case h_2 => cases isSet
  | setHealthReporter reporter autoRecover autoDump gracefulPeriodMs
  | healthReporterRecover reporter =>
      obtain ⟨reporters, changed, -⟩ := Option.map_eq_some_iff.mp asked
      obtain ⟨found, isNamed, -⟩ := exists_of_changeFirst (ok_of_toOption changed)
      obtain rfl := of_decide_eq_true isNamed
      exact found.name.short

theorem small_request (short : @Call.Short order call) :
    (call.request.2 : Writer order).Small 60100 := by
  cases call with
  | setParam name cmode data =>
      obtain ⟨nameShort, dataShort⟩ := short
      have isName : (str DEVLINK_ATTR_PARAM_NAME name : Writer order).Small 60008 :=
        small_str (by decide) (by omega) (by decide)
      have isType : (Writer.attr DEVLINK_ATTR_PARAM_TYPE [data.typeId] : Writer order).Small 8 :=
        small_attr (by decide) (by simp) (by decide)
      have isMode : (Writer.attr DEVLINK_ATTR_PARAM_VALUE_CMODE
          [cmode.asU8] : Writer order).Small 8 :=
        small_attr (by decide) (by simp) (by decide)
      have isData : (Writer.attr DEVLINK_ATTR_PARAM_VALUE_DATA
          (data.toBytes order) : Writer order).Small 39 :=
        small_attr (by decide) (by omega) (by decide)
      have value : (nest DEVLINK_ATTR_PARAM_VALUE _ : Writer order).Small 54 :=
        (isMode.andThen (isData.andThen (small_nothing 0))).nest (by decide) (by decide)
      have values : (nest DEVLINK_ATTR_PARAM_VALUES_LIST _ : Writer order).Small 61 :=
        value.nest (by decide) (by decide)
      exact (isName.andThen (isType.andThen
        (values.andThen (small_nothing 0)))).mono (by decide)
  | setHealthReporter reporter autoRecover autoDump gracefulPeriodMs =>
      have nameShort : (asBytes reporter).length ≤ 60000 := short
      have isName : (str DEVLINK_ATTR_HEALTH_REPORTER_NAME reporter :
          Writer order).Small 60008 :=
        small_str (by decide) (by omega) (by decide)
      have recovers : (whenSome autoRecover fun value =>
          Writer.attr DEVLINK_ATTR_HEALTH_REPORTER_AUTO_RECOVER
            [u8From value] : Writer order).Small 8 := by
        simp
      have dumps : (whenSome autoDump fun value =>
          Writer.attr DEVLINK_ATTR_HEALTH_REPORTER_AUTO_DUMP
            [u8From value] : Writer order).Small 8 := by
        simp
      have period : (whenSome gracefulPeriodMs fun ms =>
          Writer.attr DEVLINK_ATTR_HEALTH_REPORTER_GRACEFUL_PERIOD
            (order.toBytes 8 ms.toNat) : Writer order).Small 15 := by
        simp
      exact ((isName.andThen (recovers.andThen (dumps.andThen
        (period.andThen (small_nothing 0))))).nest (by decide) (by decide)).mono (by decide)
  | healthReporterRecover reporter =>
      have nameShort : (asBytes reporter).length ≤ 60000 := short
      have isName : (str DEVLINK_ATTR_HEALTH_REPORTER_NAME reporter :
          Writer order).Small 60008 :=
        small_str (by decide) (by omega) (by decide)
      exact (isName.nest (by decide) (by decide)).mono (by decide)

variable (device : Device)

theorem small_attrs (short : @Call.Short order call) :
    (call.attrs device.bus.text device.name.text : Writer order).Small 190000 := by
  have busShort := device.bus.short
  have nameShort := device.name.short
  have bus : (str DEVLINK_ATTR_BUS_NAME device.bus.text : Writer order).Small 60008 :=
    small_str (by decide) (by omega) (by decide)
  have name : (str DEVLINK_ATTR_DEV_NAME device.name.text : Writer order).Small 60008 :=
    small_str (by decide) (by omega) (by decide)
  exact (bus.andThen (name.andThen ((small_request short).andThen
    (small_nothing 0)))).mono (by decide)

theorem found_attrs (call : Call) (wanted : Nat) :
    lastOf (call.attrs device.bus.text device.name.text : Writer order).seen wanted =
      (((call.request.2 : Writer order).found wanted).or
        (if 2 = wanted then some (asBytes device.name.text ++ [0]) else none)).or
        (if 1 = wanted then some (asBytes device.bus.text ++ [0]) else none) := by
  simp [lastOf_seen, Call.attrs]

theorem under_of_lastOf {attrs : List Attribute} {attrType : Nat} {name : Name}
    (isName : lastOf attrs attrType = some (asBytes name.text ++ [0])) :
    name.under attrs attrType := by
  rw [Name.under, isName, Option.any_some, takeWhile_terminated name.ends]
  exact decide_eq_true rfl

/-- What the kernel looks for at the top level is not there, so a call is
refused. -/
theorem handle_of_short (short : @Call.Short order call) :
    device.handle order (devlinkCommand order familyId
        { bus := device.bus.text, device := device.name.text, call := call }) =
      .error EINVAL := by
  have found := genlReceived_genlRequest familyId (.ofNat 16 (NLM_F_REQUEST ||| NLM_F_ACK))
    (@Call.request order call).1 DEVLINK_GENL_VERSION
    (small_attrs device short)
  have isBus : device.bus.under
      (call.attrs device.bus.text device.name.text : Writer order).seen 1 := by
    refine under_of_lastOf ?_
    rw [found_attrs]
    cases call <;> simp [Call.request]
  have isDevice : device.name.under
      (call.attrs device.bus.text device.name.text : Writer order).seen 2 := by
    refine under_of_lastOf ?_
    rw [found_attrs]
    cases call <;> simp [Call.request]
  rw [Device.handle, devlinkCommand, found]
  simp only [isBus, isDevice, and_self, not_true_eq_false, if_false]
  cases call with
  | setParam name cmode data =>
      have noMode : lastOf ((Call.setParam name cmode data).attrs
          device.bus.text device.name.text : Writer order).seen 87 = none := by
        rw [found_attrs]
        simp [Call.request]
      have invalid : ∀ param : Param, param.setFrom order
          ((Call.setParam name cmode data).attrs device.bus.text
            device.name.text : Writer order).seen = .error EINVAL := by
        intro param
        rw [Param.setFrom, noMode]
        split
        · rfl
        · split
          · contradiction
          · rfl
      exact congrArg (Except.map _)
        (changeFirst_eq_error device.params fun param _ => invalid param)
  | setHealthReporter reporter autoRecover autoDump gracefulPeriodMs =>
      have noName : lastOf ((Call.setHealthReporter reporter autoRecover
          autoDump gracefulPeriodMs).attrs device.bus.text device.name.text :
            Writer order).seen 115 = none := by
        rw [found_attrs]
        simp [Call.request]
      refine congrArg (Except.map _)
        (changeFirst_eq_error device.reporters fun reporter isMeant => ?_)
      rw [Name.under, noName] at isMeant
      cases isMeant
  | healthReporterRecover reporter =>
      have noName : lastOf ((Call.healthReporterRecover reporter).attrs
          device.bus.text device.name.text : Writer order).seen 115 = none := by
        rw [found_attrs]
        simp [Call.request]
      refine congrArg (Except.map _)
        (changeFirst_eq_error device.reporters fun reporter isMeant => ?_)
      rw [Name.under, noName] at isMeant
      cases isMeant

theorem effective_iff (request : Request) :
    Effective order familyId device request ↔ request.asked device = none := by
  constructor
  · intro effective
    by_contra notNone
    obtain ⟨next, asked⟩ := Option.ne_none_iff_exists'.mp notNone
    have accepted := effective next asked
    rw [Request.asked] at asked
    split at asked
    case isTrue isDevice =>
      obtain ⟨bus, name, call⟩ := request
      obtain ⟨rfl, rfl⟩ := isDevice
      rw [handle_of_short familyId device (short_of_asked asked)] at accepted
      cases accepted
    case isFalse => cases asked
  · intro isNone next asked
    rw [isNone] at asked
    cases asked

/-!
## Texts
-/

theorem CString.not_mem_nul {limit : Nat} (text : CString limit) : '\x00' ∉ text.text.toList := by
  intro member
  obtain ⟨before, after, split⟩ := append_of_mem member
  have isText : text.text = String.ofList before ++
      (String.ofList ['\x00'] ++ String.ofList after) := by
    rw [← String.ofList_append, ← String.ofList_append, singleton_append,
      ← split, String.ofList_toList]
  have isZero : (0 : UInt8) ∈ asBytes text.text := by
    have single : asBytes (String.ofList ['\x00']) = [0] := by decide +kernel
    rw [isText, asBytes_append, asBytes_append, single]
    simp
  exact text.ends 0 isZero rfl

theorem attrStr_asBytes {limit : Nat} (text : CString limit) :
    (attrStr (asBytes text.text ++ [0])).getD "" = text.text := by
  have plain : trimEndNul text.text = text.text := by
    rw [trimEndNul, rdropWhile_eq_self_iff.mpr, String.ofList_toList]
    intro notNil isNul
    have isLast := getLast_mem notNil
    rw [beq_iff_eq.mp isNul] at isLast
    exact text.not_mem_nul isLast
  rw [attrStr, if_neg (by simp), trimEndNul_terminated, plain]
  dsimp only
  split
  case isTrue isEmpty => exact (String.isEmpty_iff.mp isEmpty).symm
  case isFalse => rfl

/-!
## Messages
-/

theorem attrIter_message (header : Vector UInt8 GENL_HDRLEN) {attrType : Nat}
    (plain : attrType < NLA_F_NET_BYTEORDER) {nested : Writer order} {size : Nat}
    (small : nested.Small size) (short : size ≤ 65531) :
    attrIter order ((device.message header attrType nested).drop GENL_HDRLEN) =
      [(1, asBytes device.bus.text ++ [0]), (2, asBytes device.name.text ++ [0]),
        (attrType, encodeAll order nested.attrs)] := by
  have busShort := device.bus.short
  have nameShort := device.name.short
  have headerLength : header.toList.length = GENL_HDRLEN := header.length_toList
  have nestShort := small.1.trans short
  rw [Device.message, drop_left' headerLength]
  refine attrIter_encodeAll_plain order ?_ ?_
  · intro attr member
    rcases mem_cons.mp member with rfl | member
    · exact (by decide : 1 < NLA_F_NET_BYTEORDER)
    rcases mem_cons.mp member with rfl | member
    · exact (by decide : 2 < NLA_F_NET_BYTEORDER)
    · rw [mem_singleton.mp member]
      exact plain
  · intro attr member
    rw [NLA_HDRLEN]
    rcases mem_cons.mp member with rfl | member
    · simp
      omega
    rcases mem_cons.mp member with rfl | member
    · simp
      omega
    · rw [mem_singleton.mp member]
      dsimp only
      omega

theorem long_message (header : Vector UInt8 GENL_HDRLEN) (attrType : Nat)
    (nested : Writer order) : ¬ (device.message header attrType nested).length < GENL_HDRLEN := by
  rw [Device.message, length_append, header.length_toList]
  exact Nat.not_lt_of_le (Nat.le_add_right ..)

/-!
## Reporters
-/

theorem u64FromNeBytes_toBytes (value : BitVec 64) :
    u64FromNeBytes order (order.toBytes 8 value.toNat) = value := by
  have fits : value.toNat < 256 ^ 8 := value.isLt
  rw [u64FromNeBytes, take_of_length_le (by simp),
    ByteOrder.ofBytes_toBytes _ fits, BitVec.ofNat_toNat, BitVec.setWidth_eq]

theorem small_nestedReporter (reporter : Reporter) :
    (reporter.nested : Writer order).Small 60200 := by
  have nameShort := reporter.name.short
  have isName : (str 115 reporter.name.text : Writer order).Small
      60008 :=
    small_str (by decide) (by omega) (by decide)
  refine (isName.andThen (Writer.Small.all 15 ?_ le_rfl)).mono ?_
  · simp
  · simp

@[simp]
theorem u8From_eq_zero (value : Bool) : u8From value = 0 ↔ value = false := by
  cases value <;> decide

theorem parseHealthReporter_nested (reporter : Reporter) :
    parseHealthReporter order device.bus.text device.name.text
        (encodeAll order (reporter.nested : Writer order).attrs) =
      some { reporter.asRead device with autoDump := false } := by
  rw [parseHealthReporter, attrIter_payload (small_nestedReporter reporter)]
  have isName := attrStr_asBytes reporter.name.toCString
  have notEmpty : reporter.name.text.isEmpty = false := by simpa using reporter.name.ne_empty
  have isState : (HealthState.tryFrom reporter.state.asU8).getD .healthy =
      reporter.state := by
    cases reporter.state <;> rfl
  simp only [Reporter.nested, seen_all_cons, seen_all_nil, foldl_append,
    foldl_seen_whenSome, seen_attr, seen_u64, seen_str, foldl_cons,
    foldl_nil, Nat.reduceMod]
  cases recovery : reporter.recovery <;>
    cases dumpTs : reporter.dumpTs <;>
    cases autoDump : reporter.autoDump <;>
    simp [parseHealthReporter.step, isName, notEmpty, isState,
      u64FromNeBytes_toBytes, Reporter.asRead, recovery, dumpTs, autoDump]

/-- Reporters are read as they are exactly if none of them dumps by itself. -/
theorem returnsReporters_iff : ReturnsReporters order device ↔
      ∀ reporter ∈ device.reporters, reporter.autoDump ≠ some true := by
  have read : ∀ header, getHealthReporters order device.bus.text
      device.name.text (device.dumpReporters order header) =
        device.reporters.map fun reporter =>
          { reporter.asRead device with autoDump := false } := by
    intro header
    have one : ∀ reporter : Reporter, parseHealthResponse order device.bus.text
        device.name.text ((device.message header 114
          (reporter.nested : Writer order)).drop GENL_HDRLEN) =
            some { reporter.asRead device with autoDump := false } := by
      intro reporter
      rw [parseHealthResponse, attrIter_message device header (by decide)
        (small_nestedReporter reporter) (by decide)]
      exact parseHealthReporter_nested device reporter
    rw [getHealthReporters, Device.dumpReporters, filterMap_map, ← filterMap_eq_map]
    refine congrFun (congrArg _ (funext fun reporter => ?_)) _
    exact (if_neg (long_message device header 114 reporter.nested)).trans (one reporter)
  simp only [ReturnsReporters, read, forall_const, map_inj_left]
  refine forall₂_congr fun reporter _ => ?_
  have autoDump : (reporter.asRead device).autoDump = reporter.autoDump.getD false := rfl
  constructor
  · intro same isTrue
    have noDump := congrArg HealthReporter.autoDump same
    rw [autoDump, isTrue] at noDump
    cases noDump
  · intro notTrue
    have noDump : (reporter.asRead device).autoDump = false := by
      rw [autoDump]
      cases isDump : reporter.autoDump with
      | none => rfl
      | some dumps =>
          cases dumps with
          | false => rfl
          | true => exact absurd isDump notTrue
    rw [← noDump]

/-!
## Parameters
-/

theorem length_present_le (param : Param) : param.present.length ≤ 3 :=
  length_filterMap_le ..

theorem length_data_le {value : type.Value} {payload : List UInt8}
    (isData : type.data order value = some payload) : payload.length ≤ 32 := by
  cases type with
  | string =>
      rw [← Option.some.inj isData, length_append]
      exact Nat.succ_le_succ value.short
  | flag =>
      cases value with
      | false => cases isData
      | true =>
          rw [← Option.some.inj isData]
          exact Nat.zero_le _
  | _ =>
      rw [← Option.some.inj isData]
      simp

def entry (order : ByteOrder) {type : ParamType} (mode : ConfigMode)
    (value : type.Value) : Writer order :=
  .all [.attr 87 [mode.asU8], .whenSome (type.data order value) (.attr 86)]

theorem small_entry (mode : ConfigMode) (value : type.Value) :
    (entry order mode value).Small 47 := by
  have isMode : (Writer.attr 87 [mode.asU8] : Writer order).Small 8 :=
    small_attr (by decide) (by simp) (by decide)
  have isData : (whenSome (type.data order value) (.attr 86) : Writer order).Small 39 := by
    refine Writer.small_whenSome.mpr fun payload isPayload => ?_
    have short := length_data_le isPayload
    exact small_attr (by decide) (by omega) (by decide)
  exact isMode.andThen (isData.andThen (small_nothing 0))

theorem parseParamValue_entry (mode : ConfigMode) (value : type.Value) (paramType : Option UInt8) :
    parseParamValue order (encodeAll order (entry order mode value).attrs) paramType =
      (type.data order value).map fun payload =>
        { cmode := mode, data := paramData order paramType payload } := by
  have isMode : ConfigMode.tryFrom mode.asU8 = some mode := by cases mode <;> rfl
  rw [parseParamValue, attrIter_payload (small_entry mode value), entry]
  simp only [seen_all_cons, seen_all_nil, foldl_append,
    foldl_seen_whenSome, seen_attr, foldl_cons, foldl_nil, Nat.reduceMod]
  cases type.data order value with
  | none => simp [parseParamValue.step]
  | some payload => simp [parseParamValue.step, isMode]

/-- The values of a parameter as they are sent. -/
def Param.entries (order : ByteOrder) (param : Param) : Writer order :=
  .all (param.present.map fun found => .plainNest 85 (entry order found.1 found.2))

theorem small_entries (param : Param) : (param.entries order).Small 162 := by
  have count := length_present_le param
  refine Writer.Small.all 54 ?_ (by rw [length_map]; omega)
  intro writer member
  obtain ⟨found, -, rfl⟩ := mem_map.mp member
  have short := (@small_entry order _ found.1 found.2).1
  exact small_attr (by decide) (by omega) (by decide)

theorem seen_entries (param : Param) :
    (param.entries order).seen = param.present.map fun found =>
      (85, encodeAll order (entry order found.1 found.2).attrs) := by
  rw [Param.entries, Writer.seen, attrs_all, flatMap_map, map_flatMap, map_eq_flatMap]
  rfl

theorem small_nestedParam (param : Param) : (param.nested : Writer order).Small 60200 := by
  have nameShort := param.name.short
  have entriesShort := (@small_entries order param).1
  have isName : (str 81 param.name.text : Writer order).Small 60008 :=
    small_str (by decide) (by omega) (by decide)
  have generic : (Writer.when param.generic (.flag 82) : Writer order).Small 7 := by simp
  have isType : (Writer.attr 83 [param.type.id] : Writer order).Small 8 :=
    small_attr (by decide) (by simp) (by decide)
  have values : (plainNest 84 (param.entries order) : Writer order).Small 169 :=
    small_attr (by decide) (by omega) (by decide)
  exact (isName.andThen (generic.andThen (isType.andThen
    (values.andThen (small_nothing 0))))).mono (by decide)

/-- What a parameter is read as. -/
def Param.read (order : ByteOrder) (device : Device) (param : Param) : DevlinkParam where
  bus := device.bus.text
  device := device.name.text
  name := param.name.text
  generic := param.generic
  values := param.present.filterMap fun found =>
    (param.type.data order found.2).map fun payload =>
      { cmode := found.1
        data := paramData order (some param.type.id) payload }

theorem parseParam_nested (param : Param) :
    parseParam order device.bus.text device.name.text
        (encodeAll order (param.nested : Writer order).attrs) =
      some (param.read order device) := by
  have isName := attrStr_asBytes param.name.toCString
  have notEmpty : param.name.text.isEmpty = false := by simpa using param.name.ne_empty
  have isNested : (param.nested : Writer order) = .all
        [.str 81 param.name.text, .when param.generic (.flag 82),
          .attr 83 [param.type.id], .plainNest 84 (param.entries order)] :=
    rfl
  have values : (attrIter order (encodeAll order
      (param.entries order).attrs)).filterMap (fun entry =>
        parseParamValue order entry.2 (some param.type.id)) = (param.read order device).values := by
    rw [attrIter_payload (small_entries param), seen_entries, filterMap_map]
    simp only [Function.comp_def, parseParamValue_entry]
    rfl
  rw [parseParam, attrIter_payload (small_nestedParam param), isNested]
  simp only [seen_all_cons, seen_all_nil, foldl_append, plainNest,
    seen_attr, seen_str, foldl_cons, foldl_nil, Nat.reduceMod]
  cases generic : param.generic with
  | false =>
      have nothing : (Writer.when false (.flag 82) : Writer order).seen = [] := rfl
      simp [parseParam.step, nothing, isName, notEmpty, values, Param.read, generic]
  | true =>
      have flag : (Writer.when true (.flag 82) : Writer order).seen = [(82, [])] := rfl
      simp [parseParam.step, flag, isName, notEmpty, values, Param.read, generic]

theorem paramData_string (text : CString 31) : paramData order (some 5) (asBytes text.text ++ [0]) =
      .string text.text := by
  rw [paramData, attrStr_asBytes text]

theorem exists_is_iff (value : type.Value) :
    (∃ data, (type.data order value).map (paramData order (some type.id)) =
        some data ∧ data.Is type value) ↔
      type ≠ .u64 ∧ type ≠ .flag := by
  cases type with
  | u8 => exact iff_of_true ⟨_, rfl, readU8_singleton value⟩ (by decide)
  | u16 =>
      have long : 2 ≤ (order.toBytes 2 (BitVec.toNat value)).length := by simp
      exact iff_of_true ⟨_, congrArg some (if_pos long), readU16_toBytes order value⟩ (by decide)
  | u32 =>
      have long : 4 ≤ (order.toBytes 4 (BitVec.toNat value)).length := by simp
      exact iff_of_true ⟨_, congrArg some (if_pos long), readU32_toBytes order value⟩ (by decide)
  | string => exact iff_of_true ⟨_, congrArg some (paramData_string value), rfl⟩ (by decide)
  | u64 =>
      refine iff_of_false ?_ (by decide)
      rintro ⟨data, isData, isValue⟩
      rw [← Option.some.inj isData] at isValue
      exact isValue
  | flag =>
      refine iff_of_false ?_ (by decide)
      rintro ⟨data, isData, isValue⟩
      cases value with
      | false => cases isData
      | true =>
          rw [← Option.some.inj isData] at isValue
          exact isValue

theorem describes_iff (param : Param) :
    (param.read order device).Describes device param ↔
      (param.type = .u64 ∨ param.type = .flag → ∀ mode, param.values mode = none) := by
  have values : (param.read order device).Describes device param ↔
      ∀ found ∈ param.present, param.type ≠ .u64 ∧ param.type ≠ .flag := by
    have each : (param.read order device).Describes device param ↔ List.Forall₂
          (fun (value : ParamValue) (found : ConfigMode × param.type.Value) =>
            value.cmode = found.1 ∧ value.data.Is param.type found.2)
          (param.read order device).values param.present :=
      ⟨fun describes => describes.values, fun values => ⟨rfl, rfl, rfl, rfl, values⟩⟩
    rw [each, Param.read, forall₂_filterMap_iff]
    refine forall₂_congr fun found _ => ?_
    rw [← @exists_is_iff order _ found.2]
    simp only [Option.map_eq_some_iff]
    constructor
    · rintro ⟨value, ⟨payload, isData, rfl⟩, -, isValue⟩
      exact ⟨_, ⟨payload, isData, rfl⟩, isValue⟩
    · rintro ⟨data, ⟨payload, isData, rfl⟩, isValue⟩
      exact ⟨_, ⟨payload, isData, rfl⟩, rfl, isValue⟩
  have present : (∃ found, found ∈ param.present) ↔ ∃ mode, param.values mode ≠ none := by
    simp only [Param.present, mem_filterMap, Option.map_eq_some_iff, Option.ne_none_iff_exists']
    constructor
    · rintro ⟨found, mode, -, value, isValue, -⟩
      exact ⟨mode, value, isValue⟩
    · rintro ⟨mode, value, isValue⟩
      exact ⟨_, mode, by cases mode <;> simp, value, isValue, rfl⟩
  rw [values]
  constructor
  · intro each isOther mode
    by_contra isSome
    obtain ⟨found, member⟩ := present.mpr ⟨mode, isSome⟩
    obtain ⟨notU64, notFlag⟩ := each found member
    exact isOther.elim notU64 notFlag
  · intro noValues found member
    obtain ⟨mode, isSome⟩ := present.mp ⟨found, member⟩
    exact not_or.mp fun isOther => isSome (noValues isOther mode)

theorem returnsParams_iff : ReturnsParams order device ↔
      ∀ param ∈ device.params, param.type = .u64 ∨ param.type = .flag →
        ∀ mode, param.values mode = none := by
  have read : ∀ header, getParams order device.bus.text device.name.text
      (device.dumpParams order header) = device.params.map (·.read order device) := by
    intro header
    have one : ∀ param : Param, parseParamResponse order device.bus.text
        device.name.text ((device.message header 80
          (param.nested : Writer order)).drop GENL_HDRLEN) = some (param.read order device) := by
      intro param
      rw [parseParamResponse, attrIter_message device header (by decide)
        (small_nestedParam param) (by decide)]
      exact parseParam_nested device param
    rw [getParams, Device.dumpParams, filterMap_map, ← filterMap_eq_map]
    refine congrFun (congrArg _ (funext fun param => ?_)) _
    exact (if_neg (long_message device header 80 param.nested)).trans (one param)
  simp only [ReturnsParams, read, forall_const, forall₂_map_left_iff, forall₂_same, describes_iff]

end Agreement

/-- In a run of requests each is effective exactly if none could be followed; and
parameters and reporters are read as they are exactly if no value is a number of
64 bits or a flag, and no reporter dumps by itself. -/
theorem asAsked_iff (order : ByteOrder) (familyId : BitVec 16) (device : Device) :
    (∀ requests, AllAlong (afterRequest order familyId) (Effective order familyId) device requests ↔
      AllAlong (afterRequest order familyId)
        (fun device request => request.asked device = none) device requests) ∧
    (ReturnsParams order device ↔ ∀ param ∈ device.params, param.type = .u64 ∨ param.type = .flag →
        ∀ mode, param.values mode = none) ∧
    (ReturnsReporters order device ↔
      ∀ reporter ∈ device.reporters, reporter.autoDump ≠ some true) :=
  ⟨fun requests => allAlong_congr (effective_iff familyId) device requests,
    returnsParams_iff device, returnsReporters_iff device⟩

/-!
## A parameter that is not set
-/

/-- A device with one parameter, which is 1 at run time. -/
def msixDevice : Device where
  bus := { text := "pci", ends := by decide +kernel, short := by decide +kernel,
           ne_empty := by decide }
  name := { text := "0000:03:00.0", ends := by decide +kernel,
            short := by decide +kernel, ne_empty := by decide }
  params :=
    [{ name := { text := "msix_vec_per_pf_min", ends := by decide +kernel,
                 short := by decide +kernel, ne_empty := by decide }
       generic := true
       type := .u32
       values := fun mode =>
        match mode with
        | .driverinit => some (1#32)
        | _ => none }]
  reporters := []

/-- A value that the parameter can be set to is refused. -/
theorem msixParam_notSet : ¬ AllAlong (afterRequest .little 30) (Effective .little 30) msixDevice
      [{ bus := "pci", device := "0000:03:00.0",
         call := .setParam "msix_vec_per_pf_min" .driverinit (.u32 2) }] := by
  rintro ⟨effective, -⟩
  have notAsked := (effective_iff 30 msixDevice _).mp effective
  revert notAsked
  decide +kernel

end Nlink.Devlink
