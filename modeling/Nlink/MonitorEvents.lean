import Nlink.Devlink
import Nlink.EventStream
import Nlink.NetlinkNotification

namespace Nlink.Monitor

open Foundation Netlink List
open Nftables (fromUtf8 trimEndNul)

/-!
# Events of the ethtool and devlink monitors

What the two monitors read of a generic netlink message.
-/

variable (order : ByteOrder)

/-- A string attribute; what is not UTF-8 is empty. -/
def text (payload : List UInt8) : String :=
  trimEndNul ((fromUtf8 payload).getD "")

/-- The command of a message and its attributes, unless it is skipped. -/
def genlMessage (msgType : Nat) (payload : List UInt8) : Option (UInt8 × List UInt8) :=
  if msgType = NlMsgType.ERROR ∨ msgType = NlMsgType.DONE then
    none
  else if payload.length < GENL_HDRLEN then
    none
  else
    some (payload.getD 0 0, payload.drop GENL_HDRLEN)

/-!
## Ethtool
-/

inductive Port where
  | tp
  | aui
  | mii
  | fibre
  | bnc
  | da
  | none
  | other

def Port.fromU8 (v : UInt8) : Port :=
  match v.toNat with
  | 0 => .tp
  | 1 => .aui
  | 2 => .mii
  | 3 => .fibre
  | 4 => .bnc
  | 5 => .da
  | 239 => .none
  | _ => .other

inductive MdiX where
  | mdi
  | mdiX
  | auto
  | unknown

def MdiX.fromU8 (v : UInt8) : MdiX :=
  match v.toNat with
  | 0 => .mdi
  | 1 => .mdiX
  | 2 => .auto
  | _ => .unknown

inductive Transceiver where
  | internal
  | external
  | unknown

def Transceiver.fromU8 (v : UInt8) : Transceiver :=
  match v.toNat with
  | 0 => .internal
  | 1 => .external
  | _ => .unknown

inductive Duplex where
  | half
  | full
  | unknown

def Duplex.fromU8 (v : UInt8) : Duplex :=
  match v.toNat with
  | 0 => .half
  | 1 => .full
  | _ => .unknown

inductive LinkExtState where
  | ok
  | autoneg
  | linkTrainingFailure
  | linkLogicalMismatch
  | badSignalIntegrity
  | noCable
  | cableIssue
  | eepromIssue
  | calibrationFailure
  | powerBudgetExceeded
  | overheat
  | moduleNotPresent

def LinkExtState.fromU8 (v : UInt8) : LinkExtState :=
  match v.toNat with
  | 1 => .autoneg
  | 2 => .linkTrainingFailure
  | 3 => .linkLogicalMismatch
  | 4 => .badSignalIntegrity
  | 5 => .noCable
  | 6 => .cableIssue
  | 7 => .eepromIssue
  | 8 => .calibrationFailure
  | 9 => .powerBudgetExceeded
  | 10 => .overheat
  | 11 => .moduleNotPresent
  | _ => .ok

/-- The interface that a message is about. -/
structure Device where
  ifname : Option String
  ifindex : Option (BitVec 32)

def Device.none : Device where
  ifname := .none
  ifindex := .none

/-- `parse_header`. -/
def parseHeader (data : List UInt8) : Device :=
  (attrIter order data).foldl (fun device (attrType, payload) =>
    if attrType = 2 then
      { device with ifname := some (text payload) }
    else if attrType = 1 then
      { device with ifindex := u32Or order payload device.ifindex }
    else
      device) .none

/-!
The objects of events, with the fields that events fill.
-/

structure LinkInfo where
  device : Device
  port : Option Port
  phyaddr : Option UInt8
  tpMdixCtrl : Option MdiX
  tpMdix : Option MdiX
  transceiver : Option Transceiver

structure LinkModes where
  device : Device
  autoneg : Bool
  speed : Option (BitVec 32)
  duplex : Option Duplex

structure LinkState where
  device : Device
  link : Bool
  sqi : Option (BitVec 32)
  sqiMax : Option (BitVec 32)
  extState : Option LinkExtState

structure Features where
  device : Device

structure Rings where
  device : Device
  rx : Option (BitVec 32)
  tx : Option (BitVec 32)

structure Channels where
  device : Device
  combinedCount : Option (BitVec 32)

structure Coalesce where
  device : Device
  rxUsecs : Option (BitVec 32)
  txUsecs : Option (BitVec 32)

structure Pause where
  device : Device
  autoneg : Option Bool
  rx : Option Bool
  tx : Option Bool

def LinkInfo.parse (data : List UInt8) : LinkInfo :=
  (attrIter order data).foldl (fun info (attrType, payload) =>
    match attrType with
    | 1 => { info with device := parseHeader order payload }
    | 2 => { info with port := (payload.head?.map Port.fromU8).or info.port }
    | 3 => { info with phyaddr := payload.head?.or info.phyaddr }
    | 5 => { info with tpMdixCtrl := (payload.head?.map MdiX.fromU8).or info.tpMdixCtrl }
    | 4 => { info with tpMdix := (payload.head?.map MdiX.fromU8).or info.tpMdix }
    | 6 => { info with transceiver := (payload.head?.map Transceiver.fromU8).or info.transceiver }
    | _ => info)
    { device := .none, port := none, phyaddr := none, tpMdixCtrl := none, tpMdix := none,
      transceiver := none }

def LinkModes.parse (data : List UInt8) : LinkModes :=
  (attrIter order data).foldl (fun modes (attrType, payload) =>
    match attrType with
    | 1 => { modes with device := parseHeader order payload }
    | 2 => { modes with autoneg := (payload.head?.map (· != 0)).getD modes.autoneg }
    | 5 =>
        -- A speed that is not known is not kept.
        { modes with speed := ((u32Or order payload none).filter (· ≠ 0xffffffff)).or modes.speed }
    | 6 => { modes with duplex := (payload.head?.map Duplex.fromU8).or modes.duplex }
    | _ => modes)
    { device := .none, autoneg := false, speed := none, duplex := none }

def LinkState.parse (data : List UInt8) : LinkState :=
  (attrIter order data).foldl (fun state (attrType, payload) =>
    match attrType with
    | 1 => { state with device := parseHeader order payload }
    | 2 => { state with link := (payload.head?.map (· != 0)).getD state.link }
    | 3 => { state with sqi := u32Or order payload state.sqi }
    | 4 => { state with sqiMax := u32Or order payload state.sqiMax }
    | 5 => { state with extState := (payload.head?.map LinkExtState.fromU8).or state.extState }
    | _ => state)
    { device := .none, link := false, sqi := none, sqiMax := none, extState := none }

def Features.parse (data : List UInt8) : Features :=
  (attrIter order data).foldl (fun features (attrType, payload) =>
    if attrType = 1 then { features with device := parseHeader order payload } else features)
    { device := .none }

def Rings.parse (data : List UInt8) : Rings :=
  (attrIter order data).foldl (fun rings (attrType, payload) =>
    match attrType with
    | 1 => { rings with device := parseHeader order payload }
    | 6 => { rings with rx := u32Or order payload rings.rx }
    | 9 => { rings with tx := u32Or order payload rings.tx }
    | _ => rings)
    { device := .none, rx := none, tx := none }

def Channels.parse (data : List UInt8) : Channels :=
  (attrIter order data).foldl (fun channels (attrType, payload) =>
    match attrType with
    | 1 => { channels with device := parseHeader order payload }
    | 9 => { channels with combinedCount := u32Or order payload channels.combinedCount }
    | _ => channels)
    { device := .none, combinedCount := none }

def Coalesce.parse (data : List UInt8) : Coalesce :=
  (attrIter order data).foldl (fun coalesce (attrType, payload) =>
    match attrType with
    | 1 => { coalesce with device := parseHeader order payload }
    | 2 => { coalesce with rxUsecs := u32Or order payload coalesce.rxUsecs }
    | 6 => { coalesce with txUsecs := u32Or order payload coalesce.txUsecs }
    | _ => coalesce)
    { device := .none, rxUsecs := none, txUsecs := none }

def Pause.parse (data : List UInt8) : Pause :=
  (attrIter order data).foldl (fun pause (attrType, payload) =>
    match attrType with
    | 1 => { pause with device := parseHeader order payload }
    | 2 => { pause with autoneg := (payload.head?.map (· != 0)).or pause.autoneg }
    | 3 => { pause with rx := (payload.head?.map (· != 0)).or pause.rx }
    | 4 => { pause with tx := (payload.head?.map (· != 0)).or pause.tx }
    | _ => pause)
    { device := .none, autoneg := none, rx := none, tx := none }

inductive EthtoolEvent where
  | linkInfoChanged (ifname : Option String) (info : LinkInfo)
  | linkModesChanged (ifname : Option String) (modes : LinkModes)
  | linkStateChanged (ifname : Option String) (state : LinkState)
  | featuresChanged (ifname : Option String) (features : Features)
  | ringsChanged (ifname : Option String) (rings : Rings)
  | channelsChanged (ifname : Option String) (channels : Channels)
  | coalesceChanged (ifname : Option String) (coalesce : Coalesce)
  | pauseChanged (ifname : Option String) (pause : Pause)
  | unknown (cmd : UInt8)

/-- What an event is about. -/
inductive Topic where
  | linkInfo
  | linkModes
  | linkState
  | features
  | rings
  | channels
  | coalesce
  | pause
  deriving DecidableEq

def Topic.event (data : List UInt8) : Topic → EthtoolEvent
  | .linkInfo =>
      let info := LinkInfo.parse order data
      .linkInfoChanged info.device.ifname info
  | .linkModes =>
      let modes := LinkModes.parse order data
      .linkModesChanged modes.device.ifname modes
  | .linkState =>
      let state := LinkState.parse order data
      .linkStateChanged state.device.ifname state
  | .features =>
      let features := Features.parse order data
      .featuresChanged features.device.ifname features
  | .rings =>
      let rings := Rings.parse order data
      .ringsChanged rings.device.ifname rings
  | .channels =>
      let channels := Channels.parse order data
      .channelsChanged channels.device.ifname channels
  | .coalesce =>
      let coalesce := Coalesce.parse order data
      .coalesceChanged coalesce.device.ifname coalesce
  | .pause =>
      let pause := Pause.parse order data
      .pauseChanged pause.device.ifname pause

/-- The topics by the numbers of `EthtoolCmd`'s requests. -/
def Topic.ofGet (cmd : UInt8) : Option Topic :=
  match cmd.toNat with
  | 2 => some .linkInfo
  | 4 => some .linkModes
  | 6 => some .linkState
  | 11 => some .features
  | 15 => some .rings
  | 17 => some .channels
  | 19 => some .coalesce
  | 21 => some .pause
  | _ => none

/-- `parse_ethtool_event`: notifications are taken to have the numbers of
requests. -/
def parseEthtoolEvent (cmd : UInt8) (data : List UInt8) : EthtoolEvent :=
  match Topic.ofGet cmd with
  | some topic => topic.event order data
  | none => .unknown cmd

/-!
## Devlink
-/

structure FlashProgress where
  message : Option String
  component : Option String
  done : BitVec 64
  total : BitVec 64

inductive DevlinkEvent where
  | newDevice (bus device : String)
  | delDevice (bus device : String)
  | newPort (bus device : String) (portIndex : BitVec 32) (netdevName : Option String)
  | delPort (bus device : String) (portIndex : BitVec 32)
  | healthEvent (bus device : String) (reporter : Option String)
  | flashUpdate (progress : FlashProgress)

def DEVLINK_ATTR_FLASH_UPDATE_STATUS_MSG : Nat := 128
def DEVLINK_ATTR_FLASH_UPDATE_STATUS_DONE : Nat := 129
def DEVLINK_ATTR_FLASH_UPDATE_STATUS_TOTAL : Nat := 130

/-- What the loop over the attributes of a message gathers. -/
structure DevlinkAttrs where
  bus : String
  device : String
  portIndex : BitVec 32
  netdevName : Option String
  reporterName : Option String
  flashMsg : Option String
  flashComponent : Option String
  flashDone : BitVec 64
  flashTotal : BitVec 64

def DevlinkAttrs.start : DevlinkAttrs where
  bus := ""
  device := ""
  portIndex := 0
  netdevName := none
  reporterName := none
  flashMsg := none
  flashComponent := none
  flashDone := 0
  flashTotal := 0

/-- A number of eight bytes, if they are there. -/
def u64Or (payload : List UInt8) (old : BitVec 64) : BitVec 64 :=
  if 8 ≤ payload.length then Devlink.u64FromNeBytes order payload else old

/-- The name in a nested reporter, if there is one. -/
def parseReporterName (payload : List UInt8) (old : Option String) : Option String :=
  (attrIter order payload).foldl (fun name (innerType, innerPayload) =>
    if innerType = 115 then some (text innerPayload) else name) old

def DevlinkAttrs.add (found : DevlinkAttrs) (attr : Attribute) : DevlinkAttrs :=
  let (attrType, payload) := attr
  match attrType with
  | 1 => { found with bus := text payload }
  | 2 => { found with device := text payload }
  | 3 => { found with portIndex := (u32Or order payload none).getD found.portIndex }
  | 7 => { found with netdevName := some (text payload) }
  | 114 => { found with reporterName := parseReporterName order payload found.reporterName }
  | 128 => { found with flashMsg := some (text payload) }
  | 123 => { found with flashComponent := some (text payload) }
  | 129 => { found with flashDone := u64Or order payload found.flashDone }
  | 130 => { found with flashTotal := u64Or order payload found.flashTotal }
  | _ => found

def DevlinkAttrs.parse (data : List UInt8) : DevlinkAttrs :=
  (attrIter order data).foldl (DevlinkAttrs.add order) .start

/-- The event of a message, by the numbers that the source has. -/
def parseDevlinkEvent (cmd : UInt8) (data : List UInt8) : Option DevlinkEvent :=
  let found := DevlinkAttrs.parse order data
  match cmd.toNat with
  | 1 => some (.newDevice found.bus found.device)
  | 6 => some (.newPort found.bus found.device found.portIndex found.netdevName)
  | 7 => some (.delPort found.bus found.device found.portIndex)
  | 54 => some (.healthEvent found.bus found.device found.reporterName)
  | 60 =>
      some (.flashUpdate
        { message := found.flashMsg
          component := found.flashComponent
          done := found.flashDone
          total := found.flashTotal })
  | _ => none

/-- `parse_ethtool_events`. -/
def parseEthtoolEvents (data : Datagram) : List EthtoolEvent :=
  eventsOfData order (fun msgType payload =>
    (genlMessage msgType payload).map fun (cmd, attrs) => parseEthtoolEvent order cmd attrs) data

/-- `parse_devlink_events`. -/
def parseDevlinkEvents (data : Datagram) : List DevlinkEvent :=
  eventsOfData order (fun msgType payload =>
    (genlMessage msgType payload).bind fun (cmd, attrs) => parseDevlinkEvent order cmd attrs) data

/-!
## When the monitors report what happened

The kernel numbers its notifications apart from requests.  A notification is due
as one event of its topic; the source reads it under the number of a request.
-/

variable {order : ByteOrder}

/-!
## What is due
-/

/-- The topics by the numbers of the kernel's notifications. -/
def Topic.ofNtf (cmd : UInt8) : Option Topic :=
  match cmd.toNat with
  | 3 => some .linkInfo
  | 5 => some .linkModes
  | 13 => some .features
  | 17 => some .rings
  | 19 => some .channels
  | 21 => some .coalesce
  | 23 => some .pause
  | _ => none

/-- Whether an event tells of a change that notifications tell of. -/
def EthtoolEvent.isChange : EthtoolEvent → Bool
  | .linkStateChanged .. | .unknown _ => false
  | _ => true

def reportedChanges (order : ByteOrder) (data : Datagram) : List EthtoolEvent :=
  (parseEthtoolEvents order data).filter EthtoolEvent.isChange

def dueChange (order : ByteOrder) (frame : Frame) : List EthtoolEvent :=
  match genlMessage frame.header.nlmsgType frame.payload with
  | none => []
  | some (cmd, attrs) => ((Topic.ofNtf cmd).map (Topic.event order attrs)).toList

def KERNEL_ATTR_FLASH_UPDATE_STATUS_MSG : Nat := 124
def KERNEL_ATTR_FLASH_UPDATE_STATUS_DONE : Nat := 125
def KERNEL_ATTR_FLASH_UPDATE_STATUS_TOTAL : Nat := 126

def lastText (attrs : List Attribute) (attrType : Nat) : Option String :=
  (lastOf attrs attrType).map text

/-- The last number of eight bytes of a type. -/
def lastU64 (order : ByteOrder) (attrs : List Attribute) (attrType : Nat) : BitVec 64 :=
  ((lastOf (attrs.filter (8 ≤ ·.2.length)) attrType).map (Devlink.u64FromNeBytes order)).getD 0

/-- The progress that the kernel's attributes tell of. -/
def dueProgress (order : ByteOrder) (data : List UInt8) : FlashProgress where
  message := lastText (attrIter order data) KERNEL_ATTR_FLASH_UPDATE_STATUS_MSG
  component := (DevlinkAttrs.parse order data).flashComponent
  done := lastU64 order (attrIter order data) KERNEL_ATTR_FLASH_UPDATE_STATUS_DONE
  total := lastU64 order (attrIter order data) KERNEL_ATTR_FLASH_UPDATE_STATUS_TOTAL

/-- The event of a message, by the kernel's numbers. -/
def dueDevlinkEvent (order : ByteOrder) (cmd : UInt8) (data : List UInt8) : Option DevlinkEvent :=
  let found := DevlinkAttrs.parse order data
  match cmd.toNat with
  | 3 => some (.newDevice found.bus found.device)
  | 4 => some (.delDevice found.bus found.device)
  | 7 => some (.newPort found.bus found.device found.portIndex found.netdevName)
  | 8 => some (.delPort found.bus found.device found.portIndex)
  | 54 => some (.healthEvent found.bus found.device found.reporterName)
  | 60 => some (.flashUpdate (dueProgress order data))
  | _ => none

def dueDevlink (order : ByteOrder) (frame : Frame) : List DevlinkEvent :=
  ((genlMessage frame.header.nlmsgType frame.payload).bind fun (cmd, attrs) =>
    dueDevlinkEvent order cmd attrs).toList

/-!
## Which messages are read as what they are
-/

/-- Commands of ethtool messages that are reported as what they are not. -/
def misreadEthtool : List Nat :=
  [2, 3, 4, 5, 11, 13, 15, 17, 19, 21, 23]

/-- Commands of devlink messages that are reported as what they are not. -/
def misreadDevlink : List Nat :=
  [1, 3, 4, 6, 7, 8]

/-- The numbers that the source takes for a flash update's status say what the
kernel's say. -/
def FlashAgrees (order : ByteOrder) (data : List UInt8) : Prop :=
  let attrs := attrIter order data
  lastText attrs DEVLINK_ATTR_FLASH_UPDATE_STATUS_MSG =
      lastText attrs KERNEL_ATTR_FLASH_UPDATE_STATUS_MSG ∧
    lastU64 order attrs DEVLINK_ATTR_FLASH_UPDATE_STATUS_DONE =
      lastU64 order attrs KERNEL_ATTR_FLASH_UPDATE_STATUS_DONE ∧
    lastU64 order attrs DEVLINK_ATTR_FLASH_UPDATE_STATUS_TOTAL =
      lastU64 order attrs KERNEL_ATTR_FLASH_UPDATE_STATUS_TOTAL

/-- An ethtool message whose number is the same in both numberings, or means
nothing in either. -/
def EthtoolWell (frame : Frame) : Prop :=
  ∀ cmd attrs, genlMessage frame.header.nlmsgType frame.payload = some (cmd, attrs) →
    cmd.toNat ∉ misreadEthtool

def DevlinkWell (order : ByteOrder) (frame : Frame) : Prop :=
  ∀ cmd attrs, genlMessage frame.header.nlmsgType frame.payload = some (cmd, attrs) →
    cmd.toNat ∉ misreadDevlink ∧ (cmd.toNat = 60 → FlashAgrees order attrs)

/-!
## Ethtool
-/

def eachChange (order : ByteOrder) (frame : Frame) : List EthtoolEvent :=
  (((genlMessage frame.header.nlmsgType frame.payload).map fun (cmd, attrs) =>
    parseEthtoolEvent order cmd attrs).toList).filter EthtoolEvent.isChange

theorem reportedChanges_delivery (delivery : Delivery order) :
    reportedChanges order delivery.bytes = delivery.frames.flatMap (eachChange order) := by
  rw [reportedChanges, parseEthtoolEvents, eventsOfData_delivery, filterMap_eq_flatMap_toList,
    filter_flatMap]
  rfl

/-- The topic of a change by the number that the source has for it. -/
def Topic.changeOfGet (cmd : UInt8) : Option Topic :=
  (Topic.ofGet cmd).filter (· ≠ .linkState)

theorem eachChange_eq {frame : Frame} {cmd : UInt8} {attrs : List UInt8}
    (message : genlMessage frame.header.nlmsgType frame.payload = some (cmd, attrs)) :
    eachChange order frame = ((Topic.changeOfGet cmd).map (Topic.event order attrs)).toList := by
  rw [eachChange, message, Option.map_some]
  simp only [parseEthtoolEvent, Topic.changeOfGet]
  cases Topic.ofGet cmd with
  | none => rfl
  | some topic => cases topic <;> rfl

def EthtoolEvent.topic? : EthtoolEvent → Option Topic
  | .linkInfoChanged .. => some .linkInfo
  | .linkModesChanged .. => some .linkModes
  | .linkStateChanged .. => some .linkState
  | .featuresChanged .. => some .features
  | .ringsChanged .. => some .rings
  | .channelsChanged .. => some .channels
  | .coalesceChanged .. => some .coalesce
  | .pauseChanged .. => some .pause
  | .unknown _ => none

theorem event_injective (attrs : List UInt8) : Function.Injective (Topic.event order attrs) := by
  have ofEvent : ∀ topic, (Topic.event order attrs topic).topic? = some topic := by
    intro topic
    cases topic <;> rfl
  intro first second same
  have sameTopic := congrArg EthtoolEvent.topic? same
  rw [ofEvent, ofEvent] at sameTopic
  exact Option.some.inj sameTopic

/-- The numberings agree on a command just if it is not misread. -/
theorem changeOfGet_eq_iff (cmd : UInt8) :
    Topic.changeOfGet cmd = Topic.ofNtf cmd ↔ cmd.toNat ∉ misreadEthtool := by
  have all : ∀ bits : BitVec 8, Topic.changeOfGet (.ofBitVec bits) = Topic.ofNtf (.ofBitVec bits) ↔
      (UInt8.ofBitVec bits).toNat ∉ misreadEthtool := by decide
  exact all cmd.toBitVec

theorem toList_inj {α : Type} {first second : Option α} :
    first.toList = second.toList ↔ first = second := by
  cases first <;> cases second <;> simp

theorem forall_some_iff {α β : Type} {holds : α → β → Prop} {first : α} {second : β} :
    (∀ x y, some (first, second) = some (x, y) → holds x y) ↔ holds first second := by
  refine ⟨fun all => all first second rfl, ?_⟩
  rintro here _ _ ⟨⟩
  exact here

theorem eachChange_iff (frame : Frame) :
    eachChange order frame = dueChange order frame ↔ EthtoolWell frame := by
  rw [EthtoolWell, dueChange]
  cases message : genlMessage frame.header.nlmsgType frame.payload with
  | none => simp [eachChange, message]
  | some found =>
      obtain ⟨cmd, attrs⟩ := found
      rw [eachChange_eq message]
      rw [forall_some_iff, ← changeOfGet_eq_iff, toList_inj]
      exact (Option.map_injective (event_injective attrs)).eq_iff

/-!
## Devlink
-/

section Flash

variable {attrs : List Attribute} {attr : Attribute}

variable (found : DevlinkAttrs)

theorem flashMsg_add :
    (found.add order attr).flashMsg =
      if attr.1 = DEVLINK_ATTR_FLASH_UPDATE_STATUS_MSG then some (text attr.2)
      else found.flashMsg := by
  obtain ⟨attrType, payload⟩ := attr
  simp only [DevlinkAttrs.add, DEVLINK_ATTR_FLASH_UPDATE_STATUS_MSG]
  split <;> first | rfl | exact (if_neg ‹_›).symm

theorem flashDone_add :
    (found.add order attr).flashDone =
      if attr.1 = DEVLINK_ATTR_FLASH_UPDATE_STATUS_DONE then u64Or order attr.2 found.flashDone
      else found.flashDone := by
  obtain ⟨attrType, payload⟩ := attr
  simp only [DevlinkAttrs.add, DEVLINK_ATTR_FLASH_UPDATE_STATUS_DONE]
  split <;> first | rfl | exact (if_neg ‹_›).symm

theorem flashTotal_add :
    (found.add order attr).flashTotal =
      if attr.1 = DEVLINK_ATTR_FLASH_UPDATE_STATUS_TOTAL then u64Or order attr.2 found.flashTotal
      else found.flashTotal := by
  obtain ⟨attrType, payload⟩ := attr
  simp only [DevlinkAttrs.add, DEVLINK_ATTR_FLASH_UPDATE_STATUS_TOTAL]
  split <;> first | rfl | exact (if_neg ‹_›).symm

theorem flashMsg_parse (data : List UInt8) :
    (DevlinkAttrs.parse order data).flashMsg =
      lastText (attrIter order data) DEVLINK_ATTR_FLASH_UPDATE_STATUS_MSG := by
  rw [DevlinkAttrs.parse, lastText]
  induction attrIter order data using List.reverseRecOn with
  | nil => rfl
  | append_singleton attrs attr ih =>
      rw [foldl_concat, flashMsg_add, lastOf_concat, ih]
      split <;> rfl

theorem lastU64_concat (attrType : Nat) :
    lastU64 order (attrs ++ [attr]) attrType =
      if attr.1 = attrType then u64Or order attr.2 (lastU64 order attrs attrType)
      else lastU64 order attrs attrType := by
  rw [lastU64, filter_append, u64Or]
  by_cases long : 8 ≤ attr.2.length
  · rw [filter_singleton, decide_eq_true long, cond_true, lastOf_concat, if_pos long]
    split <;> rfl
  · rw [filter_singleton, decide_eq_false long, cond_false, List.append_nil, if_neg long, ite_self]
    rfl

theorem flashDone_parse (data : List UInt8) :
    (DevlinkAttrs.parse order data).flashDone =
      lastU64 order (attrIter order data) DEVLINK_ATTR_FLASH_UPDATE_STATUS_DONE := by
  rw [DevlinkAttrs.parse]
  induction attrIter order data using List.reverseRecOn with
  | nil => rfl
  | append_singleton attrs attr ih => rw [foldl_concat, flashDone_add, lastU64_concat, ih]

theorem flashTotal_parse (data : List UInt8) :
    (DevlinkAttrs.parse order data).flashTotal =
      lastU64 order (attrIter order data) DEVLINK_ATTR_FLASH_UPDATE_STATUS_TOTAL := by
  rw [DevlinkAttrs.parse]
  induction attrIter order data using List.reverseRecOn with
  | nil => rfl
  | append_singleton attrs attr ih => rw [foldl_concat, flashTotal_add, lastU64_concat, ih]

end Flash

/-- The event that a message is read as. -/
def eachDevlink (order : ByteOrder) (frame : Frame) : List DevlinkEvent :=
  ((genlMessage frame.header.nlmsgType frame.payload).bind fun (cmd, attrs) =>
    parseDevlinkEvent order cmd attrs).toList

theorem parseDevlinkEvents_delivery (delivery : Delivery order) :
    parseDevlinkEvents order delivery.bytes = delivery.frames.flatMap (eachDevlink order) := by
  rw [parseDevlinkEvents, eventsOfData_delivery, filterMap_eq_flatMap_toList]
  rfl

/-- The numbers that either side knows, and the rest. -/
theorem devlink_cases (number : Nat) :
    number ∈ misreadDevlink ∨ number = 54 ∨ number = 60 ∨
      (number ∉ misreadDevlink ∧ number ≠ 54 ∧ number ≠ 60) := by
  by_cases misread : number ∈ misreadDevlink
  · exact .inl misread
  · by_cases isHealth : number = 54
    · exact .inr (.inl isHealth)
    · by_cases isFlash : number = 60
      · exact .inr (.inr (.inl isFlash))
      · exact .inr (.inr (.inr ⟨misread, isHealth, isFlash⟩))

theorem parseDevlinkEvent_iff (cmd : UInt8) (data : List UInt8) :
    parseDevlinkEvent order cmd data = dueDevlinkEvent order cmd data ↔
      cmd.toNat ∉ misreadDevlink ∧ (cmd.toNat = 60 → FlashAgrees order data) := by
  simp only [parseDevlinkEvent, dueDevlinkEvent]
  generalize cmd.toNat = number
  rcases devlink_cases number with misread | rfl | rfl | ⟨other, notHealth, notFlash⟩
  · have differ : ¬ (number ∉ misreadDevlink ∧ (number = 60 → FlashAgrees order data)) :=
      fun well => well.1 misread
    refine iff_of_false ?_ differ
    simp only [misreadDevlink, mem_cons, not_mem_nil, or_false] at misread
    rcases misread with rfl | rfl | rfl | rfl | rfl | rfl <;> simp
  · simp [misreadDevlink]
  · simp [misreadDevlink, dueProgress, FlashAgrees, flashMsg_parse, flashDone_parse,
      flashTotal_parse]
  · refine iff_of_true ?_ ⟨other, fun isFlash => absurd isFlash notFlash⟩
    simp only [misreadDevlink, mem_cons, not_mem_nil, or_false, not_or] at other
    split <;> split <;> simp_all

theorem eachDevlink_iff (frame : Frame) :
    eachDevlink order frame = dueDevlink order frame ↔ DevlinkWell order frame := by
  rw [DevlinkWell, dueDevlink, eachDevlink]
  cases genlMessage frame.header.nlmsgType frame.payload with
  | none => simp
  | some found =>
      obtain ⟨cmd, attrs⟩ := found
      rw [forall_some_iff, ← parseDevlinkEvent_iff, toList_inj]
      rfl

/-!
## Streams
-/

/-- The monitors report each change that a message tells of, and nothing else, if
and only if no message has a number that is read as another and each flash
update says the same under both numberings of its status. -/
theorem monitors_report_iff (order : ByteOrder) (frames : List Frame) :
    (Reports order (reportedChanges order) (dueChange order) frames ↔
        ∀ frame ∈ frames, EthtoolWell frame) ∧
      (Reports order (parseDevlinkEvents order) (dueDevlink order) frames ↔
        ∀ frame ∈ frames, DevlinkWell order frame) := by
  constructor
  · rw [reports_iff reportedChanges_delivery]
    exact forall₂_congr fun frame _ => eachChange_iff frame
  · rw [reports_iff parseDevlinkEvents_delivery]
    exact forall₂_congr fun frame _ => eachDevlink_iff frame

/-!
## Two notifications
-/

/-- `RINGS_NTF` of `eth0`, with a receive ring of 512. -/
def ringsNtf : Frame :=
  Notification.frame
    { msgType := 30
      body :=
        [17, 1, 0, 0, 16, 0, 1, 128, 9, 0, 2, 0, 101, 116, 104, 48, 0, 0, 0, 0, 8, 0, 6, 0, 0, 2,
          0, 0] }
    (by decide) (by decide)

/-- `DEVLINK_CMD_NEW` of `pci/0`. -/
def deviceNew : Frame :=
  Notification.frame
    { msgType := 31
      body := [3, 1, 0, 0, 8, 0, 1, 0, 112, 99, 105, 0, 6, 0, 2, 0, 48, 0, 0, 0] }
    (by decide) (by decide)

/-- A change of the rings is reported as one of the channels, and a new device is
not reported. -/
theorem not_reports_ntf :
    ¬ Reports .little (reportedChanges .little) (dueChange .little) [ringsNtf] ∧
      ¬ Reports .little (parseDevlinkEvents .little) (dueDevlink .little) [deviceNew] := by
  constructor
  · rw [reports_iff reportedChanges_delivery]
    intro same
    have well := (@eachChange_iff .little ringsNtf).mp (same _ (mem_singleton_self _))
    exact well 17 _ rfl (by decide)
  · rw [reports_iff parseDevlinkEvents_delivery]
    intro same
    have well := eachDevlink_iff deviceNew |>.mp (same _ (mem_singleton_self _))
    exact (well 3 _ rfl).1 (by decide)

end Nlink.Monitor
