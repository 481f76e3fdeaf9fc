import Mathlib.Data.Vector.Defs
import Nlink.GenlMessage
import Nlink.NetlinkNotification
import Nlink.NetlinkRoute

namespace Nlink.RouteEvents

open Foundation Netlink Nftables.Attrs
open List hiding Vector
open Genl (fromUtf8Lossy)
open Nftables (Attrs)

/-!
# Events of the route protocol

Messages about links and about traffic control, and the events that
notifications are read as.
-/

/-!
## Attributes behind a fixed header
-/

section Attributes

variable (order : ByteOrder)

/-- The loop over attributes, and what it leaves of its input when it stops.  An
attribute's flag bits are dropped.  Each attribute uses one unit of fuel. -/
def attrsFrom : Nat → List UInt8 → List Attribute × List UInt8
  | 0, input => ([], input)
  | fuel + 1, input =>
      if input.length < 4 then
        ([], input)
      else
        let len := order.ofBytes (input.take 2)
        let attrType := order.ofBytes ((input.drop 2).take 2)
        let behind := input.drop 4
        if len < 4 ∨ behind.length < len - 4 then
          -- The four bytes are consumed before the loop breaks.
          ([], behind)
        else
          let rest := behind.drop (len - 4)
          let padding := (len + 3) / 4 * 4 - len
          let (attrs, left) :=
            attrsFrom fuel (if padding ≤ rest.length then rest.drop padding else rest)
          ((attrType % NLA_F_NET_BYTEORDER, behind.take (len - 4)) :: attrs, left)

/-- The loop over nested attributes.  It stops at the first that does not fit,
or when nothing is behind the padding. -/
def nestedFrom : Nat → List UInt8 → List Attribute
  | 0, _ => []
  | fuel + 1, input =>
      let len := order.ofBytes (input.take 2)
      let attrType := order.ofBytes ((input.drop 2).take 2)
      if input.length < 4 ∨ len < 4 ∨ input.length < len then
        []
      else
        (attrType % NLA_F_NET_BYTEORDER, (input.take len).drop 4) ::
          if input.length ≤ (len + 3) / 4 * 4 then []
          else nestedFrom fuel (input.drop ((len + 3) / 4 * 4))

def nested (data : List UInt8) : List Attribute :=
  nestedFrom order data.length data

/-- `FromNetlink::from_bytes`, for a header with attributes behind it: nothing
may be left. -/
def fromBytes {η μ : Type} (layout : FixedLayout η) (start : η → μ)
    (addAttr : μ → Attribute → μ) (data : List UInt8) : Option μ :=
  (layout.fromPrefix? data).bind fun header =>
    let (attrs, left) := attrsFrom order data.length (data.drop layout.size)
    if left = [] then some (attrs.foldl addAttr (start header)) else none

/-- `parse_string_from_bytes`. -/
def parseStringFromBytes (data : List UInt8) : String :=
  fromUtf8Lossy (data.takeWhile (· != 0))

variable {attrType : Nat} {payload : List UInt8}

variable (rest : List UInt8)

theorem attrBytes_header
    (typeFits : attrType < 256 ^ 2) (lengthFits : NLA_HDRLEN + payload.length ≤ 65535) :
    order.ofBytes ((attrBytes order attrType payload ++ rest).take 2) = payload.length + 4 ∧
      order.ofBytes (((attrBytes order attrType payload ++ rest).drop 2).take 2) =
        attrType := by
  have len : min (4 + payload.length) 65535 = payload.length + 4 := by
    rw [NLA_HDRLEN] at lengthFits
    omega
  have lenFits : payload.length + 4 < 256 ^ 2 := by
    rw [NLA_HDRLEN] at lengthFits
    omega
  rw [attrBytes, len, List.append_assoc, List.append_assoc,
    take_left' (order.toBytes_length 2 _), drop_left' (order.toBytes_length 2 _),
    take_left' (order.toBytes_length 2 _)]
  exact ⟨order.ofBytes_toBytes lenFits, order.ofBytes_toBytes typeFits⟩

theorem attrsFrom_attrBytes (fuel : Nat) (typeFits : attrType < 256 ^ 2)
    (lengthFits : NLA_HDRLEN + payload.length ≤ 65535) :
    attrsFrom order (fuel + 1) (attrBytes order attrType payload ++ rest) =
      ((attrType % NLA_F_NET_BYTEORDER, payload) :: (attrsFrom order fuel rest).1,
        (attrsFrom order fuel rest).2) := by
  obtain ⟨len, isType⟩ := attrBytes_header order rest typeFits lengthFits
  have behind := drop_attrBytes order attrType payload rest
  have whole : (attrBytes order attrType payload ++ rest).length =
      nlaAlign (payload.length + 4) + rest.length := by
    rw [length_append, attrBytes_length]
  have aligned := le_nlaAlign (payload.length + 4)
  have paddingLength : (padding (4 + payload.length)).length =
      nlaAlign (payload.length + 4) - (payload.length + 4) := by
    rw [padding, length_replicate, Nat.add_comm 4]
  rw [attrsFrom, if_neg (by omega)]
  simp only [len, isType, behind]
  rw [if_neg (by rw [length_append]; omega), Nat.add_sub_cancel, take_left' rfl, drop_left' rfl]
  rw [if_pos (by rw [length_append, paddingLength, nlaAlign]; omega),
    drop_left' (by rw [paddingLength, nlaAlign])]

variable {attrs : List Attribute}

/-- The attributes of a notification are read back. -/
theorem attrsFrom_encodeAll (fit : ∀ attr ∈ attrs, attr.Fits)
    {fuel : Nat} (enough : attrs.length ≤ fuel) :
    attrsFrom order fuel (encodeAll order attrs) = (attrs.map Attribute.masked, []) := by
  induction attrs generalizing fuel with
  | nil => cases fuel <;> rfl
  | cons attr rest ih =>
      cases fuel with
      | zero => cases enough
      | succ fuel =>
          obtain ⟨⟨typeFits, lengthFits⟩, restFit⟩ := forall_mem_cons.mp fit
          have next := ih restFit (Nat.le_of_succ_le_succ enough)
          rw [encodeAll, flatMap_cons, ← encodeAll,
            attrsFrom_attrBytes order _ _ typeFits lengthFits, next]
          rfl

theorem nestedFrom_nil (fuel : Nat) : nestedFrom order fuel [] = [] := by
  cases fuel <;> rfl

theorem nestedFrom_attrBytes (fuel : Nat) (typeFits : attrType < 256 ^ 2)
    (lengthFits : NLA_HDRLEN + payload.length ≤ 65535) :
    nestedFrom order (fuel + 1) (attrBytes order attrType payload ++ rest) =
      (attrType % NLA_F_NET_BYTEORDER, payload) :: nestedFrom order fuel rest := by
  obtain ⟨len, isType⟩ := attrBytes_header order rest typeFits lengthFits
  have behind := drop_attrBytes order attrType payload rest
  have bytesLength := attrBytes_length order attrType payload
  have aligned := le_nlaAlign (payload.length + 4)
  have whole : (attrBytes order attrType payload ++ rest).length =
      nlaAlign (payload.length + 4) + rest.length := by
    rw [length_append, bytesLength]
  have isEnd : (attrBytes order attrType payload ++ rest).length ≤
      (payload.length + 4 + 3) / 4 * 4 ↔ rest = [] := by
    rw [whole, nlaAlign, ← length_eq_zero_iff]
    omega
  have skipped : (attrBytes order attrType payload ++ rest).drop
      ((payload.length + 4 + 3) / 4 * 4) = rest :=
    drop_left' bytesLength
  rw [nestedFrom]
  simp only [len, isType, isEnd, skipped]
  rw [if_neg (by omega), drop_take, behind, Nat.add_sub_cancel, take_left' rfl]
  split
  · rw [‹rest = []›, nestedFrom_nil]
  · rfl

theorem nestedFrom_encodeAll (fit : ∀ attr ∈ attrs, attr.Fits)
    {fuel : Nat} (enough : attrs.length ≤ fuel) :
    nestedFrom order fuel (encodeAll order attrs) = attrs.map Attribute.masked := by
  induction attrs generalizing fuel with
  | nil => cases fuel <;> rfl
  | cons attr rest ih =>
      cases fuel with
      | zero => cases enough
      | succ fuel =>
          obtain ⟨⟨typeFits, lengthFits⟩, restFit⟩ := forall_mem_cons.mp fit
          have next := ih restFit (Nat.le_of_succ_le_succ enough)
          rw [encodeAll, flatMap_cons, ← encodeAll,
            nestedFrom_attrBytes order _ _ typeFits lengthFits, next]
          rfl

theorem length_le_length_encodeAll (attrs : List Attribute) :
    attrs.length ≤ (encodeAll order attrs).length := by
  have each := length_mul_le_encodeAll order attrs
  rw [NLA_HDRLEN] at each
  omega

theorem nested_encodeAll (fit : ∀ attr ∈ attrs, attr.Fits) :
    nested order (encodeAll order attrs) = attrs.map Attribute.masked :=
  nestedFrom_encodeAll order fit (length_le_length_encodeAll order attrs)

/-- A whole message is read: its header, and then each of its attributes. -/
theorem fromBytes_encodeAll {η μ : Type} (layout : FixedLayout η) (start : η → μ)
    (addAttr : μ → Attribute → μ) (header : η)
    (fit : ∀ attr ∈ attrs, attr.Fits) :
    fromBytes order layout start addAttr (layout.write header ++ encodeAll order attrs) =
      some ((attrs.map Attribute.masked).foldl addAttr (start header)) := by
  have enough : attrs.length ≤ (layout.write header ++ encodeAll order attrs).length := by
    rw [length_append]
    exact Nat.le_add_left_of_le (length_le_length_encodeAll order attrs)
  rw [fromBytes, layout.fromPrefix?_write, Option.bind_some,
    drop_left' (layout.length_write header), attrsFrom_encodeAll order fit enough]
  rfl

end Attributes

/-!
## Links
-/

/-- `struct ifinfomsg`. -/
structure IfInfoMsg where
  ifiFamily : BitVec 8
  ifiPad : BitVec 8
  ifiType : BitVec 16
  ifiIndex : BitVec 32
  ifiFlags : BitVec 32
  ifiChange : BitVec 32

inductive OperState where
  | unknown
  | notPresent
  | down
  | lowerLayerDown
  | testing
  | dormant
  | up

def OperState.fromU8 (val : UInt8) : OperState :=
  match val.toNat with
  | 1 => .notPresent
  | 2 => .down
  | 3 => .lowerLayerDown
  | 4 => .testing
  | 5 => .dormant
  | 6 => .up
  | _ => .unknown

structure LinkInfo where
  kind : Option String
  slaveKind : Option String
  data : Option (List UInt8)
  slaveData : Option (List UInt8)

structure LinkStats where
  rxPackets : BitVec 64
  txPackets : BitVec 64
  rxBytes : BitVec 64
  txBytes : BitVec 64
  rxErrors : BitVec 64
  txErrors : BitVec 64
  rxDropped : BitVec 64
  txDropped : BitVec 64
  multicast : BitVec 64
  collisions : BitVec 64

structure LinkMessage where
  header : IfInfoMsg
  name : Option String
  address : Option (List UInt8)
  broadcast : Option (List UInt8)
  permAddress : Option (List UInt8)
  mtu : Option (BitVec 32)
  minMtu : Option (BitVec 32)
  maxMtu : Option (BitVec 32)
  link : Option (BitVec 32)
  qdisc : Option String
  master : Option (BitVec 32)
  txqlen : Option (BitVec 32)
  operstate : Option OperState
  group : Option (BitVec 32)
  promiscuity : Option (BitVec 32)
  numTxQueues : Option (BitVec 32)
  numRxQueues : Option (BitVec 32)
  carrier : Option Bool
  linkInfo : Option LinkInfo
  stats : Option LinkStats
  gsoMaxSegs : Option (BitVec 32)
  gsoMaxSize : Option (BitVec 32)
  groMaxSize : Option (BitVec 32)
  tsoMaxSize : Option (BitVec 32)
  tsoMaxSegs : Option (BitVec 32)
  gsoIpv4MaxSize : Option (BitVec 32)
  groIpv4MaxSize : Option (BitVec 32)

section Link

open FixedLayout

variable (order : ByteOrder)

def IfInfoMsg.layout : FixedLayout IfInfoMsg :=
  ((number order 1).pair <| (number order 1).pair <| (number order 2).pair <|
    (number order 4).pair <| (number order 4).pair <| number order 4).via
    (fun (ifiFamily, ifiPad, ifiType, ifiIndex, ifiFlags, ifiChange) =>
      { ifiFamily, ifiPad, ifiType, ifiIndex, ifiFlags, ifiChange })
    (fun msg => (msg.ifiFamily, msg.ifiPad, msg.ifiType, msg.ifiIndex, msg.ifiFlags, msg.ifiChange))
    (fun _ => rfl)

/-- `LinkStats64`, with the counters that are not used as a block. -/
def LinkStats.layout : FixedLayout (LinkStats × Vector UInt8 112) :=
  ((number order 8).pair <| (number order 8).pair <| (number order 8).pair <|
    (number order 8).pair <| (number order 8).pair <| (number order 8).pair <|
    (number order 8).pair <| (number order 8).pair <| (number order 8).pair <|
    (number order 8).pair <| block 112).via
    (fun (rxPackets, txPackets, rxBytes, txBytes, rxErrors, txErrors, rxDropped, txDropped,
        multicast, collisions, detailed) =>
      ({ rxPackets, txPackets, rxBytes, txBytes, rxErrors, txErrors, rxDropped, txDropped,
         multicast, collisions }, detailed))
    (fun (stats, detailed) => (stats.rxPackets, stats.txPackets, stats.rxBytes, stats.txBytes,
      stats.rxErrors, stats.txErrors, stats.rxDropped, stats.txDropped, stats.multicast,
      stats.collisions, detailed))
    (fun _ => rfl)

@[simp]
theorem size_ifInfoMsg : (IfInfoMsg.layout order).size = 16 :=
  rfl

example : (LinkStats.layout order).size = 192 := rfl

def LinkInfo.default : LinkInfo where
  kind := none
  slaveKind := none
  data := none
  slaveData := none

/-- What a nested attribute says of a link. -/
def LinkInfo.addAttr (info : LinkInfo) (attr : Attribute) : LinkInfo :=
  let (attrType, payload) := attr
  match attrType with
  | 1 => { info with kind := some (parseStringFromBytes payload) }
  | 2 => { info with data := some payload }
  | 4 => { info with slaveKind := some (parseStringFromBytes payload) }
  | 5 => { info with slaveData := some payload }
  | _ => info

/-- `parse_link_info`. -/
def parseLinkInfo (data : List UInt8) : LinkInfo :=
  (nested order data).foldl LinkInfo.addAttr .default

/-- A link message without attributes. -/
def LinkMessage.ofHeader (header : IfInfoMsg) : LinkMessage where
  header := header
  name := none
  address := none
  broadcast := none
  permAddress := none
  mtu := none
  minMtu := none
  maxMtu := none
  link := none
  qdisc := none
  master := none
  txqlen := none
  operstate := none
  group := none
  promiscuity := none
  numTxQueues := none
  numRxQueues := none
  carrier := none
  linkInfo := none
  stats := none
  gsoMaxSegs := none
  gsoMaxSize := none
  groMaxSize := none
  tsoMaxSize := none
  tsoMaxSegs := none
  gsoIpv4MaxSize := none
  groIpv4MaxSize := none

def LinkMessage.addAttr (msg : LinkMessage) (attr : Attribute) : LinkMessage :=
  let (attrType, data) := attr
  match attrType with
  | 3 => { msg with name := some (parseStringFromBytes data) }
  | 1 => { msg with address := some data }
  | 2 => { msg with broadcast := some data }
  | 54 => { msg with permAddress := some data }
  | 4 => { msg with mtu := u32Or order data msg.mtu }
  | 50 => { msg with minMtu := u32Or order data msg.minMtu }
  | 51 => { msg with maxMtu := u32Or order data msg.maxMtu }
  | 5 => { msg with link := u32Or order data msg.link }
  | 6 => { msg with qdisc := some (parseStringFromBytes data) }
  | 10 => { msg with master := u32Or order data msg.master }
  | 13 => { msg with txqlen := u32Or order data msg.txqlen }
  | 16 => { msg with operstate := (data.head?.map OperState.fromU8).or msg.operstate }
  | 27 => { msg with group := u32Or order data msg.group }
  | 30 => { msg with promiscuity := u32Or order data msg.promiscuity }
  | 31 => { msg with numTxQueues := u32Or order data msg.numTxQueues }
  | 32 => { msg with numRxQueues := u32Or order data msg.numRxQueues }
  | 33 => { msg with carrier := (data.head?.map (· != 0)).or msg.carrier }
  | 18 => { msg with linkInfo := some (parseLinkInfo order data) }
  | 23 =>
      { msg with stats := (((LinkStats.layout order).fromPrefix? data).map Prod.fst).or msg.stats }
  | 40 => { msg with gsoMaxSegs := u32Or order data msg.gsoMaxSegs }
  | 41 => { msg with gsoMaxSize := u32Or order data msg.gsoMaxSize }
  | 58 => { msg with groMaxSize := u32Or order data msg.groMaxSize }
  | 59 => { msg with tsoMaxSize := u32Or order data msg.tsoMaxSize }
  | 60 => { msg with tsoMaxSegs := u32Or order data msg.tsoMaxSegs }
  | 63 => { msg with gsoIpv4MaxSize := u32Or order data msg.gsoIpv4MaxSize }
  | 64 => { msg with groIpv4MaxSize := u32Or order data msg.groIpv4MaxSize }
  | _ => msg

/-- `LinkMessage::from_bytes`. -/
def LinkMessage.fromBytes (data : List UInt8) : Option LinkMessage :=
  RouteEvents.fromBytes order (IfInfoMsg.layout order) .ofHeader (LinkMessage.addAttr order) data

def LinkMessage.ifindex (msg : LinkMessage) : BitVec 32 :=
  msg.header.ifiIndex

def LinkMessage.flags (msg : LinkMessage) : BitVec 32 :=
  msg.header.ifiFlags

def LinkMessage.kind (msg : LinkMessage) : Option String :=
  msg.linkInfo.bind LinkInfo.kind

end Link

/-!
## Traffic control
-/

/-- `struct tcmsg`. -/
structure TcMsg where
  tcmFamily : BitVec 8
  tcmPad1 : BitVec 8
  tcmPad2 : BitVec 16
  tcmIfindex : BitVec 32
  tcmHandle : BitVec 32
  tcmParent : BitVec 32
  tcmInfo : BitVec 32

structure TcStatsBasic where
  bytes : BitVec 64
  packets : BitVec 64

structure TcStatsQueue where
  qlen : BitVec 32
  backlog : BitVec 32
  drops : BitVec 32
  requeues : BitVec 32
  overlimits : BitVec 32

structure TcStatsRateEst where
  bps : BitVec 32
  pps : BitVec 32

/-- `TcMessage`, as it is parsed of a payload: its interface name and message type
are not set there. -/
structure TcMessage where
  header : TcMsg
  kind : Option String
  options : Option (List UInt8)
  chain : Option (BitVec 32)
  hwOffload : Option UInt8
  ingressBlock : Option (BitVec 32)
  egressBlock : Option (BitVec 32)
  statsBasic : Option TcStatsBasic
  statsBasicHw : Option TcStatsBasic
  statsQueue : Option TcStatsQueue
  statsRateEst : Option TcStatsRateEst
  xstats : Option (List UInt8)

section Tc

open FixedLayout

variable (order : ByteOrder)

def TcMsg.layout : FixedLayout TcMsg :=
  ((number order 1).pair <| (number order 1).pair <| (number order 2).pair <|
    (number order 4).pair <| (number order 4).pair <| (number order 4).pair <|
    number order 4).via
    (fun (tcmFamily, tcmPad1, tcmPad2, tcmIfindex, tcmHandle, tcmParent, tcmInfo) =>
      { tcmFamily, tcmPad1, tcmPad2, tcmIfindex, tcmHandle, tcmParent, tcmInfo })
    (fun msg => (msg.tcmFamily, msg.tcmPad1, msg.tcmPad2, msg.tcmIfindex, msg.tcmHandle,
      msg.tcmParent, msg.tcmInfo))
    (fun _ => rfl)

/-- The bytes of `struct gnet_stats_basic` that are read. -/
def TcStatsBasic.layout : FixedLayout (BitVec 64 × BitVec 32) :=
  (number order 8).pair (number order 4)

def TcStatsQueue.layout : FixedLayout TcStatsQueue :=
  ((number order 4).pair <| (number order 4).pair <| (number order 4).pair <|
    (number order 4).pair <| number order 4).via
    (fun (qlen, backlog, drops, requeues, overlimits) =>
      { qlen, backlog, drops, requeues, overlimits })
    (fun queue => (queue.qlen, queue.backlog, queue.drops, queue.requeues, queue.overlimits))
    (fun _ => rfl)

def TcStatsRateEst.layout : FixedLayout TcStatsRateEst :=
  ((number order 4).pair <| number order 4).via (fun (bps, pps) => { bps, pps })
    (fun est => (est.bps, est.pps)) (fun _ => rfl)

/-- The legacy `struct tc_stats`. -/
structure TcStats where
  bytes : BitVec 64
  packets : BitVec 32
  drops : BitVec 32
  overlimits : BitVec 32
  bps : BitVec 32
  pps : BitVec 32
  qlen : BitVec 32
  backlog : BitVec 32

def TcStats.layout : FixedLayout TcStats :=
  ((number order 8).pair <| (number order 4).pair <| (number order 4).pair <|
    (number order 4).pair <| (number order 4).pair <| (number order 4).pair <|
    (number order 4).pair <| number order 4).via
    (fun (bytes, packets, drops, overlimits, bps, pps, qlen, backlog) =>
      { bytes, packets, drops, overlimits, bps, pps, qlen, backlog })
    (fun stats => (stats.bytes, stats.packets, stats.drops, stats.overlimits, stats.bps,
      stats.pps, stats.qlen, stats.backlog))
    (fun _ => rfl)

/-- A traffic control message without attributes. -/
def TcMessage.ofHeader (header : TcMsg) : TcMessage where
  header := header
  kind := none
  options := none
  chain := none
  hwOffload := none
  ingressBlock := none
  egressBlock := none
  statsBasic := none
  statsBasicHw := none
  statsQueue := none
  statsRateEst := none
  xstats := none

def basicOf (data : List UInt8) : Option TcStatsBasic :=
  ((TcStatsBasic.layout order).fromPrefix? data).map fun (bytes, packets) =>
    { bytes := bytes, packets := packets.setWidth 64 }

/-- What an attribute in `TCA_STATS2` says. -/
def TcMessage.addStats (msg : TcMessage) (attr : Attribute) : TcMessage :=
  let (attrType, payload) := attr
  match attrType with
  | 1 => { msg with statsBasic := (basicOf order payload).or msg.statsBasic }
  | 7 => { msg with statsBasicHw := (basicOf order payload).or msg.statsBasicHw }
  | 8 =>
      match (number order 8).fromPrefix? payload with
      | some packets =>
          { msg with
            statsBasic := some
              { bytes := (msg.statsBasic.map TcStatsBasic.bytes).getD 0
                packets := packets } }
      | none => msg
  | 3 => { msg with statsQueue := ((TcStatsQueue.layout order).fromPrefix? payload).or msg.statsQueue }
  | 2 =>
      { msg with
        statsRateEst := ((TcStatsRateEst.layout order).fromPrefix? payload).or msg.statsRateEst }
  | 4 => { msg with xstats := msg.xstats.or (some payload) }
  | _ => msg

/-- `parse_legacy_stats`. -/
def parseLegacyStats (msg : TcMessage) (data : List UInt8) : TcMessage :=
  match (TcStats.layout order).fromPrefix? data with
  | some stats =>
      { msg with
        statsBasic := some { bytes := stats.bytes, packets := stats.packets.setWidth 64 }
        statsQueue := some
          { qlen := stats.qlen
            backlog := stats.backlog
            drops := stats.drops
            requeues := 0
            overlimits := stats.overlimits }
        statsRateEst := some { bps := stats.bps, pps := stats.pps } }
  | none => msg

/-- What an attribute says of a traffic control object. -/
def TcMessage.addAttr (msg : TcMessage) (attr : Attribute) : TcMessage :=
  let (attrType, data) := attr
  match attrType with
  | 1 => { msg with kind := some (parseStringFromBytes data) }
  | 2 => { msg with options := some data }
  | 4 => { msg with xstats := some data }
  | 11 => { msg with chain := u32Or order data msg.chain }
  | 12 => { msg with hwOffload := data.head?.or msg.hwOffload }
  | 13 => { msg with ingressBlock := u32Or order data msg.ingressBlock }
  | 14 => { msg with egressBlock := u32Or order data msg.egressBlock }
  | 7 => (nested order data).foldl (TcMessage.addStats order) msg
  | 3 => parseLegacyStats order msg data
  | _ => msg

/-- `TcMessage::from_bytes`. -/
def TcMessage.fromBytes (data : List UInt8) : Option TcMessage :=
  RouteEvents.fromBytes order (TcMsg.layout order) .ofHeader (TcMessage.addAttr order) data

end Tc

/-!
## Events
-/

def RTM_NEWLINK : Nat := 16
def RTM_DELLINK : Nat := 17
def RTM_NEWQDISC : Nat := 36
def RTM_DELQDISC : Nat := 37
def RTM_NEWTCLASS : Nat := 40
def RTM_DELTCLASS : Nat := 41
def RTM_NEWTFILTER : Nat := 44
def RTM_DELTFILTER : Nat := 45
def RTM_NEWACTION : Nat := 48
def RTM_DELACTION : Nat := 49

/-- `NetworkEvent`, with the events of addresses, routes, neighbors, rules,
nexthops, namespaces and multicast groups as one. -/
inductive NetworkEvent (ρ : Type) where
  | newLink (msg : LinkMessage)
  | delLink (msg : LinkMessage)
  | newQdisc (msg : TcMessage)
  | delQdisc (msg : TcMessage)
  | newClass (msg : TcMessage)
  | delClass (msg : TcMessage)
  | newFilter (msg : TcMessage)
  | delFilter (msg : TcMessage)
  | newAction (msg : TcMessage)
  | delAction (msg : TcMessage)
  | other (event : ρ)

variable {ρ : Type}

/-- `parse_route_event`: the message type decides alone. -/
def parseRouteEvent (order : ByteOrder) (rest : Nat → List UInt8 → Option ρ) (msgType : Nat)
    (payload : List UInt8) : Option (NetworkEvent ρ) :=
  let link := LinkMessage.fromBytes order payload
  let tc := TcMessage.fromBytes order payload
  if msgType = RTM_NEWLINK then link.map .newLink
  else if msgType = RTM_DELLINK then link.map .delLink
  else if msgType = RTM_NEWQDISC then tc.map .newQdisc
  else if msgType = RTM_DELQDISC then tc.map .delQdisc
  else if msgType = RTM_NEWTCLASS then tc.map .newClass
  else if msgType = RTM_DELTCLASS then tc.map .delClass
  else if msgType = RTM_NEWTFILTER then tc.map .newFilter
  else if msgType = RTM_DELTFILTER then tc.map .delFilter
  else if msgType = RTM_NEWACTION then tc.map .newAction
  else if msgType = RTM_DELACTION then tc.map .delAction
  else (rest msgType payload).map .other

end Nlink.RouteEvents
