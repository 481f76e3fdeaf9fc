import Nlink.Addr
import Nlink.RouteEvents

namespace Nlink.Neighbor

open Foundation Netlink List
open Nlink.Addr (IpAddr)
open Nftables (Attrs)

/-!
# Neighbor messages

A message about a neighbor or an entry of a bridge is written attribute by
attribute and parsed by the loop over attributes.  Addresses are parsed by the
family in the header.
-/

def AF_INET : BitVec 8 := 2
def AF_INET6 : BitVec 8 := 10
def AF_BRIDGE : BitVec 8 := 7

structure NdMsg where
  ndmFamily : BitVec 8
  ndmPad1 : BitVec 8
  ndmPad2 : BitVec 16
  ndmIfindex : BitVec 32
  ndmState : BitVec 16
  ndmFlags : BitVec 8
  ndmType : BitVec 8

structure NeighborCacheInfo where
  confirmed : BitVec 32
  used : BitVec 32
  updated : BitVec 32
  refcnt : BitVec 32

structure NeighborMessage where
  header : NdMsg
  destination : Option IpAddr
  lladdr : Option (List UInt8)
  probes : Option (BitVec 32)
  vlan : Option (BitVec 16)
  port : Option (BitVec 16)
  vni : Option (BitVec 32)
  ifindexAttr : Option (BitVec 32)
  master : Option (BitVec 32)
  cacheInfo : Option NeighborCacheInfo

/-- The address's bytes. -/
def octets : IpAddr → List UInt8
  | .v4 addr => Ipv4Addr.octets addr
  | .v6 addr => Ipv6Addr.octets addr

/-- `parse_ip_addr`. -/
def parseIpAddr (data : List UInt8) (family : BitVec 8) : Except Error IpAddr :=
  if family = AF_INET then
    if data.length < 4 then
      .error (.truncated 4 data.length)
    else
      .ok (.v4 (Ipv4Addr.fromOctets (data.take 4)))
  else if family = AF_INET6 then
    if data.length < 16 then
      .error (.truncated 16 data.length)
    else
      .ok (.v6 (Ipv6Addr.fromOctets (data.take 16)))
  else
    .error (.invalidMessage ("unknown address family: " ++ toString family.toNat))

section Code

variable (order : ByteOrder)

def NdMsg.layout : FixedLayout NdMsg :=
  ((FixedLayout.number order 1).pair <| (FixedLayout.number order 1).pair <|
    (FixedLayout.number order 2).pair <| (FixedLayout.number order 4).pair <|
    (FixedLayout.number order 2).pair <| (FixedLayout.number order 1).pair <|
    FixedLayout.number order 1).via
    (fun (family, pad1, pad2, ifindex, state, flags, type) =>
      ⟨family, pad1, pad2, ifindex, state, flags, type⟩)
    (fun msg => (msg.ndmFamily, msg.ndmPad1, msg.ndmPad2, msg.ndmIfindex, msg.ndmState,
      msg.ndmFlags, msg.ndmType))
    fun _ => rfl

def NeighborCacheInfo.layout : FixedLayout NeighborCacheInfo :=
  ((FixedLayout.number order 4).pair <| (FixedLayout.number order 4).pair <|
    (FixedLayout.number order 4).pair <| FixedLayout.number order 4).via
    (fun (confirmed, used, updated, refcnt) => ⟨confirmed, used, updated, refcnt⟩)
    (fun info => (info.confirmed, info.used, info.updated, info.refcnt))
    fun _ => rfl

/-!
## Parsing
-/

/-- A number of two bytes in a byte order, if they are there. -/
def u16Or (sent : ByteOrder) (data : List UInt8) (old : Option (BitVec 16)) :
    Option (BitVec 16) :=
  if 2 ≤ data.length then some (readU16 sent data) else old

def NeighborMessage.addAttr (msg : NeighborMessage) : Attribute → NeighborMessage
  -- NDA_DST
  | (1, data) =>
      match parseIpAddr data msg.header.ndmFamily with
      | .ok addr => { msg with destination := some addr }
      | .error _ => msg
  -- NDA_LLADDR
  | (2, data) => { msg with lladdr := some data }
  -- NDA_PROBES
  | (4, data) => { msg with probes := u32Or order data msg.probes }
  -- NDA_VLAN
  | (5, data) => { msg with vlan := u16Or order data msg.vlan }
  -- NDA_PORT, in network byte order
  | (6, data) => { msg with port := u16Or .big data msg.port }
  -- NDA_VNI
  | (7, data) => { msg with vni := u32Or order data msg.vni }
  -- NDA_IFINDEX
  | (8, data) => { msg with ifindexAttr := u32Or order data msg.ifindexAttr }
  -- NDA_MASTER
  | (9, data) => { msg with master := u32Or order data msg.master }
  -- NDA_CACHEINFO
  | (3, data) =>
      { msg with cacheInfo := ((NeighborCacheInfo.layout order).fromPrefix? data).or msg.cacheInfo }
  | _ => msg

/-- A message of which only the header is known. -/
def NeighborMessage.ofHeader (header : NdMsg) : NeighborMessage :=
  ⟨header, none, none, none, none, none, none, none, none, none⟩

/-- `NeighborMessage::from_bytes`. -/
def NeighborMessage.fromBytes (data : List UInt8) : Option NeighborMessage :=
  RouteEvents.fromBytes order (NdMsg.layout order) .ofHeader (NeighborMessage.addAttr order) data

/-!
## Writing
-/

/-- An attribute as `write_attr_bytes` and its siblings push it: a length of two
bytes, which wraps. -/
def writeAttr (attr : Attribute) : List UInt8 :=
  order.toBytes 2 (4 + attr.2.length) ++ order.toBytes 2 attr.1 ++ attr.2 ++
    padding (4 + attr.2.length)

/-- The attributes of a message, in the order in which they are written. -/
def NeighborMessage.attrs (msg : NeighborMessage) : List Attribute :=
  (msg.destination.toList.map fun dst => (1, octets dst)) ++
  (msg.lladdr.toList.map fun lladdr => (2, lladdr)) ++
  (msg.vlan.toList.map fun vlan => (5, order.toBytes 2 vlan.toNat)) ++
  (msg.probes.toList.map fun probes => (4, order.toBytes 4 probes.toNat)) ++
  (msg.port.toList.map fun port => (6, ByteOrder.big.toBytes 2 port.toNat)) ++
  (msg.vni.toList.map fun vni => (7, order.toBytes 4 vni.toNat)) ++
  (msg.ifindexAttr.toList.map fun ifindexAttr => (8, order.toBytes 4 ifindexAttr.toNat)) ++
  (msg.master.toList.map fun master => (9, order.toBytes 4 master.toNat)) ++
  (msg.cacheInfo.toList.map fun info => (3, (NeighborCacheInfo.layout order).write info))

/-- `NeighborMessage::write_to`. -/
def NeighborMessage.writeTo (msg : NeighborMessage) : List UInt8 :=
  (NdMsg.layout order).write msg.header ++ (msg.attrs order).flatMap (writeAttr order)

end Code

/-!
## What is written is parsed
-/

section Agreement

variable (order : ByteOrder)

variable {attr : Attribute}

theorem writeAttr_eq (short : NLA_HDRLEN + attr.2.length ≤ 65535) :
    writeAttr order attr = Attrs.attrBytes order attr.1 attr.2 := by
  have len : min (4 + attr.2.length) 65535 = 4 + attr.2.length := Nat.min_eq_left short
  rw [Attrs.attrBytes, len, writeAttr, List.append_assoc, List.append_assoc]

theorem flatMap_writeAttr {attrs : List Attribute} (fit : ∀ attr ∈ attrs, attr.Fits) :
    attrs.flatMap (writeAttr order) = encodeAll order attrs :=
  flatMap_congr fun attr member => writeAttr_eq order (fit attr member).2

theorem foldl_then {σ : Type} {step : σ → Attribute → σ} {first second : List Attribute}
    {start between last : σ} (before : first.foldl step start = between)
    (after : second.foldl step between = last) : (first ++ second).foldl step start = last := by
  rw [foldl_append, before, after]

/-- A field that is not set yet is set by its attribute, if there is one. -/
theorem foldl_field_mem {σ α : Type} {step : σ → Attribute → σ} (attr : α → Attribute)
    (set : Option α → σ) {value : Option α}
    (isSet : ∀ found ∈ value, step (set none) (attr found) = set (some found)) :
    (value.toList.map attr).foldl step (set none) = set value := by
  cases value with
  | none => rfl
  | some value => exact isSet value rfl

/-- A field that is written is read back by the step of its attribute. -/
theorem foldl_field {σ α : Type} {step : σ → Attribute → σ} (attr : α → Attribute)
    (set : Option α → σ) (isSet : ∀ value, step (set none) (attr value) = set (some value))
    (value : Option α) : (value.toList.map attr).foldl step (set none) = set value :=
  foldl_field_mem attr set fun found _ => isSet found

theorem u16Or_toBytes (value : BitVec 16) (old : Option (BitVec 16)) :
    u16Or order (order.toBytes 2 value.toNat) old = some value := by
  rw [u16Or, if_pos (by rw [ByteOrder.toBytes_length]), readU16_toBytes]

theorem fromPrefix?_cacheInfo (info : NeighborCacheInfo) :
    (NeighborCacheInfo.layout order).fromPrefix? ((NeighborCacheInfo.layout order).write info) =
      some info := by
  have read := (NeighborCacheInfo.layout order).fromPrefix?_write info []
  rwa [List.append_nil] at read

def OfFamily (family : BitVec 8) : IpAddr → Prop
  | .v4 _ => family = AF_INET
  | .v6 _ => family = AF_INET6

/-- An address is read back from its octets. -/
theorem parseIpAddr_octets {family : BitVec 8} {addr : IpAddr} (ofFamily : OfFamily family addr) :
    parseIpAddr (octets addr) family = .ok addr := by
  cases addr with
  | v4 addr =>
      cases ofFamily
      rw [octets, parseIpAddr, if_pos rfl, if_neg (by rw [Ipv4Addr.octets_length]; decide),
        Ipv4Addr.take_octets, Ipv4Addr.fromOctets_octets]
  | v6 addr =>
      cases ofFamily
      rw [octets, parseIpAddr, if_neg (by decide), if_pos rfl,
        if_neg (by rw [Ipv6Addr.octets_length]; decide), Ipv6Addr.take_octets,
        Ipv6Addr.fromOctets_octets]

theorem parseIpAddr_bridge (data : List UInt8) :
    ∃ error, parseIpAddr data AF_BRIDGE = .error error :=
  ⟨_, rfl⟩

variable {order}

/-- The attributes of a message are added to its header. -/
theorem foldl_attrs (msg : NeighborMessage)
    (ofFamily : ∀ addr ∈ msg.destination, OfFamily msg.header.ndmFamily addr) :
    (msg.attrs order).foldl (NeighborMessage.addAttr order) (.ofHeader msg.header) = msg := by
  obtain ⟨header, destination, lladdr, probes, vlan, port, vni, ifindexAttr, master, cacheInfo⟩ :=
    msg
  have withDestination : (destination.toList.map fun dst => ((1, octets dst) : Attribute)).foldl
      (NeighborMessage.addAttr order) (.ofHeader header) =
        ⟨header, destination, none, none, none, none, none, none, none, none⟩ := by
    refine foldl_field_mem (fun dst => (1, octets dst))
      (NeighborMessage.mk header · none none none none none none none none) fun addr isAddr => ?_
    rw [NeighborMessage.addAttr, parseIpAddr_octets (ofFamily addr isAddr)]
  let build : Option (List UInt8) → Option (BitVec 16) → Option (BitVec 32) →
      Option (BitVec 16) → Option (BitVec 32) → Option (BitVec 32) → Option (BitVec 32) →
      Option NeighborCacheInfo → NeighborMessage :=
    fun lladdr vlan probes port vni ifindexAttr master cacheInfo =>
      ⟨header, destination, lladdr, probes, vlan, port, vni, ifindexAttr, master, cacheInfo⟩
  have withLladdr := foldl_then withDestination <|
    foldl_field (fun lladdr => (2, lladdr))
      (build · none none none none none none none) (fun _ => rfl) lladdr
  have withVlan := foldl_then withLladdr <|
    foldl_field (fun vlan => (5, order.toBytes 2 vlan.toNat))
      (build lladdr · none none none none none none)
      (fun value => congrArg (build lladdr · none none none none none none)
        (u16Or_toBytes order value none)) vlan
  have withProbes := foldl_then withVlan <|
    foldl_field (fun probes => (4, order.toBytes 4 probes.toNat))
      (build lladdr vlan · none none none none none)
      (fun value => congrArg (build lladdr vlan · none none none none none)
        (u32Or_toBytes order value none)) probes
  have withPort := foldl_then withProbes <|
    foldl_field (fun port => (6, ByteOrder.big.toBytes 2 port.toNat))
      (build lladdr vlan probes · none none none none)
      (fun value => congrArg (build lladdr vlan probes · none none none none)
        (u16Or_toBytes .big value none)) port
  have withVni := foldl_then withPort <|
    foldl_field (fun vni => (7, order.toBytes 4 vni.toNat))
      (build lladdr vlan probes port · none none none)
      (fun value => congrArg (build lladdr vlan probes port · none none none)
        (u32Or_toBytes order value none)) vni
  have withIfindex := foldl_then withVni <|
    foldl_field (fun ifindexAttr => (8, order.toBytes 4 ifindexAttr.toNat))
      (build lladdr vlan probes port vni · none none)
      (fun value => congrArg (build lladdr vlan probes port vni · none none)
        (u32Or_toBytes order value none)) ifindexAttr
  have withMaster := foldl_then withIfindex <|
    foldl_field (fun master => (9, order.toBytes 4 master.toNat))
      (build lladdr vlan probes port vni ifindexAttr · none)
      (fun value => congrArg (build lladdr vlan probes port vni ifindexAttr · none)
        (u32Or_toBytes order value none)) master
  exact foldl_then withMaster <|
    foldl_field (fun info => (3, (NeighborCacheInfo.layout order).write info))
      (build lladdr vlan probes port vni ifindexAttr master ·)
      (fun value => congrArg (build lladdr vlan probes port vni ifindexAttr master ·)
        (congrArg (Option.or · none) (fromPrefix?_cacheInfo order value))) cacheInfo

theorem fits_attrs {msg : NeighborMessage} (short : ∀ lladdr ∈ msg.lladdr, lladdr.length ≤ 65531) :
    ∀ attr ∈ msg.attrs order, attr.Fits ∧ attr.1 < NLA_F_NET_BYTEORDER := by
  have octetsShort : ∀ addr, (octets addr).length ≤ 16 := by
    intro addr
    cases addr <;> simp [octets]
  have infoLength := (NeighborCacheInfo.layout order).length_write
  rw [show (NeighborCacheInfo.layout order).size = 16 from rfl] at infoLength
  intro attr member
  simp only [NeighborMessage.attrs, mem_append, mem_map, Option.mem_toList] at member
  simp only [Attribute.Fits, NLA_HDRLEN, NLA_F_NET_BYTEORDER]
  rcases member with (((((((⟨dst, isDst, rfl⟩ | ⟨lladdr, isLladdr, rfl⟩) | ⟨_, _, rfl⟩) |
    ⟨_, _, rfl⟩) | ⟨_, _, rfl⟩) | ⟨_, _, rfl⟩) | ⟨_, _, rfl⟩) | ⟨_, _, rfl⟩) | ⟨info, _, rfl⟩
  · have atMost := octetsShort dst
    dsimp only
    omega
  · have atMost := short lladdr isLladdr
    dsimp only
    omega
  all_goals first | rw [ByteOrder.toBytes_length] | rw [infoLength]
  all_goals omega

variable {msg : NeighborMessage}

theorem fromBytes_writeTo
    (short : ∀ lladdr ∈ msg.lladdr, lladdr.length ≤ 65531)
    (ofFamily : ∀ addr ∈ msg.destination, OfFamily msg.header.ndmFamily addr) :
    NeighborMessage.fromBytes order (msg.writeTo order) = some msg := by
  have fits : ∀ attr ∈ msg.attrs order, attr.Fits ∧ attr.1 < NLA_F_NET_BYTEORDER := fits_attrs short
  have plain : (msg.attrs order).map Attribute.masked = msg.attrs order :=
    (map_congr_left fun attr member => Attribute.masked_of_lt (fits attr member).2).trans (map_id _)
  rw [NeighborMessage.fromBytes, NeighborMessage.writeTo,
    flatMap_writeAttr order fun attr member => (fits attr member).1,
    RouteEvents.fromBytes_encodeAll order _ _ _ _ fun attr member => (fits attr member).1, plain,
    foldl_attrs msg ofFamily]

/-!
What is lost: the address of a message of the bridge family, which the parser
has no width for, and the end of an address too long for the length field.
-/

theorem attrsFrom_payload_le (fuel : Nat) (input : List UInt8) :
    ∀ attr ∈ (RouteEvents.attrsFrom order fuel input).1, attr.2.length ≤ 65531 := by
  induction fuel generalizing input with
  | zero => exact forall_mem_nil _
  | succ fuel ih =>
      have small : order.ofBytes (input.take 2) < 256 ^ 2 :=
        Nat.lt_of_lt_of_le (order.ofBytes_lt _)
          (Nat.pow_le_pow_right (by decide) (by rw [length_take]; omega))
      simp only [RouteEvents.attrsFrom]
      split
      · exact forall_mem_nil _
      · split
        · exact forall_mem_nil _
        · refine forall_mem_cons.mpr ⟨?_, ih _⟩
          rw [length_take]
          omega

theorem lladdr_addAttr
    (short : ∀ lladdr ∈ msg.lladdr, lladdr.length ≤ 65531) (attrShort : attr.2.length ≤ 65531) :
    ∀ lladdr ∈ (msg.addAttr order attr).lladdr, lladdr.length ≤ 65531 := by
  rw [NeighborMessage.addAttr.eq_def]
  split
  · split
    · exact short
    · exact short
  · rintro _ ⟨⟩
    exact attrShort
  all_goals exact short

theorem destination_addAttr
    (isBridge : msg.header.ndmFamily = AF_BRIDGE ∧ msg.destination = none) :
    (msg.addAttr order attr).header.ndmFamily = AF_BRIDGE ∧
      (msg.addAttr order attr).destination = none := by
  rw [NeighborMessage.addAttr.eq_def]
  split
  · rename_i data
    obtain ⟨error, refused⟩ := parseIpAddr_bridge data
    rw [isBridge.1, refused]
    exact isBridge
  all_goals exact isBridge

/-- What is parsed has a short link-layer address. -/
theorem short_of_fromBytes {data : List UInt8}
    (read : NeighborMessage.fromBytes order data = some msg) :
    ∀ lladdr ∈ msg.lladdr, lladdr.length ≤ 65531 := by
  obtain ⟨header, -, attrs⟩ := Option.bind_eq_some_iff.mp read
  dsimp only at attrs
  split at attrs
  · cases attrs
    refine @foldl_invariant _ _ _ (fun msg : NeighborMessage =>
      ∀ lladdr ∈ msg.lladdr, lladdr.length ≤ 65531) _ (fun state short attr member => ?_) _ ?_
    · exact lladdr_addAttr short (attrsFrom_payload_le _ _ attr member)
    · rintro _ ⟨⟩
  · cases attrs

/-- What is parsed with the bridge family has no destination. -/
theorem noDestination_of_fromBytes {header : NdMsg} {rest : List UInt8}
    (isBridge : header.ndmFamily = AF_BRIDGE)
    (read : NeighborMessage.fromBytes order ((NdMsg.layout order).write header ++ rest) =
      some msg) : msg.destination = none := by
  rw [NeighborMessage.fromBytes, RouteEvents.fromBytes, FixedLayout.fromPrefix?_write,
    Option.bind_some] at read
  dsimp only at read
  split at read
  · cases read
    exact (@foldl_invariant _ _ _ (fun msg : NeighborMessage =>
      msg.header.ndmFamily = AF_BRIDGE ∧ msg.destination = none) _
      (fun state held attr _ => destination_addAttr held) _ ⟨isBridge, rfl⟩).2
  · cases read

/-- A message of one of the three families, with an address of its family, and of
either with the bridge's. -/
def Addressed (msg : NeighborMessage) : Prop :=
  (msg.header.ndmFamily = AF_INET ∨ msg.header.ndmFamily = AF_INET6 ∨
    msg.header.ndmFamily = AF_BRIDGE) ∧
  ∀ addr ∈ msg.destination, msg.header.ndmFamily = AF_BRIDGE ∨ OfFamily msg.header.ndmFamily addr

theorem fromBytes_writeTo_eq_iff (addressed : Addressed msg) :
    NeighborMessage.fromBytes order (msg.writeTo order) = some msg ↔
      (∀ lladdr ∈ msg.lladdr, lladdr.length ≤ 65531) ∧
      (msg.header.ndmFamily = AF_BRIDGE → msg.destination = none) := by
  constructor
  · intro read
    exact ⟨short_of_fromBytes read, fun isBridge => noDestination_of_fromBytes isBridge read⟩
  · rintro ⟨short, plain⟩
    refine fromBytes_writeTo short fun addr isAddr => ?_
    rcases addressed.2 addr isAddr with isBridge | ofFamily
    · cases (plain isBridge).symm.trans isAddr
    · exact ofFamily

end Agreement

end Nlink.Neighbor
