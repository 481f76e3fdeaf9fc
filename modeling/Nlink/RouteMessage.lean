import Nlink.Foundation.Frames
import Nlink.Neighbor

namespace Nlink.Route

open Foundation Netlink Neighbor List Nftables.Attrs
open Nlink.Addr (IpAddr)
open Nftables (Attrs)

/-!
# Route messages

A message about a route is written attribute by attribute.  The next hops of a
route with several are a chain in one attribute: each has a header with its own
length, and its gateway as an attribute behind that.
-/

namespace attrIds

def RTA_GATEWAY : Nat := 5
def RTA_MULTIPATH : Nat := 9

end attrIds

def RTNH_HDRLEN : Nat := 8

/-- `struct rtnexthop`. -/
structure RtNexthop where
  rtnhLen : BitVec 16
  rtnhFlags : BitVec 8
  rtnhHops : BitVec 8
  rtnhIfindex : BitVec 32

/-- One next hop; the weight counts from one. -/
structure ParsedNextHop where
  ifindex : BitVec 32
  weight : BitVec 8
  flags : BitVec 8
  gateway : Option IpAddr
  deriving DecidableEq

structure RouteMessage where
  header : RtMsg
  destination : Option IpAddr
  source : Option IpAddr
  iif : Option (BitVec 32)
  oif : Option (BitVec 32)
  gateway : Option IpAddr
  priority : Option (BitVec 32)
  prefsrc : Option IpAddr
  table : Option (BitVec 32)
  pref : Option UInt8
  expires : Option (BitVec 32)
  multipath : Option (List ParsedNextHop)
  deriving DecidableEq

/-- `u8::saturating_add(1)`. -/
def saturatingSucc (value : BitVec 8) : BitVec 8 :=
  if value = 255 then 255 else value + 1

/-- `u8::saturating_sub(1)`. -/
def saturatingPred (value : BitVec 8) : BitVec 8 :=
  if value = 0 then 0 else value - 1

section Code

variable (order : ByteOrder)

def RtNexthop.layout : FixedLayout RtNexthop :=
  ((FixedLayout.number order 2).pair <| (FixedLayout.number order 1).pair <|
    (FixedLayout.number order 1).pair <| FixedLayout.number order 4).via
    (fun (len, flags, hops, ifindex) => ⟨len, flags, hops, ifindex⟩)
    (fun hop => (hop.rtnhLen, hop.rtnhFlags, hop.rtnhHops, hop.rtnhIfindex))
    fun _ => rfl

/-!
## Parsing
-/

section Chain

variable (data : List UInt8) (family : BitVec 8)

/-- The loop over the attributes of a next hop, which keeps the last gateway.
There is no result where it reads out of bounds. -/
def gatewayFrom (nestedEnd nested : Nat) (gateway : Option IpAddr) : Option (Option IpAddr) :=
  if nested + 4 ≤ nestedEnd then do
    let attr ← NlAttr.fromBytes order (data.drop nested)
    if attr.nlaLen < 4 ∨ nestedEnd < nested + attr.nlaLen then
      return gateway
    else
      let payload ← (Slice.whole data).sub? (nested + 4) (nested + attr.nlaLen)
      let found :=
        if attr.kind = attrIds.RTA_GATEWAY then
          match parseIpAddr (payload.bytes data) family with
          | .ok addr => some addr
          | .error _ => gateway
        else
          gateway
      gatewayFrom nestedEnd (nested + max (nlaAlign attr.nlaLen) 4) found
  else
    return gateway
termination_by nestedEnd - nested
decreasing_by omega

/-- The loop of `parse_multipath`.  There is no result where it reads out of
bounds. -/
def parseMultipathFrom (offset : Nat) : Option (List ParsedNextHop) :=
  if offset + RTNH_HDRLEN ≤ data.length then do
    let hop ← (RtNexthop.layout order).fromPrefix? (data.drop offset)
    let rtnhLen := hop.rtnhLen.toNat
    if rtnhLen < RTNH_HDRLEN ∨ data.length < offset + rtnhLen then
      return []
    else
      let gateway ← gatewayFrom order data family (offset + rtnhLen) (offset + RTNH_HDRLEN) none
      let rest ← parseMultipathFrom (offset + max (nlaAlign rtnhLen) RTNH_HDRLEN)
      return ⟨hop.rtnhIfindex, saturatingSucc hop.rtnhHops, hop.rtnhFlags, gateway⟩ :: rest
  else
    return []
termination_by data.length - offset
decreasing_by
  rw [RTNH_HDRLEN] at *
  omega

variable {data} {family}

theorem fromBytes_isSome {offset : Nat} (inside : offset + 4 ≤ data.length) :
    ∃ attr, NlAttr.fromBytes order (data.drop offset) = some attr := by
  have long : 4 ≤ (data.drop offset).length := by
    rw [length_drop]
    omega
  match data.drop offset, long with
  | _ :: _ :: _ :: _ :: _, _ => exact ⟨_, rfl⟩

/-- The loop over attributes stays in bounds. -/
theorem gatewayFrom_isSome {nestedEnd : Nat} (inside : nestedEnd ≤ data.length) (nested : Nat)
    (gateway : Option IpAddr) :
    (gatewayFrom order data family nestedEnd nested gateway).isSome := by
  induction size : nestedEnd - nested using Nat.strongRecOn generalizing nested gateway with
  | ind size ih =>
      rw [gatewayFrom]
      split
      · rename_i more
        obtain ⟨attr, isAttr⟩ := @fromBytes_isSome order data nested (by omega)
        rw [isAttr, Option.bind_eq_bind, Option.bind_some]
        split
        · rfl
        · rename_i whole
          have part : nested + 4 ≤ nested + attr.nlaLen ∧
              nested + attr.nlaLen ≤ (Slice.whole data).len := by
            rw [Slice.whole]
            dsimp only
            omega
          rw [Slice.sub?_eq_some part, Option.bind_eq_bind, Option.bind_some]
          exact ih _ (by omega) _ _ rfl
      · rfl

/-- `parse_multipath` stays in bounds. -/
theorem parseMultipathFrom_isSome (offset : Nat) :
    (parseMultipathFrom order data family offset).isSome := by
  induction size : data.length - offset using Nat.strongRecOn generalizing offset with
  | ind size ih =>
      rw [parseMultipathFrom]
      split
      · rename_i more
        rw [RTNH_HDRLEN] at more
        have long : ¬ (data.drop offset).length < (RtNexthop.layout order).size := by
          change ¬ (data.drop offset).length < 8
          rw [length_drop]
          omega
        rw [FixedLayout.fromPrefix?, if_neg long, Option.bind_eq_bind, Option.bind_some]
        dsimp only
        split
        · rfl
        · rename_i whole
          obtain ⟨gateway, isGateway⟩ := Option.isSome_iff_exists.mp
            (@gatewayFrom_isSome order data family _ (Nat.le_of_not_lt (not_or.mp whole).2)
              (offset + RTNH_HDRLEN) none)
          rw [isGateway, Option.bind_eq_bind, Option.bind_some, Option.bind_eq_bind]
          obtain ⟨rest, isRest⟩ := Option.isSome_iff_exists.mp
            (ih _ (by rw [RTNH_HDRLEN]; omega) (offset + max (nlaAlign _) RTNH_HDRLEN) rfl)
          rw [isRest]
          rfl
      · rfl

end Chain

/-- `parse_multipath`. -/
def parseMultipath (data : List UInt8) (family : BitVec 8) : List ParsedNextHop :=
  (parseMultipathFrom order data family 0).get (parseMultipathFrom_isSome order 0)

/-- An address of a family, if it can be parsed. -/
def addrOr (data : List UInt8) (family : UInt8) (old : Option IpAddr) : Option IpAddr :=
  match parseIpAddr data family.toBitVec with
  | .ok addr => some addr
  | .error _ => old

def RouteMessage.addAttr (msg : RouteMessage) : Attribute → RouteMessage
  -- RTA_DST
  | (1, data) => { msg with destination := addrOr data msg.header.rtmFamily msg.destination }
  -- RTA_SRC
  | (2, data) => { msg with source := addrOr data msg.header.rtmFamily msg.source }
  -- RTA_IIF
  | (3, data) => { msg with iif := u32Or order data msg.iif }
  -- RTA_OIF
  | (4, data) => { msg with oif := u32Or order data msg.oif }
  -- RTA_GATEWAY
  | (5, data) => { msg with gateway := addrOr data msg.header.rtmFamily msg.gateway }
  -- RTA_PRIORITY
  | (6, data) => { msg with priority := u32Or order data msg.priority }
  -- RTA_PREFSRC
  | (7, data) => { msg with prefsrc := addrOr data msg.header.rtmFamily msg.prefsrc }
  -- RTA_MULTIPATH
  | (9, data) =>
      match parseMultipath order data msg.header.rtmFamily.toBitVec with
      | [] => msg
      | nexthops => { msg with multipath := some nexthops }
  -- RTA_TABLE
  | (15, data) => { msg with table := u32Or order data msg.table }
  -- RTA_PREF
  | (20, data) => { msg with pref := data.head?.or msg.pref }
  -- RTA_EXPIRES
  | (23, data) => { msg with expires := u32Or order data msg.expires }
  | _ => msg

/-- A message of which only the header is known. -/
def RouteMessage.ofHeader (header : RtMsg) : RouteMessage :=
  ⟨header, none, none, none, none, none, none, none, none, none, none, none⟩

/-- `RouteMessage::parse`: the message, and the input that is not consumed. -/
def RouteMessage.parse (data : List UInt8) : Except Error (RouteMessage × List UInt8) := do
  let header ← RtMsg.fromBytes order data
  let (attrs, left) := RouteEvents.attrsFrom order data.length (data.drop RtMsg.SIZE)
  return (attrs.foldl (RouteMessage.addAttr order) (.ofHeader header), left)

/-!
## Writing
-/

/-- A next hop with its gateway behind it, padded. -/
def hopBytes (flags hops : BitVec 8) (ifindex : BitVec 32) (gateway : Option IpAddr) :
    List UInt8 :=
  let attrs := gateway.toList.flatMap fun gw => writeAttr order (attrIds.RTA_GATEWAY, octets gw)
  (RtNexthop.layout order).write ⟨.ofNat 16 (RTNH_HDRLEN + attrs.length), flags, hops, ifindex⟩ ++
    attrs ++ padding (RTNH_HDRLEN + attrs.length)

def ParsedNextHop.bytes (nh : ParsedNextHop) : List UInt8 :=
  hopBytes order nh.flags (saturatingPred nh.weight) nh.ifindex nh.gateway

/-- The attributes of a message, in the order in which they are written. -/
def RouteMessage.attrs (msg : RouteMessage) : List Attribute :=
  (msg.destination.toList.map fun dst => (1, octets dst)) ++
  (msg.gateway.toList.map fun gw => (5, octets gw)) ++
  (msg.oif.toList.map fun oif => (4, order.toBytes 4 oif.toNat)) ++
  (msg.priority.toList.map fun priority => (6, order.toBytes 4 priority.toNat)) ++
  (msg.prefsrc.toList.map fun prefsrc => (7, octets prefsrc)) ++
  (msg.table.toList.map fun table => (15, order.toBytes 4 table.toNat)) ++
  (msg.source.toList.map fun src => (2, octets src)) ++
  (msg.iif.toList.map fun iif => (3, order.toBytes 4 iif.toNat)) ++
  (msg.pref.toList.map fun pref => (20, [pref])) ++
  (msg.expires.toList.map fun expires => (23, order.toBytes 4 expires.toNat)) ++
  (msg.multipath.toList.map fun nexthops =>
    (attrIds.RTA_MULTIPATH, nexthops.flatMap (ParsedNextHop.bytes order)))

/-- `RouteMessage::write_to`: the buffer with the message behind it, and the
message's length. -/
def RouteMessage.writeTo (msg : RouteMessage) (buf : List UInt8) : List UInt8 × Nat :=
  let start := buf.length
  let buf := buf ++ msg.header.asBytes order ++ (msg.attrs order).flatMap (writeAttr order)
  (buf, buf.length - start)

end Code

/-!
## Chains
-/

section Hops

variable (order : ByteOrder)

/-- A next hop as the kernel holds it. -/
structure Hop where
  flags : BitVec 8
  hops : BitVec 8
  ifindex : BitVec 32
  gateway : Option IpAddr

def Hop.bytes (hop : Hop) : List UInt8 :=
  hopBytes order hop.flags hop.hops hop.ifindex hop.gateway

def chain (hops : List Hop) : List UInt8 :=
  hops.flatMap (Hop.bytes order)

def Hop.parsed (hop : Hop) : ParsedNextHop where
  ifindex := hop.ifindex
  weight := saturatingSucc hop.hops
  flags := hop.flags
  gateway := hop.gateway

variable {family : BitVec 8}

theorem length_octets_le (addr : IpAddr) : (octets addr).length ≤ 16 := by
  cases addr <;> simp [octets]

theorem gatewayFrom_end (data : List UInt8) (nestedEnd : Nat) (gateway : Option IpAddr) :
    gatewayFrom order data family nestedEnd nestedEnd gateway = some gateway := by
  rw [gatewayFrom, if_neg (by omega)]
  rfl

theorem gatewayFrom_some (before rest : List UInt8) {gw : IpAddr}
    (ofFamily : OfFamily family gw) {nestedEnd : Nat}
    (isEnd : nestedEnd =
      before.length + (attrBytes order attrIds.RTA_GATEWAY (octets gw)).length) :
    gatewayFrom order (before ++ (attrBytes order attrIds.RTA_GATEWAY (octets gw) ++ rest))
      family nestedEnd before.length none = some (some gw) := by
  have short := length_octets_le gw
  have fits : NLA_HDRLEN + (octets gw).length ≤ 65535 := by
    rw [NLA_HDRLEN]
    omega
  have header := @fromBytes_attrBytes order attrIds.RTA_GATEWAY (octets gw) rest
    (by decide) fits
  have aligned := le_nlaAlign ((octets gw).length + 4)
  rw [attrBytes_length] at isEnd
  have whole : (before ++ (attrBytes order attrIds.RTA_GATEWAY (octets gw) ++ rest)).length =
      nestedEnd + rest.length := by
    rw [length_append, length_append, attrBytes_length, isEnd, Nat.add_assoc]
  have part : before.length + 4 ≤ before.length + ((octets gw).length + 4) ∧
      before.length + ((octets gw).length + 4) ≤ (Slice.whole
        (before ++ (attrBytes order attrIds.RTA_GATEWAY (octets gw) ++ rest))).len := by
    rw [Slice.whole, whole]
    dsimp only
    omega
  have payload : Slice.bytes (before ++ (attrBytes order attrIds.RTA_GATEWAY (octets gw) ++
      rest)) { start := 0 + (before.length + 4), len := (octets gw).length } = octets gw := by
    rw [Slice.bytes, Nat.zero_add, ← drop_drop, drop_left' rfl, drop_attrBytes]
    exact take_left' rfl
  rw [gatewayFrom, if_pos (by omega), drop_left' rfl, header, Option.bind_eq_bind, Option.bind_some]
  dsimp only
  rw [if_neg (by omega), Slice.sub?_eq_some part, Option.bind_eq_bind, Option.bind_some]
  have len : before.length + ((octets gw).length + 4) - (before.length + 4) =
      (octets gw).length := by omega
  have next : before.length + max (nlaAlign ((octets gw).length + 4)) 4 = nestedEnd := by omega
  rw [len, next]
  simp only [Slice.whole, payload, parseIpAddr_octets ofFamily]
  exact gatewayFrom_end order _ _ _

/-- The gateway's part of a next hop. -/
def gatewayBytes (gateway : Option IpAddr) : List UInt8 :=
  gateway.toList.flatMap fun gw => attrBytes order attrIds.RTA_GATEWAY (octets gw)

theorem gatewayBytes_eq (gateway : Option IpAddr) :
    (gateway.toList.flatMap fun gw => writeAttr order (attrIds.RTA_GATEWAY, octets gw)) =
      gatewayBytes order gateway := by
  refine flatMap_congr fun gw _ => writeAttr_eq order ?_
  have short := length_octets_le gw
  rw [NLA_HDRLEN]
  dsimp only
  omega

theorem length_gatewayBytes (gateway : Option IpAddr) :
    4 ∣ (gatewayBytes order gateway).length ∧ (gatewayBytes order gateway).length ≤ 20 := by
  cases gateway with
  | none => exact ⟨⟨0, rfl⟩, Nat.zero_le _⟩
  | some gw =>
      have short := length_octets_le gw
      rw [gatewayBytes, Option.toList_some, flatMap_singleton, attrBytes_length]
      refine ⟨dvd_nlaAlign _, ?_⟩
      rw [nlaAlign]
      omega

/-- A next hop needs no padding. -/
theorem hopBytes_eq (flags hops : BitVec 8) (ifindex : BitVec 32) (gateway : Option IpAddr) :
    hopBytes order flags hops ifindex gateway =
      (RtNexthop.layout order).write
        ⟨.ofNat 16 (8 + (gatewayBytes order gateway).length), flags, hops, ifindex⟩ ++
        gatewayBytes order gateway := by
  obtain ⟨aligned, -⟩ := length_gatewayBytes order gateway
  have unpadded : padding (8 + (gatewayBytes order gateway).length) = [] :=
    padding_of_dvd (Nat.dvd_add ⟨2, rfl⟩ aligned)
  rw [hopBytes, gatewayBytes_eq, RTNH_HDRLEN, unpadded, List.append_nil]

theorem length_hopBytes (flags hops : BitVec 8) (ifindex : BitVec 32) (gateway : Option IpAddr) :
    (hopBytes order flags hops ifindex gateway).length =
      8 + (gatewayBytes order gateway).length := by
  rw [hopBytes_eq, length_append, (RtNexthop.layout order).length_write]
  rfl

theorem gatewayFrom_gatewayBytes (before rest : List UInt8) {gateway : Option IpAddr}
    (ofFamily : ∀ gw ∈ gateway, OfFamily family gw) :
    gatewayFrom order (before ++ (gatewayBytes order gateway ++ rest)) family
      (before.length + (gatewayBytes order gateway).length) before.length none = some gateway := by
  cases gateway with
  | none => exact gatewayFrom_end order _ _ _
  | some gw =>
      rw [gatewayBytes, Option.toList_some, flatMap_singleton]
      exact gatewayFrom_some order before rest (ofFamily gw rfl) rfl

/-- One next hop is parsed off the front of a chain. -/
theorem parseMultipathFrom_hop (before rest : List UInt8) {hop : Hop}
    (ofFamily : ∀ gw ∈ hop.gateway, OfFamily family gw) :
    parseMultipathFrom order (before ++ (hop.bytes order ++ rest)) family before.length =
      (parseMultipathFrom order (before ++ (hop.bytes order ++ rest)) family
        (before ++ hop.bytes order).length).map (hop.parsed :: ·) := by
  obtain ⟨aligned, short⟩ := length_gatewayBytes order hop.gateway
  have length : (hop.bytes order).length = 8 + (gatewayBytes order hop.gateway).length :=
    length_hopBytes order _ _ _ _
  have bytes : hop.bytes order = (RtNexthop.layout order).write
      ⟨.ofNat 16 (hop.bytes order).length, hop.flags, hop.hops, hop.ifindex⟩ ++
        gatewayBytes order hop.gateway := by
    rw [length]
    exact hopBytes_eq order _ _ _ _
  generalize isHeader : (RtNexthop.layout order).write
    ⟨.ofNat 16 (hop.bytes order).length, hop.flags, hop.hops, hop.ifindex⟩ = header at bytes
  have headerLength : header.length = 8 := by
    rw [← isHeader]
    exact (RtNexthop.layout order).length_write _
  have len : (BitVec.ofNat 16 (hop.bytes order).length).toNat = (hop.bytes order).length :=
    Nat.mod_eq_of_lt (by omega)
  have whole : (before ++ (hop.bytes order ++ rest)).length =
      before.length + (hop.bytes order).length + rest.length := by
    rw [length_append, length_append, Nat.add_assoc]
  have next : before.length + max (nlaAlign (hop.bytes order).length) RTNH_HDRLEN =
      (before ++ hop.bytes order).length := by
    rw [length, nlaAlign_of_dvd (Nat.dvd_add ⟨2, rfl⟩ aligned), length_append, length, RTNH_HDRLEN]
    omega
  have read : (RtNexthop.layout order).fromPrefix?
      ((before ++ (hop.bytes order ++ rest)).drop before.length) =
        some ⟨.ofNat 16 (hop.bytes order).length, hop.flags, hop.hops, hop.ifindex⟩ := by
    rw [drop_left' rfl]
    nth_rewrite 1 [bytes]
    rw [← isHeader, List.append_assoc, FixedLayout.fromPrefix?_write]
  have gateway : gatewayFrom order (before ++ (hop.bytes order ++ rest)) family
      (before.length + (hop.bytes order).length) (before.length + RTNH_HDRLEN) none =
        some hop.gateway := by
    have found := gatewayFrom_gatewayBytes order (before ++ header) rest ofFamily
    rwa [length_append, headerLength, Nat.add_assoc, ← length, List.append_assoc,
      ← List.append_assoc header, ← bytes] at found
  rw [parseMultipathFrom, if_pos (by rw [RTNH_HDRLEN]; omega), read, Option.bind_eq_bind,
    Option.bind_some]
  dsimp only
  rw [len, if_neg (by rw [RTNH_HDRLEN]; omega), gateway, Option.bind_eq_bind, Option.bind_some,
    next]
  exact Option.map_eq_bind.symm

variable {hops : List Hop}

theorem parseMultipathFrom_chain (before : List UInt8)
    (ofFamily : ∀ hop ∈ hops, ∀ gw ∈ hop.gateway, OfFamily family gw) :
    parseMultipathFrom order (before ++ chain order hops) family before.length =
      some (hops.map Hop.parsed) := by
  induction hops generalizing before with
  | nil =>
      rw [parseMultipathFrom, if_neg (by simp [chain, RTNH_HDRLEN])]
      rfl
  | cons hop rest ih =>
      obtain ⟨first, later⟩ := forall_mem_cons.mp ofFamily
      have behind := ih (before ++ hop.bytes order) later
      rw [List.append_assoc] at behind
      rw [chain, flatMap_cons, parseMultipathFrom_hop order before _ first, ← chain, behind]
      rfl

/-- The next hops of a chain are parsed. -/
theorem parseMultipath_chain
    (ofFamily : ∀ hop ∈ hops, ∀ gw ∈ hop.gateway, OfFamily family gw) :
    parseMultipath order (chain order hops) family = hops.map Hop.parsed :=
  Option.some.inj ((Option.some_get _).trans (parseMultipathFrom_chain order [] ofFamily))

theorem addAttr_multipath {msg : RouteMessage} (atLeastOne : hops ≠ [])
    (ofFamily : ∀ hop ∈ hops, ∀ gw ∈ hop.gateway, OfFamily msg.header.rtmFamily.toBitVec gw) :
    msg.addAttr order (attrIds.RTA_MULTIPATH, chain order hops) =
      { msg with multipath := some (hops.map Hop.parsed) } := by
  rw [attrIds.RTA_MULTIPATH, RouteMessage.addAttr, parseMultipath_chain order ofFamily]
  cases hops with
  | nil => exact absurd rfl atLeastOne
  | cons hop rest => rfl

end Hops

/-!
## What is written is parsed
-/

section Agreement

variable (order : ByteOrder)

def ParsedNextHop.hop (nh : ParsedNextHop) : Hop where
  flags := nh.flags
  hops := saturatingPred nh.weight
  ifindex := nh.ifindex
  gateway := nh.gateway

theorem flatMap_bytes (nexthops : List ParsedNextHop) :
    nexthops.flatMap (ParsedNextHop.bytes order) =
      chain order (nexthops.map ParsedNextHop.hop) := by
  rw [chain, flatMap_map]
  rfl

theorem saturatingSucc_pred_iff (weight : BitVec 8) :
    saturatingSucc (saturatingPred weight) = weight ↔ weight ≠ 0 := by
  revert weight
  decide

theorem saturatingPred_succ_iff (hops : BitVec 8) :
    saturatingPred (saturatingSucc hops) = hops ↔ hops ≠ 255 := by
  revert hops
  decide

/-- A message as it is parsed from what is written: each weight has been to the
kernel's count and back. -/
def RouteMessage.reread (msg : RouteMessage) : RouteMessage :=
  { msg with multipath := msg.multipath.map fun nexthops => nexthops.map fun nh => nh.hop.parsed }

/-- The addresses of a message are of its family, and a list of next hops has
one. -/
structure Addressed (msg : RouteMessage) : Prop where
  destination : ∀ addr ∈ msg.destination, OfFamily msg.header.rtmFamily.toBitVec addr
  source : ∀ addr ∈ msg.source, OfFamily msg.header.rtmFamily.toBitVec addr
  gateway : ∀ addr ∈ msg.gateway, OfFamily msg.header.rtmFamily.toBitVec addr
  prefsrc : ∀ addr ∈ msg.prefsrc, OfFamily msg.header.rtmFamily.toBitVec addr
  multipath : ∀ nexthops ∈ msg.multipath, nexthops ≠ [] ∧ ∀ nh ∈ nexthops,
    ∀ addr ∈ nh.gateway, OfFamily msg.header.rtmFamily.toBitVec addr

theorem addrOr_octets {family : UInt8} {addr : IpAddr}
    (ofFamily : OfFamily family.toBitVec addr) (old : Option IpAddr) :
    addrOr (octets addr) family old = some addr := by
  rw [addrOr, parseIpAddr_octets ofFamily]

variable {order}

variable {msg : RouteMessage}

theorem foldl_attrs (addressed : Addressed msg) :
    (msg.attrs order).foldl (RouteMessage.addAttr order) (.ofHeader msg.header) = msg.reread := by
  obtain ⟨header, destination, source, iif, oif, gateway, priority, prefsrc, table, pref, expires,
    multipath⟩ := msg
  obtain ⟨isDestination, isSource, isGateway, isPrefsrc, isMultipath⟩ := addressed
  -- the fields in the order in which they are written
  let build : Option IpAddr → Option IpAddr → Option (BitVec 32) → Option (BitVec 32) →
      Option IpAddr → Option (BitVec 32) → Option IpAddr → Option (BitVec 32) → Option UInt8 →
      Option (BitVec 32) → Option (List ParsedNextHop) → RouteMessage :=
    fun destination gateway oif priority prefsrc table source iif pref expires multipath =>
      ⟨header, destination, source, iif, oif, gateway, priority, prefsrc, table, pref, expires,
        multipath⟩
  have withDestination : (destination.toList.map fun dst => ((1, octets dst) : Attribute)).foldl
      (RouteMessage.addAttr order) (.ofHeader header) =
        build destination none none none none none none none none none none :=
    foldl_field_mem (fun dst => (1, octets dst))
      (build · none none none none none none none none none none) fun addr isAddr =>
        congrArg (build · none none none none none none none none none none)
          (addrOr_octets (isDestination addr isAddr) none)
  have withGateway := foldl_then withDestination <|
    foldl_field_mem (fun gw => (5, octets gw))
      (build destination · none none none none none none none none none) fun addr isAddr =>
        congrArg (build destination · none none none none none none none none none)
          (addrOr_octets (isGateway addr isAddr) none)
  have withOif := foldl_then withGateway <|
    foldl_field (fun oif => (4, order.toBytes 4 oif.toNat))
      (build destination gateway · none none none none none none none none) (fun value =>
        congrArg (build destination gateway · none none none none none none none none)
          (u32Or_toBytes order value none)) oif
  have withPriority := foldl_then withOif <|
    foldl_field (fun priority => (6, order.toBytes 4 priority.toNat))
      (build destination gateway oif · none none none none none none none) (fun value =>
        congrArg (build destination gateway oif · none none none none none none none)
          (u32Or_toBytes order value none)) priority
  have withPrefsrc := foldl_then withPriority <|
    foldl_field_mem (fun prefsrc => (7, octets prefsrc))
      (build destination gateway oif priority · none none none none none none) fun addr isAddr =>
        congrArg (build destination gateway oif priority · none none none none none none)
          (addrOr_octets (isPrefsrc addr isAddr) none)
  have withTable := foldl_then withPrefsrc <|
    foldl_field (fun table => (15, order.toBytes 4 table.toNat))
      (build destination gateway oif priority prefsrc · none none none none none) (fun value =>
        congrArg (build destination gateway oif priority prefsrc · none none none none none)
          (u32Or_toBytes order value none)) table
  have withSource := foldl_then withTable <|
    foldl_field_mem (fun src => (2, octets src))
      (build destination gateway oif priority prefsrc table · none none none none)
      fun addr isAddr =>
        congrArg (build destination gateway oif priority prefsrc table · none none none none)
          (addrOr_octets (isSource addr isAddr) none)
  have withIif := foldl_then withSource <|
    foldl_field (fun iif => (3, order.toBytes 4 iif.toNat))
      (build destination gateway oif priority prefsrc table source · none none none) (fun value =>
        congrArg (build destination gateway oif priority prefsrc table source · none none none)
          (u32Or_toBytes order value none)) iif
  have withPref := foldl_then withIif <|
    foldl_field (fun pref => (20, [pref]))
      (build destination gateway oif priority prefsrc table source iif · none none)
      (fun _ => rfl) pref
  have withExpires := foldl_then withPref <|
    foldl_field (fun expires => (23, order.toBytes 4 expires.toNat))
      (build destination gateway oif priority prefsrc table source iif pref · none) (fun value =>
        congrArg (build destination gateway oif priority prefsrc table source iif pref · none)
          (u32Or_toBytes order value none)) expires
  refine foldl_then withExpires ?_
  cases multipath with
  | none => rfl
  | some nexthops =>
      obtain ⟨atLeastOne, ofFamily⟩ := isMultipath nexthops rfl
      rw [Option.toList_some, map_singleton, foldl_cons, foldl_nil, flatMap_bytes,
        addAttr_multipath order (fun none => atLeastOne (map_eq_nil_iff.mp none))
          (forall_mem_map.mpr ofFamily), map_map]
      rfl

/-- The attributes that are written have types without flags. -/
theorem plain_attrs (msg : RouteMessage) :
    ∀ attr ∈ msg.attrs order, attr.1 < NLA_F_NET_BYTEORDER := by
  intro attr member
  simp only [RouteMessage.attrs, mem_append, mem_map, Option.mem_toList] at member
  rcases member with (((((((((⟨_, _, rfl⟩ | ⟨_, _, rfl⟩) | ⟨_, _, rfl⟩) | ⟨_, _, rfl⟩) |
    ⟨_, _, rfl⟩) | ⟨_, _, rfl⟩) | ⟨_, _, rfl⟩) | ⟨_, _, rfl⟩) | ⟨_, _, rfl⟩) | ⟨_, _, rfl⟩) |
    ⟨_, _, rfl⟩
  all_goals simp [NLA_F_NET_BYTEORDER, attrIds.RTA_MULTIPATH]

/-- A message with attributes behind its header is parsed whole. -/
theorem parse_encodeAll (header : RtMsg) {attrs : List Attribute}
    (fit : ∀ attr ∈ attrs, attr.Fits) :
    RouteMessage.parse order (header.asBytes order ++ encodeAll order attrs) =
      .ok ((attrs.map Attribute.masked).foldl (RouteMessage.addAttr order) (.ofHeader header),
        []) := by
  have enough : attrs.length ≤ (header.asBytes order ++ encodeAll order attrs).length := by
    rw [length_append]
    exact Nat.le_add_left_of_le (RouteEvents.length_le_length_encodeAll order attrs)
  rw [RouteMessage.parse, RtMsg.fromBytes_asBytes, drop_left' (RtMsg.asBytes_length order _),
    RouteEvents.attrsFrom_encodeAll order fit enough]
  rfl

theorem parse_writeTo (addressed : Addressed msg)
    (short : ∀ attr ∈ msg.attrs order, NLA_HDRLEN + attr.2.length ≤ 65535) (buf : List UInt8) :
    RouteMessage.parse order ((msg.writeTo order buf).1.drop buf.length) =
      .ok (msg.reread, []) := by
  have plain := @plain_attrs order msg
  have fit : ∀ attr ∈ msg.attrs order, attr.Fits := fun attr member =>
    ⟨Nat.lt_trans (plain attr member) (by decide), short attr member⟩
  have unmasked : (msg.attrs order).map Attribute.masked = msg.attrs order :=
    (map_congr_left fun attr member => Attribute.masked_of_lt (plain attr member)).trans (map_id _)
  rw [RouteMessage.writeTo]
  dsimp only
  rw [List.append_assoc, drop_left' rfl, flatMap_writeAttr order fit,
    parse_encodeAll msg.header fit, unmasked, foldl_attrs addressed]

theorem reread_eq_iff (msg : RouteMessage) : msg.reread = msg ↔
      ∀ nexthops ∈ msg.multipath, ∀ nh ∈ nexthops, nh.weight ≠ 0 := by
  have each (nh : ParsedNextHop) : nh.hop.parsed = nh ↔ nh.weight ≠ 0 := by
    rw [← saturatingSucc_pred_iff]
    exact ⟨congrArg ParsedNextHop.weight, fun same => by rw [Hop.parsed, ParsedNextHop.hop, same]⟩
  have all (nexthops : List ParsedNextHop) :
      nexthops.map (fun nh => nh.hop.parsed) = nexthops ↔ ∀ nh ∈ nexthops, nh.weight ≠ 0 := by
    have same := @map_inj_left _ _ nexthops (fun nh => nh.hop.parsed) id
    rw [map_id] at same
    exact same.trans (forall₂_congr fun nh _ => each nh)
  obtain ⟨header, destination, source, iif, oif, gateway, priority, prefsrc, table, pref, expires,
    multipath⟩ := msg
  cases multipath with
  | none => exact iff_of_true rfl fun _ isNone => by cases isNone
  | some nexthops =>
      constructor
      · rintro same _ ⟨⟩
        exact (all nexthops).mp (Option.some.inj (congrArg RouteMessage.multipath same))
      · intro weights
        rw [RouteMessage.reread, Option.map_some, (all nexthops).mpr (weights nexthops rfl)]

/-!
## A chain is parsed and written
-/

theorem bytes_parsed_iff (hop : Hop) :
    hop.parsed.hop.bytes order = hop.bytes order ↔ hop.hops ≠ 255 := by
  rw [← saturatingPred_succ_iff]
  constructor
  · intro same
    rw [Hop.bytes, Hop.bytes, hopBytes_eq, hopBytes_eq] at same
    have headers := append_inj_left same
      ((FixedLayout.length_write _ _).trans (FixedLayout.length_write _ _).symm)
    have read := congrArg (RtNexthop.layout order).read headers
    rw [← List.append_nil ((RtNexthop.layout order).write _), FixedLayout.read_write,
      ← List.append_nil ((RtNexthop.layout order).write _), FixedLayout.read_write] at read
    exact congrArg RtNexthop.rtnhHops read
  · intro same
    rw [Hop.bytes, ParsedNextHop.hop, Hop.parsed]
    dsimp only
    rw [same, Hop.bytes]

/-- A chain is reproduced exactly if each of its next hops is. -/
theorem chain_parsed_iff (hops : List Hop) :
    chain order (hops.map fun hop => hop.parsed.hop) = chain order hops ↔
      ∀ hop ∈ hops, hop.hops ≠ 255 := by
  induction hops with
  | nil => exact iff_of_true rfl (forall_mem_nil _)
  | cons hop rest ih =>
      have length : (hop.parsed.hop.bytes order).length = (hop.bytes order).length :=
        (length_hopBytes order _ _ _ _).trans (length_hopBytes order _ _ _ _).symm
      rw [forall_mem_cons, ← ih, ← @bytes_parsed_iff order]
      change hop.parsed.hop.bytes order ++ chain order _ = hop.bytes order ++ chain order rest ↔ _
      exact ⟨fun same => append_inj same length, fun ⟨first, later⟩ => by rw [first, later]⟩

theorem kept_addAttr (msg : RouteMessage) {attr : Attribute}
    (other : attr.1 ≠ attrIds.RTA_MULTIPATH) :
    (msg.addAttr order attr).multipath = msg.multipath := by
  rw [RouteMessage.addAttr.eq_def]
  split
  case h_8 => exact absurd rfl other
  all_goals rfl

theorem header_addAttr (msg : RouteMessage) (attr : Attribute) :
    (msg.addAttr order attr).header = msg.header := by
  rw [RouteMessage.addAttr.eq_def]
  split
  case h_8 => split <;> rfl
  all_goals rfl

/-- The chain that is parsed is the one behind which there is no other. -/
theorem multipath_foldl {msg : RouteMessage} {before after : List Attribute} {hops : List Hop}
    (atLeastOne : hops ≠ [])
    (ofFamily : ∀ hop ∈ hops, ∀ gw ∈ hop.gateway, OfFamily msg.header.rtmFamily.toBitVec gw)
    (others : ∀ attr ∈ after, attr.1 ≠ attrIds.RTA_MULTIPATH) :
    ((before ++ (attrIds.RTA_MULTIPATH, chain order hops) :: after).foldl
      (RouteMessage.addAttr order) msg).multipath = some (hops.map Hop.parsed) := by
  have header : (before.foldl (RouteMessage.addAttr order) msg).header = msg.header :=
    @foldl_invariant _ _ _ (fun state : RouteMessage => state.header = msg.header) _
      (fun state held attr _ => (header_addAttr state attr).trans held) _ rfl
  rw [foldl_append, foldl_cons, addAttr_multipath order atLeastOne (by rwa [header])]
  exact @foldl_invariant _ _ _
    (fun state : RouteMessage => state.multipath = some (hops.map Hop.parsed)) _
    (fun state held attr member => (kept_addAttr state (others attr member)).trans held) _ rfl

variable (order) in
def RouteMessage.chains (msg : RouteMessage) : List Attribute :=
  (msg.attrs order).filter fun attr => attr.1 = attrIds.RTA_MULTIPATH

theorem chains_eq (msg : RouteMessage) : msg.chains order =
      msg.multipath.toList.map fun nexthops =>
        (attrIds.RTA_MULTIPATH, chain order (nexthops.map ParsedNextHop.hop)) := by
  have other {α : Type} (value : Option α) (attr : α → Attribute)
      (plain : ∀ found, (attr found).1 ≠ attrIds.RTA_MULTIPATH) :
      (value.toList.map attr).filter (fun attr => attr.1 = attrIds.RTA_MULTIPATH) = [] := by
    cases value with
    | none => rfl
    | some found => simpa using plain found
  have own (value : Option (List ParsedNextHop)) :
      (value.toList.map fun nexthops => ((attrIds.RTA_MULTIPATH,
        nexthops.flatMap (ParsedNextHop.bytes order)) : Attribute)).filter
          (fun attr => attr.1 = attrIds.RTA_MULTIPATH) =
      value.toList.map fun nexthops =>
        (attrIds.RTA_MULTIPATH, chain order (nexthops.map ParsedNextHop.hop)) := by
    cases value with
    | none => rfl
    | some nexthops => simp [flatMap_bytes]
  simp only [RouteMessage.chains, RouteMessage.attrs, filter_append, own]
  repeat rw [other _ _ (fun _ => by simp [attrIds.RTA_MULTIPATH])]
  rfl

/-- The message is parsed whole from what is written, and its length is told. -/
def RoundTrips (order : ByteOrder) (msg : RouteMessage) (buf : List UInt8) : Prop :=
  RouteMessage.parse order ((msg.writeTo order buf).1.drop buf.length) = .ok (msg, []) ∧
    (msg.writeTo order buf).2 = ((msg.writeTo order buf).1.drop buf.length).length

/-- A route of the kernel is parsed whole, and its chain is written as it was. -/
def Reproduces (order : ByteOrder) (header : RtMsg) (before after : List Attribute)
    (chain : List UInt8) : Prop :=
  ∃ msg, RouteMessage.parse order (header.asBytes order ++
      encodeAll order (before ++ (attrIds.RTA_MULTIPATH, chain) :: after)) = .ok (msg, []) ∧
    msg.chains order = [(attrIds.RTA_MULTIPATH, chain)]

theorem roundTrips_message_iff (addressed : Addressed msg)
    (short : ∀ attr ∈ msg.attrs order, NLA_HDRLEN + attr.2.length ≤ 65535) (buf : List UInt8) :
    RoundTrips order msg buf ↔ ∀ nexthops ∈ msg.multipath, ∀ nh ∈ nexthops, nh.weight ≠ 0 := by
  rw [RoundTrips, parse_writeTo addressed short, ← reread_eq_iff]
  constructor
  · rintro ⟨same, -⟩
    exact congrArg Prod.fst (Except.ok.inj same)
  · intro same
    exact ⟨by rw [same], length_drop.symm⟩

theorem reproduces_iff {header : RtMsg} {before after : List Attribute} {hops : List Hop}
    (atLeastOne : hops ≠ [])
    (ofFamily : ∀ hop ∈ hops, ∀ gw ∈ hop.gateway, OfFamily header.rtmFamily.toBitVec gw)
    (fit : ∀ attr ∈ before ++ (attrIds.RTA_MULTIPATH, chain order hops) :: after, attr.Fits)
    (others : ∀ attr ∈ after, attr.masked.1 ≠ attrIds.RTA_MULTIPATH) :
    Reproduces order header before after (chain order hops) ↔ ∀ hop ∈ hops, hop.hops ≠ 255 := by
  have path := @multipath_foldl order (.ofHeader header) (before.map Attribute.masked)
    (after.map Attribute.masked) hops atLeastOne ofFamily (forall_mem_map.mpr others)
  have masked : (before ++ (attrIds.RTA_MULTIPATH, chain order hops) :: after).map
      Attribute.masked = before.map Attribute.masked ++
        (attrIds.RTA_MULTIPATH, chain order hops) :: after.map Attribute.masked := by
    rw [map_append, map_cons]
    rfl
  rw [Reproduces, parse_encodeAll header fit, ← @chain_parsed_iff order, masked]
  constructor
  · rintro ⟨read, isRead, isChain⟩
    cases isRead
    rw [chains_eq, path, Option.toList_some, map_singleton, map_map] at isChain
    exact congrArg Prod.snd (singleton_inj.mp isChain)
  · intro same
    refine ⟨_, rfl, ?_⟩
    rw [chains_eq, path, Option.toList_some, map_singleton, map_map]
    exact congrArg (fun bytes => [(attrIds.RTA_MULTIPATH, bytes)]) same

/-- A message survives being written and parsed exactly if it has no weight of
zero, and a chain of the kernel survives being parsed and written exactly if it has
no next hop with the largest count.  The parser of chains reads nothing out of
bounds. -/
theorem survives_iff {msg : RouteMessage} (addressed : Addressed msg)
    (short : ∀ attr ∈ msg.attrs order, NLA_HDRLEN + attr.2.length ≤ 65535) (buf : List UInt8)
    {header : RtMsg} {before after : List Attribute} {hops : List Hop}
    (atLeastOne : hops ≠ [])
    (ofFamily : ∀ hop ∈ hops, ∀ gw ∈ hop.gateway, OfFamily header.rtmFamily.toBitVec gw)
    (fit : ∀ attr ∈ before ++ (attrIds.RTA_MULTIPATH, chain order hops) :: after, attr.Fits)
    (others : ∀ attr ∈ after, attr.masked.1 ≠ attrIds.RTA_MULTIPATH) (data : List UInt8)
    (family : BitVec 8) :
    (RoundTrips order msg buf ↔ ∀ nexthops ∈ msg.multipath, ∀ nh ∈ nexthops, nh.weight ≠ 0) ∧
    (Reproduces order header before after (chain order hops) ↔ ∀ hop ∈ hops, hop.hops ≠ 255) ∧
    (parseMultipathFrom order data family 0).isSome :=
  ⟨roundTrips_message_iff addressed short buf, reproduces_iff atLeastOne ofFamily fit others,
    parseMultipathFrom_isSome order 0⟩

end Agreement

/-- A route over two next hops of one weight. -/
def ecmp (weight : BitVec 8) : RouteMessage :=
  { RouteMessage.ofHeader { RtMsg.new with rtmFamily := 2 } with
    destination := some (.v4 0x0a000000)
    multipath := some [⟨2, weight, 0, some (.v4 0xc0a80001)⟩, ⟨3, 1, 0, none⟩] }

/-- The kernel's next hops with one count. -/
def counted (hops : BitVec 8) : List Hop :=
  [⟨0, hops, 2, some (.v4 0xc0a80001)⟩, ⟨0, 0, 3, none⟩]

theorem addressed_ecmp (weight : BitVec 8) : Addressed (ecmp weight) where
  destination := by
    rintro _ ⟨⟩
    rfl
  source := by rintro _ ⟨⟩
  gateway := by rintro _ ⟨⟩
  prefsrc := by rintro _ ⟨⟩
  multipath := by
    rintro _ ⟨⟩
    refine ⟨cons_ne_nil _ _, ?_⟩
    simp only [forall_mem_cons, not_mem_nil, false_imp_iff, implies_true, and_true]
    refine ⟨?_, ?_⟩
    · rintro _ ⟨⟩
      rfl
    · rintro _ ⟨⟩

theorem ofFamily_counted (hops : BitVec 8) :
    ∀ hop ∈ counted hops, ∀ gw ∈ hop.gateway, OfFamily 2 gw := by
  simp only [counted, forall_mem_cons, not_mem_nil, false_imp_iff, implies_true, and_true]
  refine ⟨?_, ?_⟩
  · rintro _ ⟨⟩
    rfl
  · rintro _ ⟨⟩

def inet : RtMsg :=
  { RtMsg.new with rtmFamily := 2 }

theorem fits_counted (hops : BitVec 8) :
    ∀ attr ∈ [] ++ [((attrIds.RTA_MULTIPATH, chain .little (counted hops)) : Attribute)],
      Attribute.Fits attr := by
  rw [List.nil_append, forall_mem_singleton]
  refine ⟨show attrIds.RTA_MULTIPATH < 256 ^ 2 by decide, ?_⟩
  simp [chain, counted, Hop.bytes, length_hopBytes, gatewayBytes, attrBytes_length, octets,
    nlaAlign, NLA_HDRLEN]

theorem survives_ecmp : RoundTrips .little (ecmp 1) [] ∧
    Reproduces .little inet [] [] (chain .little (counted 1)) := by
  have short : ∀ attr ∈ (ecmp 1).attrs .little, NLA_HDRLEN + attr.2.length ≤ 65535 := by
    decide +kernel
  have both := @survives_iff .little (ecmp 1) (addressed_ecmp 1) short [] inet [] [] (counted 1)
    (cons_ne_nil _ _) (ofFamily_counted 1) (fits_counted 1) (forall_mem_nil _) [] 2
  exact ⟨both.1.mpr (by decide), both.2.1.mpr (by decide)⟩

theorem not_survives_ecmp : (Addressed (ecmp 0) ∧ ¬ RoundTrips .little (ecmp 0) []) ∧
    ¬ Reproduces .little inet [] [] (chain .little (counted 255)) := by
  have short : ∀ attr ∈ (ecmp 0).attrs .little, NLA_HDRLEN + attr.2.length ≤ 65535 := by
    decide +kernel
  have roundTrips := roundTrips_message_iff (addressed_ecmp 0) short []
  have reproduces := @reproduces_iff .little inet [] [] (counted 255) (cons_ne_nil _ _)
    (ofFamily_counted 255) (fits_counted 255) (forall_mem_nil _)
  rw [roundTrips, reproduces]
  exact ⟨⟨addressed_ecmp 0, by decide⟩, by decide⟩

end Nlink.Route
