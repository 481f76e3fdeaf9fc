import Nlink.NetlinkRoute

namespace Nlink.Srv6

open Foundation Netlink

/-!
# SRv6 local routes

A builder writes a route to a local SID with the action as a seg6_local
encapsulation.  A route is parsed from a dump by one pass over its attributes
and those of the encapsulation.
-/

def AF_INET6 : UInt8 := 10

def lwtunnelEncap.SEG6_LOCAL : Nat := 7

def seg6Mode.ENCAP : Nat := 1

namespace seg6LocalAction

def END : Nat := 1
def END_X : Nat := 2
def END_T : Nat := 3
def END_DX2 : Nat := 4
def END_DX6 : Nat := 5
def END_DX4 : Nat := 6
def END_DT6 : Nat := 7
def END_DT4 : Nat := 8
def END_B6 : Nat := 9
def END_B6_ENCAPS : Nat := 10
def END_BPF : Nat := 15
def END_DT46 : Nat := 16

end seg6LocalAction

namespace seg6Local

def ACTION : Nat := 1
def SRH : Nat := 2
def TABLE : Nat := 3
def NH4 : Nat := 4
def NH6 : Nat := 5
def IIF : Nat := 6
def OIF : Nat := 7
def VRFTABLE : Nat := 9

end seg6Local

/-- `Srv6Action`. -/
inductive Srv6Action where
  | endAction
  | endX (nexthop : Ipv6Addr)
  | endT (table : BitVec 32)
  | endDX2
  | endDX4 (nexthop : Option Ipv4Addr)
  | endDX6 (nexthop : Option Ipv6Addr)
  | endDT4 (table : BitVec 32)
  | endDT6 (table : BitVec 32)
  | endDT46 (table : BitVec 32)
  | endB6 (segments : List Ipv6Addr)
  | endB6Encaps (segments : List Ipv6Addr)
  | endBPF
  | unknown (actionType : BitVec 32)
  deriving DecidableEq

/-- `Srv6Action::action_type`. -/
def Srv6Action.actionType : Srv6Action → Nat
  | .endAction => seg6LocalAction.END
  | .endX _ => seg6LocalAction.END_X
  | .endT _ => seg6LocalAction.END_T
  | .endDX2 => seg6LocalAction.END_DX2
  | .endDX4 _ => seg6LocalAction.END_DX4
  | .endDX6 _ => seg6LocalAction.END_DX6
  | .endDT4 _ => seg6LocalAction.END_DT4
  | .endDT6 _ => seg6LocalAction.END_DT6
  | .endDT46 _ => seg6LocalAction.END_DT46
  | .endB6 _ => seg6LocalAction.END_B6
  | .endB6Encaps _ => seg6LocalAction.END_B6_ENCAPS
  | .endBPF => seg6LocalAction.END_BPF
  | .unknown actionType => actionType.toNat

/-- `Ipv6SrHdr`. -/
structure Ipv6SrHdr where
  nexthdr : UInt8
  hdrlen : UInt8
  srType : UInt8
  segmentsLeft : UInt8
  firstSegment : UInt8
  flags : UInt8
  tag : BitVec 16

namespace Ipv6SrHdr

def SIZE : Nat := 8

def SR_TYPE : UInt8 := 4

/-- `Ipv6SrHdr::new`, with saturating arithmetic on bytes. -/
def new (numSegments : UInt8) : Ipv6SrHdr where
  nexthdr := 0
  hdrlen := UInt8.ofNat (min (2 * numSegments.toNat) 255)
  srType := SR_TYPE
  segmentsLeft := UInt8.ofNat (numSegments.toNat - 1)
  firstSegment := UInt8.ofNat (numSegments.toNat - 1)
  flags := 0
  tag := 0

def asBytes (order : ByteOrder) (hdr : Ipv6SrHdr) : List UInt8 :=
  [hdr.nexthdr, hdr.hdrlen, hdr.srType, hdr.segmentsLeft, hdr.firstSegment,
    hdr.flags] ++ order.toBytes 2 hdr.tag.toNat

def fromBytes (order : ByteOrder) : List UInt8 → Option Ipv6SrHdr
  | nexthdr :: hdrlen :: srType :: segmentsLeft :: firstSegment :: flags ::
      t0 :: t1 :: _ =>
      some
        { nexthdr := nexthdr, hdrlen := hdrlen, srType := srType,
          segmentsLeft := segmentsLeft, firstSegment := firstSegment,
          flags := flags, tag := readU16 order [t0, t1] }
  | _ => none

end Ipv6SrHdr

/-- Whether a builder's constructors give the action. -/
def Srv6Action.isBuildable : Srv6Action → Bool
  | .endBPF | .unknown _ => false
  | _ => true

/-- `Srv6LocalBuilder`. -/
structure Srv6LocalBuilder where
  sid : Ipv6Addr
  action : Srv6Action
  buildable : action.isBuildable = true

namespace Srv6LocalBuilder

variable (order : ByteOrder)

/-- `build_srh`: the header and the segments in reverse order. -/
def buildSrh (segments : List Ipv6Addr) : List UInt8 :=
  if segments.isEmpty then
    []
  else
    (Ipv6SrHdr.new (UInt8.ofNat segments.length)).asBytes order ++
      segments.reverse.flatMap Ipv6Addr.octets

/-- The attributes that an action writes besides its type. -/
def writeAction (action : Srv6Action) (msg : MessageBuilder) :
    MessageBuilder :=
  match action with
  | .endX nexthop => msg.appendAttr order seg6Local.NH6 nexthop.octets
  | .endT table => msg.appendAttrU32 order seg6Local.TABLE table.toNat
  | .endDX4 nexthop =>
      match nexthop with
      | some nh => msg.appendAttr order seg6Local.NH4 nh.octets
      | none => msg
  | .endDX6 nexthop =>
      match nexthop with
      | some nh => msg.appendAttr order seg6Local.NH6 nh.octets
      | none => msg
  | .endDT4 table | .endDT6 table | .endDT46 table =>
      msg.appendAttrU32 order seg6Local.TABLE table.toNat
  | .endB6 segments | .endB6Encaps segments =>
      if segments.isEmpty then
        msg
      else
        msg.appendAttr order seg6Local.SRH
          (order.toBytes 4 seg6Mode.ENCAP ++ buildSrh order segments)
  | .endAction | .endDX2 | .endBPF | .unknown _ => msg

/-- The route header that is written. -/
def rtmsg : RtMsg :=
  { RtMsg.new with rtmFamily := AF_INET6, rtmDstLen := 128, rtmType := 1 }

/-- `write_to`. -/
def writeTo (builder : Srv6LocalBuilder) (msg : MessageBuilder)
    (ifindex : Option (BitVec 32)) : MessageBuilder :=
  let msg := msg.appendBytes (rtmsg.asBytes order)
  let msg := msg.appendAttr order RtaAttr.DST builder.sid.octets
  let msg :=
    match ifindex with
    | some idx => msg.appendAttrU32 order RtaAttr.OIF idx.toNat
    | none => msg
  let msg := msg.appendAttrU16 order RtaAttr.ENCAP_TYPE lwtunnelEncap.SEG6_LOCAL
  msg.nest order RtaAttr.ENCAP fun msg =>
    writeAction order builder.action
      (msg.appendAttrU32 order seg6Local.ACTION builder.action.actionType)

end Srv6LocalBuilder

/-- `Srv6LocalRoute`. -/
structure Srv6LocalRoute where
  sid : Ipv6Addr
  prefixLen : UInt8
  action : Srv6Action
  oif : Option (BitVec 32)
  iif : Option (BitVec 32)
  protocol : UInt8
  deriving DecidableEq

/-- What `parse` has found so far. -/
structure Parsing where
  sid : Ipv6Addr
  actionType : BitVec 32
  table : Option (BitVec 32)
  nh4 : Option Ipv4Addr
  nh6 : Option Ipv6Addr
  oif : Option (BitVec 32)
  iif : Option (BitVec 32)
  srhSegments : List Ipv6Addr

namespace Srv6LocalRoute

variable (order : ByteOrder)

/-- The segments behind a header, as far as they are whole. -/
def wholeSegments (segData : List UInt8) (numSegs : Nat) : List Ipv6Addr :=
  (List.range numSegs).filterMap fun i =>
    if i * 16 + 16 ≤ segData.length then
      some (Ipv6Addr.fromOctets ((segData.drop (i * 16)).take 16))
    else
      none

def parseLocal (found : Parsing) (attr : Attribute) : Parsing :=
  if attr.1 = seg6Local.ACTION ∧ 4 ≤ attr.2.length then
    { found with actionType := readU32 order attr.2 }
  else if attr.1 = seg6Local.TABLE ∧ 4 ≤ attr.2.length then
    { found with table := some (readU32 order attr.2) }
  else if attr.1 = seg6Local.NH4 ∧ 4 ≤ attr.2.length then
    { found with nh4 := some (Ipv4Addr.fromOctets (attr.2.take 4)) }
  else if attr.1 = seg6Local.NH6 ∧ 16 ≤ attr.2.length then
    { found with nh6 := some (Ipv6Addr.fromOctets (attr.2.take 16)) }
  else if attr.1 = seg6Local.SRH ∧ 12 ≤ attr.2.length then
    let srhData := attr.2.drop 4
    match Ipv6SrHdr.fromBytes order srhData with
    | some hdr =>
        { found with
          srhSegments :=
            (found.srhSegments ++ wholeSegments (srhData.drop Ipv6SrHdr.SIZE)
                (hdr.firstSegment.toNat + 1)).reverse }
    | none => found
  else if attr.1 = seg6Local.OIF ∧ 4 ≤ attr.2.length then
    { found with oif := some (readU32 order attr.2) }
  else if attr.1 = seg6Local.IIF ∧ 4 ≤ attr.2.length then
    { found with iif := some (readU32 order attr.2) }
  else
    found

def parseAttr (found : Parsing) (attr : Attribute) : Parsing :=
  if attr.1 = RtaAttr.DST ∧ 16 ≤ attr.2.length then
    { found with sid := Ipv6Addr.fromOctets (attr.2.take 16) }
  else if attr.1 = RtaAttr.OIF ∧ 4 ≤ attr.2.length then
    { found with oif := some (readU32 order attr.2) }
  else if attr.1 = RtaAttr.IIF ∧ 4 ≤ attr.2.length then
    { found with iif := some (readU32 order attr.2) }
  else if attr.1 = RtaAttr.ENCAP then
    (attrIter order attr.2).foldl (parseLocal order) found
  else
    found

def actionOf (found : Parsing) : Srv6Action :=
  let table := found.table.getD 0
  if found.actionType.toNat = seg6LocalAction.END then
    .endAction
  else if found.actionType.toNat = seg6LocalAction.END_X then
    .endX (found.nh6.getD 0)
  else if found.actionType.toNat = seg6LocalAction.END_T then
    .endT table
  else if found.actionType.toNat = seg6LocalAction.END_DX2 then
    .endDX2
  else if found.actionType.toNat = seg6LocalAction.END_DX4 then
    .endDX4 found.nh4
  else if found.actionType.toNat = seg6LocalAction.END_DX6 then
    .endDX6 found.nh6
  else if found.actionType.toNat = seg6LocalAction.END_DT4 then
    .endDT4 table
  else if found.actionType.toNat = seg6LocalAction.END_DT6 then
    .endDT6 table
  else if found.actionType.toNat = seg6LocalAction.END_DT46 then
    .endDT46 table
  else if found.actionType.toNat = seg6LocalAction.END_B6 then
    .endB6 found.srhSegments
  else if found.actionType.toNat = seg6LocalAction.END_B6_ENCAPS then
    .endB6Encaps found.srhSegments
  else if found.actionType.toNat = seg6LocalAction.END_BPF then
    .endBPF
  else
    .unknown found.actionType

/-- Nothing is found yet. -/
def start : Parsing where
  sid := 0
  actionType := 0
  table := none
  nh4 := none
  nh6 := none
  oif := none
  iif := none
  srhSegments := []

/-- `parse`. -/
def parse (data : List UInt8) : Except Error Srv6LocalRoute :=
  match RtMsg.fromBytes order data with
  | .error error => .error error
  | .ok rtmsg =>
      let found := (attrIter order (data.drop RtMsg.SIZE)).foldl (parseAttr order) start
      .ok
        { sid := found.sid
          prefixLen := rtmsg.rtmDstLen
          action := actionOf found
          oif := found.oif
          iif := found.iif
          protocol := rtmsg.rtmProtocol }

end Srv6LocalRoute

/-!
## SRv6 local routes in the kernel

The kernel takes an action only with the attribute that the action needs, and a
dump has that attribute again.  A segment routing header is the plain header
and its segments in reverse order.
-/

/-- A segment routing header that the kernel accepts, with its segments in the
order in which they are visited. -/
structure Srh where
  nexthdr : UInt8
  segmentsLeft : UInt8
  firstSegment : UInt8
  flags : UInt8
  tag : BitVec 16
  segments : List Ipv6Addr
  nonEmpty : 1 ≤ segments.length
  lengthFits : 2 * segments.length ≤ 255
  leftInside : segmentsLeft.toNat ≤ segments.length - 1
  firstInside : firstSegment.toNat ≤ segments.length - 1

namespace Srh

variable (order : ByteOrder)

def header (srh : Srh) : Ipv6SrHdr where
  nexthdr := srh.nexthdr
  hdrlen := UInt8.ofNat (2 * srh.segments.length)
  srType := Ipv6SrHdr.SR_TYPE
  segmentsLeft := srh.segmentsLeft
  firstSegment := srh.firstSegment
  flags := srh.flags
  tag := srh.tag

def bytes (srh : Srh) : List UInt8 :=
  srh.header.asBytes order ++ srh.segments.reverse.flatMap Ipv6Addr.octets

/-- The segments in a header's payload. -/
def segmentsOf (payload : List UInt8) (count : Nat) : List Ipv6Addr :=
  (List.range count).map fun i =>
    Ipv6Addr.fromOctets ((payload.drop (Ipv6SrHdr.SIZE + i * 16)).take 16)

/-- Check and read a header. -/
def decode (payload : List UInt8) : Option Srh :=
  match Ipv6SrHdr.fromBytes order payload with
  | none => none
  | some hdr =>
      let count := hdr.hdrlen.toNat / 2
      if valid : hdr.srType = Ipv6SrHdr.SR_TYPE ∧ hdr.hdrlen.toNat = 2 * count ∧ 1 ≤ count ∧
            payload.length = (hdr.hdrlen.toNat + 1) * 8 ∧
            hdr.segmentsLeft.toNat ≤ count - 1 ∧
            hdr.firstSegment.toNat ≤ count - 1 then
        some
          { nexthdr := hdr.nexthdr
            segmentsLeft := hdr.segmentsLeft
            firstSegment := hdr.firstSegment
            flags := hdr.flags
            tag := hdr.tag
            segments := (segmentsOf payload count).reverse
            nonEmpty := by simpa [segmentsOf] using valid.2.2.1
            lengthFits := by
              have bound := hdr.hdrlen.toNat_lt
              have isEven := valid.2.1
              simp only [segmentsOf, List.length_reverse, List.length_map, List.length_range]
              omega
            leftInside := by simpa [segmentsOf] using valid.2.2.2.2.1
            firstInside := by simpa [segmentsOf] using valid.2.2.2.2.2 }
      else
        none

end Srh

/-- The actions as the kernel holds them, each with its attribute. -/
inductive KernelAction where
  | endAction
  | endX (nh6 : Ipv6Addr)
  | endT (table : BitVec 32)
  | endDX2 (oif : BitVec 32)
  | endDX6 (nh6 : Ipv6Addr)
  | endDX4 (nh4 : Ipv4Addr)
  | endDT6 (table : BitVec 32)
  | endDT6Vrf (vrftable : BitVec 32)
  | endDT4 (vrftable : BitVec 32)
  | endDT46 (vrftable : BitVec 32)
  | endB6 (srh : Srh)
  | endB6Encaps (srh : Srh)

namespace KernelAction

def action : KernelAction → Srv6Action
  | .endAction => .endAction
  | .endX nh6 => .endX nh6
  | .endT table => .endT table
  | .endDX2 _ => .endDX2
  | .endDX6 nh6 => .endDX6 (some nh6)
  | .endDX4 nh4 => .endDX4 (some nh4)
  | .endDT6 table => .endDT6 table
  | .endDT6Vrf vrftable => .endDT6 vrftable
  | .endDT4 vrftable => .endDT4 vrftable
  | .endDT46 vrftable => .endDT46 vrftable
  | .endB6 srh => .endB6 srh.segments
  | .endB6Encaps srh => .endB6Encaps srh.segments

variable (order : ByteOrder)

/-- An attribute that holds a number. -/
def u32Attr (attrType : Nat) (value : BitVec 32) : Attribute :=
  (attrType, order.toBytes 4 value.toNat)

/-- The attribute that the action needs. -/
def own : KernelAction → List Attribute
  | .endAction => []
  | .endX nh6 => [(seg6Local.NH6, nh6.octets)]
  | .endT table => [u32Attr order seg6Local.TABLE table]
  | .endDX2 oif => [u32Attr order seg6Local.OIF oif]
  | .endDX6 nh6 => [(seg6Local.NH6, nh6.octets)]
  | .endDX4 nh4 => [(seg6Local.NH4, nh4.octets)]
  | .endDT6 table => [u32Attr order seg6Local.TABLE table]
  | .endDT6Vrf vrftable => [u32Attr order seg6Local.VRFTABLE vrftable]
  | .endDT4 vrftable => [u32Attr order seg6Local.VRFTABLE vrftable]
  | .endDT46 vrftable => [u32Attr order seg6Local.VRFTABLE vrftable]
  | .endB6 srh => [(seg6Local.SRH, srh.bytes order)]
  | .endB6Encaps srh => [(seg6Local.SRH, srh.bytes order)]

/-- The attributes of the encapsulation in a dump. -/
def echoed (action : KernelAction) : List Attribute :=
  u32Attr order seg6Local.ACTION (BitVec.ofNat 32 action.action.actionType) :: action.own order

/-- A number in an attribute, if the attribute is there. -/
def u32Of (attrs : List Attribute) (attrType : Nat) : Option (BitVec 32) :=
  match lastOf attrs attrType with
  | some payload => if 4 ≤ payload.length then some (readU32 order payload) else none
  | none => none

/-- An IPv6 address in an attribute. -/
def ipv6Of (attrs : List Attribute) (attrType : Nat) : Option Ipv6Addr :=
  match lastOf attrs attrType with
  | some payload => if payload.length = 16 then some (Ipv6Addr.fromOctets payload) else none
  | none => none

/-- An IPv4 address in an attribute. -/
def ipv4Of (attrs : List Attribute) (attrType : Nat) : Option Ipv4Addr :=
  match lastOf attrs attrType with
  | some payload => if payload.length = 4 then some (Ipv4Addr.fromOctets payload) else none
  | none => none

/-- A segment routing header in an attribute. -/
def srhOf (attrs : List Attribute) : Option Srh :=
  (lastOf attrs seg6Local.SRH).bind (Srh.decode order)

variable {attrs : List Attribute} {attrType : Nat}

theorem u32Of_of_lastOf {value : BitVec 32}
    (found : lastOf attrs attrType = some (order.toBytes 4 value.toNat)) :
    u32Of order attrs attrType = some value := by
  have long : 4 ≤ (order.toBytes 4 value.toNat).length := by rw [ByteOrder.toBytes_length]
  rw [u32Of, found]
  refine (if_pos long).trans ?_
  rw [readU32_toBytes]

theorem ipv6Of_of_lastOf {addr : Ipv6Addr} (found : lastOf attrs attrType = some addr.octets) :
    ipv6Of attrs attrType = some addr := by
  rw [ipv6Of, found]
  refine (if_pos (Ipv6Addr.octets_length addr)).trans ?_
  rw [Ipv6Addr.fromOctets_octets]

theorem ipv4Of_of_lastOf {addr : Ipv4Addr} (found : lastOf attrs attrType = some addr.octets) :
    ipv4Of attrs attrType = some addr := by
  rw [ipv4Of, found]
  refine (if_pos (Ipv4Addr.octets_length addr)).trans ?_
  rw [Ipv4Addr.fromOctets_octets]

/-- The action that the attributes of an encapsulation ask for. -/
def decode (attrs : List Attribute) : Option KernelAction := do
  let actionType ← u32Of order attrs seg6Local.ACTION
  if actionType.toNat = seg6LocalAction.END then
    some .endAction
  else if actionType.toNat = seg6LocalAction.END_X then
    (ipv6Of attrs seg6Local.NH6).map .endX
  else if actionType.toNat = seg6LocalAction.END_T then
    (u32Of order attrs seg6Local.TABLE).map .endT
  else if actionType.toNat = seg6LocalAction.END_DX2 then
    (u32Of order attrs seg6Local.OIF).map .endDX2
  else if actionType.toNat = seg6LocalAction.END_DX6 then
    (ipv6Of attrs seg6Local.NH6).map .endDX6
  else if actionType.toNat = seg6LocalAction.END_DX4 then
    (ipv4Of attrs seg6Local.NH4).map .endDX4
  else if actionType.toNat = seg6LocalAction.END_DT6 then
    match u32Of order attrs seg6Local.TABLE,
        u32Of order attrs seg6Local.VRFTABLE with
    | some table, none => some (.endDT6 table)
    | none, some vrftable => some (.endDT6Vrf vrftable)
    | _, _ => none
  else if actionType.toNat = seg6LocalAction.END_DT4 then
    (u32Of order attrs seg6Local.VRFTABLE).map .endDT4
  else if actionType.toNat = seg6LocalAction.END_DT46 then
    (u32Of order attrs seg6Local.VRFTABLE).map .endDT46
  else if actionType.toNat = seg6LocalAction.END_B6 then
    (srhOf order attrs).map .endB6
  else if actionType.toNat = seg6LocalAction.END_B6_ENCAPS then
    (srhOf order attrs).map .endB6Encaps
  else
    none

end KernelAction

/-- A local route as the kernel holds it. -/
structure KernelRoute where
  sid : Ipv6Addr
  oif : Option (BitVec 32)
  action : KernelAction

namespace KernelRoute

variable (order : ByteOrder)

/-- The route that a request's body asks for. -/
def decode (body : List UInt8) : Option KernelRoute :=
  match RtMsg.fromBytes order body with
  | .error _ => none
  | .ok rtmsg => do
      let attrs := attrIter order (body.drop RtMsg.SIZE)
      let sid ← KernelAction.ipv6Of attrs RtaAttr.DST
      let encapType ← lastOf attrs RtaAttr.ENCAP_TYPE
      let encap ← lastOf attrs RtaAttr.ENCAP
      let action ← KernelAction.decode order (attrIter order encap)
      if rtmsg.rtmFamily = AF_INET6 ∧ rtmsg.rtmDstLen = 128 ∧
          encapType.take 2 = order.toBytes 2 lwtunnelEncap.SEG6_LOCAL then
        some
          { sid := sid
            oif := KernelAction.u32Of order attrs RtaAttr.OIF
            action := action }
      else
        none

/-- The output interface in a dump. -/
def oifAttrs (route : KernelRoute) : List Attribute :=
  match route.oif with
  | some oif => [KernelAction.u32Attr order RtaAttr.OIF oif]
  | none => []

/-- The body of a dump's message for a route: a header, and attributes of which
those that concern the local SID stand in the kernel's order. -/
structure Echoes (route : KernelRoute) (body : List UInt8) : Prop where
  shape : ∃ (rtmsg : RtMsg) (attrs : List Attribute),
    body = rtmsg.asBytes order ++ encodeAll order attrs ∧
      (∀ attr ∈ attrs, attr.1 < NLA_F_NET_BYTEORDER ∧ attr.Fits) ∧
      attrs.filter (fun attr => attr.1 ∈ [RtaAttr.DST, RtaAttr.IIF, RtaAttr.OIF, RtaAttr.ENCAP]) =
        [(RtaAttr.DST, route.sid.octets)] ++ route.oifAttrs order ++
          [(RtaAttr.ENCAP, encodeAll order (route.action.echoed order))]

/-- The route is what the builder asks for on an output interface. -/
structure Realizes (route : KernelRoute) (builder : Srv6LocalBuilder)
    (ifindex : Option (BitVec 32)) : Prop where
  sameSid : route.sid = builder.sid
  sameOif : route.oif = ifindex
  sameAction : route.action.action = builder.action
  sameOutput : ∀ oif, route.action = .endDX2 oif → ifindex = some oif

end KernelRoute

end Nlink.Srv6
